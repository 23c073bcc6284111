import VynkorSdk.JsonKeys
import VynkorSdk.JsonText

/-!
# The scan of `json_find_string` on JSON tokens

A string of a JSON text is decoded up to its closing quote (`readString_body`);
only the halves of a surrogate pair come out otherwise than JSON has it.  The
scan goes over a text token by token: no key begins inside a token, since a
quote inside a string has a backslash in front, and no token begins as the key
goes on behind its quote.  What it finds is what `findKey` finds in the tokens
(`scanKey_textOf`).
-/

namespace Vynkor

open ByteCodec JsonText

/-! ### Decoding -/

/-- A continuation byte. -/
theorem tailByte_eq (x : UInt32) :
    ((x &&& 0x3F) ||| 0x80).toUInt8 = UInt8.ofNat (x.toNat % 64 + 0x80) := by
  have hor : x.toNat % 64 ||| 2 ^ 6 * 2 = x.toNat % 64 + 2 ^ 6 * 2 := by
    rw [Nat.or_comm, ← Nat.two_pow_add_eq_or_of_lt (Nat.mod_lt _ (by decide)), Nat.add_comm]
  have hnat : ((x &&& 0x3F) ||| 0x80).toNat = x.toNat % 64 + 0x80 := by
    rw [UInt32.toNat_or, UInt32.toNat_and]
    exact (congrArg (· ||| 2 ^ 6 * 2) (Nat.and_two_pow_sub_one_eq_mod x.toNat 6)).trans hor
  rw [← hnat]
  exact (UInt8.ofNat_uInt32ToNat _).symm

/-- A leading byte, with its marker bits above those of `x`. -/
theorem leadByte_eq {x : UInt32} {i a : Nat} (hx : x.toNat < 2 ^ i) (ha : 2 ^ i * a < 2 ^ 32) :
    (x ||| UInt32.ofNat (2 ^ i * a)).toUInt8 = UInt8.ofNat (x.toNat + 2 ^ i * a) := by
  have hnat : (x ||| UInt32.ofNat (2 ^ i * a)).toNat = x.toNat + 2 ^ i * a := by
    rw [UInt32.toNat_or, UInt32.toNat_ofNat', Nat.mod_eq_of_lt ha, Nat.or_comm,
      ← Nat.two_pow_add_eq_or_of_lt hx, Nat.add_comm]
  rw [← hnat]
  exact (UInt8.ofNat_uInt32ToNat _).symm

/-- A code unit that is no surrogate is written as its character. -/
theorem encodeCodeUnit_eq {n : Nat} (hn : n < 0x10000) (hsurrogate : ¬ IsSurrogate n) :
    encodeCodeUnit (UInt32.ofNat n) = String.utf8EncodeChar (Char.ofNat n) := by
  have hvalid : n.isValidChar := by
    unfold IsSurrogate at hsurrogate
    unfold Nat.isValidChar
    omega
  have hchar : (Char.ofNat n).val.toNat = n := by
    rw [Char.ofNat, dif_pos hvalid]
    rfl
  have hnat : (UInt32.ofNat n).toNat = n := by
    rw [UInt32.toNat_ofNat', Nat.mod_eq_of_lt (by omega)]
  have hsix : (UInt32.ofNat n >>> 6).toNat = n / 64 := by
    rw [UInt32.toNat_shiftRight, hnat]
    exact Nat.shiftRight_eq_div_pow n 6
  have htwelve : (UInt32.ofNat n >>> 12).toNat = n / 4096 := by
    rw [UInt32.toNat_shiftRight, hnat]
    exact Nat.shiftRight_eq_div_pow n 12
  have hone : UInt32.ofNat n < 0x80 ↔ n < 0x80 := by
    rw [UInt32.lt_iff_toNat_lt, hnat]
    rfl
  have htwo : UInt32.ofNat n < 0x800 ↔ n < 0x800 := by
    rw [UInt32.lt_iff_toNat_lt, hnat]
    rfl
  unfold encodeCodeUnit String.utf8EncodeChar
  rw [hchar]
  dsimp only
  by_cases hsmall : n < 0x80
  · rw [if_pos (hone.mpr hsmall), if_pos (show n ≤ 0x7F by omega)]
    simp
  · rw [if_neg (mt hone.mp hsmall), if_neg (show ¬ n ≤ 0x7F by omega)]
    have hlast := tailByte_eq (UInt32.ofNat n)
    rw [hnat] at hlast
    by_cases hmiddle : n < 0x800
    · have hlead := leadByte_eq (x := UInt32.ofNat n >>> 6) (i := 5) (a := 6) (by omega) (by decide)
      rw [hsix] at hlead
      rw [if_pos (htwo.mpr hmiddle), if_pos (show n ≤ 0x7FF by omega), hlast,
        Nat.mod_eq_of_lt (a := n / 64) (by omega)]
      exact congrArg (· :: _) hlead
    · have hlead := leadByte_eq (x := UInt32.ofNat n >>> 12) (i := 4) (a := 14) (by omega)
        (by decide)
      have hmid := tailByte_eq (UInt32.ofNat n >>> 6)
      rw [htwelve] at hlead
      rw [hsix] at hmid
      rw [if_neg (mt htwo.mp hmiddle), if_neg (show ¬ n ≤ 0x7FF by omega),
        if_pos (show n ≤ 0xFFFF by omega), hlast, hmid, Nat.mod_eq_of_lt (a := n / 4096) (by omega)]
      exact congrArg (· :: _) hlead

/-- The scanner reads a hexadecimal digit as its value. -/
theorem hexDigit_byte (d : HexDigit) : hexDigit d.byte = some d.value.val := by
  have hall : ∀ (value : Fin 16) (upper : Bool),
      hexDigit (HexDigit.byte ⟨value, upper⟩) = some value.val := by decide
  exact hall d.value d.upper

/-- A digit is no blank, no sign and no `x`. -/
theorem hexByte_ne (d : HexDigit) : isSpace d.byte = false ∧ d.byte ≠ 0x2D ∧ d.byte ≠ 0x2B ∧
    d.byte ≠ 0x78 ∧ d.byte ≠ 0x58 ∧ d.byte ≠ 0x22 := by
  have hall : ∀ (value : Fin 16) (upper : Bool), isSpace (HexDigit.byte ⟨value, upper⟩) = false ∧
      HexDigit.byte ⟨value, upper⟩ ≠ 0x2D ∧ HexDigit.byte ⟨value, upper⟩ ≠ 0x2B ∧
      HexDigit.byte ⟨value, upper⟩ ≠ 0x78 ∧ HexDigit.byte ⟨value, upper⟩ ≠ 0x58 ∧
      HexDigit.byte ⟨value, upper⟩ ≠ 0x22 := by decide
  exact hall d.value d.upper

/-- `std::stoul` on four hexadecimal digits. -/
theorem stoulHex_code (u : CodeUnit) :
    stoulHex [u.first.byte, u.second.byte, u.third.byte, u.fourth.byte] =
      .ok (UInt64.ofNat u.value) := by
  obtain ⟨hspace, hminus, hplus, -⟩ := hexByte_ne u.first
  obtain ⟨-, -, -, hx, hX, -⟩ := hexByte_ne u.second
  have hdrop : [u.first.byte, u.second.byte, u.third.byte, u.fourth.byte].dropWhile isSpace =
      [u.first.byte, u.second.byte, u.third.byte, u.fourth.byte] := by
    rw [List.dropWhile_cons, hspace]
    rfl
  have hsign : splitSign [u.first.byte, u.second.byte, u.third.byte, u.fourth.byte] =
      (false, [u.first.byte, u.second.byte, u.third.byte, u.fourth.byte]) := by
    unfold splitSign
    split
    · rename_i heq
      exact absurd (List.cons.inj heq).1 hminus
    · rename_i heq
      exact absurd (List.cons.inj heq).1 hplus
    · rfl
  have hbegins : dropHexPrefix [u.first.byte, u.second.byte, u.third.byte, u.fourth.byte] =
      [u.first.byte, u.second.byte, u.third.byte, u.fourth.byte] := by
    unfold dropHexPrefix
    split
    · rename_i heq
      obtain ⟨hzero, heq⟩ := List.cons.inj heq
      obtain ⟨rfl, heq⟩ := List.cons.inj heq
      simp [hx, hX, hzero, heq]
    · rfl
  have hdigits : ([u.first.byte, u.second.byte, u.third.byte, u.fourth.byte].takeWhile
      (fun c => (hexDigit c).isSome)).filterMap hexDigit =
        [u.first.value.val, u.second.value.val, u.third.value.val, u.fourth.value.val] := by
    simp [hexDigit_byte]
  have hvalue : [u.first.value.val, u.second.value.val, u.third.value.val,
      u.fourth.value.val].foldl (fun n d => 16 * n + d) 0 = u.value := by
    simp only [List.foldl_cons, List.foldl_nil, CodeUnit.value]
    omega
  unfold stoulHex
  rw [hdrop, hsign]
  dsimp only
  rw [hbegins, hdigits, hvalue, if_neg (List.cons_ne_nil _ _), if_neg (by simp)]

/-- What the decoder makes of one character.  It writes each half of a surrogate
pair by itself. -/
def decodedItem : Item → Bytes
  | .plain c _ => String.utf8EncodeChar c
  | .escape e => String.utf8EncodeChar e.char
  | .code u _ => encodeCodeUnit (UInt32.ofNat u.value)
  | .pair high low _ _ =>
      encodeCodeUnit (UInt32.ofNat high.value) ++ encodeCodeUnit (UInt32.ofNat low.value)

def decoded (s : JString) : Bytes := s.flatMap decodedItem

/-- Plain bytes are taken over one by one. -/
theorem readString_plains (bs : Bytes) : ∀ value rest : Bytes, (∀ b ∈ bs, b ≠ 0x22 ∧ b ≠ 0x5C) →
    readString value (bs ++ rest) = readString (value ++ bs) rest := by
  induction bs with
  | nil =>
      intro value rest _
      simp
  | cons b bs ih =>
      intro value rest h
      obtain ⟨⟨hquote, hslash⟩, hbs⟩ := List.forall_mem_cons.mp h
      rw [List.cons_append, readString_plain hquote hslash, ih _ _ hbs, List.append_assoc]
      rfl

/-- The scanner reads a `\u` escape as its code unit. -/
theorem readString_unit (u : CodeUnit) (value rest : Bytes) :
    readString value (u.bytes ++ rest) =
      readString (value ++ encodeCodeUnit (UInt32.ofNat u.value)) rest := by
  have hcode := readString_code u.first.byte u.second.byte u.third.byte u.fourth.byte value rest
  rw [stoulHex_code] at hcode
  simpa [CodeUnit.bytes, Except.bind] using hcode

/-- The scanner reads an item as what it decodes to. -/
theorem readString_item (i : Item) (value rest : Bytes) :
    readString value (i.bytes ++ rest) = readString (value ++ decodedItem i) rest := by
  cases i with
  | plain c h => exact readString_plains _ _ _ (fun b hb => h.bytes_ne hb)
  | escape e => cases e <;> exact readString_simple rfl value rest
  | code u h => exact readString_unit u value rest
  | pair high low hhigh hlow =>
      show readString value (high.bytes ++ low.bytes ++ rest) = _
      rw [List.append_assoc, readString_unit, readString_unit, List.append_assoc]
      rfl

/-- A string of the text is decoded up to its closing quote. -/
theorem readString_body (s : JString) : ∀ value rest,
    readString value (body s ++ 0x22 :: rest) = .ok (some (value ++ decoded s)) := by
  induction s with
  | nil =>
      intro value rest
      simp [body, decoded, readString_quote]
  | cons i s ih =>
      intro value rest
      have hbody : body (i :: s) = i.bytes ++ body s := rfl
      have hdecoded : decoded (i :: s) = decodedItem i ++ decoded s := rfl
      rw [hbody, List.append_assoc, readString_item, ih, hdecoded, List.append_assoc]

def isPair : Item → Bool
  | .pair _ _ _ _ => true
  | _ => false

/-- The string has no surrogate pair. -/
def NoPairs (s : JString) : Prop := ∀ i ∈ s, isPair i = false

/-- Without surrogate pairs the scanner decodes a string as JSON does. -/
theorem decoded_eq_utf8 {s : JString} (h : NoPairs s) : decoded s = utf8 (chars s) := by
  induction s with
  | nil => rfl
  | cons i s ih =>
      obtain ⟨hi, hs⟩ := List.forall_mem_cons.mp h
      have hitem : decodedItem i = String.utf8EncodeChar i.char := by
        cases i with
        | plain c _ => rfl
        | escape e => rfl
        | code u hu => exact encodeCodeUnit_eq u.value_lt hu
        | pair high low hhigh hlow => cases hi
      have hdecoded : decoded (i :: s) = decodedItem i ++ decoded s := rfl
      rw [hdecoded, hitem, ih hs]
      rfl

/-! ### Between keys -/

/-- The key the gate looks for. -/
def idKey : Bytes := ascii "pending_id"

/-- A byte of a word is none of two bytes that occur in no word. -/
theorem neither_of_word {b c d : UInt8} (hc : c ∉ wordBytes) (hd : d ∉ wordBytes)
    (hb : b ∈ wordBytes) : (b == c || b == d) = false := by
  simp [ne_of_mem_of_not_mem hb hc, ne_of_mem_of_not_mem hb hd]

/-- The key is found only between quotes. -/
theorem separate_idKey : Separate (quoted idKey) := separate_pendingId

/-- Where no quote stands, no key stands. -/
theorem not_keyAt_of_ne {key : Bytes} {before : Option UInt8} {c : UInt8} (hc : c ≠ 0x22)
    (rest text : Bytes) : ¬ KeyAt (quoted key) before (c :: rest) [] text := by
  intro hkey
  obtain ⟨late, hjson, _⟩ := hkey
  exact hc (List.cons.inj hjson).1

/-- Behind a byte that starts no member no key stands. -/
theorem not_keyAt_of_start {key : Bytes} {before : Option UInt8} (h : keyStartOk before = false)
    (json text : Bytes) : ¬ KeyAt (quoted key) before json [] text := by
  intro hkey
  obtain ⟨_, hstart, _⟩ := keyAt_nil_iff.mp hkey
  rw [h] at hstart
  cases hstart

/-- Whatever stands in front, no key begins in the first `n` bytes. -/
def Passed (key : Bytes) (n : Nat) (json : Bytes) : Prop :=
  ∀ before, Skipped (quoted key) before n json

section
variable {key : Bytes} {n : Nat} {rest : Bytes}

/-- Bytes without quotes may be passed. -/
theorem passed_plains (h : Passed key n rest) (bs : Bytes) (hbs : ∀ b ∈ bs, b ≠ 0x22) :
    Passed key (bs.length + n) (bs ++ rest) := by
  induction bs with
  | nil => simpa using h
  | cons b bs ih =>
      obtain ⟨hb, hbs⟩ := List.forall_mem_cons.mp hbs
      intro before
      rw [List.length_cons, Nat.add_right_comm]
      exact skipped_cons (not_keyAt_of_ne hb _) (ih hbs (some b))

/-- No quote in a `\u` escape. -/
theorem unit_bytes_ne (u : CodeUnit) : ∀ b ∈ u.bytes, b ≠ 0x22 := by
  have hdigit : ∀ d : HexDigit, d.byte ≠ 0x22 := fun d => (hexByte_ne d).2.2.2.2.2
  simp [CodeUnit.bytes, hdigit]

/-- Only an escaped quote is a quote, and what stands in front of it is no start
of a key. -/
theorem passed_item (h : Passed key n rest) (i : Item) :
    Passed key (i.bytes.length + n) (i.bytes ++ rest) := by
  cases i with
  | plain c hc => exact passed_plains h _ (fun b hb => (hc.bytes_ne hb).1)
  | escape e =>
      intro before
      have hlength : (Item.escape e).bytes.length + n = n + 1 + 1 := Nat.add_comm 2 n
      rw [hlength]
      exact skipped_cons (not_keyAt_of_ne (by decide) _)
        (skipped_cons (not_keyAt_of_start rfl _) (h _))
  | code u hu => exact passed_plains h _ (unit_bytes_ne u)
  | pair high low hhigh hlow =>
      refine passed_plains h _ ?_
      intro b hb
      rcases List.mem_append.mp hb with hb | hb
      · exact unit_bytes_ne high b hb
      · exact unit_bytes_ne low b hb

/-- The inside of a string may be passed. -/
theorem passed_body (h : Passed key n rest) (s : JString) :
    Passed key ((body s).length + n) (body s ++ rest) := by
  induction s with
  | nil => simpa [body] using h
  | cons i s ih =>
      have hbody : body (i :: s) = i.bytes ++ body s := rfl
      rw [hbody, List.append_assoc, List.length_append, Nat.add_assoc]
      exact passed_item ih i

end

/-! ### Tokens -/

/-- The token opens a place where a key may stand. -/
def opens : Token → Bool
  | .mark .openBrace => true
  | .mark .comma => true
  | _ => false

def isKey : Token → Bool
  | .string s => body s == idKey
  | _ => false

/-- Blanks and tabs: the whitespace the gate knows. -/
def isBlank : Space → Bool
  | .blank => true
  | .tab => true
  | _ => false

def isBlankToken : Token → Bool
  | .space s => isBlank s
  | _ => false

/-- How a text that begins with a byte begins. -/
theorem head_textOf {b : UInt8} : ∀ {ts : List Token}, (textOf ts).head? = some b →
    (∃ s ts', ts = .space s :: ts' ∧ b = s.byte) ∨ (∃ m ts', ts = .mark m :: ts' ∧ b = m.byte) ∨
      (∃ a ts', ts = .atom a :: ts' ∧ b ∈ wordBytes) ∨ (∃ s ts', ts = .string s :: ts' ∧ b = 0x22)
  | [], h => by cases h
  | .space s :: ts, h => Or.inl ⟨s, ts, rfl, (Option.some.inj h).symm⟩
  | .mark m :: ts, h => Or.inr (Or.inl ⟨m, ts, rfl, (Option.some.inj h).symm⟩)
  | .atom a :: ts, h => by
      refine Or.inr (Or.inr (Or.inl ⟨a, ts, rfl, a.bytes_word b ?_⟩))
      have hhead : (a.bytes ++ textOf ts).head? = some b := h
      rw [List.head?_append, List.head?_eq_some_head a.bytes_ne_nil] at hhead
      rw [← Option.some.inj hhead]
      exact List.head_mem _
  | .string s :: ts, h => Or.inr (Or.inr (Or.inr ⟨s, ts, rfl, (Option.some.inj h).symm⟩))

/-- A byte that neither a word, a blank, a mark nor a quote can be starts no tokens. -/
theorem head_ne_of_word {b : UInt8} (hword : b ∉ wordBytes) (hspace : ∀ s : Space, s.byte ≠ b)
    (hmark : ∀ m : Mark, m.byte ≠ b) (hquote : b ≠ 0x22) (ts : List Token) :
    (textOf ts).head? ≠ some b := by
  intro h
  rcases head_textOf h with ⟨s, _, _, hb⟩ | ⟨m, _, _, hb⟩ | ⟨_, _, _, hb⟩ | ⟨_, _, _, hb⟩
  · exact hspace s hb.symm
  · exact hmark m hb.symm
  · exact hword hb
  · exact hquote hb

/-- No text begins as the key does behind its quote. -/
theorem passed_quote (ts : List Token) : Passed idKey 1 (0x22 :: textOf ts) := by
  have hhead : (textOf ts).head? ≠ some 0x70 := by
    refine head_ne_of_word (by decide) ?_ ?_ (by decide) ts
    · intro s
      cases s <;> decide
    · intro m
      cases m <;> decide
  intro before early text hkey
  cases early with
  | nil =>
      obtain ⟨late, hjson, _⟩ := hkey
      have htail : textOf ts = ascii "pending_id" ++ [0x22] ++ late := (List.cons.inj hjson).2
      rw [htail] at hhead
      exact absurd rfl hhead
  | cons c early => simp

/-- Bytes that are no quotes lie inside the key, if a key covers them. -/
theorem covered_of_begins : ∀ (bs key more : Bytes), (∀ b ∈ bs, b ≠ 0x22) →
    key ++ [0x22] <+: bs ++ more → ∃ key', key = bs ++ key' ∧ key' ++ [0x22] <+: more
  | [], key, more, _, h => ⟨key, rfl, h⟩
  | b :: bs, [], more, hbs, h => by
      obtain ⟨late, hlate⟩ := h
      exact absurd (List.cons.inj hlate).1.symm (hbs b (List.mem_cons_self ..))
  | b :: bs, k :: key, more, hbs, h => by
      obtain ⟨rfl, htail⟩ := List.cons_prefix_cons.mp h
      obtain ⟨key', rfl, hmore⟩ :=
        covered_of_begins bs key more (List.forall_mem_cons.mp hbs).2 htail
      exact ⟨key', rfl, hmore⟩

/-- A string that begins as the key and a quote is spelled as the key. -/
theorem body_eq_of_begins {rest : Bytes} (s : JString) : ∀ key : Bytes,
    (∀ b ∈ key, b ≠ 0x22 ∧ b ≠ 0x5C) → key ++ [0x22] <+: body s ++ 0x22 :: rest → body s = key := by
  induction s with
  | nil =>
      intro key hkey h
      cases key with
      | nil => rfl
      | cons k key => exact absurd (List.cons_prefix_cons.mp h).1 (hkey k (List.mem_cons_self ..)).1
  | cons i s ih =>
      intro key hkey h
      -- A backslash is not in the key, so the character stands for itself.
      have hslash : ∀ more, ¬ key ++ [0x22] <+: 0x5C :: more := by
        intro more hmore
        cases key with
        | nil => exact absurd (List.cons_prefix_cons.mp hmore).1 (by decide)
        | cons k key => exact (hkey k (List.mem_cons_self ..)).2 (List.cons_prefix_cons.mp hmore).1
      cases i with
      | plain c hc =>
          have hbody : body (.plain c hc :: s) = String.utf8EncodeChar c ++ body s := rfl
          rw [hbody, List.append_assoc] at h
          obtain ⟨key', rfl, hrest⟩ := covered_of_begins _ _ _ (fun b hb => (hc.bytes_ne hb).1) h
          rw [hbody, ih key' (fun b hb => hkey b (List.mem_append_right _ hb)) hrest]
      | escape e => exact absurd h (hslash _)
      | code u hu => exact absurd h (hslash _)
      | pair high low hhigh hlow => exact absurd h (hslash _)

/-- Where a string token is the key. -/
theorem keyAt_string {before : Option UInt8} {s : JString} {rest text : Bytes} :
    KeyAt (quoted idKey) before ((Token.string s).bytes ++ rest) [] text ↔
      body s = idKey ∧ keyStartOk before = true ∧ stringBehindKey rest = some text := by
  have hbytes : (Token.string s).bytes ++ rest = 0x22 :: (body s ++ 0x22 :: rest) := by
    simp [Token.bytes]
  have hquote : (0x22 : UInt8) ∉ idKey := by decide
  have hslash : (0x5C : UInt8) ∉ idKey := by decide
  have hplain : ∀ b ∈ idKey, b ≠ 0x22 ∧ b ≠ 0x5C := fun b hb =>
    ⟨ne_of_mem_of_not_mem hb hquote, ne_of_mem_of_not_mem hb hslash⟩
  rw [hbytes, keyAt_nil_iff, List.isPrefixOf_iff_prefix]
  constructor
  · intro h
    obtain ⟨hbegins, hstart, htext⟩ := h
    have hbody := body_eq_of_begins s idKey hplain (List.cons_prefix_cons.mp hbegins).2
    refine ⟨hbody, hstart, ?_⟩
    rw [hbody] at htext
    exact htext
  · intro h
    obtain ⟨hbody, hstart, htext⟩ := h
    rw [hbody]
    refine ⟨⟨rest, ?_⟩, hstart, htext⟩
    simp [quoted]

/-- Whether a key may stand behind a token depends on the token alone. -/
theorem opens_eq (before : Option UInt8) (t : Token) :
    keyStartOk (before.toList ++ t.bytes).getLast? = opens t := by
  cases t with
  | space s => cases s <;> simp [Token.bytes, Space.byte, keyStartOk, opens]
  | mark m => cases m <;> simp [Token.bytes, Mark.byte, keyStartOk, opens]
  | atom a =>
      have hlast : (before.toList ++ a.bytes).getLast? = some (a.bytes.getLast a.bytes_ne_nil) := by
        rw [List.getLast?_append, List.getLast?_eq_some_getLast a.bytes_ne_nil]
        rfl
      have hword : ∀ b ∈ wordBytes, keyStartOk (some b) = false :=
        fun b hb => neither_of_word (by decide) (by decide) hb
      show keyStartOk (before.toList ++ a.bytes).getLast? = false
      rw [hlast]
      exact hword _ (a.bytes_word _ (List.getLast_mem _))
  | string s =>
      have hlast : (before.toList ++ 0x22 :: (body s ++ [0x22])).getLast? = some 0x22 := by
        rw [← List.cons_append, ← List.append_assoc]
        exact List.getLast?_concat ..
      show keyStartOk (before.toList ++ 0x22 :: (body s ++ [0x22])).getLast? = false
      rw [hlast]
      rfl

/-- No key begins in a token, unless it is the key. -/
theorem skipped_token {before : Option UInt8} {t : Token} {ts : List Token}
    (h : isKey t = true → keyStartOk before = true → stringBehindKey (textOf ts) = none) :
    Skipped (quoted idKey) before t.bytes.length (t.bytes ++ textOf ts) := by
  have hplain : (∀ b ∈ t.bytes, b ≠ 0x22) →
      Skipped (quoted idKey) before t.bytes.length (t.bytes ++ textOf ts) := by
    intro hbytes
    exact passed_plains (fun _ => skipped_zero) t.bytes hbytes before
  cases t with
  | space s => exact hplain (by cases s <;> simp [Token.bytes, Space.byte])
  | mark m => exact hplain (by cases m <;> simp [Token.bytes, Mark.byte])
  | atom a =>
      have hword : (0x22 : UInt8) ∉ wordBytes := by decide
      exact hplain (fun b hb => ne_of_mem_of_not_mem (a.bytes_word b hb) hword)
  | string s =>
      have hnone : ∀ text, ¬ KeyAt (quoted idKey) before ((Token.string s).bytes ++ textOf ts) []
          text := by
        intro text hkey
        obtain ⟨hbody, hstart, htext⟩ := keyAt_string.mp hkey
        rw [h (by simp [isKey, hbody]) hstart] at htext
        cases htext
      have hbytes : (Token.string s).bytes ++ textOf ts =
          0x22 :: (body s ++ 0x22 :: textOf ts) := by
        simp [Token.bytes]
      have hlength : (Token.string s).bytes.length = (body s).length + 1 + 1 := by
        simp [Token.bytes]
      rw [hbytes] at hnone
      rw [hbytes, hlength]
      exact skipped_cons hnone (passed_body (passed_quote ts) s (some 0x22))

/-! ### The scan on tokens -/

/-- The string behind a key, and what follows it. -/
def behindKey (ts : List Token) : Option (JString × List Token) :=
  match ts.dropWhile isBlankToken with
  | .mark .colon :: ts =>
      match ts.dropWhile isBlankToken with
      | .string s :: ts => some (s, ts)
      | _ => none
  | _ => none

/-- The string behind the first key; `flush` if a key may begin here. -/
def findKey (flush : Bool) : List Token → Option JString
  | [] => none
  | t :: ts =>
      (if flush && isKey t then (behindKey ts).map Prod.fst else none).or (findKey (opens t) ts)

/-- Skipping blanks in the text is dropping blank tokens. -/
theorem skipBlanks_textOf (ts : List Token) :
    skipBlanks (textOf ts) = textOf (ts.dropWhile isBlankToken) := by
  induction ts with
  | nil => rfl
  | cons t ts ih =>
      by_cases hblank : isBlankToken t = true
      · have hbyte : ∃ b, t.bytes = [b] ∧ (b == 0x20 || b == 0x09) = true := by
          cases t with
          | space s => cases s <;> first | exact ⟨_, rfl, rfl⟩ | cases hblank
          | mark m => cases hblank
          | atom a => cases hblank
          | string s => cases hblank
        obtain ⟨b, hbytes, hb⟩ := hbyte
        rw [List.dropWhile_cons, if_pos hblank, ← ih, textOf_cons, hbytes]
        simp only [skipBlanks, List.cons_append, List.nil_append, List.dropWhile_cons, hb, if_true]
      · rw [List.dropWhile_cons, if_neg hblank]
        have hhead : ∀ b, (textOf (t :: ts)).head? = some b → (b == 0x20 || b == 0x09) = false := by
          intro b hb
          have hword : ∀ b ∈ wordBytes, (b == 0x20 || b == 0x09) = false :=
            fun b hb => neither_of_word (by decide) (by decide) hb
          rcases head_textOf hb with ⟨s, ts', heq, rfl⟩ | ⟨m, ts', heq, rfl⟩ | ⟨a, ts', heq, hb⟩ |
            ⟨s, ts', heq, rfl⟩
          · obtain ⟨rfl, rfl⟩ := List.cons.inj heq
            cases s <;> first | rfl | exact absurd rfl hblank
          · cases m <;> rfl
          · exact hword b hb
          · rfl
        cases htext : textOf (t :: ts) with
        | nil => rfl
        | cons b rest =>
            have hb := hhead b (by rw [htext]; rfl)
            rw [skipBlanks, List.dropWhile_cons, hb]
            rfl

/-- Behind a key stands a colon with a string, or nothing is found. -/
theorem stringBehindKey_cases (s : Bytes) :
    (∃ rest text, skipBlanks s = 0x3A :: rest ∧ skipBlanks rest = 0x22 :: text ∧
      stringBehindKey s = some text) ∨
    ((∀ rest text, skipBlanks s = 0x3A :: rest → skipBlanks rest ≠ 0x22 :: text) ∧
      stringBehindKey s = none) := by
  unfold stringBehindKey
  split
  · rename_i rest hrest
    split
    · rename_i text htext
      exact Or.inl ⟨rest, text, hrest, htext, rfl⟩
    · rename_i hother
      refine Or.inr ⟨?_, rfl⟩
      intro rest' text hrest' htext
      obtain rfl := (List.cons.inj (hrest.symm.trans hrest')).2
      exact hother text htext
  · rename_i hother
    exact Or.inr ⟨fun rest text hrest _ => hother rest hrest, rfl⟩

/-- A text that begins with a colon begins with that token. -/
theorem textOf_eq_colon {ts : List Token} {rest : Bytes} (h : textOf ts = 0x3A :: rest) :
    ∃ more, ts = .mark .colon :: more ∧ textOf more = rest := by
  have hword : (0x3A : UInt8) ∉ wordBytes := by decide
  rcases head_textOf (b := 0x3A) (by rw [h]; rfl) with ⟨s, more, rfl, hb⟩ | ⟨m, more, rfl, hb⟩ |
    ⟨a, more, rfl, hb⟩ | ⟨s, more, rfl, hb⟩
  · cases s <;> exact absurd hb (by decide)
  · cases m <;> first | exact ⟨more, rfl, (List.cons.inj h).2⟩ | exact absurd hb (by decide)
  · exact absurd hb hword
  · exact absurd hb (by decide)

/-- A text that begins with a quote begins with a string. -/
theorem textOf_eq_quote {ts : List Token} {rest : Bytes} (h : textOf ts = 0x22 :: rest) :
    ∃ s more, ts = .string s :: more ∧ rest = body s ++ 0x22 :: textOf more := by
  have hword : (0x22 : UInt8) ∉ wordBytes := by decide
  rcases head_textOf (b := 0x22) (by rw [h]; rfl) with ⟨s, more, rfl, hb⟩ | ⟨m, more, rfl, hb⟩ |
    ⟨a, more, rfl, hb⟩ | ⟨s, more, rfl, hb⟩
  · cases s <;> exact absurd hb (by decide)
  · cases m <;> exact absurd hb (by decide)
  · exact absurd hb hword
  · refine ⟨s, more, rfl, ?_⟩
    have htail : body s ++ [0x22] ++ textOf more = rest := (List.cons.inj h).2
    rw [← htail, List.append_assoc]
    rfl

/-- The text behind a key is that of the tokens. -/
theorem stringBehindKey_textOf (ts : List Token) :
    stringBehindKey (textOf ts) =
      (behindKey ts).map (fun found => body found.1 ++ 0x22 :: textOf found.2) := by
  rcases stringBehindKey_cases (textOf ts) with ⟨rest, text, hrest, htext, hfound⟩ |
    ⟨hnone, hmissed⟩
  · rw [skipBlanks_textOf] at hrest
    obtain ⟨more, hmore, rfl⟩ := textOf_eq_colon hrest
    rw [skipBlanks_textOf] at htext
    obtain ⟨s, late, hlate, rfl⟩ := textOf_eq_quote htext
    rw [hfound, behindKey, hmore]
    dsimp only
    rw [hlate]
    rfl
  · rw [hmissed]
    unfold behindKey
    split
    · rename_i more hmore
      split
      · rename_i s late hlate
        refine absurd (?_ : skipBlanks (textOf more) = _) (hnone (textOf more)
          (body s ++ 0x22 :: textOf late) ?_)
        · rw [skipBlanks_textOf, hlate]
          simp [Token.bytes]
        · rw [skipBlanks_textOf, hmore]
          rfl
      · rfl
    · rfl

/-- **The scan on a text** finds what its tokens say. -/
theorem scanKey_textOf (ts : List Token) : ∀ before : Option UInt8,
    scanKey (quoted idKey) before 0 (textOf ts) =
      .ok ((findKey (keyStartOk before) ts).map decoded) := by
  induction ts with
  | nil =>
      intro before
      rw [textOf_nil, scanKey]
      rfl
  | cons t ts ih =>
      intro before
      by_cases hkey : keyStartOk before = true ∧ isKey t = true ∧ (behindKey ts).isSome = true
      · obtain ⟨hstart, ht, hsome⟩ := hkey
        obtain ⟨⟨s, late⟩, hfound⟩ := Option.isSome_iff_exists.mp hsome
        cases t with
        | space _ => cases ht
        | mark _ => cases ht
        | atom _ => cases ht
        | string name =>
            have hname : body name = idKey := by simpa [isKey] using ht
            have htext : stringBehindKey (textOf ts) = some (body s ++ 0x22 :: textOf late) := by
              rw [stringBehindKey_textOf, hfound]
              rfl
            have hat : KeyAt (quoted idKey) before ((Token.string name).bytes ++ textOf ts) []
                (body s ++ 0x22 :: textOf late) :=
              keyAt_string.mpr ⟨hname, hstart, htext⟩
            rw [textOf_cons, scanKey_of_keyAt separate_idKey.1 hat, readString_body]
            simp [findKey, hstart, ht, hfound]
      · have hmissed : isKey t = true → keyStartOk before = true → behindKey ts = none := by
          intro ht hstart
          by_contra hfound
          exact hkey ⟨hstart, ht, Option.isSome_iff_ne_none.mpr hfound⟩
        have hskip : isKey t = true → keyStartOk before = true →
            stringBehindKey (textOf ts) = none := by
          intro ht hstart
          rw [stringBehindKey_textOf, hmissed ht hstart]
          rfl
        have hnone : (if (keyStartOk before && isKey t) = true then (behindKey ts).map Prod.fst
            else none) = none := by
          split
          · rename_i hboth
            obtain ⟨hstart, ht⟩ := Bool.and_eq_true_iff.mp hboth
            rw [hmissed ht hstart]
            rfl
          · rfl
        rw [textOf_cons, scanKey_append separate_idKey _ _ (skipped_token hskip), ih,
          opens_eq, findKey, hnone, Option.none_or]

end Vynkor
