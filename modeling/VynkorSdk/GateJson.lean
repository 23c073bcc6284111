import VynkorSdk.GateCaller
import VynkorSdk.JsonText

/-!
# What the gate writes is JSON

`json_escape` goes byte by byte and knows nothing of UTF-8.  What it makes of a
string is the inside of a JSON string exactly if the string is UTF-8, and then
the JSON string stands for it.  So the params of `send_confirmation` are an
object for ids that are text, and the data of a stored request always: its id
and its action are ASCII.
-/

namespace JsonText

open ByteCodec

/-! ### UTF-8 -/

def IsUtf8 (s : Bytes) : Prop := ∃ cs, s = utf8 cs

/-- Encoding goes character by character, so it maps concatenation to concatenation. -/
theorem utf8_append (cs ds : List Char) : utf8 (cs ++ ds) = utf8 cs ++ utf8 ds :=
  List.flatMap_append

/-- The first character's bytes come first. -/
theorem utf8_cons (c : Char) (cs : List Char) :
    utf8 (c :: cs) = String.utf8EncodeChar c ++ utf8 cs := rfl

/-- The empty text is UTF-8. -/
theorem isUtf8_nil : IsUtf8 [] := ⟨[], rfl⟩

/-- UTF-8 texts are closed under concatenation. -/
theorem IsUtf8.append {s t : Bytes} (hs : IsUtf8 s) (ht : IsUtf8 t) : IsUtf8 (s ++ t) := by
  obtain ⟨cs, rfl⟩ := hs
  obtain ⟨ds, rfl⟩ := ht
  exact ⟨cs ++ ds, (utf8_append cs ds).symm⟩

/-- Cutting a code below 256 to a byte does not change whether it is ASCII. -/
theorem ofNat_ascii {n : Nat} (hn : n < 256) : UInt8.ofNat n < 0x80 ↔ n < 0x80 := by
  rw [UInt8.lt_iff_toNat_lt, UInt8.toNat_ofNat', Nat.mod_eq_of_lt hn]
  rfl

/-- An ASCII character is one byte. -/
theorem utf8EncodeChar_ascii {c : Char} (h : c.toNat < 0x80) :
    String.utf8EncodeChar c = [UInt8.ofNat c.toNat] :=
  String.utf8EncodeChar_eq_singleton (Char.utf8Size_eq_one_iff.mpr (Nat.le_of_lt_succ h))

/-- An ASCII byte is a character of its own. -/
theorem utf8_ascii {b : UInt8} (h : b < 0x80) : utf8 [Char.ofNat b.toNat] = [b] := by
  have hlt : b.toNat < 0x80 := UInt8.lt_iff_toNat_lt.mp h
  have hnat : (Char.ofNat b.toNat).toNat = b.toNat :=
    (Char.toNat_ofNat _).trans (if_pos (Or.inl (by omega)))
  rw [utf8, List.flatMap_cons, List.flatMap_nil, List.append_nil,
    utf8EncodeChar_ascii (by rwa [hnat]), hnat, UInt8.ofNat_toNat]

/-- The bytes of any other character have their top bit set. -/
theorem utf8EncodeChar_high {c : Char} (h : ¬ c.toNat < 0x80) {b : UInt8}
    (hmem : b ∈ String.utf8EncodeChar c) : ¬ b < 0x80 := by
  obtain ⟨n, rfl, hn, hhigh | rfl⟩ := mem_utf8EncodeChar hmem
  · exact fun hb => absurd ((ofNat_ascii hn).mp hb) (Nat.not_lt.mpr hhigh)
  · exact fun hb => h ((ofNat_ascii hn).mp hb)

/-- Every ASCII text is UTF-8. -/
theorem isUtf8_of_ascii {s : Bytes} (h : ∀ b ∈ s, b < 0x80) : IsUtf8 s := by
  induction s with
  | nil => exact isUtf8_nil
  | cons b s ih =>
      obtain ⟨hb, hs⟩ := List.forall_mem_cons.mp h
      exact IsUtf8.append ⟨[Char.ofNat b.toNat], (utf8_ascii hb).symm⟩ (ih hs)

/-- A literal of ASCII characters is ASCII bytes. -/
theorem ascii_lt {s : String} (h : s.toList.all (fun c => c.toNat < 0x80) = true) :
    ∀ b ∈ ascii s, b < 0x80 := by
  intro b hb
  obtain ⟨c, hc, rfl⟩ := List.mem_map.mp hb
  have hlt : c.toNat < 0x80 := of_decide_eq_true (List.all_eq_true.mp h c hc)
  exact (ofNat_ascii (by omega)).mpr hlt

/-- An ASCII byte inside a character is the whole of it. -/
theorem utf8EncodeChar_of_mem {c : Char} {b : UInt8} (hb : b < 0x80)
    (hmem : b ∈ String.utf8EncodeChar c) : String.utf8EncodeChar c = [b] := by
  by_cases hascii : c.toNat < 0x80
  · have hone := utf8EncodeChar_ascii hascii
    rw [hone, List.mem_singleton] at hmem
    rw [hone, hmem]
  · exact absurd hb (utf8EncodeChar_high hascii hmem)

/-- **UTF-8 falls apart at every ASCII byte.** -/
theorem isUtf8_cut {b : UInt8} (hb : b < 0x80) (s t : Bytes) :
    IsUtf8 (s ++ b :: t) ↔ IsUtf8 s ∧ IsUtf8 t := by
  constructor
  · rintro ⟨cs, hcs⟩
    induction cs generalizing s with
    | nil => simp [utf8] at hcs
    | cons c cs ih =>
        rw [utf8_cons] at hcs
        rcases List.append_eq_append_iff.mp hcs with ⟨inside, hchar, htail⟩ | ⟨more, rfl, htail⟩
        · cases inside with
          | nil =>
              rw [List.nil_append] at htail
              rw [List.append_nil] at hchar
              obtain ⟨hnil, ht⟩ := ih [] htail
              exact ⟨⟨[c], by rw [utf8_cons, hchar, utf8]; simp⟩, ht⟩
          | cons b' inside =>
              obtain ⟨rfl, htail⟩ := List.cons.inj htail
              have hone := utf8EncodeChar_of_mem hb (by rw [hchar]; simp)
              rw [hchar] at hone
              obtain ⟨rfl, hinside⟩ : s = [] ∧ inside = [] := by
                cases s with
                | nil => exact ⟨rfl, by simpa using hone⟩
                | cons a s => simp at hone
              rw [hinside] at htail
              obtain rfl : t = utf8 cs := (List.cons.inj htail).2
              exact ⟨isUtf8_nil, ⟨cs, rfl⟩⟩
        · obtain ⟨hmore, ht⟩ := ih more htail.symm
          exact ⟨IsUtf8.append ⟨[c], by simp [utf8]⟩ hmore, ht⟩
  · rintro ⟨hs, ht⟩
    have hbyte : IsUtf8 [b] := isUtf8_of_ascii (by simpa using hb)
    exact hs.append (hbyte.append ht)

/-- ASCII in front makes no difference. -/
theorem isUtf8_front {front : Bytes} (hfront : ∀ b ∈ front, b < 0x80) (s : Bytes) :
    IsUtf8 (front ++ s) ↔ IsUtf8 s := by
  induction front with
  | nil => rfl
  | cons b front ih =>
      obtain ⟨hb, hfront⟩ := List.forall_mem_cons.mp hfront
      rw [List.cons_append, ← ih hfront]
      exact (isUtf8_cut hb [] (front ++ s)).trans (and_iff_right isUtf8_nil)

/-! ### Every text is UTF-8 -/

/-- A hexadecimal digit is written in ASCII. -/
theorem HexDigit.byte_ascii (d : HexDigit) : d.byte < 0x80 := by
  obtain ⟨⟨n, hn⟩, upper⟩ := d
  unfold HexDigit.byte
  split_ifs <;> exact (ofNat_ascii (by dsimp only; omega)).mpr (by dsimp only; omega)

/-- The four digits of a `\u` escape are written in ASCII. -/
theorem CodeUnit.bytes_ascii (u : CodeUnit) : ∀ b ∈ u.bytes, b < 0x80 := by
  simp [CodeUnit.bytes, HexDigit.byte_ascii]

/-- Each item of a JSON string, escaped or not, is written in UTF-8. -/
theorem Item.bytes_isUtf8 (i : Item) : IsUtf8 i.bytes := by
  cases i with
  | plain c h => exact ⟨[c], by simp [Item.bytes, utf8]⟩
  | escape e => exact isUtf8_of_ascii (by cases e <;> simp [Item.bytes, Escape.letter])
  | code u h => exact isUtf8_of_ascii u.bytes_ascii
  | pair high low hhigh hlow =>
      exact (isUtf8_of_ascii high.bytes_ascii).append (isUtf8_of_ascii low.bytes_ascii)

/-- What stands between a JSON string's quotes is UTF-8. -/
theorem body_isUtf8 (s : JString) : IsUtf8 (body s) := by
  induction s with
  | nil => exact isUtf8_nil
  | cons i s ih => exact i.bytes_isUtf8.append ih

/-- Every token is written in UTF-8. -/
theorem Token.bytes_isUtf8 (t : Token) : IsUtf8 t.bytes := by
  cases t with
  | space s => exact isUtf8_of_ascii (by cases s <;> simp [Token.bytes, Space.byte])
  | mark m => exact isUtf8_of_ascii (by cases m <;> simp [Token.bytes, Mark.byte])
  | atom a =>
      have hword : ∀ b ∈ wordBytes, b < 0x80 := ascii_lt (by decide)
      exact isUtf8_of_ascii (fun b hb => hword b (a.bytes_word b hb))
  | string s =>
      have hquote : IsUtf8 [0x22] := isUtf8_of_ascii (by simp)
      exact hquote.append ((body_isUtf8 s).append hquote)

/-- A text made of tokens is UTF-8. -/
theorem textOf_isUtf8 (ts : List Token) : IsUtf8 (textOf ts) := by
  induction ts with
  | nil => exact isUtf8_nil
  | cons t ts ih => exact t.bytes_isUtf8.append ih

end JsonText

namespace Vynkor

open ByteCodec JsonText

/-! ### The escaper -/

/-- `json_escape` works byte by byte. -/
theorem jsonEscape_cons (b : UInt8) (s : Bytes) :
    jsonEscape (b :: s) = escapeByte b ++ jsonEscape s := rfl

/-- Escaping goes byte by byte, so it maps concatenation to concatenation. -/
theorem jsonEscape_append (s t : Bytes) : jsonEscape (s ++ t) = jsonEscape s ++ jsonEscape t :=
  List.flatMap_append

/-- The escaper copies every byte that is no control character, quote or backslash. -/
theorem escapeByte_plain {b : UInt8} (hcontrol : ¬ b < 0x20) (hquote : b ≠ 0x22)
    (hslash : b ≠ 0x5C) : escapeByte b = [b] := by
  have hne : ∀ c : UInt8, c < 0x20 → b ≠ c := fun c hc heq => hcontrol (heq ▸ hc)
  unfold escapeByte
  rw [if_neg hquote, if_neg hslash, if_neg (hne _ (by decide)), if_neg (hne _ (by decide)),
    if_neg (hne _ (by decide)), if_neg (hne _ (by decide)), if_neg (hne _ (by decide)),
    if_neg hcontrol]

/-- A byte outside ASCII is copied as it is. -/
theorem escapeByte_high {b : UInt8} (h : ¬ b < 0x80) : escapeByte b = [b] :=
  escapeByte_plain (fun hlt => h (UInt8.lt_trans hlt (by decide))) (fun heq => h (heq ▸ by decide))
    (fun heq => h (heq ▸ by decide))

/-- A text without ASCII bytes is copied as it is. -/
theorem jsonEscape_high {s : Bytes} (h : ∀ b ∈ s, ¬ b < 0x80) : jsonEscape s = s := by
  induction s with
  | nil => rfl
  | cons b s ih =>
      obtain ⟨hb, hs⟩ := List.forall_mem_cons.mp h
      rw [jsonEscape_cons, escapeByte_high hb, ih hs]
      rfl

/-- The digits of a `\u` escape are ASCII. -/
theorem hex4_ascii (b : UInt8) : ∀ c ∈ hex4 b, c < 0x80 := by
  have hdigit : ∀ n < 16, UInt8.ofNat (if n < 10 then 0x30 + n else 0x61 + (n - 10)) < 0x80 := by
    intro n hn
    split_ifs <;> exact (ofNat_ascii (by omega)).mpr (by omega)
  have hb := b.toNat_lt
  simp only [hex4, List.forall_mem_cons]
  exact ⟨by decide, by decide, hdigit _ (by omega), hdigit _ (by omega), by simp⟩

/-- An ASCII byte is escaped to ASCII bytes, at least one. -/
theorem escapeByte_ascii {b : UInt8} (h : b < 0x80) : ∃ first more, escapeByte b = first :: more ∧
    first < 0x80 ∧ ∀ c ∈ more, c < 0x80 := by
  have hne : escapeByte b ≠ [] := by
    unfold escapeByte
    split_ifs <;> exact List.cons_ne_nil _ _
  have hall : ∀ c ∈ escapeByte b, c < 0x80 := by
    unfold escapeByte
    split_ifs
    · exact ascii_lt (by decide)
    · exact ascii_lt (by decide)
    · exact ascii_lt (by decide)
    · exact ascii_lt (by decide)
    · exact ascii_lt (by decide)
    · exact ascii_lt (by decide)
    · exact ascii_lt (by decide)
    · exact List.forall_mem_append.mpr ⟨ascii_lt (by decide), hex4_ascii b⟩
    · simpa using h
  obtain ⟨first, more, hescape⟩ := List.exists_cons_of_ne_nil hne
  rw [hescape] at hall
  exact ⟨first, more, hescape, List.forall_mem_cons.mp hall⟩

/-- **Escaping keeps UTF-8**, and makes none. -/
theorem isUtf8_jsonEscape_behind (s : Bytes) :
    ∀ high, IsUtf8 (high ++ jsonEscape s) ↔ IsUtf8 (high ++ s) := by
  induction s with
  | nil =>
      intro high
      rfl
  | cons b s ih =>
      intro high
      rw [jsonEscape_cons]
      by_cases hb : b < 0x80
      · obtain ⟨first, more, hescape, hfirst, hmore⟩ := escapeByte_ascii hb
        have hrest : IsUtf8 (jsonEscape s) ↔ IsUtf8 s := ih []
        rw [hescape, List.cons_append, isUtf8_cut hfirst, isUtf8_cut hb, isUtf8_front hmore, hrest]
      · rw [escapeByte_high hb, List.singleton_append]
        have hsplit := ih (high ++ [b])
        simpa only [List.append_assoc, List.singleton_append] using hsplit

/-- Escaping neither makes nor breaks UTF-8: the escaped text is UTF-8 exactly when the text is. -/
theorem isUtf8_jsonEscape (s : Bytes) : IsUtf8 (jsonEscape s) ↔ IsUtf8 s :=
  isUtf8_jsonEscape_behind s []

/-- Zero is a hexadecimal digit. -/
theorem zero_digit : 0 < 16 := by decide

/-- The high digit of a control character's code. -/
theorem high_digit {c : Char} (h : c.toNat < 0x20) : c.toNat / 16 < 16 := by omega

/-- The low digit of a character's code. -/
theorem low_digit (c : Char) : c.toNat % 16 < 16 := Nat.mod_lt _ zero_digit

/-- How the escaper spells a character. -/
def itemOf (c : Char) : Item :=
  if c.toNat = 0x22 then .escape .quote
  else if c.toNat = 0x5C then .escape .backslash
  else if c.toNat = 0x08 then .escape .backspace
  else if c.toNat = 0x0C then .escape .formFeed
  else if c.toNat = 0x0A then .escape .lineFeed
  else if c.toNat = 0x0D then .escape .carriageReturn
  else if c.toNat = 0x09 then .escape .tab
  else if hcontrol : c.toNat < 0x20 then
    .code ⟨⟨⟨0, zero_digit⟩, false⟩, ⟨⟨0, zero_digit⟩, false⟩,
        ⟨⟨c.toNat / 16, high_digit hcontrol⟩, false⟩, ⟨⟨c.toNat % 16, low_digit c⟩, false⟩⟩
      (by simp only [IsSurrogate, CodeUnit.value]; omega)
  else if hplain : Unescaped c then .plain c hplain
  else .escape .quote

/-- The spelling stands for the character. -/
theorem itemOf_char (c : Char) : (itemOf c).char = c := by
  have hcode : ∀ n, c.toNat = n → Char.ofNat n = c := by
    rintro n rfl
    exact Char.ofNat_toNat c
  unfold itemOf
  split_ifs with hquote hslash hb hf hn hr ht hcontrol hplain
  · exact hcode _ hquote
  · exact hcode _ hslash
  · exact hcode _ hb
  · exact hcode _ hf
  · exact hcode _ hn
  · exact hcode _ hr
  · exact hcode _ ht
  · refine hcode _ ?_
    simp only [CodeUnit.value]
    omega
  · rfl
  · exact absurd ⟨by omega, hquote, hslash⟩ hplain

/-- A character that may stand for itself is spelled so. -/
theorem itemOf_plain {c : Char} (h : Unescaped c) : itemOf c = .plain c h := by
  obtain ⟨hcontrol, hquote, hslash⟩ := id h
  unfold itemOf
  rw [if_neg hquote, if_neg hslash, if_neg (by omega), if_neg (by omega), if_neg (by omega),
    if_neg (by omega), if_neg (by omega), dif_neg (by omega), dif_pos h]

/-- The spelling of an ASCII character is what the escaper writes for its byte. -/
theorem itemOf_ascii {c : Char} (h : c.toNat < 0x80) :
    (itemOf c).bytes = escapeByte (UInt8.ofNat c.toNat) := by
  by_cases hcontrol : c.toNat < 0x20
  · have hall : ∀ n < 0x20, (itemOf (Char.ofNat n)).bytes = escapeByte (UInt8.ofNat n) := by decide
    rw [← hall c.toNat hcontrol, Char.ofNat_toNat]
  by_cases hquote : c.toNat = 0x22
  · rw [itemOf, if_pos hquote, hquote]
    rfl
  by_cases hslash : c.toNat = 0x5C
  · rw [itemOf, if_neg hquote, if_pos hslash, hslash]
    rfl
  have hbyte : ¬ UInt8.ofNat c.toNat < 0x20 := by
    rw [UInt8.lt_iff_toNat_lt, UInt8.toNat_ofNat', Nat.mod_eq_of_lt (by omega)]
    exact hcontrol
  rw [itemOf_plain ⟨by omega, hquote, hslash⟩,
    escapeByte_plain hbyte (ofNat_ne (k := 0x22) (by omega) (by omega) hquote)
      (ofNat_ne (k := 0x5C) (by omega) (by omega) hslash)]
  exact utf8EncodeChar_ascii h

/-- The spelling is what the escaper writes. -/
theorem itemOf_bytes (c : Char) : (itemOf c).bytes = jsonEscape (String.utf8EncodeChar c) := by
  by_cases hascii : c.toNat < 0x80
  · rw [itemOf_ascii hascii, utf8EncodeChar_ascii hascii, jsonEscape, List.flatMap_cons,
      List.flatMap_nil, List.append_nil]
  · rw [itemOf_plain ⟨by omega, by omega, by omega⟩,
      jsonEscape_high (fun b => utf8EncodeChar_high hascii)]
    rfl

/-- The JSON string the escaper makes of a text. -/
def stringOf (cs : List Char) : JString := cs.map itemOf

/-- The JSON string of a text is spelled exactly as `json_escape` spells the text. -/
theorem body_stringOf (cs : List Char) : body (stringOf cs) = jsonEscape (utf8 cs) := by
  induction cs with
  | nil => rfl
  | cons c cs ih =>
      show (itemOf c).bytes ++ body (stringOf cs) = _
      rw [itemOf_bytes, ih, utf8_cons, jsonEscape_append]

/-- The JSON string of a text denotes the text. -/
theorem chars_stringOf (cs : List Char) : chars (stringOf cs) = cs := by
  induction cs with
  | nil => rfl
  | cons c cs ih =>
      show (itemOf c).char :: chars (stringOf cs) = _
      rw [itemOf_char, ih]

/-! ### Numbers -/

/-- The digits of a number, without a leading zero. -/
theorem digits_of (n : Nat) : ∃ ds : List (Fin 10), decimal n = digitBytes ds ∧ ds ≠ [] ∧
    (ds.head? = some 0 → ds.length = 1) ∧ (0 < n → ds.head? ≠ some 0) := by
  have hrepr : ∀ k, decimal k = (Nat.toDigits 10 k).map (fun c => UInt8.ofNat c.toNat) := by
    intro k
    rw [decimal, ascii, Nat.toList_repr]
  induction n using Nat.strongRecOn with
  | ind n ih =>
      have hdigit : ∀ d : Fin 10, UInt8.ofNat (Nat.digitChar d.val).toNat =
          UInt8.ofNat (0x30 + d.val) := by decide
      by_cases hsmall : n < 10
      · refine ⟨[⟨n, hsmall⟩], ?_, by simp, by simp, ?_⟩
        · rw [hrepr, Nat.toDigits_of_lt_base hsmall]
          exact congrArg (fun b => [b]) (hdigit ⟨n, hsmall⟩)
        · intro hpos hzero
          have hval : n = 0 := by simpa using hzero
          omega
      · obtain ⟨ds, hds, hne, -, hlead⟩ := ih (n / 10) (by omega)
        obtain ⟨d, tail, rfl⟩ := List.exists_cons_of_ne_nil hne
        have hfirst := hlead (by omega)
        refine ⟨d :: tail ++ [⟨n % 10, by omega⟩], ?_, by simp, fun h => absurd h hfirst,
          fun _ => hfirst⟩
        rw [hrepr, Nat.toDigits_of_base_le (by decide) (Nat.not_lt.mp hsmall), List.map_append,
          ← hrepr, hds, digitBytes, digitBytes, List.map_append]
        exact congrArg (fun b => _ ++ [b]) (hdigit ⟨n % 10, by omega⟩)

/-- `std::to_string` writes a JSON number. -/
theorem number_of (n : Int) : ∃ number : Number, number.bytes = ConfirmationGate.decimalInt n := by
  obtain ⟨ds, hds, hne, hzero, -⟩ := digits_of n.natAbs
  refine ⟨{ minus := decide (n < 0), int := ds, int_ne := hne, int_zero := hzero, frac := none,
            exponent := none }, ?_⟩
  unfold Number.bytes ConfirmationGate.decimalInt
  rw [← hds]
  by_cases hneg : n < 0
  · simp [hneg, ascii]
  · simp [hneg]

/-! ### Objects -/

/-- What a member without structure says. -/
inductive Scalar
  | text (s : Bytes)
  | number (digits : Bytes)
  deriving DecidableEq

def scalar? : Value → Option Scalar
  | .string s => some (.text (utf8 (chars s)))
  | .atom (.number n) => some (.number n.bytes)
  | _ => none

def IsObject (text : Bytes) : Prop := ∃ t : ObjectText, t.bytes = text

/-- The text of an object with these members, in this order. -/
def IsObjectOf (text : Bytes) (members : List (Bytes × Scalar)) : Prop :=
  ∃ t : ObjectText, t.bytes = text ∧
    t.top.map (fun m => (utf8 (chars m.name), scalar? m.value)) =
      members.map (fun m => (m.1, some m.2))

/-- A JSON object is UTF-8 text. -/
theorem IsObject.isUtf8 {text : Bytes} (h : IsObject text) : IsUtf8 text := by
  obtain ⟨t, rfl⟩ := h
  exact textOf_isUtf8 _

/-- A text that is the object of some members is an object. -/
theorem IsObjectOf.isObject {text : Bytes} {members : List (Bytes × Scalar)}
    (h : IsObjectOf text members) : IsObject text := by
  obtain ⟨t, ht, -⟩ := h
  exact ⟨t, ht⟩

/-- Members with nothing between their tokens. -/
def membersOf : List (List Char × Value) → Members
  | [] => .nil
  | (name, value) :: rest => .cons [] (stringOf name) [] [] value [] (membersOf rest)

/-- The tokens of the members behind the first: each behind a comma, with no blanks. -/
theorem membersOf_tokens (ms : List (List Char × Value)) : (membersOf ms).tokens =
    ms.flatMap (fun m => .mark .comma :: .string (stringOf m.1) :: .mark .colon :: m.2.tokens) := by
  induction ms with
  | nil => simp [membersOf, Members.tokens]
  | cons m ms ih => simp [membersOf, Members.tokens, spaces, ih]

/-- Reading the members back gives the names and values they were built from, in order. -/
theorem membersOf_top (ms : List (List Char × Value)) : ∀ flush,
    ((membersOf ms).top flush).map (fun m => (utf8 (chars m.name), scalar? m.value)) =
      ms.map (fun m => (utf8 m.1, scalar? m.2)) := by
  induction ms with
  | nil =>
      intro flush
      rfl
  | cons m ms ih =>
      intro flush
      simp [membersOf, Members.top, chars_stringOf, ih]

/-- An object written without a blank. -/
def tightObject (ms : List (List Char × Value)) : ObjectText where
  before := []
  inner := []
  members := membersOf ms
  after := []

/-- A tight object's text: braces around its members, without the first comma. -/
theorem tightObject_bytes (ms : List (List Char × Value)) : (tightObject ms).bytes =
    0x7B :: (textOf (ms.flatMap (fun m =>
      .mark .comma :: .string (stringOf m.1) :: .mark .colon :: m.2.tokens)).tail ++ [0x7D]) := by
  simp [ObjectText.bytes, tightObject, Value.tokens, spaces, membersOf_tokens, textOf, Token.bytes,
    Mark.byte]

/-- A text that is spelled as the tight object of its members is the object of these members. -/
theorem isObjectOf_tight {text : Bytes} (ms : List (List Char × Value))
    {members : List (Bytes × Scalar)} (htext : (tightObject ms).bytes = text)
    (hmembers : ms.map (fun m => (utf8 m.1, scalar? m.2)) =
      members.map (fun m => (m.1, some m.2))) :
    IsObjectOf text members :=
  ⟨tightObject ms, htext, (membersOf_top ms _).trans hmembers⟩

/-- The member names of the gate need no escapes. -/
theorem names_spelled : ∀ s ∈ ["pending_id", "action", "ttl_secs"],
    ∃ name, body (stringOf name) = ascii s ∧ utf8 name = ascii s := by
  have hspelled : ∀ s ∈ ["pending_id", "action", "ttl_secs"],
      body (stringOf s.toList) = ascii s ∧ utf8 s.toList = ascii s := by decide
  exact fun s hs => ⟨s.toList, hspelled s hs⟩

/-- The params of a confirmation, for a UTF-8 id, are the object with the one
member `pending_id`. -/
theorem confirmationParams_isObjectOf (cs : List Char) : IsObjectOf (confirmationParams (utf8 cs))
    [(ascii "pending_id", .text (utf8 cs))] := by
  obtain ⟨name, hname, hutf8⟩ := names_spelled "pending_id" (by simp)
  have hopen : ascii "\x7b\"pending_id\":\"" =
      0x7B :: 0x22 :: (ascii "pending_id" ++ [0x22, 0x3A, 0x22]) := by decide
  have hclose : ascii "\"\x7d" = [0x22, 0x7D] := by decide
  refine isObjectOf_tight [(name, .string (stringOf cs))] ?_ ?_
  · rw [tightObject_bytes, confirmationParams, hopen, hclose]
    simp [body_stringOf, ← hname, Value.tokens, Token.bytes, Mark.byte]
  · simp [scalar?, chars_stringOf, hutf8]

/-- The reply to a stored request, for a UTF-8 id and action, is the object with
its three members. -/
theorem storedText_isObjectOf (g : ConfirmationGate) (req : ActionRequest) (cs ds : List Char)
    (haction : req.action = utf8 ds) : IsObjectOf (g.storedText req (utf8 cs))
      [(ascii "pending_id", .text (utf8 cs)), (ascii "action", .text req.action),
        (ascii "ttl_secs", .number (ConfirmationGate.decimalInt (g.pendingTtl.tdiv 1000)))] := by
  obtain ⟨idName, hid, hid8⟩ := names_spelled "pending_id" (by simp)
  obtain ⟨actionName, haction', haction8⟩ := names_spelled "action" (by simp)
  obtain ⟨ttlName, httl, httl8⟩ := names_spelled "ttl_secs" (by simp)
  obtain ⟨number, hnumber⟩ := number_of (g.pendingTtl.tdiv 1000)
  have hopen : ascii "\x7b\"pending_id\":\"" =
      0x7B :: 0x22 :: (ascii "pending_id" ++ [0x22, 0x3A, 0x22]) := by decide
  have hsecond : ascii "\",\"action\":\"" =
      0x22 :: 0x2C :: 0x22 :: (ascii "action" ++ [0x22, 0x3A, 0x22]) := by decide
  have hthird : ascii "\",\"ttl_secs\":" =
      0x22 :: 0x2C :: 0x22 :: (ascii "ttl_secs" ++ [0x22, 0x3A]) := by decide
  have hclose : ascii "\x7d" = [0x7D] := by decide
  refine isObjectOf_tight [(idName, .string (stringOf cs)), (actionName, .string (stringOf ds)),
    (ttlName, .atom (.number number))] ?_ ?_
  · rw [tightObject_bytes, ConfirmationGate.storedText, hopen, hsecond, hthird, hclose, haction]
    simp [body_stringOf, ← hid, ← haction', ← httl, hnumber, Value.tokens, Token.bytes, Mark.byte,
      Atom.bytes]
  · simp [scalar?, chars_stringOf, hid8, haction8, httl8, haction, hnumber]

/-- Params that are an object are UTF-8, and so is the id in them. -/
theorem isUtf8_of_confirmationParams {id : Bytes} (h : IsUtf8 (confirmationParams id)) :
    IsUtf8 id := by
  have hfront : ∀ b ∈ ascii "\x7b\"pending_id\":\"", b < 0x80 := ascii_lt (by decide)
  rw [confirmationParams, List.append_assoc, isUtf8_front hfront] at h
  exact (isUtf8_jsonEscape id).mp ((isUtf8_cut (by decide) (jsonEscape id) _).mp h).1

/-- A reply text in UTF-8 was written from an id and an action in UTF-8. -/
theorem isUtf8_of_storedText {g : ConfirmationGate} {req : ActionRequest} {id : Bytes}
    (h : IsUtf8 (g.storedText req id)) : IsUtf8 id ∧ IsUtf8 req.action := by
  have hfront : ∀ b ∈ ascii "\x7b\"pending_id\":\"", b < 0x80 := ascii_lt (by decide)
  have hmiddle : ascii "\",\"action\":\"" = 0x22 :: ascii ",\"action\":\"" := by decide
  have hascii : ∀ b ∈ ascii ",\"action\":\"", b < 0x80 := ascii_lt (by decide)
  have hend : ascii "\",\"ttl_secs\":" = 0x22 :: ascii ",\"ttl_secs\":" := by decide
  rw [ConfirmationGate.storedText, hmiddle, hend] at h
  simp only [List.append_assoc, List.cons_append] at h
  rw [isUtf8_front hfront, isUtf8_cut (by decide), isUtf8_front hascii, isUtf8_cut (by decide)] at h
  exact ⟨(isUtf8_jsonEscape id).mp h.1, (isUtf8_jsonEscape _).mp h.2.1⟩

/-- The name of an accepted gate is ASCII. -/
theorem op_isUtf8 (g : ConfirmationGate) : IsUtf8 g.op := by
  have hchar : ∀ b, isOpChar b = true → b < 0x80 := by
    intro b hb
    simp only [isOpChar, Bool.or_eq_true, Bool.and_eq_true, decide_eq_true_eq, beq_iff_eq] at hb
    rcases hb with (((⟨-, hle⟩ | ⟨-, hle⟩) | ⟨-, hle⟩) | rfl) | rfl
    · exact UInt8.lt_of_le_of_lt hle (by decide)
    · exact UInt8.lt_of_le_of_lt hle (by decide)
    · exact UInt8.lt_of_le_of_lt hle (by decide)
    · decide
    · decide
  have hall : g.op.all isOpChar = true := by
    by_contra hbad
    have haccepted := g.accepted
    unfold GateConfig.check at haccepted
    dsimp only at haccepted
    split at haccepted
    · cases haccepted
    · rw [if_pos (by simpa using hbad)] at haccepted
      cases haccepted
  exact isUtf8_of_ascii (fun b hb => hchar b (List.all_eq_true.mp hall b hb))

/-- A number in decimal is UTF-8. -/
theorem decimal_isUtf8 (n : Nat) : IsUtf8 (decimal n) := by
  obtain ⟨ds, hds, -⟩ := digits_of n
  have hdigit : ∀ d : Fin 10, UInt8.ofNat (0x30 + d.val) < 0x80 := fun d =>
    (ofNat_ascii (by omega)).mpr (by omega)
  rw [hds]
  refine isUtf8_of_ascii (fun b hb => ?_)
  obtain ⟨d, -, rfl⟩ := List.mem_map.mp hb
  exact hdigit d

/-- Every id the gate mints is UTF-8. -/
theorem pendingId_isUtf8 (millis seq : UInt64) :
    IsUtf8 (ConfirmationGate.pendingId millis seq) := by
  have hword : IsUtf8 (ascii "pending-") := isUtf8_of_ascii (ascii_lt (by decide))
  have hdash : IsUtf8 (ascii "-") := isUtf8_of_ascii (ascii_lt (by decide))
  exact ((hword.append (decimal_isUtf8 _)).append hdash).append (decimal_isUtf8 _)

/-- **The gate writes JSON.**  The reply to a stored request is an object with
the pending id, the action and the TTL, for every gate, request and clock.  In
general the text around an id is an object exactly if the id is UTF-8, and then
its member stands for the id: the params of `send_confirmation`, and the reply
where the action is UTF-8 too. -/
theorem gate_writes_json (g : ConfirmationGate) :
    (∀ (req : ActionRequest) (millis seq : UInt64), g.dispatch req = .store →
      IsObjectOf (g.storedText req (ConfirmationGate.pendingId millis seq))
        [(ascii "pending_id", .text (ConfirmationGate.pendingId millis seq)),
          (ascii "action", .text (requestPrefix ++ g.op)),
          (ascii "ttl_secs", .number (ConfirmationGate.decimalInt (g.pendingTtl.tdiv 1000)))]) ∧
    (∀ (req : ActionRequest) (id : Bytes),
      (IsObject (g.storedText req id) ↔ IsUtf8 id ∧ IsUtf8 req.action) ∧
      (IsUtf8 id → IsUtf8 req.action → IsObjectOf (g.storedText req id)
        [(ascii "pending_id", .text id), (ascii "action", .text req.action),
          (ascii "ttl_secs", .number (ConfirmationGate.decimalInt (g.pendingTtl.tdiv 1000)))])) ∧
    ∀ id : Bytes, (IsObject (confirmationParams id) ↔ IsUtf8 id) ∧
      (IsUtf8 id → IsObjectOf (confirmationParams id) [(ascii "pending_id", .text id)]) := by
  refine ⟨?_, ?_, ?_⟩
  · intro req millis seq hstore
    have haction : req.action = requestPrefix ++ g.op :=
      ConfirmationGate.dispatch_eq_store.mp hstore
    have hprefix : IsUtf8 requestPrefix := isUtf8_of_ascii (ascii_lt (by decide))
    obtain ⟨ds, hds⟩ := hprefix.append (op_isUtf8 g)
    obtain ⟨cs, hcs⟩ := pendingId_isUtf8 millis seq
    rw [hcs, ← haction]
    exact storedText_isObjectOf g req cs ds (haction.trans hds)
  · intro req id
    have hobject : IsUtf8 id → IsUtf8 req.action → IsObjectOf (g.storedText req id)
        [(ascii "pending_id", .text id), (ascii "action", .text req.action),
          (ascii "ttl_secs", .number (ConfirmationGate.decimalInt (g.pendingTtl.tdiv 1000)))] := by
      rintro ⟨cs, rfl⟩ ⟨ds, hds⟩
      exact storedText_isObjectOf g req cs ds hds
    exact ⟨⟨fun h => isUtf8_of_storedText h.isUtf8, fun h => (hobject h.1 h.2).isObject⟩, hobject⟩
  · intro id
    refine ⟨⟨fun h => isUtf8_of_confirmationParams h.isUtf8, ?_⟩, ?_⟩
    · rintro ⟨cs, rfl⟩
      exact (confirmationParams_isObjectOf cs).isObject
    · rintro ⟨cs, rfl⟩
      exact confirmationParams_isObjectOf cs

/-- The gate's own ids pass; an id that is no text makes no object. -/
theorem gate_writes_json_wipe :
    IsObjectOf (ConfirmationGate.wipeGate.storedText { action := ascii "request_wipe" }
      (ConfirmationGate.pendingId 7 0))
        [(ascii "pending_id", .text (ascii "pending-7-0")),
          (ascii "action", .text (ascii "request_wipe")),
            (ascii "ttl_secs", .number (ascii "300"))] ∧
      ¬ IsUtf8 ConfirmationGate.awkwardId ∧
      ¬ IsObject (confirmationParams ConfirmationGate.awkwardId) := by
  obtain ⟨hstored, -, hparams⟩ := gate_writes_json ConfirmationGate.wipeGate
  have hbad : ¬ IsUtf8 ConfirmationGate.awkwardId := by
    intro h
    obtain ⟨cs, hcs⟩ := ((isUtf8_cut (by decide) [0x22] [0xE9]).mp h).2
    cases cs with
    | nil => cases hcs
    | cons c cs =>
        rw [utf8_cons] at hcs
        have hlength := congrArg List.length hcs
        rw [List.length_append, String.length_utf8EncodeChar, List.length_singleton] at hlength
        have hpos := c.utf8Size_pos
        have hsize : c.utf8Size = 1 := by omega
        have hascii : c.val.toNat ≤ 127 := Char.utf8Size_eq_one_iff.mp hsize
        rw [String.utf8EncodeChar_eq_singleton hsize] at hcs
        have hbyte := congrArg UInt8.toNat (List.cons.inj hcs).1
        rw [UInt32.toNat_toUInt8, Nat.mod_eq_of_lt (by omega)] at hbyte
        have : (0xE9 : UInt8).toNat = 233 := rfl
        omega
  refine ⟨?_, hbad, fun h => hbad ((hparams _).1.mp h)⟩
  exact hstored { action := ascii "request_wipe" } 7 0 (by decide)

end Vynkor
