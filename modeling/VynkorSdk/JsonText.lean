import VynkorSdk.ByteCodec

/-!
# JSON texts

The grammar of RFC 8259 as syntax trees, whitespace and spelling included: the
texts of the trees are the JSON texts.  A tree is written token by token, so a
fact about scanning a text can be proved for one token at a time.  A `\u` escape
stands for itself, or for half of a surrogate pair that is written out in full;
there is no tree with an unpaired one.

What a text says of its members is read off the tree: `Members.top` are those of
the outermost object, `Members.all` those at any depth, in the order of the
text.
-/

namespace JsonText

open ByteCodec

/-! ### Strings -/

structure HexDigit where
  value : Fin 16
  /-- For a letter, its case. -/
  upper : Bool := false

def HexDigit.byte (d : HexDigit) : UInt8 :=
  if d.value.val < 10 then UInt8.ofNat (0x30 + d.value.val)
  else if d.upper then UInt8.ofNat (0x37 + d.value.val)
  else UInt8.ofNat (0x57 + d.value.val)

/-- The four digits of a `\u` escape. -/
structure CodeUnit where
  first : HexDigit
  second : HexDigit
  third : HexDigit
  fourth : HexDigit

def CodeUnit.value (u : CodeUnit) : Nat :=
  ((u.first.value.val * 16 + u.second.value.val) * 16 + u.third.value.val) * 16 + u.fourth.value.val

def CodeUnit.bytes (u : CodeUnit) : Bytes :=
  [0x5C, 0x75, u.first.byte, u.second.byte, u.third.byte, u.fourth.byte]

/-- A code unit has 16 bits. -/
theorem CodeUnit.value_lt (u : CodeUnit) : u.value < 0x10000 := by
  unfold value
  omega

def IsSurrogate (n : Nat) : Prop := 0xD800 ≤ n ∧ n ≤ 0xDFFF

instance : DecidablePred IsSurrogate := fun n =>
  inferInstanceAs (Decidable (0xD800 ≤ n ∧ n ≤ 0xDFFF))

inductive Escape
  | quote
  | backslash
  | slash
  | backspace
  | formFeed
  | lineFeed
  | carriageReturn
  | tab

/-- What stands behind the backslash. -/
def Escape.letter : Escape → UInt8
  | .quote => 0x22
  | .backslash => 0x5C
  | .slash => 0x2F
  | .backspace => 0x62
  | .formFeed => 0x66
  | .lineFeed => 0x6E
  | .carriageReturn => 0x72
  | .tab => 0x74

def Escape.char : Escape → Char
  | .quote => Char.ofNat 0x22
  | .backslash => Char.ofNat 0x5C
  | .slash => Char.ofNat 0x2F
  | .backspace => Char.ofNat 0x08
  | .formFeed => Char.ofNat 0x0C
  | .lineFeed => Char.ofNat 0x0A
  | .carriageReturn => Char.ofNat 0x0D
  | .tab => Char.ofNat 0x09

/-- A character that may stand for itself. -/
def Unescaped (c : Char) : Prop := 0x20 ≤ c.toNat ∧ c.toNat ≠ 0x22 ∧ c.toNat ≠ 0x5C

instance : DecidablePred Unescaped := fun c =>
  inferInstanceAs (Decidable (0x20 ≤ c.toNat ∧ c.toNat ≠ 0x22 ∧ c.toNat ≠ 0x5C))

/-- One character of a string, as it is spelled. -/
inductive Item
  | plain (c : Char) (h : Unescaped c)
  | escape (e : Escape)
  | code (u : CodeUnit) (h : ¬ IsSurrogate u.value)
  | pair (high low : CodeUnit) (hhigh : 0xD800 ≤ high.value ∧ high.value ≤ 0xDBFF)
      (hlow : 0xDC00 ≤ low.value ∧ low.value ≤ 0xDFFF)

def Item.bytes : Item → Bytes
  | .plain c _ => String.utf8EncodeChar c
  | .escape e => [0x5C, e.letter]
  | .code u _ => u.bytes
  | .pair high low _ _ => high.bytes ++ low.bytes

/-- The character it stands for. -/
def Item.char : Item → Char
  | .plain c _ => c
  | .escape e => e.char
  | .code u _ => Char.ofNat u.value
  | .pair high low _ _ =>
      Char.ofNat (0x10000 + (high.value - 0xD800) * 0x400 + (low.value - 0xDC00))

abbrev JString := List Item

/-- Behind the opening quote, up to the closing one. -/
def body (s : JString) : Bytes := s.flatMap Item.bytes

/-- The value of a string. -/
def chars (s : JString) : List Char := s.map Item.char

def utf8 (cs : List Char) : Bytes := cs.flatMap String.utf8EncodeChar

/-- Different codes below 256 are different bytes. -/
theorem ofNat_ne {n k : Nat} (hn : n < 256) (hk : k < 256) (h : n ≠ k) :
    UInt8.ofNat n ≠ UInt8.ofNat k := by
  intro heq
  have hnat := congrArg UInt8.toNat heq
  rw [UInt8.toNat_ofNat', UInt8.toNat_ofNat', Nat.mod_eq_of_lt hn, Nat.mod_eq_of_lt hk] at hnat
  exact h hnat

/-- A byte of a character is the character, or has its top bit set. -/
theorem mem_utf8EncodeChar {c : Char} {b : UInt8} (h : b ∈ String.utf8EncodeChar c) :
    ∃ n, b = UInt8.ofNat n ∧ n < 256 ∧ (0x80 ≤ n ∨ n = c.toNat) := by
  have hval : c.val.toNat = c.toNat := rfl
  unfold String.utf8EncodeChar at h
  dsimp only at h
  split at h
  · simp only [List.mem_cons, List.not_mem_nil, or_false] at h
    exact ⟨_, h, by omega, Or.inr hval⟩
  · split at h
    · simp only [List.mem_cons, List.not_mem_nil, or_false] at h
      rcases h with h | h <;> exact ⟨_, h, by omega, Or.inl (by omega)⟩
    · split at h
      · simp only [List.mem_cons, List.not_mem_nil, or_false] at h
        rcases h with h | h | h <;> exact ⟨_, h, by omega, Or.inl (by omega)⟩
      · simp only [List.mem_cons, List.not_mem_nil, or_false] at h
        rcases h with h | h | h | h <;> exact ⟨_, h, by omega, Or.inl (by omega)⟩

/-- No byte of an unescaped character is a quote or a backslash. -/
theorem Unescaped.bytes_ne {c : Char} (h : Unescaped c) {b : UInt8}
    (hb : b ∈ String.utf8EncodeChar c) : b ≠ 0x22 ∧ b ≠ 0x5C := by
  obtain ⟨-, hquote, hslash⟩ := h
  obtain ⟨n, rfl, hn, hhigh⟩ := mem_utf8EncodeChar hb
  exact ⟨ofNat_ne (k := 0x22) hn (by omega) (by omega),
    ofNat_ne (k := 0x5C) hn (by omega) (by omega)⟩

/-- A character of one byte is the byte. -/
theorem toNat_of_utf8EncodeChar {c : Char} {n : Nat} {bs rest : Bytes} (hn : n < 0x80)
    (h : String.utf8EncodeChar c ++ bs = UInt8.ofNat n :: rest) : c.toNat = n ∧ bs = rest := by
  have hval : c.val.toNat = c.toNat := rfl
  have hhigh : ∀ {k : Nat}, 0x80 ≤ k → k < 256 → UInt8.ofNat k ≠ UInt8.ofNat n :=
    fun hk hlt => ofNat_ne hlt (by omega) (by omega)
  unfold String.utf8EncodeChar at h
  dsimp only at h
  split at h
  · obtain ⟨hbyte, hrest⟩ := List.cons.inj h
    refine ⟨?_, hrest⟩
    by_contra hne
    exact ofNat_ne (by omega) (by omega) (hval ▸ hne) hbyte
  · split at h
    · exact absurd (List.cons.inj h).1 (hhigh (by omega) (by omega))
    · split at h
      · exact absurd (List.cons.inj h).1 (hhigh (by omega) (by omega))
      · exact absurd (List.cons.inj h).1 (hhigh (by omega) (by omega))

/-- A string whose bytes are ASCII, without a backslash, stands for them. -/
theorem chars_of_body : ∀ (s : JString) (cs : List Char),
    (∀ c ∈ cs, c.toNat < 0x80 ∧ c.toNat ≠ 0x5C) → body s = cs.map (fun c => UInt8.ofNat c.toNat) →
      chars s = cs
  | [], [], _, _ => rfl
  | [], c :: cs, _, h => by cases h
  | i :: s, [], _, h => by
      have hbody : i.bytes ++ body s = [] := h
      have hnil := (List.append_eq_nil_iff.mp hbody).1
      cases i with
      | plain c hc => exact absurd hnil String.utf8EncodeChar_ne_nil
      | escape e => cases hnil
      | code u hu => cases hnil
      | pair high low hhigh hlow => cases hnil
  | i :: s, c :: cs, hcs, h => by
      obtain ⟨⟨hascii, hslash⟩, hcs⟩ := List.forall_mem_cons.mp hcs
      have hbody : i.bytes ++ body s =
        UInt8.ofNat c.toNat :: cs.map (fun c => UInt8.ofNat c.toNat) := h
      -- An escape would begin with a backslash.
      have hfirst : ∀ more : Bytes, 0x5C :: more ≠
          UInt8.ofNat c.toNat :: cs.map (fun c => UInt8.ofNat c.toNat) := by
        intro more hmore
        exact ofNat_ne (k := 0x5C) (by omega) (by omega) hslash (List.cons.inj hmore).1.symm
      cases i with
      | plain d hd =>
          obtain ⟨hd, hrest⟩ := toNat_of_utf8EncodeChar hascii hbody
          have hchar : d = c := Char.toNat_inj.mp hd
          have hchars : chars (.plain d ‹Unescaped d› :: s) = d :: chars s := rfl
          rw [hchars, hchar, chars_of_body s cs hcs hrest]
      | escape e => exact absurd hbody (hfirst _)
      | code u hu => exact absurd hbody (hfirst _)
      | pair high low hhigh hlow => exact absurd hbody (hfirst _)

/-! ### Literals and numbers -/

def digitBytes (ds : List (Fin 10)) : Bytes := ds.map (fun d => UInt8.ofNat (0x30 + d.val))

structure Exponent where
  upper : Bool
  /-- `true` is a minus. -/
  sign : Option Bool
  digits : List (Fin 10)
  digits_ne : digits ≠ []

def Exponent.bytes (e : Exponent) : Bytes :=
  (if e.upper then 0x45 else 0x65) ::
    ((e.sign.map (fun minus => if minus then 0x2D else 0x2B)).toList ++ digitBytes e.digits)

structure Number where
  minus : Bool
  int : List (Fin 10)
  int_ne : int ≠ []
  /-- No leading zero. -/
  int_zero : int.head? = some 0 → int.length = 1
  frac : Option { ds : List (Fin 10) // ds ≠ [] }
  exponent : Option Exponent

def Number.bytes (n : Number) : Bytes :=
  (if n.minus then [0x2D] else []) ++ digitBytes n.int ++
    (n.frac.map (fun ds => 0x2E :: digitBytes ds.val)).getD [] ++
    (n.exponent.map Exponent.bytes).getD []

/-- A value without structure that is no string. -/
inductive Atom
  | null
  | true
  | false
  | number (n : Number)

def Atom.bytes : Atom → Bytes
  | .null => ascii "null"
  | .true => ascii "true"
  | .false => ascii "false"
  | .number n => n.bytes

/-- The bytes of literals and numbers. -/
def wordBytes : Bytes := ascii "+-.0123456789Eaeflnrstu"

/-- Digits are bytes of words. -/
theorem digitBytes_word {ds : List (Fin 10)} : ∀ b ∈ digitBytes ds, b ∈ wordBytes := by
  have hdigit : ∀ d : Fin 10, UInt8.ofNat (0x30 + d.val) ∈ wordBytes := by decide
  intro b hb
  obtain ⟨d, -, rfl⟩ := List.mem_map.mp hb
  exact hdigit d

/-- An exponent is made of bytes of words. -/
theorem Exponent.bytes_word (e : Exponent) : ∀ b ∈ e.bytes, b ∈ wordBytes := by
  have hletter : (if e.upper then 0x45 else 0x65 : UInt8) ∈ wordBytes := by
    cases e.upper <;> decide
  have hsign : ∀ b ∈ (e.sign.map (fun minus => if minus then 0x2D else 0x2B)).toList,
      b ∈ wordBytes := by
    rcases e.sign with _ | minus
    · simp
    · cases minus <;> exact List.forall_mem_singleton.mpr (by decide)
  intro b hb
  rcases List.mem_cons.mp hb with rfl | hb
  · exact hletter
  · rcases List.mem_append.mp hb with hb | hb
    · exact hsign b hb
    · exact digitBytes_word b hb

/-- So is a number. -/
theorem Number.bytes_word (n : Number) : ∀ b ∈ n.bytes, b ∈ wordBytes := by
  have hminus : ∀ b ∈ (if n.minus then [0x2D] else []), b ∈ wordBytes := by
    cases n.minus with
    | false => simp
    | true => exact List.forall_mem_singleton.mpr (by decide)
  have hfrac : ∀ b ∈ (n.frac.map (fun ds => 0x2E :: digitBytes ds.val)).getD [], b ∈ wordBytes := by
    rcases n.frac with _ | ds
    · simp
    · exact List.forall_mem_cons.mpr ⟨by decide, digitBytes_word⟩
  have hexponent : ∀ b ∈ (n.exponent.map Exponent.bytes).getD [], b ∈ wordBytes := by
    rcases n.exponent with _ | e
    · simp
    · exact e.bytes_word
  intro b hb
  unfold bytes at hb
  simp only [List.mem_append] at hb
  rcases hb with ((hb | hb) | hb) | hb
  · exact hminus b hb
  · exact digitBytes_word b hb
  · exact hfrac b hb
  · exact hexponent b hb

/-- A literal whose bytes are all of words. -/
theorem literal_word {s : Bytes} (h : s.all (wordBytes.elem ·) = true) : ∀ b ∈ s, b ∈ wordBytes :=
  fun b hb => List.elem_iff.mp (List.all_eq_true.mp h b hb)

/-- So is every literal. -/
theorem Atom.bytes_word (a : Atom) : ∀ b ∈ a.bytes, b ∈ wordBytes := by
  cases a with
  | null => exact literal_word (by decide)
  | true => exact literal_word (by decide)
  | false => exact literal_word (by decide)
  | number n => exact n.bytes_word

/-- No atom is empty. -/
theorem Atom.bytes_ne_nil (a : Atom) : a.bytes ≠ [] := by
  cases a with
  | null => decide
  | true => decide
  | false => decide
  | number n =>
      have hint := n.int_ne
      simp [bytes, Number.bytes, digitBytes, hint]

/-! ### Tokens -/

inductive Space
  | blank
  | tab
  | lineFeed
  | carriageReturn
  deriving DecidableEq

def Space.byte : Space → UInt8
  | .blank => 0x20
  | .tab => 0x09
  | .lineFeed => 0x0A
  | .carriageReturn => 0x0D

inductive Mark
  | openBrace
  | closeBrace
  | openBracket
  | closeBracket
  | comma
  | colon
  deriving DecidableEq

def Mark.byte : Mark → UInt8
  | .openBrace => 0x7B
  | .closeBrace => 0x7D
  | .openBracket => 0x5B
  | .closeBracket => 0x5D
  | .comma => 0x2C
  | .colon => 0x3A

inductive Token
  | space (s : Space)
  | mark (m : Mark)
  | atom (a : Atom)
  | string (s : JString)

def Token.bytes : Token → Bytes
  | .space s => [s.byte]
  | .mark m => [m.byte]
  | .atom a => a.bytes
  | .string s => 0x22 :: (body s ++ [0x22])

def textOf (ts : List Token) : Bytes := ts.flatMap Token.bytes

/-- No token, no text. -/
@[simp] theorem textOf_nil : textOf [] = [] := rfl

/-- The first token's bytes come first. -/
@[simp] theorem textOf_cons (t : Token) (ts : List Token) :
    textOf (t :: ts) = t.bytes ++ textOf ts := rfl

def spaces (ss : List Space) : List Token := ss.map .space

/-! ### Trees -/

mutual

inductive Value
  | atom (a : Atom)
  | string (s : JString)
  | array (inner : List Space) (elements : Elements)
  | object (inner : List Space) (members : Members)

inductive Elements
  | nil
  | cons (before : List Space) (value : Value) (after : List Space) (rest : Elements)

/-- `between` stands between name and colon, `behind` behind the colon. -/
inductive Members
  | nil
  | cons (before : List Space) (name : JString) (between behind : List Space) (value : Value)
      (after : List Space) (rest : Members)

end

-- Elements and members are written each with a comma in front; the first one's
-- is dropped where they are put into their brackets.
mutual

def Value.tokens : Value → List Token
  | .atom a => [.atom a]
  | .string s => [.string s]
  | .array inner elements =>
      .mark .openBracket :: (spaces inner ++ (elements.tokens.tail ++ [.mark .closeBracket]))
  | .object inner members =>
      .mark .openBrace :: (spaces inner ++ (members.tokens.tail ++ [.mark .closeBrace]))

def Elements.tokens : Elements → List Token
  | .nil => []
  | .cons before value after rest =>
      .mark .comma :: (spaces before ++ (value.tokens ++ (spaces after ++ rest.tokens)))

def Members.tokens : Members → List Token
  | .nil => []
  | .cons before name between behind value after rest =>
      .mark .comma :: (spaces before ++ .string name :: (spaces between ++ .mark .colon ::
        (spaces behind ++ (value.tokens ++ (spaces after ++ rest.tokens)))))

end

/-- Empty, or with a comma in front. -/
def Separated (ts : List Token) : Prop := ts = [] ∨ ts = .mark .comma :: ts.tail

/-- Each element stands behind a separator. -/
theorem Elements.separated (elements : Elements) : Separated elements.tokens := by
  cases elements with
  | nil => exact Or.inl (by simp [tokens])
  | cons before value after rest => exact Or.inr (by simp [tokens])

/-- Each member stands behind a separator. -/
theorem Members.separated (members : Members) : Separated members.tokens := by
  cases members with
  | nil => exact Or.inl (by simp [tokens])
  | cons before name between behind value after rest => exact Or.inr (by simp [tokens])

def Value.string? : Value → Option JString
  | .string s => some s
  | _ => none

/-- A member where it stands: `flush` if nothing is between it and its brace or
comma. -/
structure Member where
  flush : Bool
  name : JString
  between : List Space
  behind : List Space
  value : Value

mutual

/-- The members inside a value, in the order of the text. -/
def Value.all : Value → List Member
  | .atom _ => []
  | .string _ => []
  | .array _ elements => elements.all
  | .object inner members => members.all inner.isEmpty

def Elements.all : Elements → List Member
  | .nil => []
  | .cons _ value _ rest => value.all ++ rest.all

/-- The members of an object and those inside them. -/
def Members.all (flush : Bool) : Members → List Member
  | .nil => []
  | .cons before name between behind value _ rest =>
      ⟨flush && before.isEmpty, name, between, behind, value⟩ :: (value.all ++ rest.all true)

end

/-- The members of the object itself. -/
def Members.top (flush : Bool) : Members → List Member
  | .nil => []
  | .cons before name between behind value _ rest =>
      ⟨flush && before.isEmpty, name, between, behind, value⟩ :: rest.top true

/-- All members are the top ones, each with those inside its value. -/
theorem Members.all_eq : ∀ (members : Members) (flush : Bool),
    members.all flush = (members.top flush).flatMap (fun m => m :: m.value.all)
  | .nil, flush => by simp [Members.all, Members.top]
  | .cons before name between behind value after rest, flush => by
      simp [Members.all, Members.top, all_eq rest true]

/-- A JSON text whose value is an object. -/
structure ObjectText where
  before : List Space
  inner : List Space
  members : Members
  after : List Space

namespace ObjectText

variable (t : ObjectText)

def bytes : Bytes :=
  textOf (spaces t.before ++ ((Value.object t.inner t.members).tokens ++ spaces t.after))

def top : List Member := t.members.top t.inner.isEmpty

def all : List Member := t.members.all t.inner.isEmpty

/-- All members of an object are the top ones, each with those inside its value. -/
theorem all_eq : t.all = t.top.flatMap (fun m => m :: m.value.all) :=
  t.members.all_eq t.inner.isEmpty

end ObjectText

end JsonText
