import Mathlib.Data.List.Induction
import Mathlib.Tactic.Ring

/-!
# Byte strings, big-endian words and flag masks

A small library about byte lists that names nothing of the SDK.  A word of
`n` bytes is written most significant byte first by `toBe` and read back by
`ofBe`; the two are inverse in both directions, which is what lets a parser
conclude that the bytes it accepted are the bytes a writer would have made.

`fillArray` is the effect of copying a buffer into a zero-initialised
fixed-size array, and `hasFlag` is the C idiom `(flags & mask) != 0` on
16-bit flag words.
-/

namespace ByteCodec

/-- A byte string: `std::vector<uint8_t>` and `std::string` alike. -/
abbrev Bytes := List UInt8

/-- A `std::array<uint8_t, n>`. -/
abbrev FixedBytes (n : Nat) := { bs : Bytes // bs.length = n }

/-- The bytes of an ASCII string literal. -/
def ascii (s : String) : Bytes :=
  s.toList.map (fun c => UInt8.ofNat c.toNat)

/-- The `n` low-order bytes of `v`, most significant byte first. -/
def toBe : Nat → Nat → Bytes
  | 0, _ => []
  | n+1, v => toBe n (v / 256) ++ [UInt8.ofNat v]

/-- The number a byte string spells most significant byte first. -/
def ofBe (bs : Bytes) : Nat :=
  bs.foldl (fun acc b => acc * 256 + b.toNat) 0

/-- A number is written in as many bytes as asked for. -/
@[simp] theorem toBe_length (n v : Nat) : (toBe n v).length = n := by
  induction n generalizing v with
  | zero => rfl
  | succ n ih => simp [toBe, ih]

/-- One more byte shifts the number up and adds itself. -/
theorem ofBe_snoc (bs : Bytes) (b : UInt8) :
    ofBe (bs ++ [b]) = ofBe bs * 256 + b.toNat := by
  simp [ofBe]

/-- Reading back a written word gives the word, if it fits. -/
theorem ofBe_toBe {n v : Nat} (hv : v < 256 ^ n) : ofBe (toBe n v) = v := by
  induction n generalizing v with
  | zero => simp_all [toBe, ofBe]
  | succ n ih =>
      have hdiv : v / 256 < 256 ^ n := by
        apply Nat.div_lt_of_lt_mul
        rwa [pow_succ, Nat.mul_comm] at hv
      rw [toBe, ofBe_snoc, ih hdiv]
      simp only [UInt8.toNat_ofNat']
      omega

/-- A byte string is the word it spells, written at its own width. -/
theorem toBe_ofBe (bs : Bytes) : toBe bs.length (ofBe bs) = bs := by
  induction bs using List.reverseRecOn with
  | nil => rfl
  | append_singleton bs b ih =>
      have hb := b.toNat_lt
      have hdiv : (ofBe bs * 256 + b.toNat) / 256 = ofBe bs := by omega
      have hlow : UInt8.ofNat (ofBe bs * 256 + b.toNat) = b := by
        apply UInt8.toNat_inj.mp
        rw [UInt8.toNat_ofNat']
        omega
      rw [List.length_append, List.length_singleton, toBe, ofBe_snoc, hdiv, hlow, ih]

/-- Every byte string spells a number that fits its width. -/
theorem ofBe_lt (bs : Bytes) : ofBe bs < 256 ^ bs.length := by
  induction bs using List.reverseRecOn with
  | nil => simp [ofBe]
  | append_singleton bs b ih =>
      have hb := b.toNat_lt
      rw [ofBe_snoc, List.length_append, List.length_singleton, pow_succ]
      omega

/-- The 16-bit word two bytes spell. -/
def word16 (bs : Bytes) : UInt16 := UInt16.ofNat (ofBe bs)

/-- The 32-bit word four bytes spell. -/
def word32 (bs : Bytes) : UInt32 := UInt32.ofNat (ofBe bs)

/-- A 16-bit word survives writing and reading. -/
@[simp] theorem word16_toBe (v : UInt16) : word16 (toBe 2 v.toNat) = v := by
  rw [word16, ofBe_toBe v.toNat_lt, UInt16.ofNat_toNat]

/-- A 32-bit word survives writing and reading. -/
@[simp] theorem word32_toBe (v : UInt32) : word32 (toBe 4 v.toNat) = v := by
  rw [word32, ofBe_toBe v.toNat_lt, UInt32.ofNat_toNat]

/-- Bytes survive reading and writing at their own length. -/
theorem toBe_ofBe_of_length {bs : Bytes} {n : Nat} (h : bs.length = n) :
    toBe n (ofBe bs) = bs := by
  rw [← h, toBe_ofBe]

/-- Two bytes survive reading and writing. -/
theorem toBe_word16 {bs : Bytes} (h : bs.length = 2) : toBe 2 (word16 bs).toNat = bs := by
  have hlt : ofBe bs < 256 ^ 2 := h ▸ ofBe_lt bs
  rw [word16, UInt16.toNat_ofNat_of_lt' hlt, toBe_ofBe_of_length h]

/-- Four bytes survive reading and writing. -/
theorem toBe_word32 {bs : Bytes} (h : bs.length = 4) : toBe 4 (word32 bs).toNat = bs := by
  have hlt : ofBe bs < 256 ^ 4 := h ▸ ofBe_lt bs
  rw [word32, UInt32.toNat_ofNat_of_lt' hlt, toBe_ofBe_of_length h]

/-- The bytes `buf[off .. off + n)`. -/
def slice (buf : Bytes) (off n : Nat) : Bytes := (buf.drop off).take n

/-- A slice inside the buffer has the length asked for. -/
theorem slice_length {buf : Bytes} {off n : Nat} (h : off + n ≤ buf.length) :
    (slice buf off n).length = n := by
  simp only [slice, List.length_take, List.length_drop]
  omega

/-- A slice within the front part does not see the rest. -/
theorem slice_append_left {l r : Bytes} {off n : Nat} (h : off + n ≤ l.length) :
    slice (l ++ r) off n = slice l off n := by
  rw [slice, slice, List.drop_append_of_le_length (by omega),
    List.take_append_of_le_length (by rw [List.length_drop]; omega)]

/-- A slice that starts behind a known prefix is a slice of the rest. -/
theorem slice_append_right {l r : Bytes} {off n : Nat} (h : l.length = off) :
    slice (l ++ r) off n = r.take n := by
  simp [slice, ← h]

/-- Adjacent slices join. -/
theorem slice_append_slice (buf : Bytes) {off m next n : Nat} (h : off + m = next) :
    slice buf off m ++ slice buf next n = slice buf off (m + n) := by
  simp only [slice, List.take_add, List.drop_drop, h]

/-- Strings that agree at the positions of a slice have the same slice. -/
theorem slice_congr {p q : Bytes} {off n : Nat}
    (h : ∀ i, off ≤ i → i < off + n → p[i]? = q[i]?) : slice p off n = slice q off n := by
  apply List.ext_getElem?
  intro i
  simp only [slice, List.getElem?_take, List.getElem?_drop]
  split
  · exact h (off + i) (by omega) (by omega)
  · rfl

/-- The strings have one length and differ only at the `n` positions from `k` on. -/
def DifferWithin (k n : Nat) (p q : Bytes) : Prop :=
  p.length = q.length ∧ ∀ i, p[i]? ≠ q[i]? → k ≤ i ∧ i < k + n

/-- Outside the window the two texts agree. -/
theorem DifferWithin.agree {k n i : Nat} {p q : Bytes} (h : DifferWithin k n p q)
    (hi : i < k ∨ k + n ≤ i) : p[i]? = q[i]? := by
  by_contra hne
  obtain ⟨hge, hlt⟩ := h.2 i hne
  omega

/-- Such strings have the same front and the same back. -/
theorem DifferWithin.split {k n : Nat} {p q : Bytes} (h : DifferWithin k n p q) :
    ∃ front u v back, p = front ++ u ++ back ∧ q = front ++ v ++ back ∧
      u.length = v.length ∧ u.length ≤ n := by
  have hparts : ∀ s : Bytes, s = s.take k ++ slice s k n ++ s.drop (k + n) := by
    intro s
    rw [slice, ← List.drop_drop, List.append_assoc, List.take_append_drop,
      List.take_append_drop]
  have hslice : slice p 0 k = slice q 0 k :=
    slice_congr (fun i _ hi => h.agree (Or.inl (by omega)))
  have hfront : p.take k = q.take k := hslice
  have hback : p.drop (k + n) = q.drop (k + n) := by
    apply List.ext_getElem?
    intro i
    rw [List.getElem?_drop, List.getElem?_drop]
    exact h.agree (Or.inr (by omega))
  refine ⟨p.take k, slice p k n, slice q k n, p.drop (k + n), hparts p, ?_, ?_, ?_⟩
  · rw [hfront, hback]
    exact hparts q
  · have hlen := h.1
    simp only [slice, List.length_take, List.length_drop]
    omega
  · simp only [slice, List.length_take]
    omega

/-- A zero-initialised array of `n` bytes after copying `bs` into it. -/
def fillArray (n : Nat) (bs : Bytes) : FixedBytes n :=
  ⟨(bs ++ List.replicate n 0).take n, by simp⟩

/-- Copying from a long enough buffer leaves no padding. -/
theorem fillArray_val {n : Nat} {bs : Bytes} (h : n ≤ bs.length) :
    (fillArray n bs).val = bs.take n := by
  simp [fillArray, List.take_append_of_le_length h]

/-- An array is filled from its own bytes, whatever follows. -/
theorem fillArray_toList_append {n : Nat} (v : FixedBytes n) (rest : Bytes) :
    fillArray n (v.val ++ rest) = v := by
  apply Subtype.ext
  rw [fillArray_val (by simp [v.2])]
  simp [v.2]

/-- `(flags & mask) != 0`. -/
def hasFlag (flags mask : UInt16) : Bool := flags &&& mask != 0

/-- Words that agree in every bit are equal. -/
private theorem uint16_ext {a b : UInt16}
    (h : ∀ i, a.toBitVec.getLsbD i = b.toBitVec.getLsbD i) : a = b :=
  UInt16.toBitVec_inj.mp (BitVec.eq_of_getLsbD_eq fun i _ => h i)

/-- Masking goes into both sides of an `or`. -/
theorem and_or_distrib (a b c : UInt16) :
    (a ||| b) &&& c = (a &&& c) ||| (b &&& c) := by
  apply uint16_ext
  intro i
  simp [Bool.and_or_distrib_right]

/-- Two words are zero together exactly when their `or` is. -/
theorem or_eq_zero {a b : UInt16} : a ||| b = 0 ↔ a = 0 ∧ b = 0 := by
  constructor
  · intro h
    have hbit : ∀ i, (a.toBitVec.getLsbD i || b.toBitVec.getLsbD i) = false := by
      intro i
      have := congrArg (fun x : UInt16 => x.toBitVec.getLsbD i) h
      simpa using this
    constructor <;> apply uint16_ext <;> intro i <;> have := hbit i <;> simp_all
  · rintro ⟨rfl, rfl⟩
    decide

/-- A flag is in a union of two words when it is in one of them. -/
@[simp] theorem hasFlag_or (a b mask : UInt16) :
    hasFlag (a ||| b) mask = (hasFlag a mask || hasFlag b mask) := by
  rw [Bool.eq_iff_iff]
  simp only [hasFlag, and_or_distrib, bne_iff_ne, ne_eq, or_eq_zero, Bool.or_eq_true]
  tauto

/-- The empty flag word has no flag. -/
@[simp] theorem hasFlag_zero (mask : UInt16) : hasFlag 0 mask = false := by
  simp [hasFlag]

/-- Clearing a mask removes it. -/
@[simp] theorem hasFlag_clear_self (a mask : UInt16) :
    hasFlag (a &&& ~~~mask) mask = false := by
  have h : (a &&& ~~~mask) &&& mask = 0 := by
    apply uint16_ext
    intro i
    simp only [UInt16.toBitVec_and, UInt16.toBitVec_not, BitVec.getLsbD_and, BitVec.getLsbD_not]
    cases mask.toBitVec.getLsbD i <;> simp
  simp [hasFlag, h]

/-- Clearing other bits leaves a mask alone. -/
theorem hasFlag_clear_other (a : UInt16) {cleared mask : UInt16} (h : ~~~cleared &&& mask = mask) :
    hasFlag (a &&& ~~~cleared) mask = hasFlag a mask := by
  rw [hasFlag, UInt16.and_assoc, h, hasFlag]

/-- Setting an absent mask and clearing it again is the identity. -/
theorem clear_or_of_not_hasFlag {a mask : UInt16} (h : hasFlag a mask = false) :
    (a ||| mask) &&& ~~~mask = a := by
  have hzero : a &&& mask = 0 := by simpa [hasFlag] using h
  apply uint16_ext
  intro i
  have hbit := congrArg (fun x : UInt16 => x.toBitVec.getLsbD i) hzero
  by_cases hi : i < 16
  · simp only [UInt16.toBitVec_and, UInt16.toBitVec_or, UInt16.toBitVec_not,
      BitVec.getLsbD_and, BitVec.getLsbD_or, BitVec.getLsbD_not, hi, decide_true,
      Bool.true_and] at hbit ⊢
    cases hm : mask.toBitVec.getLsbD i <;> simp_all
  · simp [BitVec.getLsbD_of_ge, Nat.le_of_not_lt hi]

/-- Setting a mask that is already set changes nothing. -/
theorem or_eq_self_of_subset {a mask : UInt16} (h : a &&& mask = mask) :
    mask ||| a = a := by
  apply uint16_ext
  intro i
  have hbit := congrArg (fun x : UInt16 => x.toBitVec.getLsbD i) h
  simp only [UInt16.toBitVec_and, UInt16.toBitVec_or, BitVec.getLsbD_and,
    BitVec.getLsbD_or] at hbit ⊢
  cases hm : mask.toBitVec.getLsbD i <;> simp_all

end ByteCodec
