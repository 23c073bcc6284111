import Mathlib.Data.List.GetD
import Mathlib.Logic.Function.Iterate
import Mathlib.Tactic.Common

/-!
# Reflected cyclic redundancy checks

A register of `w` bits takes a message bit by bit, least significant bit first.
The register and the polynomial are arbitrary; nothing here names a particular
checksum.

A shift is linear in exclusive or, so `w` message bits or fewer can be added to
the register at once and then shifted out (`run_eq_iterate`).  That gives the two
uses of the library: the table step, which shifts out a block of bits with one
lookup (`run_eq_table`), and the detection of a burst no longer than the register
(`run_ne_of_burst`), for a polynomial whose highest bit is set.
-/

namespace ReflectedCrc

variable {w : Nat} (poly : BitVec w)

/-- Shift one bit out of the register. -/
def shift (c : BitVec w) : BitVec w :=
  if c.getLsbD 0 then poly ^^^ (c >>> 1) else c >>> 1

/-- Take in one message bit. -/
def bitStep (c : BitVec w) (bit : Bool) : BitVec w :=
  if c.getLsbD 0 ^^ bit then poly ^^^ (c >>> 1) else c >>> 1

/-- Take in a message, its first bit first. -/
def run (c : BitVec w) (bits : List Bool) : BitVec w :=
  bits.foldl (bitStep poly) c

/-- The first `w` bits of a message as a register. -/
def word (bits : List Bool) : BitVec w :=
  (BitVec.ofBoolListLE bits).setWidth w

/-- The bits of a word, padded with zeros. -/
@[simp] theorem getLsbD_word (bits : List Bool) (i : Nat) :
    (word bits : BitVec w).getLsbD i = (decide (i < w) && bits.getD i false) := by
  simp [word]

/-- The register runs over one text and then over the other. -/
theorem run_append (c : BitVec w) (u v : List Bool) :
    run poly c (u ++ v) = run poly (run poly c u) v :=
  List.foldl_append

/-! ### Linearity -/

/-- The same term on both sides cancels. -/
theorem xor_cancel_left (p a b : BitVec w) : p ^^^ a ^^^ (p ^^^ b) = a ^^^ b := by
  calc p ^^^ a ^^^ (p ^^^ b)
      = (p ^^^ p) ^^^ (a ^^^ b) := by ac_rfl
    _ = a ^^^ b := by rw [BitVec.xor_self, BitVec.zero_xor]

/-- The shift is linear. -/
theorem shift_xor (a b : BitVec w) : shift poly (a ^^^ b) = shift poly a ^^^ shift poly b := by
  simp only [shift, BitVec.getLsbD_xor, BitVec.ushiftRight_xor_distrib]
  cases a.getLsbD 0 <;> cases b.getLsbD 0 <;> simp only [Bool.xor_false, Bool.xor_true,
    Bool.not_false, Bool.not_true, Bool.false_eq_true, if_true, if_false]
  · ac_rfl
  · ac_rfl
  · rw [xor_cancel_left]

/-- So is any number of shifts. -/
theorem iterate_shift_xor (n : Nat) (a b : BitVec w) :
    (shift poly)^[n] (a ^^^ b) = (shift poly)^[n] a ^^^ (shift poly)^[n] b := by
  induction n generalizing a b with
  | zero => rfl
  | succ n ih =>
      rw [Function.iterate_succ_apply, shift_xor, ih]
      rfl

/-- The bit that is shifted out is the one that matters; the others only move. -/
theorem shift_xor_eq_bitStep (c y : BitVec w) :
    shift poly (c ^^^ y) = bitStep poly c (y.getLsbD 0) ^^^ (y >>> 1) := by
  simp only [shift, bitStep, BitVec.getLsbD_xor, BitVec.ushiftRight_xor_distrib]
  split
  · rw [BitVec.xor_assoc]
  · rfl

/-- A word loses its first bit in one move. -/
theorem word_cons_shiftRight {bit : Bool} {bits : List Bool} (h : bits.length < w) :
    (word (bit :: bits) : BitVec w) >>> 1 = word bits := by
  apply BitVec.eq_of_getLsbD_eq
  intro i hi
  rw [BitVec.getLsbD_ushiftRight, getLsbD_word, getLsbD_word, Nat.add_comm 1 i,
    List.getD_cons_succ]
  by_cases hin : i + 1 < w
  · simp [hi, hin]
  · rw [List.getD_eq_default _ _ (by omega)]
    simp

/-- **A block of bits at once**: added to the register, then shifted out. -/
theorem run_eq_iterate {bits : List Bool} (h : bits.length ≤ w) (c : BitVec w) :
    run poly c bits = (shift poly)^[bits.length] (c ^^^ word bits) := by
  induction bits generalizing c with
  | nil =>
      have hzero : (word [] : BitVec w) = 0#w := by
        apply BitVec.eq_of_getLsbD_eq
        simp
      simp [run, hzero]
  | cons bit bits ih =>
      rw [List.length_cons] at h
      have hfirst : (word (bit :: bits) : BitVec w).getLsbD 0 = bit := by
        rw [getLsbD_word, List.getD_cons_zero, decide_eq_true (by omega), Bool.true_and]
      calc run poly c (bit :: bits)
          = run poly (bitStep poly c bit) bits := rfl
        _ = (shift poly)^[bits.length] (bitStep poly c bit ^^^ word bits) := ih (by omega) _
        _ = (shift poly)^[bits.length] (shift poly (c ^^^ word (bit :: bits))) := by
            rw [shift_xor_eq_bitStep, hfirst, word_cons_shiftRight (by omega)]
        _ = (shift poly)^[(bit :: bits).length] (c ^^^ word (bit :: bits)) := rfl

/-! ### The table step -/

/-- A register whose low `n` bits are clear only moves. -/
theorem iterate_shift_of_low_clear {n : Nat} {y : BitVec w}
    (h : ∀ i < n, y.getLsbD i = false) : (shift poly)^[n] y = y >>> n := by
  induction n with
  | zero => simp
  | succ n ih =>
      have hlow : (y >>> n).getLsbD 0 = false := by
        simpa [BitVec.getLsbD_ushiftRight] using h n (by omega)
      rw [Function.iterate_succ_apply', ih (fun i hi => h i (by omega)), shift, hlow,
        if_neg (by simp), ← BitVec.shiftRight_add]

/-- The low `n` bits of a register. -/
def low (n : Nat) (c : BitVec w) : BitVec w := (c.setWidth n).setWidth w

/-- The low bits of a register. -/
@[simp] theorem getLsbD_low (n : Nat) (c : BitVec w) (i : Nat) :
    (low n c).getLsbD i = (decide (i < n) && c.getLsbD i) := by
  by_cases hi : i < w
  · simp [low, BitVec.getLsbD_setWidth, hi]
  · simp [BitVec.getLsbD_of_ge _ _ (Nat.le_of_not_lt hi)]

/-- The low bits are shifted out, the high ones move in their place. -/
theorem iterate_shift_split (n : Nat) (c : BitVec w) :
    (shift poly)^[n] c = (shift poly)^[n] (low n c) ^^^ (c >>> n) := by
  have hsplit : c = low n c ^^^ (c ^^^ low n c) := by
    rw [BitVec.xor_comm c, ← BitVec.xor_assoc, BitVec.xor_self, BitVec.zero_xor]
  have hclear : ∀ i < n, (c ^^^ low n c).getLsbD i = false := by
    intro i hi
    simp [hi]
  have hlow : low n c >>> n = 0#w := by
    apply BitVec.eq_of_getLsbD_eq
    intro i _
    rw [BitVec.getLsbD_ushiftRight, getLsbD_low, decide_eq_false (by omega), Bool.false_and,
      BitVec.getLsbD_zero]
  calc (shift poly)^[n] c
      = (shift poly)^[n] (low n c) ^^^ (shift poly)^[n] (c ^^^ low n c) := by
        rw [← iterate_shift_xor, ← hsplit]
    _ = (shift poly)^[n] (low n c) ^^^ (c >>> n) := by
        rw [iterate_shift_of_low_clear poly hclear, BitVec.ushiftRight_xor_distrib, hlow,
          BitVec.xor_zero]

/-- **The table step**: a block of bits is taken in by one lookup, at the low
bits of the register with the block added. -/
theorem run_eq_table {bits : List Bool} (h : bits.length ≤ w) (c : BitVec w) :
    run poly c bits =
      (shift poly)^[bits.length] (low bits.length (c ^^^ word bits)) ^^^ (c >>> bits.length) := by
  have hword : (word bits : BitVec w) >>> bits.length = 0#w := by
    apply BitVec.eq_of_getLsbD_eq
    intro i hi
    rw [BitVec.getLsbD_ushiftRight, getLsbD_word, List.getD_eq_default _ _ (by omega)]
    simp
  rw [run_eq_iterate poly h, iterate_shift_split, BitVec.ushiftRight_xor_distrib, hword,
    BitVec.xor_zero]

/-! ### Bursts -/

/-- No register but zero is shifted to zero. -/
theorem eq_zero_of_shift_eq_zero (hpoly : poly.msb = true) {c : BitVec w}
    (h : shift poly c = 0#w) : c = 0#w := by
  have hw : 0 < w := by
    by_contra hzero
    obtain rfl : w = 0 := by omega
    simp [BitVec.msb, BitVec.getMsbD] at hpoly
  have hbit : ∀ i, (shift poly c).getLsbD i = false := by simp [h]
  cases hlow : c.getLsbD 0 with
  | true =>
      -- The highest bit comes from the polynomial alone.
      have htop := hbit (w - 1)
      rw [shift, hlow, if_pos rfl, BitVec.getLsbD_xor, BitVec.getLsbD_ushiftRight,
        BitVec.getLsbD_of_ge c _ (by omega), Bool.xor_false, ← BitVec.msb_eq_getLsbD_last,
        hpoly] at htop
      cases htop
  | false =>
      apply BitVec.eq_of_getLsbD_eq
      intro i _
      cases i with
      | zero => simpa using hlow
      | succ i =>
          have hmoved := hbit i
          rw [shift, hlow, if_neg (by simp), BitVec.getLsbD_ushiftRight, Nat.add_comm] at hmoved
          simpa using hmoved

/-- The shift loses nothing when the polynomial's top bit is set. -/
theorem shift_injective (hpoly : poly.msb = true) : Function.Injective (shift poly) := by
  intro a b h
  have hzero : a ^^^ b = 0#w := by
    apply eq_zero_of_shift_eq_zero poly hpoly
    rw [shift_xor, h, BitVec.xor_self]
  exact BitVec.xor_eq_zero_iff.mp hzero

/-- Registers that take in the same bit differ by the shift of their difference. -/
theorem bitStep_xor_bitStep (c d : BitVec w) (bit : Bool) :
    bitStep poly c bit ^^^ bitStep poly d bit = shift poly (c ^^^ d) := by
  rw [shift_xor]
  unfold bitStep shift
  cases bit with
  | false => simp only [Bool.xor_false]
  | true =>
      simp only [Bool.xor_true]
      cases c.getLsbD 0 <;> cases d.getLsbD 0 <;> simp only [Bool.not_false, Bool.not_true,
        Bool.false_eq_true, if_true, if_false]
      · rw [xor_cancel_left]
      · ac_rfl
      · ac_rfl
      · rw [xor_cancel_left]

/-- No message makes two registers one. -/
theorem run_left_injective (hpoly : poly.msb = true) (bits : List Bool) :
    Function.Injective (fun c => run poly c bits) := by
  induction bits with
  | nil => exact fun _ _ h => h
  | cons bit bits ih =>
      intro c d h
      have hstep : bitStep poly c bit = bitStep poly d bit := ih h
      have hzero : c ^^^ d = 0#w := by
        apply eq_zero_of_shift_eq_zero poly hpoly
        rw [← bitStep_xor_bitStep poly c d bit, hstep, BitVec.xor_self]
      exact BitVec.xor_eq_zero_iff.mp hzero

/-- Messages no longer than the register are told apart. -/
theorem run_right_injective (hpoly : poly.msb = true) (c : BitVec w) {u v : List Bool}
    (hlen : u.length = v.length) (hle : u.length ≤ w) (h : run poly c u = run poly c v) :
    u = v := by
  rw [run_eq_iterate poly hle, run_eq_iterate poly (hlen ▸ hle), hlen] at h
  have hword : (word u : BitVec w) = word v :=
    (BitVec.xor_right_inj c).mp ((shift_injective poly hpoly).iterate _ h)
  apply List.ext_getElem hlen
  intro i hu hv
  have hbit := congrArg (fun c : BitVec w => c.getLsbD i) hword
  have hi : i < w := by omega
  simpa only [getLsbD_word, hi, decide_true, Bool.true_and, List.getD_eq_getElem _ _ hu,
    List.getD_eq_getElem _ _ hv] using hbit

/-- **A burst is detected**: messages that differ only in a block no longer than
the register leave different registers. -/
theorem run_ne_of_burst (hpoly : poly.msb = true) (c : BitVec w) (front : List Bool)
    {u v : List Bool} (back : List Bool) (hlen : u.length = v.length) (hle : u.length ≤ w)
    (hne : u ≠ v) :
    run poly c (front ++ u ++ back) ≠ run poly c (front ++ v ++ back) := by
  intro h
  rw [run_append, run_append, run_append, run_append] at h
  exact hne (run_right_injective poly hpoly _ hlen hle (run_left_injective poly hpoly back h))

end ReflectedCrc
