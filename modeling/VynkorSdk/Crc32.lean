import VynkorSdk.ByteCodec
import VynkorSdk.ReflectedCrc

/-!
# The frame checksum

`vynkorCrc32` is the table-driven CRC-32/ISO-HDLC of `framing.cpp`.  The
256-entry table is modelled by the function that gives each of its entries.

`crc32IsoHdlc` is the same checksum as its definition has it, one message bit
after the other.  The two agree because a byte step shifts out eight bits with
one lookup; bursts of up to four bytes are detected because the bitwise register
detects bursts of up to its own length.
-/

namespace Vynkor

open ByteCodec

/-- One inner step of `build_crc32_table`. -/
def crcShift (c : UInt32) : UInt32 :=
  if c &&& 1 != 0 then (0xEDB88320 : UInt32) ^^^ (c >>> 1) else c >>> 1

/-- Entry `i` of the table: eight inner steps from `i`. -/
def buildCrc32Table (i : UInt8) : UInt32 :=
  (List.range 8).foldl (fun c _ => crcShift c) i.toUInt32

/-- One step of the byte loop of `vynkor_crc32`. -/
def crcUpdate (crc : UInt32) (b : UInt8) : UInt32 :=
  buildCrc32Table ((crc ^^^ b.toUInt32) &&& 0xFF).toUInt8 ^^^ (crc >>> 8)

/-- CRC-32/ISO-HDLC of a byte string. -/
def vynkorCrc32 (data : Bytes) : UInt32 :=
  data.foldl crcUpdate 0xFFFFFFFF ^^^ 0xFFFFFFFF

/-- The check value of CRC-32/ISO-HDLC: the checksum of the digits `1` to `9`. -/
example : vynkorCrc32 (ascii "123456789") = 0xCBF43926 := by decide +kernel

/-! ### Bit by bit -/

/-- The bits of a byte, least significant first. -/
def byteBits (b : UInt8) : List Bool :=
  (List.range 8).map b.toBitVec.getLsbD

/-- The reflected polynomial. -/
def crcPoly : BitVec 32 := 0xEDB88320#32

/-- CRC-32/ISO-HDLC, bit by bit. -/
def crc32IsoHdlc (data : Bytes) : BitVec 32 :=
  ~~~ ReflectedCrc.run crcPoly 0xFFFFFFFF#32 (data.flatMap byteBits)

/-- A byte has eight bits. -/
@[simp] theorem byteBits_length (b : UInt8) : (byteBits b).length = 8 := by
  simp [byteBits]

/-- The bits of a byte, lowest first. -/
theorem byteBits_getD (b : UInt8) (i : Nat) : (byteBits b).getD i false = b.toBitVec.getLsbD i := by
  by_cases hi : i < 8
  · rw [List.getD_eq_getElem _ _ (by simpa using hi)]
    simp [byteBits]
  · rw [List.getD_eq_default _ _ (by simpa using hi), BitVec.getLsbD_of_ge _ _ (by omega)]

/-- The bits of a byte as a register are the byte. -/
theorem word_byteBits (b : UInt8) :
    (ReflectedCrc.word (byteBits b) : BitVec 32) = b.toUInt32.toBitVec := by
  apply BitVec.eq_of_getLsbD_eq
  intro i hi
  rw [ReflectedCrc.getLsbD_word, byteBits_getD]
  simp [hi]

/-- One shift of the code is one shift of the register. -/
theorem crcShift_toBitVec (c : UInt32) :
    (crcShift c).toBitVec = ReflectedCrc.shift crcPoly c.toBitVec := by
  have hlow : (c &&& 1 != 0) = c.toBitVec.getLsbD 0 := by
    have hone : (c &&& 1).toBitVec = (BitVec.ofBool (c.toBitVec.getLsbD 0)).setWidth 32 :=
      BitVec.and_one_eq_setWidth_ofBool_getLsbD
    cases hbit : c.toBitVec.getLsbD 0 with
    | false =>
        rw [hbit] at hone
        have hzero : c &&& 1 = 0 := UInt32.toBitVec_inj.mp hone
        simp [hzero]
    | true =>
        rw [hbit] at hone
        have hset : c &&& 1 = 1 := UInt32.toBitVec_inj.mp hone
        simp [hset]
  unfold crcShift ReflectedCrc.shift
  rw [hlow]
  split <;> rfl

/-- A table entry is eight shifts of its index. -/
theorem buildCrc32Table_toBitVec (i : UInt8) :
    (buildCrc32Table i).toBitVec = (ReflectedCrc.shift crcPoly)^[8] i.toUInt32.toBitVec := by
  have hsteps : ∀ (n : Nat) (c : UInt32),
      ((List.range n).foldl (fun c _ => crcShift c) c).toBitVec =
        (ReflectedCrc.shift crcPoly)^[n] c.toBitVec := by
    intro n c
    induction n with
    | zero => rfl
    | succ n ih =>
        rw [List.range_succ, List.foldl_append, Function.iterate_succ_apply', ← ih]
        exact crcShift_toBitVec _
  exact hsteps 8 _

/-- A byte step is eight bit steps. -/
theorem crcUpdate_toBitVec (crc : UInt32) (b : UInt8) :
    (crcUpdate crc b).toBitVec = ReflectedCrc.run crcPoly crc.toBitVec (byteBits b) := by
  have hindex : ((crc ^^^ b.toUInt32) &&& 0xFF).toUInt8.toUInt32.toBitVec =
      ReflectedCrc.low 8 (crc.toBitVec ^^^ b.toUInt32.toBitVec) := by
    have hmask : ∀ i < 8, (255#32).getLsbD i = true := by decide
    apply BitVec.eq_of_getLsbD_eq
    intro i hi
    rw [ReflectedCrc.getLsbD_low, UInt8.toBitVec_toUInt32, UInt32.toBitVec_toUInt8,
      UInt32.toBitVec_and, UInt32.toBitVec_xor]
    by_cases hlow : i < 8
    · have hset : (UInt32.toBitVec 0xFF).getLsbD i = true := hmask i hlow
      simp only [BitVec.getLsbD_setWidth, BitVec.getLsbD_and, hset, hi, hlow, decide_true,
        Bool.true_and, Bool.and_true]
    · simp only [BitVec.getLsbD_setWidth, hlow, decide_false, Bool.false_and, Bool.and_false]
  have hbits : (byteBits b).length ≤ 32 := by simp
  have htable := ReflectedCrc.run_eq_table crcPoly hbits crc.toBitVec
  rw [byteBits_length, word_byteBits] at htable
  rw [htable, ← hindex, ← buildCrc32Table_toBitVec]
  rfl

/-- **The table-driven loop** runs the register over the bits. -/
theorem foldl_crcUpdate_toBitVec (data : Bytes) (crc : UInt32) :
    (data.foldl crcUpdate crc).toBitVec =
      ReflectedCrc.run crcPoly crc.toBitVec (data.flatMap byteBits) := by
  induction data generalizing crc with
  | nil => rfl
  | cons b data ih =>
      rw [List.foldl_cons, ih, crcUpdate_toBitVec, List.flatMap_cons, ReflectedCrc.run_append]

/-- **The table-driven checksum is the bitwise one.** -/
theorem vynkorCrc32_eq_bitwise (data : Bytes) :
    (vynkorCrc32 data).toBitVec = crc32IsoHdlc data := by
  unfold vynkorCrc32 crc32IsoHdlc
  rw [UInt32.toBitVec_xor, foldl_crcUpdate_toBitVec]
  exact BitVec.xor_allOnes

/-! ### Bursts -/

/-- The bits tell the byte. -/
theorem byteBits_injective : Function.Injective byteBits := by
  intro a b h
  apply UInt8.toBitVec_inj.mp
  apply BitVec.eq_of_getLsbD_eq
  intro i _
  rw [← byteBits_getD, ← byteBits_getD, h]

/-- Eight bits for each byte. -/
theorem flatMap_byteBits_length (data : Bytes) :
    (data.flatMap byteBits).length = 8 * data.length := by
  induction data with
  | nil => rfl
  | cons b data ih =>
      rw [List.flatMap_cons, List.length_append, byteBits_length, ih, List.length_cons]
      omega

/-- A byte string is known by its bits. -/
theorem flatMap_byteBits_injective :
    Function.Injective (fun data : Bytes => data.flatMap byteBits) := by
  intro p q h
  have hlen := congrArg List.length h
  simp only [flatMap_byteBits_length] at hlen
  induction p generalizing q with
  | nil => exact (List.length_eq_zero_iff.mp (by rw [List.length_nil] at hlen; omega)).symm
  | cons a p ih =>
      cases q with
      | nil =>
          rw [List.length_cons, List.length_nil] at hlen
          omega
      | cons b q =>
          rw [List.length_cons, List.length_cons] at hlen
          simp only [List.flatMap_cons] at h
          obtain ⟨hhead, htail⟩ := List.append_inj h (by simp)
          rw [byteBits_injective hhead, ih htail (by omega)]

/-- A change of at most four bytes in a row changes the checksum. -/
theorem vynkorCrc32_ne_of_differWithin {p q : Bytes} {k : Nat} (hne : p ≠ q)
    (h : DifferWithin k 4 p q) : vynkorCrc32 p ≠ vynkorCrc32 q := by
  obtain ⟨front, u, v, back, rfl, rfl, hlen, hle⟩ := h.split
  have huv : u ≠ v := fun heq => hne (by rw [heq])
  intro hcrc
  unfold vynkorCrc32 at hcrc
  have hregister := congrArg UInt32.toBitVec ((UInt32.xor_left_inj _).mp hcrc)
  rw [foldl_crcUpdate_toBitVec, foldl_crcUpdate_toBitVec] at hregister
  simp only [List.flatMap_append] at hregister
  refine ReflectedCrc.run_ne_of_burst crcPoly (by decide) _ _ _ ?_ ?_ ?_ hregister
  · rw [flatMap_byteBits_length, flatMap_byteBits_length, hlen]
  · rw [flatMap_byteBits_length]
    omega
  · exact flatMap_byteBits_injective.ne huv

end Vynkor
