import VynkorSdk.ByteCodec
import VynkorSdk.Sha256

/-!
# Errors, linked libraries and the frame MAC

The exception classes of `error.hpp`, the functions of OpenSSL and zstd that
the framing layer calls, and `mac.cpp` over them.

The linked libraries are not part of the SDK.  They enter as the fields of
`WireLibs`, and what the SDK relies on is stated where it is used: the codec
results assume `WireLibs.ZstdRoundTrip`, and nothing is assumed of the MAC
beyond being a function.
-/

namespace Vynkor

open ByteCodec

/-- Decimal digits of a number, as `std::to_string` writes them. -/
def decimal (n : Nat) : Bytes := ascii n.repr

/-- A number is written in digits. -/
theorem repr_digits {n : Nat} {c : Char} (h : c ∈ n.repr.toList) : 48 ≤ c.toNat ∧ c.toNat ≤ 57 := by
  have hdigit : c.isDigit = true := by
    rw [Nat.toList_repr] at h
    exact Nat.isDigit_of_mem_toDigits (by decide) (by decide) h
  simp only [Char.isDigit, Bool.and_eq_true, decide_eq_true_eq, ge_iff_le] at hdigit
  exact hdigit

/-- Numbers are told apart by their digits. -/
theorem decimal_injective {m n : Nat} (h : decimal m = decimal n) : m = n := by
  have hback : ∀ k : Nat, (decimal k).map (fun b => Char.ofNat b.toNat) = k.repr.toList := by
    intro k
    rw [decimal, ascii, List.map_map]
    conv_rhs => rw [← List.map_id k.repr.toList]
    apply List.map_congr_left
    intro c hc
    obtain ⟨_, hle⟩ := repr_digits hc
    simp [Nat.mod_eq_of_lt (by omega : c.toNat < 256)]
  have hdigits : Nat.toDigits 10 m = Nat.toDigits 10 n := by
    rw [← Nat.toList_repr, ← Nat.toList_repr, ← hback m, ← hback n, h]
  rw [← Nat.ofDigitChars_toDigits (b := 10) (n := m) (by decide) (by decide), hdigits,
    Nat.ofDigitChars_toDigits (by decide) (by decide)]

/-- A dash ends a number. -/
theorem dash_not_mem_decimal (n : Nat) : (0x2D : UInt8) ∉ decimal n := by
  intro h
  obtain ⟨c, hc, heq⟩ := List.mem_map.mp h
  obtain ⟨hge, hle⟩ := repr_digits hc
  have hnat := congrArg UInt8.toNat heq
  rw [UInt8.toNat_ofNat_of_lt' (by simp [UInt8.size]; omega)] at hnat
  have : (0x2D : UInt8).toNat = 45 := rfl
  omega

/-- One millisecond in nanoseconds, the unit of every clock reading. -/
def millisecond : Int := 1000000

/-- An integer as `int64_t` arithmetic leaves it. -/
def toInt64 (n : Int) : Int := n.bmod (2 ^ 64)

/-- What fits comes through. -/
theorem toInt64_of_fits {n : Int} (hlow : -2 ^ 63 ≤ n) (hhigh : n < 2 ^ 63) : toInt64 n = n := by
  simp only [toInt64, Int.bmod_def]
  omega

/-- The exceptions that leave the modelled functions: the typed hierarchy of
`error.hpp`, with the argument each class is constructed from, and the two
standard-library exceptions its callees can raise. -/
inductive Exn
  | io (message : Bytes)
  | proto (message : Bytes)
  | frameMagicMismatch
  | frameCrcMismatch
  | frameReadTimeout
  | payloadTooLarge (size : Nat)
  | timeout
  | permissionDenied (message : Bytes)
  | internal (message : Bytes)
  | stdInvalidArgument (message : Bytes)
  | stdOutOfRange (message : Bytes)
  deriving DecidableEq, Repr

/-- The text an exception carries. -/
def Exn.what : Exn → Bytes
  | .io message => ascii "io error: " ++ message
  | .proto message => ascii "proto decode error: " ++ message
  | .frameMagicMismatch => ascii "frame magic mismatch"
  | .frameCrcMismatch => ascii "frame crc mismatch"
  | .frameReadTimeout => ascii "timed out reading frame body"
  | .payloadTooLarge size => ascii "payload too large: " ++ decimal size ++ ascii " bytes"
  | .timeout => ascii "operation timed out"
  | .permissionDenied message => ascii "permission denied: " ++ message
  | .internal message => ascii "internal error: " ++ message
  | .stdInvalidArgument message => message
  | .stdOutOfRange message => message

/-- A 32-byte array: a MAC key or a MAC tag. -/
abbrev Block32 := FixedBytes 32

/-- The three answers of `ZSTD_getFrameContentSize`. -/
inductive ContentSize
  | error
  | unknown
  | known (n : Nat)
  deriving DecidableEq, Repr

/-- The library calls of the framing layer.  `zstdCompress` is level 3 into a
buffer of `ZSTD_compressBound` bytes and `zstdDecompress data n` writes into a
buffer of `n` bytes; an error carries `ZSTD_getErrorName`. -/
structure WireLibs where
  hmacSha256 : Bytes → Bytes → Block32
  zstdCompress : Bytes → Except Bytes Bytes
  zstdFrameContentSize : Bytes → ContentSize
  zstdDecompress : Bytes → Nat → Except Bytes Bytes

/-- What the codec relies on: compressing succeeds, the compressed frame
declares the size of its content, and decompressing gives the content back. -/
def WireLibs.ZstdRoundTrip (lib : WireLibs) : Prop :=
  ∀ data : Bytes, ∃ packed, lib.zstdCompress data = .ok packed ∧
    lib.zstdFrameContentSize packed = .known data.length ∧
    lib.zstdDecompress packed data.length = .ok data

/-- HMAC-SHA256 with a codec that stores its input behind a marker byte. -/
def storingLibs : WireLibs where
  hmacSha256 := Sha256.hmacTag
  zstdCompress data := .ok (0x28 :: data)
  zstdFrameContentSize packed := if packed = [] then .error else .known packed.tail.length
  zstdDecompress packed _ := .ok packed.tail

/-- Storing round-trips. -/
theorem storingLibs_roundTrip : storingLibs.ZstdRoundTrip :=
  fun data => ⟨0x28 :: data, rfl, rfl, rfl⟩

/-- What a run, or stored bytes, stand for. -/
def unpacked : Bytes → Bytes
  | 0x52 :: b :: length => List.replicate (ofBe length) b
  | packed => packed.tail

/-- HMAC-SHA256 with a codec that packs a run of one byte as the byte and its
length, and stores anything else. -/
def runLibs : WireLibs where
  hmacSha256 := Sha256.hmacTag
  zstdCompress data :=
    match data with
    | [] => .ok [0x28]
    | b :: rest =>
        if b :: rest = List.replicate (rest.length + 1) b ∧ rest.length + 1 < 256 ^ 4 then
          .ok (0x52 :: b :: toBe 4 (rest.length + 1))
        else
          .ok (0x28 :: b :: rest)
  zstdFrameContentSize packed :=
    if packed = [] then .error else .known (unpacked packed).length
  zstdDecompress packed _ := .ok (unpacked packed)

/-- Run lengths round-trip. -/
theorem runLibs_roundTrip : runLibs.ZstdRoundTrip := by
  intro data
  cases data with
  | nil => exact ⟨[0x28], rfl, rfl, rfl⟩
  | cons b rest =>
      by_cases hrun : b :: rest = List.replicate (rest.length + 1) b ∧ rest.length + 1 < 256 ^ 4
      · have hunpacked : unpacked (0x52 :: b :: toBe 4 (rest.length + 1)) = b :: rest := by
          rw [unpacked, ofBe_toBe hrun.2]
          exact hrun.1.symm
        exact ⟨0x52 :: b :: toBe 4 (rest.length + 1), if_pos hrun,
          congrArg (fun bs : Bytes => ContentSize.known bs.length) hunpacked,
          congrArg Except.ok hunpacked⟩
      · exact ⟨0x28 :: b :: rest, if_neg hrun, rfl, rfl⟩

/-- A run takes six bytes. -/
theorem runLibs_compress {n : Nat} (b : UInt8) (hpos : 0 < n) (hn : n < 256 ^ 4) :
    runLibs.zstdCompress (List.replicate n b) = .ok (0x52 :: b :: toBe 4 n) := by
  obtain ⟨m, rfl⟩ := Nat.exists_eq_succ_of_ne_zero (Nat.ne_of_gt hpos)
  have hlength : (List.replicate m b).length = m := List.length_replicate
  rw [List.replicate_succ]
  refine (if_pos ?_).trans (by rw [hlength])
  rw [hlength]
  exact ⟨List.replicate_succ.symm, hn⟩

variable (lib : WireLibs)

/-! ### `mac.cpp` -/

def flagMacPresent : UInt16 := 0x0001

def macTagLen : Nat := 32

def hkdfExtract (salt ikm : Bytes) : Block32 := lib.hmacSha256 salt ikm

/-- Single-round HKDF-Expand; only lengths up to 32 are supported. -/
def hkdfExpand (prk : Block32) (info : Bytes) (length : Nat) : Except Exn Block32 :=
  if length > 32 then
    .error (.internal (ascii "mac: hkdf_expand length > 32 unsupported"))
  else
    .ok (fillArray 32 ((lib.hmacSha256 prk.val (info ++ [0x01])).val.take length))

/-- The per-connection MAC key of a secured registration. -/
def deriveSessionKey (secret nonce pluginId : Bytes) : Except Exn Block32 :=
  hkdfExpand lib (hkdfExtract lib nonce secret)
    (ascii "vynkor-frame-mac-v1|" ++ pluginId) 32

/-- The tag of a frame: HMAC over its header followed by its payload. -/
def computeTag (key : Block32) (header payload : Bytes) : Block32 :=
  lib.hmacSha256 key.val (header ++ payload)

def verifyTag (key : Block32) (header payload tag : Bytes) : Bool :=
  tag.length == 32 && (computeTag lib key header payload).val == tag

/-- A tag is accepted exactly when it is the computed one. -/
theorem verifyTag_iff {key : Block32} {header payload : Bytes} {tag : Block32} :
    verifyTag lib key header payload tag.val = true ↔
      tag = computeTag lib key header payload := by
  simp only [verifyTag, tag.2, Bool.and_eq_true, beq_iff_eq, true_and]
  exact ⟨fun h => (Subtype.ext h).symm, fun h => h ▸ rfl⟩

end Vynkor
