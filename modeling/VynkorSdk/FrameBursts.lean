import VynkorSdk.FrameCanonical

/-!
# Frames damaged on the wire

The checksum in a frame's header covers the payload bytes as they are sent.  A
frame that was accepted and then changed in up to four payload bytes in a row
has the old header and another checksum, so the parser stops at the checksum,
before it decompresses or looks at the tag.
-/

namespace Vynkor

open ByteCodec

/-- The positions of the payload in a frame. -/
def InPayload (buf : Bytes) (i : Nat) : Prop :=
  frameHeaderSize ≤ i ∧ i < frameHeaderSize + lengthField buf

/-- The parser sees the checksum of the payload only when everything before it
passes, and then stops at a wrong one. -/
theorem parseFrameBytes_crc_mismatch (lib : WireLibs) {buf : Bytes} {key : Option Block32}
    (hheader : frameHeaderSize ≤ buf.length) (hmagic : magicField buf = frameMagic)
    (hlength : lengthField buf ≤ maxPayloadSize) (hextent : frameExtent buf ≤ buf.length)
    (hcrc : vynkorCrc32 (slice buf frameHeaderSize (lengthField buf)) ≠ crcField buf) :
    parseFrameBytes lib buf key = .error .frameCrcMismatch := by
  unfold parseFrameBytes
  rw [if_neg (by omega), if_neg (by simp [hmagic]), if_neg (by omega), if_neg (by omega)]
  dsimp only
  rw [if_pos hcrc]

/-- Frames that differ in their payload only have the same header fields. -/
theorem header_fields_eq {buf altered : Bytes}
    (h : ∀ i, buf[i]? ≠ altered[i]? → InPayload buf i) :
    magicField altered = magicField buf ∧ flagsField altered = flagsField buf ∧
      lengthField altered = lengthField buf ∧ crcField altered = crcField buf := by
  have hslice : ∀ off n, off + n ≤ frameHeaderSize → slice altered off n = slice buf off n := by
    intro off n hle
    apply slice_congr
    intro i _ hi
    by_contra hne
    have := (h i (Ne.symm hne)).1
    omega
  simp only [magicField, flagsField, lengthField, crcField]
  rw [hslice 0 2 (by decide), hslice 2 2 (by decide), hslice 4 4 (by decide),
    hslice 40 4 (by decide)]
  exact ⟨rfl, rfl, rfl, rfl⟩

/-- The change of the frame is a change of its payload, within the same window
as seen from the start of the payload. -/
theorem payload_differWithin {buf altered : Bytes} {k n : Nat}
    (hwindow : DifferWithin k n buf altered) :
    DifferWithin (k - frameHeaderSize) n (slice buf frameHeaderSize (lengthField buf))
      (slice altered frameHeaderSize (lengthField buf)) := by
  constructor
  · simp only [slice, List.length_take, List.length_drop, hwindow.1]
  · intro i hne
    simp only [slice, List.getElem?_take, List.getElem?_drop] at hne
    split at hne
    · obtain ⟨hge, hlt⟩ := hwindow.2 _ hne
      omega
    · exact absurd rfl hne

/-- Two different frames that differ in the payload only have different payloads. -/
theorem payload_ne {buf altered : Bytes} (hne : altered ≠ buf)
    (h : ∀ i, buf[i]? ≠ altered[i]? → InPayload buf i) :
    slice buf frameHeaderSize (lengthField buf) ≠ slice altered frameHeaderSize
      (lengthField buf) := by
  intro hpayload
  apply hne
  apply List.ext_getElem?
  intro i
  by_contra hdiff
  obtain ⟨hge, hlt⟩ := h i (Ne.symm hdiff)
  have hat := congrArg (fun s : Bytes => s[i - frameHeaderSize]?) hpayload
  simp only [slice, List.getElem?_take, List.getElem?_drop] at hat
  rw [if_pos (by omega), if_pos (by omega), Nat.add_sub_cancel' hge] at hat
  exact hdiff hat.symm

/-- **The checksum catches every short burst**, and the parser reports each one
that hits the payload of a frame it would have accepted. -/
theorem crc_catches_short_bursts (lib : WireLibs) :
    (∀ (p q : Bytes) (k : Nat), p ≠ q → DifferWithin k 4 p q → vynkorCrc32 p ≠ vynkorCrc32 q) ∧
    (∀ (buf altered : Bytes) (key key' : Option Block32) (r : FrameResult) (n k : Nat),
      parseFrameBytes lib buf key = .ok (r, n) → altered ≠ buf → DifferWithin k 4 buf altered →
      (∀ i, buf[i]? ≠ altered[i]? → InPayload buf i) →
      parseFrameBytes lib altered key' = .error .frameCrcMismatch) := by
  constructor
  · intro p q k hne hwindow
    exact vynkorCrc32_ne_of_differWithin hne hwindow
  · intro buf altered key key' r n k hparse hne hwindow hpayload
    have h := Accepts.of_parse lib hparse
    obtain ⟨hmagic, hflags, hlength, hcrc⟩ := header_fields_eq hpayload
    have hextent : frameExtent altered = frameExtent buf := by
      rw [frameExtent, frameExtent, hlength, hflags]
    have hlen := hwindow.1
    apply parseFrameBytes_crc_mismatch
    · exact hlen ▸ h.header_le
    · rw [hmagic, h.magic_eq]
    · rw [hlength]
      exact h.length_le
    · rw [hextent, ← hlen]
      exact h.extent_le
    · rw [hlength, hcrc, ← h.crc_eq]
      exact (vynkorCrc32_ne_of_differWithin (payload_ne hne hpayload)
        (payload_differWithin hwindow)).symm

/-- A ping with one payload byte changed on the way. -/
theorem crc_catches_short_bursts_ping :
    parseFrameBytes storingLibs (sampleFrame (ascii "ping")) (some sampleKey) =
        .ok (sampleResult (ascii "ping"), 80) ∧
      parseFrameBytes storingLibs ((sampleFrame (ascii "ping")).set 45 0x6F) (some sampleKey) =
        .error .frameCrcMismatch ∧
      vynkorCrc32 (ascii "ping") ≠ vynkorCrc32 ((ascii "ping").set 1 0x6F) := by
  have hparse : parseFrameBytes storingLibs (sampleFrame (ascii "ping")) (some sampleKey) =
      .ok (sampleResult (ascii "ping"), 80) := by decide +kernel
  have hset : ∀ (s : Bytes) (j i : Nat) (b : UInt8), s[i]? ≠ (s.set j b)[i]? → i = j := by
    intro s j i b hne
    by_contra hij
    exact hne (List.getElem?_set_ne (Ne.symm hij)).symm
  obtain ⟨hcrc, hframe⟩ := crc_catches_short_bursts storingLibs
  refine ⟨hparse, hframe _ _ _ _ _ _ 45 hparse (by decide +kernel) ⟨by simp, ?_⟩ ?_,
    hcrc _ _ 1 (by decide) ⟨by simp, ?_⟩⟩
  · intro i hne
    have := hset _ _ _ _ hne
    omega
  · intro i hne
    rw [hset _ _ _ _ hne, InPayload]
    decide +kernel
  · intro i hne
    have := hset _ _ _ _ hne
    omega

end Vynkor
