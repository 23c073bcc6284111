import Mathlib.Data.Set.Function
import VynkorSdk.FrameCodec

/-!
# What the frame parser accepts

`Accepts` lists the checks of `parse_frame_bytes` as one condition, and
`parseFrameBytes_ok_iff` says that the parser succeeds exactly under it.
Everything proved about accepted frames goes through that equivalence.

The main result is that an accepted frame is canonical: the header handed to
the MAC is the one `build_header` makes from the returned flags, the target
bytes and the returned payload, whether the header was kept from the wire or
rebuilt after decompression.  Two accepted frames with one tag therefore carry
the same content as soon as the MAC does not collide on their two messages.
-/

namespace Vynkor

open ByteCodec

variable (lib : WireLibs)

/-- The parser's checks, and what it returns when they pass. -/
structure Accepts (buf : Bytes) (key : Option Block32) (r : FrameResult) (n : Nat) : Prop where
  header_le : frameHeaderSize ≤ buf.length
  magic_eq : magicField buf = frameMagic
  length_le : lengthField buf ≤ maxPayloadSize
  extent_le : frameExtent buf ≤ buf.length
  crc_eq : vynkorCrc32 (slice buf frameHeaderSize (lengthField buf)) = crcField buf
  normal : normalizeFrame lib buf (slice buf frameHeaderSize (lengthField buf)) =
    .ok (r.flags, r.payload, r.rawHeader)
  hasMac_eq : r.hasMac = hasFlag (flagsField buf) flagMacPresent
  mac_eq : r.mac = if r.hasMac then
    fillArray 32 (buf.drop (frameHeaderSize + lengthField buf)) else fillArray 32 []
  verified : ∀ k, key = some k →
    r.hasMac = true ∧ verifyTag lib k r.rawHeader.val r.payload r.mac.val = true
  consumed_eq : n = frameExtent buf

/-- What the parser answers is what it accepts. -/
theorem Accepts.of_parse {buf : Bytes} {key : Option Block32} {r : FrameResult} {n : Nat}
    (h : parseFrameBytes lib buf key = .ok (r, n)) : Accepts lib buf key r n := by
  unfold parseFrameBytes at h
  split at h
  · cases h
  rename_i hheader
  split at h
  · cases h
  rename_i hmagic
  split at h
  · cases h
  rename_i hlength
  split at h
  · cases h
  rename_i hextent
  dsimp only at h
  split at h
  · cases h
  rename_i hcrc
  split at h
  · cases h
  rename_i flags payload header hnormal
  have hbase : frameHeaderSize ≤ buf.length := Nat.le_of_not_lt hheader
  have hmac : magicField buf = frameMagic := not_not.mp hmagic
  have hcrc' := not_not.mp hcrc
  -- The tag is present or absent, and each is met with or without a key.
  split at h <;> rename_i hflag
  · cases key with
    | none =>
        cases h
        exact ⟨hbase, hmac, Nat.le_of_not_lt hlength, Nat.le_of_not_lt hextent, hcrc', hnormal,
          hflag.symm, by simp, by simp, rfl⟩
    | some k =>
        dsimp only at h
        split at h <;> cases h
        rename_i hverify
        refine ⟨hbase, hmac, Nat.le_of_not_lt hlength, Nat.le_of_not_lt hextent, hcrc', hnormal,
          hflag.symm, by simp, ?_, rfl⟩
        intro k' hk
        cases hk
        exact ⟨rfl, hverify⟩
  · cases key with
    | none =>
        cases h
        exact ⟨hbase, hmac, Nat.le_of_not_lt hlength, Nat.le_of_not_lt hextent, hcrc', hnormal,
          by simpa using hflag, by simp, by simp, rfl⟩
    | some k => cases h

/-- What the parser accepts is what it answers. -/
theorem Accepts.parse_eq {buf : Bytes} {key : Option Block32} {r : FrameResult} {n : Nat}
    (h : Accepts lib buf key r n) : parseFrameBytes lib buf key = .ok (r, n) := by
  obtain ⟨hheader, hmagic, hlength, hextent, hcrc, hnormal, hhas, hmac, hverified, rfl⟩ := h
  rcases r with ⟨payload, flags, hasMac, mac, header⟩
  dsimp only at hnormal hhas hmac hverified
  unfold parseFrameBytes
  rw [if_neg (by omega), if_neg (by simp [hmagic]), if_neg (by omega), if_neg (by omega)]
  dsimp only
  rw [if_neg (by simp [hcrc]), hnormal]
  dsimp only
  cases hasMac with
  | true =>
      rw [if_pos hhas.symm]
      simp only [if_true] at hmac
      cases key with
      | none => rw [← hmac]
      | some k =>
          have := (hverified k rfl).2
          simp only [hmac] at this ⊢
          rw [if_pos this]
  | false =>
      rw [if_neg (by simp [← hhas])]
      cases key with
      | none => simp_all
      | some k => exact absurd (hverified k rfl).1 (by simp)

/-- The parser succeeds exactly on the frames that pass its checks. -/
theorem parseFrameBytes_ok_iff {buf : Bytes} {key : Option Block32} {r : FrameResult} {n : Nat} :
    parseFrameBytes lib buf key = .ok (r, n) ↔ Accepts lib buf key r n :=
  ⟨Accepts.of_parse lib, Accepts.parse_eq lib⟩

/-! ### Header fields and header bytes -/

/-- The first 44 bytes of a buffer with the right magic are the header made of
the fields the parser reads out of it. -/
theorem take_header_eq {buf : Bytes} (h : frameHeaderSize ≤ buf.length)
    (hmagic : magicField buf = frameMagic) :
    buf.take 44 =
      headerBytes (flagsField buf) (lengthField buf) (targetField buf) (crcField buf) := by
  simp only [frameHeaderSize] at h
  have hmagicBytes : toBe 2 frameMagic.toNat = slice buf 0 2 := by
    rw [← hmagic]
    exact toBe_word16 (slice_length (by omega))
  have hflags : toBe 2 (flagsField buf).toNat = slice buf 2 2 :=
    toBe_word16 (slice_length (by omega))
  have hlength : toBe 4 (lengthField buf) = slice buf 4 4 :=
    toBe_ofBe_of_length (slice_length (by omega))
  have htarget : (targetField buf).val = slice buf 8 32 :=
    fillArray_val (by rw [List.length_drop]; omega)
  have hcrc : toBe 4 (crcField buf).toNat = slice buf 40 4 :=
    toBe_word32 (slice_length (by omega))
  rw [headerBytes, hmagicBytes, hflags, hlength, htarget, hcrc,
    slice_append_slice buf (by omega), slice_append_slice buf (by omega),
    slice_append_slice buf (by omega), slice_append_slice buf (by omega)]
  simp [slice]

/-- The fields of a header that was built from `flags`, `target` and `payload`. -/
theorem headerBytes_fields {flags : UInt16} {length : Nat} {target : Block32} {crc : UInt32}
    {buf rest : Bytes} (hlength : length < 256 ^ 4)
    (h : buf = headerBytes flags length target crc ++ rest) :
    magicField buf = frameMagic ∧ flagsField buf = flags ∧ lengthField buf = length ∧
      targetField buf = target ∧ crcField buf = crc := by
  subst h
  have htarget := target.2
  refine ⟨?_, ?_, ?_, ?_, ?_⟩
  · rw [magicField, headerBytes]
    simp [slice]
  · rw [flagsField, headerBytes]
    simp only [List.append_assoc]
    rw [slice_append_right (by simp)]
    simp
  · rw [lengthField, headerBytes]
    simp only [List.append_assoc]
    rw [← List.append_assoc, slice_append_right (by simp)]
    simp [ofBe_toBe hlength]
  · have hdrop : (headerBytes flags length target crc ++ rest).drop 8 =
        target.val ++ (toBe 4 crc.toNat ++ rest) := by
      rw [headerBytes, List.append_assoc, List.append_assoc]
      exact List.drop_left' (by simp)
    rw [targetField, hdrop, fillArray_toList_append]
  · rw [crcField, headerBytes]
    rw [List.append_assoc, slice_append_right (by simp [htarget])]
    simp

/-- A header determines its flags and its target. -/
theorem buildHeader_inj {f₁ f₂ : UInt16} {t₁ t₂ : Block32} {p : Bytes}
    (hp : p.length ≤ maxPayloadSize) (h : buildHeader f₁ t₁ p = buildHeader f₂ t₂ p) :
    f₁ = f₂ ∧ t₁ = t₂ := by
  have hlen : p.length < 256 ^ 4 := by
    simp only [maxPayloadSize] at hp
    omega
  have heq₁ : (buildHeader f₁ t₁ p).val = (buildHeader f₁ t₁ p).val ++ [] :=
    (List.append_nil _).symm
  have heq₂ : (buildHeader f₁ t₁ p).val = (buildHeader f₂ t₂ p).val ++ [] := by
    rw [h, List.append_nil]
  obtain ⟨_, hf₁, _, ht₁, _⟩ := headerBytes_fields hlen heq₁
  obtain ⟨_, hf₂, _, ht₂, _⟩ := headerBytes_fields hlen heq₂
  exact ⟨hf₁.symm.trans hf₂, ht₁.symm.trans ht₂⟩

/-! ### Both routes end in the canonical header -/

/-- Decompression is bounded by the payload limit. -/
theorem zstdDecompressBounded_length {data out : Bytes}
    (h : zstdDecompressBounded lib data = .ok out) : out.length ≤ maxPayloadSize := by
  unfold zstdDecompressBounded at h
  split at h
  · cases h
  · cases h
  split at h
  · cases h
  split at h
  · cases h
  split at h <;> cases h
  omega

/-- A normalised frame was decompressed and its header rebuilt, or it is the
wire frame itself. -/
theorem normalizeFrame_ok {buf wire payload : Bytes} {flags : UInt16} {header : RawHeader}
    (h : normalizeFrame lib buf wire = .ok (flags, payload, header)) :
    (hasFlag (flagsField buf) flagCompressed = true ∧
      zstdDecompressBounded lib wire = .ok payload ∧
      flags = flagsField buf &&& ~~~flagCompressed ∧
      header = buildHeader flags (targetField buf) payload) ∨
    (hasFlag (flagsField buf) flagCompressed = false ∧ flags = flagsField buf ∧
      payload = wire ∧ header = fillArray 44 buf) := by
  unfold normalizeFrame at h
  dsimp only at h
  split at h <;> rename_i hflag
  · split at h <;> cases h
    rename_i hplain
    exact Or.inl ⟨hflag, hplain, rfl, rfl⟩
  · cases h
    exact Or.inr ⟨by simpa using hflag, rfl, rfl, rfl⟩

variable {lib} {buf : Bytes} {key : Option Block32} {r : FrameResult} {n : Nat}

/-- The payload on the wire is as long as its length field says. -/
theorem Accepts.wire_length (h : Accepts lib buf key r n) :
    (slice buf frameHeaderSize (lengthField buf)).length = lengthField buf := by
  have hextent := h.extent_le
  unfold frameExtent at hextent
  exact slice_length (by omega)

/-- No accepted payload is over the limit, compressed or not. -/
theorem Accepts.payload_le (h : Accepts lib buf key r n) :
    r.payload.length ≤ maxPayloadSize := by
  obtain ⟨_, hplain, _, _⟩ | ⟨_, _, hwire, _⟩ := normalizeFrame_ok lib h.normal
  · exact zstdDecompressBounded_length lib hplain
  · rw [hwire, h.wire_length]
    exact h.length_le

/-- An accepted frame is no longer marked compressed. -/
theorem Accepts.flags_plain (h : Accepts lib buf key r n) :
    hasFlag r.flags flagCompressed = false := by
  obtain ⟨_, _, hflags, _⟩ | ⟨hflag, hflags, _, _⟩ := normalizeFrame_ok lib h.normal
  · rw [hflags, hasFlag_clear_self]
  · rw [hflags, hflag]

/-- The header an accepted frame is authenticated under is the one its
returned content would be written with. -/
theorem Accepts.rawHeader_eq (h : Accepts lib buf key r n) :
    r.rawHeader = buildHeader r.flags (targetField buf) r.payload := by
  obtain ⟨_, _, _, hheader⟩ | ⟨_, hflags, hwire, hheader⟩ := normalizeFrame_ok lib h.normal
  · exact hheader
  · -- The wire header is kept, and the checks pin each of its fields.
    apply Subtype.ext
    calc r.rawHeader.val
        = buf.take 44 := by rw [hheader]; exact fillArray_val h.header_le
      _ = headerBytes (flagsField buf) (lengthField buf) (targetField buf) (crcField buf) :=
          take_header_eq h.header_le h.magic_eq
      _ = (buildHeader r.flags (targetField buf) r.payload).val := by
          simp only [buildHeader, hflags, hwire, h.wire_length, h.crc_eq]

/-- Under a session key the tag is the key's tag of header and payload. -/
theorem Accepts.mac_verified {k : Block32} (h : Accepts lib buf (some k) r n) :
    r.hasMac = true ∧ r.mac = lib.hmacSha256 k.val (r.rawHeader.val ++ r.payload) := by
  obtain ⟨hhas, hverify⟩ := h.verified k rfl
  exact ⟨hhas, (verifyTag_iff lib).mp hverify⟩

/-- Accepted frames whose tags cover the same message agree in content. -/
theorem Accepts.eq_of_message_eq {buf₁ buf₂ : Bytes} {key₁ key₂ : Option Block32}
    {r₁ r₂ : FrameResult} {n₁ n₂ : Nat}
    (h₁ : Accepts lib buf₁ key₁ r₁ n₁) (h₂ : Accepts lib buf₂ key₂ r₂ n₂)
    (hmessage : r₁.rawHeader.val ++ r₁.payload = r₂.rawHeader.val ++ r₂.payload) :
    r₁.payload = r₂.payload ∧ r₁.flags = r₂.flags ∧ targetField buf₁ = targetField buf₂ := by
  obtain ⟨hheader, hpayload⟩ :=
    List.append_inj hmessage (by rw [r₁.rawHeader.2, r₂.rawHeader.2])
  have hbuilt : buildHeader r₁.flags (targetField buf₁) r₂.payload =
      buildHeader r₂.flags (targetField buf₂) r₂.payload := by
    rw [← h₂.rawHeader_eq, ← hpayload, ← h₁.rawHeader_eq]
    exact Subtype.ext hheader
  obtain ⟨hflags, htarget⟩ := buildHeader_inj h₂.payload_le hbuilt
  exact ⟨hpayload, hflags, htarget⟩

/-- **Accepted frames are canonical and bound by their tag.**  The second part
asks for no collision of the MAC on any set `messages` that holds the two
authenticated messages; tags have 32 bytes, so no MAC is injective on all byte
strings, and injectivity is assumed only where it is used. -/
theorem accepted_frames_canonical (lib : WireLibs) :
    (∀ (buf : Bytes) (key : Option Block32) (r : FrameResult) (n : Nat),
      parseFrameBytes lib buf key = .ok (r, n) →
      n = 44 + lengthField buf + (if hasFlag (flagsField buf) flagMacPresent then 32 else 0) ∧
      n ≤ buf.length ∧ r.payload.length ≤ maxPayloadSize ∧
      hasFlag r.flags flagCompressed = false ∧
      r.rawHeader = buildHeader r.flags (targetField buf) r.payload ∧
      ∀ k, key = some k → r.hasMac = true ∧
        r.mac = lib.hmacSha256 k.val (r.rawHeader.val ++ r.payload)) ∧
    (∀ (k : Block32) (messages : Set Bytes), Set.InjOn (lib.hmacSha256 k.val) messages →
      ∀ (buf₁ buf₂ : Bytes) (r₁ r₂ : FrameResult) (n₁ n₂ : Nat),
        parseFrameBytes lib buf₁ (some k) = .ok (r₁, n₁) →
        parseFrameBytes lib buf₂ (some k) = .ok (r₂, n₂) →
        r₁.rawHeader.val ++ r₁.payload ∈ messages →
        r₂.rawHeader.val ++ r₂.payload ∈ messages → r₁.mac = r₂.mac →
        r₁.payload = r₂.payload ∧ r₁.flags = r₂.flags ∧
          targetField buf₁ = targetField buf₂) := by
  constructor
  · intro buf key r n hparse
    have h := Accepts.of_parse lib hparse
    refine ⟨h.consumed_eq, h.consumed_eq ▸ h.extent_le, h.payload_le, h.flags_plain,
      h.rawHeader_eq, ?_⟩
    rintro k rfl
    exact h.mac_verified
  · intro k messages hinj buf₁ buf₂ r₁ r₂ n₁ n₂ hparse₁ hparse₂ hmem₁ hmem₂ hmac
    have h₁ := Accepts.of_parse lib hparse₁
    have h₂ := Accepts.of_parse lib hparse₂
    apply h₁.eq_of_message_eq h₂
    apply hinj hmem₁ hmem₂
    rw [← h₁.mac_verified.2, ← h₂.mac_verified.2, hmac]

/-- A key for concrete frames. -/
def sampleKey : Block32 := fillArray 32 (ascii "session key")

/-- What a reader gets out of a MACed frame for the kernel. -/
def sampleResult (payload : Bytes) : FrameResult :=
  let header := buildHeader flagMacPresent (targetToBytes (ascii "kernel")) payload
  { payload := payload
    flags := flagMacPresent
    hasMac := true
    mac := computeTag storingLibs sampleKey header.val payload
    rawHeader := header }

def sampleFrame (payload : Bytes) : Bytes :=
  let r := sampleResult payload
  r.rawHeader.val ++ payload ++ r.mac.val

/-- A frame and the same frame with a byte behind it carry one tag; the tags of
two different messages differ. -/
theorem accepted_frames_canonical_ping :
    parseFrameBytes storingLibs (sampleFrame (ascii "ping")) (some sampleKey) =
        .ok (sampleResult (ascii "ping"), 80) ∧
      (sampleResult (ascii "ping")).payload.length ≤ maxPayloadSize ∧
      targetField (sampleFrame (ascii "ping")) =
        targetField (sampleFrame (ascii "ping") ++ [0]) := by
  have hping : parseFrameBytes storingLibs (sampleFrame (ascii "ping")) (some sampleKey) =
      .ok (sampleResult (ascii "ping"), 80) := by decide +kernel
  have hlonger : parseFrameBytes storingLibs (sampleFrame (ascii "ping") ++ [0]) (some sampleKey) =
      .ok (sampleResult (ascii "ping"), 80) := by decide +kernel
  let message := fun payload => (sampleResult payload).rawHeader.val ++ payload
  have hne : storingLibs.hmacSha256 sampleKey.val (message (ascii "ping")) ≠
      storingLibs.hmacSha256 sampleKey.val (message (ascii "pong")) := by decide +kernel
  have hinj : Set.InjOn (storingLibs.hmacSha256 sampleKey.val)
      {message (ascii "ping"), message (ascii "pong")} := by
    rintro _ (rfl | rfl) _ (rfl | rfl) heq
    · rfl
    · exact absurd heq hne
    · exact absurd heq.symm hne
    · rfl
  obtain ⟨hcanonical, hbound⟩ := accepted_frames_canonical storingLibs
  obtain ⟨_, _, hle, _⟩ := hcanonical _ _ _ _ hping
  obtain ⟨_, _, htarget⟩ := hbound sampleKey _ hinj _ _ _ _ _ _ hping hlonger
    (Or.inl rfl) (Or.inl rfl) rfl
  exact ⟨hping, hle, htarget⟩

end Vynkor
