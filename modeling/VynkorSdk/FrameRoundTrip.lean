import VynkorSdk.FrameCanonical

/-!
# Every writer's frame parses back

`plainResult` is what a reader should see of a frame: the payload, flags and
plaintext header the writer was given, and the tag if there is a key.  All
four writers produce frames that `parseFrameFromBuffer` turns into it, the
compressing one under `ZstdRoundTrip`.

The writers are compared through one layout lemma, `accepts_layout`: a header
that describes some wire bytes, those bytes, and a tag exactly when the flags
announce one.
-/

namespace Vynkor

open ByteCodec

variable (lib : WireLibs)

/-- What a reader gets out of a frame written for `target`, `flags` and
`payload` under `key`. -/
def plainResult (target : Bytes) (flags : UInt16) (payload : Bytes) (key : Option Block32) :
    FrameResult :=
  let header := serializeHeaderWs target flags payload
  { payload := payload
    flags := flags
    hasMac := key.isSome
    mac := (key.map (fun k => computeTag lib k header.val payload)).getD (fillArray 32 [])
    rawHeader := header }

/-- The tag bytes at the end of a frame. -/
def tagBytes (header payload : Bytes) (key : Option Block32) : Bytes :=
  ((key.map (fun k => computeTag lib k header payload)).map Subtype.val).getD []

/-- A tag has 32 bytes, and there is none without a key. -/
theorem tagBytes_length (header payload : Bytes) (key : Option Block32) :
    (tagBytes lib header payload key).length = if key.isSome then 32 else 0 := by
  cases key with
  | none => rfl
  | some k => exact (computeTag lib k header payload).2

/-- **Layout.**  A header describing `wire`, then `wire`, then the tag of the
plaintext, is accepted as a whole if the wire bytes normalise to the plaintext. -/
theorem accepts_layout {target payload wire : Bytes} {flags wireFlags : UInt16}
    {key : Option Block32} {buf : Bytes}
    (hwire : wire.length ≤ maxPayloadSize)
    (hmac : hasFlag wireFlags flagMacPresent = key.isSome)
    (hbuf : buf = (buildHeader wireFlags (targetToBytes target) wire).val ++ wire ++
      tagBytes lib (serializeHeaderWs target flags payload).val payload key)
    (hnormal : normalizeFrame lib buf wire =
      .ok (flags, payload, serializeHeaderWs target flags payload)) :
    Accepts lib buf key (plainResult lib target flags payload key) buf.length := by
  have hlen4 : wire.length < 256 ^ 4 := by
    simp only [maxPayloadSize] at hwire
    omega
  have hheader := (buildHeader wireFlags (targetToBytes target) wire).2
  have hsplit := hbuf
  rw [List.append_assoc] at hsplit
  obtain ⟨hmagic, hflags, hlength, _, hcrc⟩ := headerBytes_fields hlen4 hsplit
  have htag := tagBytes_length lib (serializeHeaderWs target flags payload).val payload key
  have hsize : buf.length = 44 + wire.length + if key.isSome then 32 else 0 := by
    rw [hbuf, List.length_append, List.length_append, hheader, htag]
  have hextent : frameExtent buf = buf.length := by
    simp only [frameExtent, frameHeaderSize, macTagLen, hflags, hlength, hmac, hsize]
  have hslice : slice buf frameHeaderSize (lengthField buf) = wire := by
    have hat : slice buf 44 wire.length = wire := by
      rw [hsplit, slice_append_right hheader, List.take_left]
    rwa [hlength]
  have hdrop : buf.drop (frameHeaderSize + lengthField buf) =
      tagBytes lib (serializeHeaderWs target flags payload).val payload key := by
    rw [hlength, hbuf]
    exact List.drop_left' (by rw [List.length_append, hheader]; rfl)
  refine ⟨by simp only [frameHeaderSize]; omega, hmagic, by omega, by omega, ?_, ?_, ?_, ?_, ?_,
    hextent.symm⟩
  · rw [hslice, hcrc]
  · rw [hslice, hnormal]
    rfl
  · rw [hflags, hmac]
    rfl
  · rw [hdrop]
    cases key with
    | none => rfl
    | some k => exact (fillArray_toList_append (computeTag lib k _ _) []).symm.trans (by
        simp [plainResult, tagBytes, fillArray])
  · rintro k rfl
    exact ⟨rfl, (verifyTag_iff lib).mpr rfl⟩

/-! ### The uncompressed writers -/

/-- A frame that is not compressed is its own normal form. -/
theorem normalizeFrame_plain {buf wire : Bytes} {flags : UInt16} {target : Block32}
    {rest : Bytes} (hwire : wire.length ≤ maxPayloadSize)
    (hflag : hasFlag flags flagCompressed = false)
    (hbuf : buf = (buildHeader flags target wire).val ++ rest) :
    normalizeFrame lib buf wire = .ok (flags, wire, buildHeader flags target wire) := by
  have hlen4 : wire.length < 256 ^ 4 := by
    simp only [maxPayloadSize] at hwire
    omega
  obtain ⟨_, hflags, _, _, _⟩ := headerBytes_fields hlen4 hbuf
  have hkept : fillArray 44 buf = buildHeader flags target wire := by
    rw [hbuf, fillArray_toList_append]
  simp [normalizeFrame, hflags, hflag, hkept]

/-- The WebSocket writer: no compression, so the header is kept. -/
theorem packFrameWs_parses (target : Bytes) {payload : Bytes} {flags : UInt16}
    {key : Option Block32}
    (hpayload : payload.length ≤ maxPayloadSize)
    (hplain : hasFlag flags flagCompressed = false)
    (hmac : hasFlag flags flagMacPresent = key.isSome) :
    ∃ frame, packFrameWs lib target flags payload key = .ok frame ∧
      parseFrameFromBuffer lib frame key =
        .ok (plainResult lib target flags payload key, frame.length) := by
  let frame := (serializeHeaderWs target flags payload).val ++ payload ++
    tagBytes lib (serializeHeaderWs target flags payload).val payload key
  refine ⟨frame, ?_, ?_⟩
  · unfold packFrameWs
    rw [if_neg (by omega)]
    cases key with
    | none => simp [frame, tagBytes]
    | some k => rfl
  · apply Accepts.parse_eq
    apply accepts_layout lib hpayload hmac rfl
    apply normalizeFrame_plain lib hpayload hplain
    exact List.append_assoc _ _ _

/-- The target field written by hand in `pack_frame` is `target_to_bytes`. -/
theorem targetToBytes_val (target : Bytes) :
    (targetToBytes target).val = target.take (min target.length 32) ++
      List.replicate (32 - min target.length 32) 0 := by
  have hlen : (target.take (min target.length 32)).length = min target.length 32 := by
    rw [List.length_take]
    omega
  simp only [targetToBytes, fillArray, List.take_append, hlen, List.take_replicate]
  congr 1
  · exact List.take_of_length_le (by omega)
  · congr 1
    omega

/-- `pack_frame` writes the frame `pack_frame_ws` writes without a key. -/
theorem packFrame_eq_packFrameWs (target payload : Bytes) (flags : UInt16) :
    packFrame target payload flags = packFrameWs lib target flags payload none := by
  unfold packFrame packFrameWs
  split
  · rfl
  · simp only [serializeHeaderWs, buildHeader, headerBytes, targetToBytes_val]

/-- Setting a flag that is set changes nothing. -/
theorem mac_or_eq_self {flags : UInt16} (h : hasFlag flags flagMacPresent = true) :
    flagMacPresent ||| flags = flags := by
  apply or_eq_self_of_subset
  have hne : flags &&& 1 ≠ 0 := by simpa [hasFlag, flagMacPresent] using h
  have hmod : (flags &&& 1).toNat = flags.toNat % 2 := by
    rw [UInt16.toNat_and, UInt16.toNat_one, Nat.and_one_is_mod]
  apply UInt16.toNat_inj.mp
  have hnat : (flags &&& 1).toNat ≠ 0 := fun h0 => hne (UInt16.toNat_inj.mp h0)
  show (flags &&& 1).toNat = 1
  omega

/-- `pack_frame_mac` writes the frame `pack_frame_ws` writes under the key. -/
theorem packFrameMac_eq_packFrameWs (target payload : Bytes) (key : Block32) {flags : UInt16}
    (h : hasFlag flags flagMacPresent = true) :
    packFrameMac lib target payload key flags =
      packFrameWs lib target flags payload (some key) := by
  unfold packFrameMac packFrameWs
  split
  · rfl
  · simp only [serializeHeaderWs, buildHeader, headerBytes, targetToBytes_val, mac_or_eq_self h]

/-! ### The compressing writer -/

/-- The bytes on the wire are the payload, or a shorter zstd frame of it. -/
theorem wirePayload_spec (hz : lib.ZstdRoundTrip) (flags : UInt16) {payload : Bytes}
    (hpayload : payload.length ≤ maxPayloadSize) :
    ∃ wireFlags wire, wirePayload lib flags payload = .ok (wireFlags, wire) ∧
      wire.length ≤ maxPayloadSize ∧
      ((wireFlags = flags ∧ wire = payload) ∨
        (wireFlags = flags ||| flagCompressed ∧
          zstdDecompressBounded lib wire = .ok payload)) := by
  obtain ⟨packed, hcompress, hsize, hdecompress⟩ := hz payload
  unfold wirePayload zstdCompressLevel3
  rw [hcompress]
  split
  · dsimp only
    split
    · refine ⟨_, packed, rfl, by omega, Or.inr ⟨rfl, ?_⟩⟩
      unfold zstdDecompressBounded
      simp only [hsize, hdecompress]
      rw [if_neg (by omega), if_neg (by simp)]
    · exact ⟨flags, payload, rfl, hpayload, Or.inl ⟨rfl, rfl⟩⟩
  · exact ⟨flags, payload, rfl, hpayload, Or.inl ⟨rfl, rfl⟩⟩

/-- A compressed frame's normal form is the plain frame of its content. -/
theorem normalizeFrame_compressed {buf wire payload rest : Bytes} {flags : UInt16}
    {target : Block32} (hwire : wire.length ≤ maxPayloadSize)
    (hplain : hasFlag flags flagCompressed = false)
    (hdecompress : zstdDecompressBounded lib wire = .ok payload)
    (hbuf : buf = (buildHeader (flags ||| flagCompressed) target wire).val ++ rest) :
    normalizeFrame lib buf wire = .ok (flags, payload, buildHeader flags target payload) := by
  have hlen4 : wire.length < 256 ^ 4 := by
    simp only [maxPayloadSize] at hwire
    omega
  obtain ⟨_, hflags, _, htarget, _⟩ := headerBytes_fields hlen4 hbuf
  have hset : hasFlag (flags ||| flagCompressed) flagCompressed = true := by
    rw [hasFlag_or, show hasFlag flagCompressed flagCompressed = true from rfl, Bool.or_true]
  simp [normalizeFrame, hflags, hset, hdecompress, htarget, clear_or_of_not_hasFlag hplain]

/-- The UDS writer: the tag covers the plaintext, the header covers the wire
bytes, and the reader rebuilds the former from the latter. -/
theorem packFrameRaw_parses (hz : lib.ZstdRoundTrip) (target : Bytes) {payload : Bytes}
    {flags : UInt16} {key : Option Block32} (hpayload : payload.length ≤ maxPayloadSize)
    (hplain : hasFlag flags flagCompressed = false)
    (hmac : hasFlag flags flagMacPresent = key.isSome) :
    ∃ frame, packFrameRaw lib target flags payload key = .ok frame ∧
      parseFrameFromBuffer lib frame key =
        .ok (plainResult lib target flags payload key, frame.length) := by
  obtain ⟨wireFlags, wire, hwirePayload, hwire, hcases⟩ := wirePayload_spec lib hz flags hpayload
  let header := buildHeader wireFlags (targetToBytes target) wire
  let frame := header.val ++ wire ++
    tagBytes lib (serializeHeaderWs target flags payload).val payload key
  have hframe : packFrameRaw lib target flags payload key = .ok frame := by
    unfold packFrameRaw
    rw [if_neg (by omega)]
    simp only [hwirePayload]
    rfl
  refine ⟨frame, hframe, ?_⟩
  apply Accepts.parse_eq
  obtain ⟨rfl, rfl⟩ | ⟨rfl, hdecompress⟩ := hcases
  · apply accepts_layout lib hwire hmac rfl
    apply normalizeFrame_plain lib hpayload hplain
    exact List.append_assoc _ _ _
  · have hwireMac : hasFlag (flags ||| flagCompressed) flagMacPresent = key.isSome := by
      rw [hasFlag_or, hmac]
      simp [show hasFlag flagCompressed flagMacPresent = false from rfl]
    apply accepts_layout lib hwire hwireMac rfl
    apply normalizeFrame_compressed lib hwire hplain hdecompress
    exact List.append_assoc _ _ _

/-- **Frame codec round trip.**  Every writer's frame is consumed whole and
read back as `plainResult`: the given payload and flags, the plaintext header,
and the tag of both when there is a key. -/
theorem frame_codec_round_trip (lib : WireLibs) (hz : lib.ZstdRoundTrip)
    (target payload : Bytes) (key : Option Block32) (flags : UInt16)
    (hpayload : payload.length ≤ maxPayloadSize)
    (hplain : hasFlag flags flagCompressed = false)
    (hmac : hasFlag flags flagMacPresent = key.isSome) :
    let header := serializeHeaderWs target flags payload
    ∃ r : FrameResult,
      (r.payload = payload ∧ r.flags = flags ∧ r.hasMac = key.isSome ∧ r.rawHeader = header ∧
        ∀ k, key = some k → r.mac = computeTag lib k header.val payload) ∧
      (∃ frame, packFrameRaw lib target flags payload key = .ok frame ∧
        parseFrameFromBuffer lib frame key = .ok (r, frame.length)) ∧
      (∃ frame, packFrameWs lib target flags payload key = .ok frame ∧
        parseFrameFromBuffer lib frame key = .ok (r, frame.length)) ∧
      (key = none → ∃ frame, packFrame target payload flags = .ok frame ∧
        parseFrameFromBuffer lib frame none = .ok (r, frame.length)) ∧
      (∀ k, key = some k → ∃ frame, packFrameMac lib target payload k flags = .ok frame ∧
        parseFrameFromBuffer lib frame (some k) = .ok (r, frame.length)) := by
  have hws := packFrameWs_parses lib target hpayload hplain hmac
  refine ⟨plainResult lib target flags payload key, ⟨rfl, rfl, rfl, rfl, ?_⟩,
    packFrameRaw_parses lib hz target hpayload hplain hmac, hws, ?_, ?_⟩
  · rintro k rfl
    rfl
  · rintro rfl
    rw [packFrame_eq_packFrameWs lib]
    exact hws
  · rintro k rfl
    rw [packFrameMac_eq_packFrameWs lib target payload k hmac]
    exact hws

/-- A long run goes on the wire as six bytes. -/
theorem wirePayload_run {n : Nat} {flags : UInt16} (b : UInt8) (hlarge : compressThreshold ≤ n)
    (hn : n < 256 ^ 4) (hplain : hasFlag flags flagCompressed = false)
    (hraw : hasFlag flags flagRawBinary = false) :
    wirePayload runLibs flags (List.replicate n b) =
      .ok (flags ||| flagCompressed, 0x52 :: b :: toBe 4 n) := by
  have hthreshold : 6 < compressThreshold := by decide
  have hcompressed : (0x52 :: b :: toBe 4 n).length < (List.replicate n b).length := by
    simp only [List.length_cons, toBe_length, List.length_replicate]
    omega
  have hcond : ((List.replicate n b).length ≥ compressThreshold &&
      !hasFlag flags flagCompressed && !hasFlag flags flagRawBinary) = true := by
    simp [hlarge, hplain, hraw]
  rw [wirePayload, if_pos hcond, zstdCompressLevel3, runLibs_compress b (by omega) hn]
  dsimp only
  rw [if_pos hcompressed]

/-- The round trip of a MACed frame with its library calls made, and that of a
payload that is compressed. -/
theorem frame_codec_round_trip_ping :
    (∃ r : FrameResult, r.payload = ascii "ping" ∧ r.hasMac = true ∧
      ∃ frame, packFrameRaw storingLibs (ascii "kernel") flagMacPresent (ascii "ping")
          (some sampleKey) = .ok frame ∧
        parseFrameFromBuffer storingLibs frame (some sampleKey) = .ok (r, frame.length)) ∧
    ∃ (r : FrameResult) (frame : Bytes), r.payload = List.replicate 65536 0 ∧ r.flags = 0 ∧
      packFrameRaw runLibs (ascii "kernel") 0 (List.replicate 65536 0) none = .ok frame ∧
      frame.length = 50 ∧ flagsField frame = flagCompressed ∧
      parseFrameFromBuffer runLibs frame none = .ok (r, 50) := by
  constructor
  · obtain ⟨r, ⟨hpayload, _, hmac, _⟩, hraw, _⟩ := frame_codec_round_trip storingLibs
      storingLibs_roundTrip (ascii "kernel") (ascii "ping") (some sampleKey) flagMacPresent
      (by decide) (by decide) (by decide)
    exact ⟨r, hpayload, hmac, hraw⟩
  · have hsize : (List.replicate 65536 (0 : UInt8)).length ≤ maxPayloadSize := by
      rw [List.length_replicate]
      decide
    obtain ⟨r, ⟨hpayload, hflags, _⟩, ⟨frame, hpack, hparse⟩, _⟩ := frame_codec_round_trip runLibs
      runLibs_roundTrip (ascii "kernel") (List.replicate 65536 0) none 0 hsize (by decide)
      (by decide)
    have hframe := hpack
    have hrun : wirePayload runLibs 0 (List.replicate 65536 0) = _ :=
      wirePayload_run 0 (by decide) (by decide) rfl rfl
    rw [packFrameRaw, if_neg (by omega), hrun] at hframe
    obtain rfl := Except.ok.inj hframe
    have hlength : ((buildHeader flagCompressed (targetToBytes (ascii "kernel"))
        [0x52, 0, 0, 1, 0, 0]).val ++ [0x52, 0, 0, 1, 0, 0] ++ []).length = 50 := by
      decide +kernel
    have hwire : flagsField ((buildHeader flagCompressed (targetToBytes (ascii "kernel"))
        [0x52, 0, 0, 1, 0, 0]).val ++ [0x52, 0, 0, 1, 0, 0] ++ []) = flagCompressed := by
      decide +kernel
    refine ⟨r, _, hpayload, hflags, hpack, hlength, hwire, ?_⟩
    rw [← hlength]
    exact hparse

end Vynkor
