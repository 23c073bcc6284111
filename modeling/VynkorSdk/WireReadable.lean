import VynkorSdk.ClientDelivery

/-!
# What a client sends with flags of the caller's

`send_raw_with_flags` puts the caller's flags into the word that also says
whether a tag follows and whether the payload is compressed.  Two of them mean
something to the reader that the writer has not done: a tag without a key, and
a payload that was compressed before the tag was computed.

`packedFrame` is the frame either transport is handed; whether its peer accepts
it is a property of that one byte string.
-/

namespace Vynkor

open ByteCodec Procedure

/-- A zstd frame of `content`, which declares its size. -/
structure ZstdFrame (lib : WireLibs) (frame content : Bytes) : Prop where
  declares : lib.zstdFrameContentSize frame = .known content.length
  decompresses : lib.zstdDecompress frame content.length = .ok content
  content_le : content.length ≤ maxPayloadSize

/-- A compressed frame is decompressed within the limit. -/
theorem ZstdFrame.bounded {lib : WireLibs} {frame content : Bytes}
    (h : ZstdFrame lib frame content) : zstdDecompressBounded lib frame = .ok content := by
  unfold zstdDecompressBounded
  simp only [h.declares, h.decompresses]
  rw [if_neg (Nat.not_lt.mpr h.content_le), if_neg (by simp)]

/-- A zstd frame has one content. -/
theorem ZstdFrame.unique {lib : WireLibs} {frame content content' : Bytes}
    (h : ZstdFrame lib frame content) (h' : ZstdFrame lib frame content') : content = content' := by
  have hlen : content.length = content'.length := by
    simpa using h.declares.symm.trans h'.declares
  have hsame := h.decompresses
  rw [hlen, h'.decompresses] at hsame
  exact (Except.ok.inj hsame).symm

namespace Client

variable {lib : WireLibs}

/-- The flags of a frame. -/
def sentFlags (c : Client) (extraFlags : UInt16) : UInt16 := baseFlags c.sessionKey ||| extraFlags

/-- The frame `send_raw_with_flags` packs. -/
def packedFrame (lib : WireLibs) (c : Client) (target : Bytes) (extraFlags : UInt16)
    (payload : Bytes) : Except Exn Bytes :=
  if c.ws.isSome then
    packFrameWs lib target (c.sentFlags extraFlags) payload c.sessionKey
  else
    packFrameRaw lib target (c.sentFlags extraFlags) payload c.sessionKey

/-- One more frame has been handed to the transport. -/
def Emits (c : Client) (frame : Bytes) (c' : Client) : Prop :=
  if c.ws.isSome then
    c'.ws = c.ws.map (fun ws => { ws with sent := ws.sent ++ [frame] })
  else
    c'.outbound = c.outbound ++ frame

/-- The transport is open and takes a frame. -/
structure TakesFrame (c : Client) (senv : SendEnv) : Prop where
  fd_open : c.ws = none → c.fd.isSome
  writes : SteadyWrites maxFrameSize senv.writes
  wsSend : senv.wsSend = .ok ()

/-- What is sent is one frame, and a peer with the same key takes all of it. -/
def SendsReadable (lib : WireLibs) (c : Client) (target : Bytes) (extraFlags : UInt16)
    (payload : Bytes) (senv : SendEnv) : Prop :=
  ∃ frame c' r, exec (sendRawWithFlags lib target extraFlags payload senv) c = some (.ok (), c') ∧
    Emits c frame c' ∧ parseFrameFromBuffer lib frame c.sessionKey = .ok (r, frame.length)

/-- The caller's flags agree with what the framing layer does: a tag is announced
only under a key, and what is announced as compressed is not tagged, unless the
tag of the compressed frame happens to be that of its content. -/
structure FlagsAgree (lib : WireLibs) (c : Client) (target : Bytes) (extraFlags : UInt16)
    (payload : Bytes) : Prop where
  mac : hasFlag extraFlags flagMacPresent = true → c.sessionKey.isSome
  compressed : hasFlag extraFlags flagCompressed = true → ∀ key content, c.sessionKey = some key →
    ZstdFrame lib payload content →
    computeTag lib key (serializeHeaderWs target (c.sentFlags extraFlags) payload).val payload =
      computeTag lib key
        (serializeHeaderWs target (c.sentFlags extraFlags &&& ~~~flagCompressed) content).val
          content

/-! ### Handing a frame over -/

/-- A call emits one frame. -/
theorem Emits.unique {c c' : Client} {frame frame' : Bytes} (h : Emits c frame c')
    (h' : Emits c frame' c') : frame = frame' := by
  unfold Emits at h h'
  cases hws : c.ws with
  | none =>
      simp only [hws] at h h'
      exact List.append_cancel_left (h.symm.trans h')
  | some ws =>
      simp only [hws] at h h'
      simpa using h.symm.trans h'

/-- A packed frame goes out, on either transport. -/
theorem sendRawWithFlags_emits {c : Client} {target payload frame : Bytes} {extraFlags : UInt16}
    {senv : SendEnv} (hpayload : payload.length ≤ maxPayloadSize)
    (hpack : packedFrame lib c target extraFlags payload = .ok frame)
    (hsize : frame.length ≤ maxFrameSize) (htakes : TakesFrame c senv) :
    ∃ c', exec (sendRawWithFlags lib target extraFlags payload senv) c = some (.ok (), c') ∧
      Emits c frame c' := by
  unfold packedFrame sentFlags at hpack
  by_cases hws : c.ws.isSome
  · rw [if_pos hws] at hpack
    have hflags : (if c.sessionKey.isSome then flagMacPresent else 0) ||| extraFlags =
        baseFlags c.sessionKey ||| extraFlags := rfl
    refine ⟨{ c with ws := c.ws.map (fun ws => { ws with sent := ws.sent ++ [frame] }) }, ?_, ?_⟩
    · unfold sendRawWithFlags
      rw [exec_bind_ok (exec_get _)]
      dsimp only
      rw [if_pos hws, if_neg (Nat.not_lt.mpr hpayload), hflags, hpack,
        exec_bind_ok (exec_settle _ _)]
      unfold writeAllWs
      rw [htakes.wsSend, exec_bind_ok (exec_settle _ _), exec_modify]
    · rw [Emits, if_pos hws]
  · rw [if_neg hws] at hpack
    have hnone := Option.not_isSome_iff_eq_none.mp hws
    obtain ⟨c', hsend, hsent⟩ := sendRawWithFlags_packed hnone (htakes.fd_open hnone) hpack
      (htakes.writes.mono hsize)
    exact ⟨c', hsend, by rw [Emits, if_neg hws]; exact hsent.outbound_eq⟩

/-! ### The packed frame -/

/-- What stands on the wire: the payload, or a shorter zstd frame of it under a
flag of its own. -/
structure OnWire (lib : WireLibs) (flags : UInt16) (payload : Bytes) (wireFlags : UInt16)
    (wire : Bytes) : Prop where
  size_le : wire.length ≤ maxPayloadSize
  mac_eq : hasFlag wireFlags flagMacPresent = hasFlag flags flagMacPresent
  as_is : hasFlag flags flagCompressed = true → wireFlags = flags ∧ wire = payload

/-- The layout is the same for both transports. -/
theorem packedFrame_layout (hz : lib.ZstdRoundTrip) (c : Client) (target : Bytes)
    (extraFlags : UInt16) {payload : Bytes} (hpayload : payload.length ≤ maxPayloadSize) :
    ∃ wireFlags wire, OnWire lib (c.sentFlags extraFlags) payload wireFlags wire ∧
      packedFrame lib c target extraFlags payload =
        .ok ((buildHeader wireFlags (targetToBytes target) wire).val ++ wire ++
          tagBytes lib (serializeHeaderWs target (c.sentFlags extraFlags) payload).val payload
            c.sessionKey) := by
  unfold packedFrame
  by_cases hws : c.ws.isSome
  · rw [if_pos hws]
    refine ⟨c.sentFlags extraFlags, payload, ⟨hpayload, rfl, fun _ => ⟨rfl, rfl⟩⟩, ?_⟩
    unfold packFrameWs
    rw [if_neg (Nat.not_lt.mpr hpayload)]
    cases c.sessionKey with
    | none => simp [tagBytes, serializeHeaderWs]
    | some k => rfl
  · rw [if_neg hws]
    obtain ⟨wireFlags, wire, hwire, hsize, hcases⟩ :=
      wirePayload_spec lib hz (c.sentFlags extraFlags) hpayload
    refine ⟨wireFlags, wire, ⟨hsize, ?_, ?_⟩, ?_⟩
    · rcases hcases with ⟨rfl, _⟩ | ⟨rfl, _⟩
      · rfl
      · rw [hasFlag_or, show hasFlag flagCompressed flagMacPresent = false from rfl, Bool.or_false]
    · intro hflag
      unfold wirePayload at hwire
      rw [hflag, if_neg (by simp)] at hwire
      cases hwire
      exact ⟨rfl, rfl⟩
    · unfold packFrameRaw
      rw [if_neg (Nat.not_lt.mpr hpayload)]
      simp only [hwire]
      rfl

/-- A frame whose payload is within the limit is within the frame limit. -/
theorem layout_size {target wire header payload : Bytes} {flags : UInt16} {key : Option Block32}
    (hsize : wire.length ≤ maxPayloadSize) :
    ((buildHeader flags (targetToBytes target) wire).val ++ wire ++
      tagBytes lib header payload key).length ≤ maxFrameSize := by
  have hheader := (buildHeader flags (targetToBytes target) wire).2
  rw [List.length_append, List.length_append, tagBytes_length, hheader]
  unfold maxFrameSize
  simp only [frameHeaderSize, macTagLen, maxPayloadSize] at hsize ⊢
  split <;> omega

/-! ### What the peer makes of it -/

/-- The fields of a frame behind a built header. -/
theorem built_fields {buf wire rest : Bytes} {flags : UInt16} {target : Block32}
    (hsize : wire.length ≤ maxPayloadSize)
    (hbuf : buf = (buildHeader flags target wire).val ++ rest) :
    flagsField buf = flags ∧ lengthField buf = wire.length ∧ targetField buf = target := by
  have hlen4 : wire.length < 256 ^ 4 := by
    simp only [maxPayloadSize] at hsize
    omega
  obtain ⟨_, hflags, hlength, htarget, _⟩ := headerBytes_fields hlen4 hbuf
  exact ⟨hflags, hlength, htarget⟩

/-- A frame that announces a tag and has none is cut short. -/
theorem truncated_not_accepted {buf wire : Bytes} {target : Block32} {flags : UInt16}
    {r : FrameResult} {n : Nat} (hsize : wire.length ≤ maxPayloadSize)
    (hmac : hasFlag flags flagMacPresent = true)
    (hbuf : buf = (buildHeader flags target wire).val ++ wire) : ¬ Accepts lib buf none r n := by
  intro h
  obtain ⟨hflags, hlength, _⟩ := built_fields hsize hbuf
  have hextent := h.extent_le
  have hheader := (buildHeader flags target wire).2
  rw [frameExtent, hflags, hlength, hmac, if_pos rfl, hbuf, List.length_append, hheader] at hextent
  simp only [frameHeaderSize, macTagLen] at hextent
  omega

/-- What the peer sees of a frame that was compressed beforehand. -/
theorem normalizeFrame_decompresses {buf payload content rest : Bytes} {flags : UInt16}
    {target : Block32} (hsize : payload.length ≤ maxPayloadSize)
    (hcompressed : hasFlag flags flagCompressed = true)
    (hcontent : zstdDecompressBounded lib payload = .ok content)
    (hbuf : buf = (buildHeader flags target payload).val ++ rest) :
    normalizeFrame lib buf payload =
      .ok (flags &&& ~~~flagCompressed, content,
        buildHeader (flags &&& ~~~flagCompressed) target content) := by
  obtain ⟨hflags, _, htarget⟩ := built_fields hsize hbuf
  simp [normalizeFrame, hflags, hcompressed, hcontent, htarget]

/-- Such a frame is accepted exactly if its tag is that of the content. -/
theorem compressed_accepted_iff {buf target payload content : Bytes} {flags : UInt16}
    {key : Option Block32} (hsize : payload.length ≤ maxPayloadSize)
    (hcompressed : hasFlag flags flagCompressed = true)
    (hmac : hasFlag flags flagMacPresent = key.isSome)
    (hcontent : zstdDecompressBounded lib payload = .ok content)
    (hbuf : buf = (buildHeader flags (targetToBytes target) payload).val ++ payload ++
      tagBytes lib (serializeHeaderWs target flags payload).val payload key) :
    (∃ r, parseFrameFromBuffer lib buf key = .ok (r, buf.length)) ↔
      tagBytes lib (serializeHeaderWs target flags payload).val payload key =
        tagBytes lib (serializeHeaderWs target (flags &&& ~~~flagCompressed) content).val content
          key := by
  have hsplit := hbuf
  rw [List.append_assoc] at hsplit
  have hnormal := normalizeFrame_decompresses hsize hcompressed hcontent hsplit
  constructor
  · intro h
    obtain ⟨r, hparse⟩ := h
    have haccepts := Accepts.of_parse lib hparse
    obtain ⟨_, hlength, _⟩ := built_fields hsize hsplit
    have hheader := (buildHeader flags (targetToBytes target) payload).2
    have hslice : slice buf frameHeaderSize (lengthField buf) = payload := by
      rw [hlength, hsplit]
      exact (slice_append_right hheader).trans (List.take_left' rfl)
    have hdrop : buf.drop (frameHeaderSize + lengthField buf) =
        tagBytes lib (serializeHeaderWs target flags payload).val payload key := by
      rw [hlength, hbuf]
      exact List.drop_left' (by rw [List.length_append, hheader]; rfl)
    cases key with
    | none => rfl
    | some k =>
        have hseen := haccepts.normal
        rw [hslice, hnormal] at hseen
        simp only [Except.ok.injEq, Prod.mk.injEq] at hseen
        obtain ⟨_, hpayload, hraw⟩ := hseen
        obtain ⟨hhas, htag⟩ := haccepts.mac_verified
        have hkept := haccepts.mac_eq
        rw [hhas, if_pos rfl, hdrop] at hkept
        have hsent : r.mac = computeTag lib k (serializeHeaderWs target flags payload).val
            payload := by
          rw [hkept, ← fillArray_toList_append (computeTag lib k _ payload) [], List.append_nil]
          rfl
        have hsame : computeTag lib k (serializeHeaderWs target flags payload).val payload =
            computeTag lib k (serializeHeaderWs target (flags &&& ~~~flagCompressed) content).val
              content := by
          rw [← hsent, htag, ← hraw, ← hpayload]
          rfl
        exact congrArg Subtype.val hsame
  · intro htags
    rw [htags] at hbuf
    exact ⟨_, Accepts.parse_eq lib (accepts_layout lib hsize hmac hbuf hnormal)⟩

/-! ### Which flags are safe -/

/-- The flags sent say compressed exactly when the caller's do. -/
theorem sentFlags_compressed (c : Client) (extraFlags : UInt16) :
    hasFlag (c.sentFlags extraFlags) flagCompressed = hasFlag extraFlags flagCompressed := by
  have hbase : hasFlag (baseFlags c.sessionKey) flagCompressed = false := by
    cases c.sessionKey with
    | none => rfl
    | some k => exact (congrArg (hasFlag · flagCompressed) (if_pos rfl)).trans rfl
  rw [sentFlags, hasFlag_or, hbase, Bool.false_or]

/-- The flags sent say tagged when there is a key or the caller's do. -/
theorem sentFlags_mac (c : Client) (extraFlags : UInt16) :
    hasFlag (c.sentFlags extraFlags) flagMacPresent =
      (c.sessionKey.isSome || hasFlag extraFlags flagMacPresent) := by
  have hbase : hasFlag (baseFlags c.sessionKey) flagMacPresent = c.sessionKey.isSome := by
    cases c.sessionKey with
    | none => rfl
    | some k => exact (congrArg (hasFlag · flagMacPresent) (if_pos rfl)).trans rfl
  rw [sentFlags, hasFlag_or, hbase]

/-- Sending is readable if the frame handed over is. -/
theorem sendsReadable_iff {c : Client} {target payload frame : Bytes} {extraFlags : UInt16}
    {senv : SendEnv} (hpayload : payload.length ≤ maxPayloadSize)
    (hpack : packedFrame lib c target extraFlags payload = .ok frame)
    (hsize : frame.length ≤ maxFrameSize) (htakes : TakesFrame c senv) :
    SendsReadable lib c target extraFlags payload senv ↔
      ∃ r, parseFrameFromBuffer lib frame c.sessionKey = .ok (r, frame.length) := by
  obtain ⟨c', hsend, hemits⟩ := sendRawWithFlags_emits hpayload hpack hsize htakes
  constructor
  · intro h
    obtain ⟨frame', c'', r, hsend', hemits', hparse⟩ := h
    rw [hsend] at hsend'
    cases hsend'
    rw [hemits.unique hemits']
    exact ⟨r, hparse⟩
  · intro h
    obtain ⟨r, hparse⟩ := h
    exact ⟨frame, c', r, hsend, hemits, hparse⟩

/-- An uncompressed frame under the right flags is read back. -/
theorem packedFrame_parses (hz : lib.ZstdRoundTrip) {c : Client} {target payload frame : Bytes}
    {extraFlags : UInt16} (hpayload : payload.length ≤ maxPayloadSize)
    (hpack : packedFrame lib c target extraFlags payload = .ok frame)
    (hplain : hasFlag (c.sentFlags extraFlags) flagCompressed = false)
    (hmac : hasFlag (c.sentFlags extraFlags) flagMacPresent = c.sessionKey.isSome) :
    parseFrameFromBuffer lib frame c.sessionKey =
      .ok (plainResult lib target (c.sentFlags extraFlags) payload c.sessionKey, frame.length) := by
  unfold packedFrame at hpack
  by_cases hws : c.ws.isSome
  · rw [if_pos hws] at hpack
    obtain ⟨frame', hpack', hparse⟩ := packFrameWs_parses lib target hpayload hplain hmac
    rw [hpack] at hpack'
    cases hpack'
    exact hparse
  · rw [if_neg hws] at hpack
    obtain ⟨frame', hpack', hparse⟩ := packFrameRaw_parses lib hz target hpayload hplain hmac
    rw [hpack] at hpack'
    cases hpack'
    exact hparse

end Client

open Client in
/-- **Which flags can be read.**  For every client on either transport, target,
flag word and admissible payload: what `send_raw_with_flags` writes is one frame
that a peer with the same key accepts whole, exactly if the flags agree with
what the framing layer does. -/
theorem sent_frame_readable_iff (lib : WireLibs) (hz : lib.ZstdRoundTrip) (c : Client)
    (target : Bytes) (extraFlags : UInt16) (payload : Bytes) (senv : SendEnv)
    (hpayload : payload.length ≤ maxPayloadSize)
    (hzstd : hasFlag extraFlags flagCompressed = true → ∃ content, ZstdFrame lib payload content)
    (htakes : TakesFrame c senv) :
    SendsReadable lib c target extraFlags payload senv ↔
      FlagsAgree lib c target extraFlags payload := by
  obtain ⟨wireFlags, wire, hwire, hpack⟩ := packedFrame_layout hz c target extraFlags hpayload
  rw [sendsReadable_iff hpayload hpack (layout_size hwire.size_le) htakes]
  have hflagMac := sentFlags_mac c extraFlags
  by_cases hunannounced : hasFlag extraFlags flagMacPresent = true ∧ c.sessionKey = none
  · -- A tag is announced and there is no key to make one.
    obtain ⟨hextra, hkey⟩ := hunannounced
    constructor
    · intro h
      obtain ⟨r, hparse⟩ := h
      rw [hkey] at hparse
      refine absurd (Accepts.of_parse lib hparse) (truncated_not_accepted hwire.size_le ?_
        (List.append_nil _))
      rw [hwire.mac_eq, hflagMac, hextra, Bool.or_true]
    · intro h
      have hsome := h.mac hextra
      rw [hkey] at hsome
      cases hsome
  have hmacAllowed : hasFlag extraFlags flagMacPresent = true → c.sessionKey.isSome := by
    intro hextra
    by_contra hnone
    exact hunannounced ⟨hextra, Option.not_isSome_iff_eq_none.mp hnone⟩
  have hmac : hasFlag (c.sentFlags extraFlags) flagMacPresent = c.sessionKey.isSome := by
    rw [hflagMac]
    cases hextra : hasFlag extraFlags flagMacPresent with
    | false => rw [Bool.or_false]
    | true => rw [hmacAllowed hextra, Bool.true_or]
  by_cases hcompressed : hasFlag extraFlags flagCompressed = true
  · -- The payload was compressed before the tag is computed.
    have hflag := (sentFlags_compressed c extraFlags).trans hcompressed
    obtain ⟨rfl, rfl⟩ := hwire.as_is hflag
    obtain ⟨content, hcontent⟩ := hzstd hcompressed
    rw [compressed_accepted_iff hpayload hflag hmac hcontent.bounded rfl]
    constructor
    · intro htags
      refine ⟨hmacAllowed, ?_⟩
      intro _ key content' hkey hcontent'
      rw [hkey] at htags
      rw [hcontent'.unique hcontent]
      exact Subtype.ext htags
    · intro h
      cases hkey : c.sessionKey with
      | none => rfl
      | some key => exact congrArg Subtype.val (h.compressed hcompressed key content hkey hcontent)
  · have hplain : hasFlag (c.sentFlags extraFlags) flagCompressed = false := by
      rw [sentFlags_compressed]
      exact Bool.not_eq_true _ ▸ hcompressed
    constructor
    · intro _
      exact ⟨hmacAllowed, fun h => absurd h hcompressed⟩
    · intro _
      exact ⟨_, packedFrame_parses hz hpayload hpack hplain hmac⟩

namespace Client

/-- A client without a key on an open socket. -/
def unsecured : Client := { fd := some {} }

/-- A client without a key takes frames. -/
theorem unsecured_takesFrame : TakesFrame unsecured slowSendEnv :=
  ⟨fun _ => rfl, slowSendEnv_steady, rfl⟩

end Client

open Client in
/-- A compressed payload goes out unsecured. -/
theorem sent_frame_readable_iff_compressed :
    SendsReadable storingLibs unsecured (ascii "peer") flagCompressed [0x28, 7] slowSendEnv := by
  refine (sent_frame_readable_iff storingLibs storingLibs_roundTrip unsecured (ascii "peer")
    flagCompressed [0x28, 7] slowSendEnv (by decide) ?_ unsecured_takesFrame).mpr ⟨?_, ?_⟩
  · intro _
    exact ⟨[7], rfl, rfl, by decide⟩
  · intro h
    exact absurd h (by decide)
  · intro _ key content hkey
    cases hkey

open Client in
/-- A tag announced without a key: the peer waits for bytes that are never sent. -/
theorem sent_frame_cut_short :
    (∃ frame, packedFrame storingLibs unsecured (ascii "peer") flagMacPresent [7] = .ok frame ∧
        parseFrameFromBuffer storingLibs frame none = .error (.io (ascii "frame truncated"))) ∧
      ¬ ∀ (lib : WireLibs), lib.ZstdRoundTrip →
        ∀ (c : Client) (target : Bytes) (extraFlags : UInt16) (payload : Bytes) (senv : SendEnv),
          payload.length ≤ maxPayloadSize →
          (hasFlag extraFlags flagCompressed = true → ∃ content, ZstdFrame lib payload content) →
          TakesFrame c senv → SendsReadable lib c target extraFlags payload senv := by
  obtain ⟨wireFlags, wire, hwire, hpack⟩ := packedFrame_layout storingLibs_roundTrip unsecured
    (ascii "peer") flagMacPresent (by decide : ([7] : Bytes).length ≤ maxPayloadSize)
  refine ⟨⟨_, rfl, by decide +kernel⟩, ?_⟩
  intro hall
  have hsends := hall storingLibs storingLibs_roundTrip unsecured (ascii "peer") flagMacPresent [7]
    slowSendEnv (by decide) (fun h => absurd h (by decide)) unsecured_takesFrame
  rw [sendsReadable_iff (by decide) hpack (layout_size hwire.size_le)
    unsecured_takesFrame] at hsends
  obtain ⟨r, hparse⟩ := hsends
  exact absurd (Accepts.of_parse storingLibs hparse)
    (truncated_not_accepted hwire.size_le hwire.mac_eq (List.append_nil _))

end Vynkor
