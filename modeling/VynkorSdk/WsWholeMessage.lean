import VynkorSdk.FrameCanonical
import VynkorSdk.Inbox

/-!
# One WebSocket message, one wire frame

On the WebSocket transport a binary message carries one wire frame.  The parser
looks at the front of a buffer and reports how much of it the frame takes;
`read_transport_frame` does not ask for that number.  A message is therefore read
as the frame in front, and it is that frame exactly when nothing stands behind
it.
-/

namespace Vynkor

open ByteCodec Procedure Client

/-- The message is header, payload and tag of one wire frame, and `frame` is what
that wire frame holds. -/
def IsWireFrame (lib : WireLibs) (message : Bytes) (frame : FrameResult) : Prop :=
  ∃ (flags : UInt16) (target : Block32) (wire : Bytes), wire.length ≤ maxPayloadSize ∧
    message = (buildHeader flags target wire).val ++ wire ++
      (if frame.hasMac then frame.mac.val else []) ∧
    frame.hasMac = hasFlag flags flagMacPresent ∧
    ((hasFlag flags flagCompressed = true ∧ frame.flags = flags &&& ~~~flagCompressed ∧
        zstdDecompressBounded lib wire = .ok frame.payload) ∨
      (hasFlag flags flagCompressed = false ∧ frame.flags = flags ∧ frame.payload = wire))

variable {lib : WireLibs} {key : Option Block32}

/-- A wire frame is as long as its header says. -/
theorem IsWireFrame.extent_eq {message : Bytes} {frame : FrameResult}
    (h : IsWireFrame lib message frame) : frameExtent message = message.length := by
  obtain ⟨flags, target, wire, hwire, hmessage, hmac, _⟩ := h
  have hlt : wire.length < 256 ^ 4 := by
    simp only [maxPayloadSize] at hwire
    omega
  rw [List.append_assoc] at hmessage
  obtain ⟨_, hflags, hlength, _, _⟩ := headerBytes_fields hlt hmessage
  rw [frameExtent, hflags, hlength, ← hmac, hmessage]
  simp only [buildHeader, List.length_append, headerBytes_length, frameHeaderSize]
  cases frame.hasMac with
  | false => simp
  | true => simp [frame.mac.2, macTagLen]; omega

/-- The bytes a parsed frame takes are a wire frame. -/
theorem Accepts.isWireFrame {buf : Bytes} {r : FrameResult} {n : Nat}
    (h : Accepts lib buf key r n) : IsWireFrame lib (buf.take n) r := by
  have hwire := h.wire_length
  have hextent := h.extent_le
  have hheader : buf.take 44 = (buildHeader (flagsField buf) (targetField buf)
      (slice buf frameHeaderSize (lengthField buf))).val := by
    rw [take_header_eq h.header_le h.magic_eq]
    simp only [buildHeader, hwire, h.crc_eq]
  have htag : slice buf (frameHeaderSize + lengthField buf)
      (if hasFlag (flagsField buf) flagMacPresent then macTagLen else 0) =
        if r.hasMac then r.mac.val else [] := by
    rw [← h.hasMac_eq]
    cases hmac : r.hasMac with
    | false => simp [slice]
    | true =>
        have hflag : hasFlag (flagsField buf) flagMacPresent = true := h.hasMac_eq ▸ hmac
        rw [frameExtent, hflag, if_pos rfl] at hextent
        have htagBytes := h.mac_eq
        rw [hmac, if_pos rfl] at htagBytes
        rw [if_pos rfl, if_pos rfl, htagBytes, fillArray_val (by
          rw [List.length_drop]
          simp only [macTagLen] at hextent
          omega)]
        rfl
  refine ⟨flagsField buf, targetField buf, slice buf frameHeaderSize (lengthField buf),
    by rw [hwire]; exact h.length_le, ?_, h.hasMac_eq, ?_⟩
  · have hsplit : buf.take n = slice buf 0 44 ++ slice buf frameHeaderSize (lengthField buf) ++
        slice buf (frameHeaderSize + lengthField buf)
          (if hasFlag (flagsField buf) flagMacPresent then macTagLen else 0) := by
      rw [slice_append_slice buf (by decide), slice_append_slice buf (by simp [frameHeaderSize]),
        h.consumed_eq]
      rfl
    rw [hsplit, htag, ← hheader]
    rfl
  · obtain ⟨hflag, hplain, hflags, _⟩ | ⟨hflag, hflags, hpayload, _⟩ :=
      normalizeFrame_ok lib h.normal
    · exact Or.inl ⟨hflag, hflags, hplain⟩
    · exact Or.inr ⟨hflag, hflags, hpayload⟩

/-- An array filled from a long enough front is filled from the whole. -/
theorem fillArray_take {bs : Bytes} {n m : Nat} (hn : n ≤ m) (hm : m ≤ bs.length) :
    fillArray n (bs.take m) = fillArray n bs := by
  apply Subtype.ext
  rw [fillArray_val (by rw [List.length_take]; omega), fillArray_val (by omega), List.take_take,
    Nat.min_eq_left hn]

/-- The parser looks at the frame in front only. -/
theorem parseFrameBytes_take {buf : Bytes} (hheader : frameHeaderSize ≤ buf.length)
    (hextent : frameExtent buf ≤ buf.length) :
    parseFrameBytes lib (buf.take (frameExtent buf)) key = parseFrameBytes lib buf key := by
  have hlen : (buf.take (frameExtent buf)).length = frameExtent buf := by
    rw [List.length_take]
    omega
  have hsize : frameExtent buf = frameHeaderSize + lengthField buf +
      (if hasFlag (flagsField buf) flagMacPresent then macTagLen else 0) := rfl
  have hfront : 44 ≤ frameExtent buf := by
    simp only [frameExtent, frameHeaderSize]
    omega
  have hmagic : magicField (buf.take (frameExtent buf)) = magicField buf := by
    rw [magicField, slice_take (by omega), magicField]
  have hflags : flagsField (buf.take (frameExtent buf)) = flagsField buf := by
    rw [flagsField, slice_take (by omega), flagsField]
  have hlength : lengthField (buf.take (frameExtent buf)) = lengthField buf := by
    rw [lengthField, slice_take (by omega), lengthField]
  have hcrc : crcField (buf.take (frameExtent buf)) = crcField buf := by
    rw [crcField, slice_take (by omega), crcField]
  have htarget : targetField (buf.take (frameExtent buf)) = targetField buf := by
    rw [targetField, List.drop_take, fillArray_take (by omega) (by rw [List.length_drop]; omega)]
    rfl
  have hextentSame : frameExtent (buf.take (frameExtent buf)) = frameExtent buf := by
    rw [frameExtent, hflags, hlength]
    rfl
  have hwire : slice (buf.take (frameExtent buf)) frameHeaderSize (lengthField buf) =
      slice buf frameHeaderSize (lengthField buf) := slice_take (by omega)
  have hnormal : ∀ wire, normalizeFrame lib (buf.take (frameExtent buf)) wire =
      normalizeFrame lib buf wire := by
    intro wire
    rw [normalizeFrame, normalizeFrame, hflags, htarget, fillArray_take hfront hextent]
  have hmac : hasFlag (flagsField buf) flagMacPresent = true →
      fillArray 32 ((buf.take (frameExtent buf)).drop (frameHeaderSize + lengthField buf)) =
        fillArray 32 (buf.drop (frameHeaderSize + lengthField buf)) := by
    intro hflag
    rw [hflag, if_pos rfl] at hsize
    simp only [macTagLen] at hsize
    rw [List.drop_take, fillArray_take (by omega) (by rw [List.length_drop]; omega)]
  unfold parseFrameBytes
  rw [hlen, hmagic, hlength, hextentSame, hcrc, hflags, hwire]
  dsimp only
  have hwide : ¬ frameExtent buf < frameHeaderSize := by
    simp only [frameHeaderSize]
    omega
  rw [hnormal, if_neg hwide,
    if_neg (Nat.not_lt.mpr hheader), if_neg (Nat.lt_irrefl (frameExtent buf)),
    if_neg (Nat.not_lt.mpr hextent)]
  by_cases hflag : hasFlag (flagsField buf) flagMacPresent = true
  · rw [hmac hflag]
  · simp only [hflag, if_false, Bool.false_eq_true]

/-- A message on the WebSocket transport, read: the parser decides. -/
theorem readTransportFrame_ws_ok_iff {c : Client} {deadline : Option Int} {env : FrameEnv}
    {message : Bytes} (hws : c.ws.isSome) (hmessage : env.message = .ok message)
    {frame : FrameResult} :
    (∃ c', exec (readTransportFrame lib deadline env) c = some (.ok frame, c')) ↔
      ∃ n, parseFrameBytes lib message c.sessionKey = .ok (frame, n) := by
  constructor
  · rintro ⟨c', hexec⟩
    cases hparse : parseFrameBytes lib message c.sessionKey with
    | ok r =>
        have hread := readTransportFrame_webSocket (w := ⟨message, r.1, env⟩) deadline hws hmessage
          hparse
        cases hread.symm.trans hexec
        exact ⟨r.2, rfl⟩
    | error e =>
        have hactive : exec (readActiveFrame lib deadline env) c = some (.error e, c) := by
          rw [readActiveFrame, exec_bind_ok (exec_get _), if_pos hws, readWsFrame,
            exec_bind_ok (exec_get _), hmessage, exec_bind_ok (exec_settle _ _),
            parseFrameFromBuffer, hparse, exec_bind_error (exec_settle _ _)]
        rw [readTransportFrame, exec_bind_ok (exec_get _), exec_bind_error hactive] at hexec
        cases hexec
  · rintro ⟨n, hparse⟩
    exact ⟨_, readTransportFrame_webSocket (w := ⟨message, frame, env⟩) deadline hws hmessage
      hparse⟩

/-- The frame in front of the message, as long as its header declares, fails one
of the parser's checks under this key. -/
def FrontRefused (lib : WireLibs) (message : Bytes) (key : Option Block32) : Prop :=
  ∀ r n, ¬ Accepts lib (message.take (frameExtent message)) key r n

/-- **When a message is one wire frame**: when it is no longer than the frame its
header declares, or when that frame in front fails one of the parser's checks. -/
theorem ws_message_one_frame_iff {c : Client} {env : FrameEnv} {message : Bytes}
    (deadline : Option Int) (hws : c.ws.isSome) (hmessage : env.message = .ok message) :
    (∀ frame c', exec (readTransportFrame lib deadline env) c = some (.ok frame, c') →
        IsWireFrame lib message frame) ↔
      message.length ≤ frameExtent message ∨ FrontRefused lib message c.sessionKey := by
  constructor
  · intro hone
    by_cases hlonger : message.length ≤ frameExtent message
    · exact Or.inl hlonger
    · refine Or.inr (fun r n hfront => ?_)
      have hextent : frameExtent message ≤ message.length := by omega
      have hheader : frameHeaderSize ≤ message.length := by
        simp only [frameExtent] at hextent
        omega
      rw [← parseFrameBytes_ok_iff, parseFrameBytes_take hheader hextent] at hfront
      obtain ⟨c', hexec⟩ := (readTransportFrame_ws_ok_iff hws hmessage).mpr ⟨n, hfront⟩
      have := (hone r c' hexec).extent_eq
      omega
  · intro hclean frame c' hexec
    obtain ⟨n, hparse⟩ := (readTransportFrame_ws_ok_iff hws hmessage).mp ⟨c', hexec⟩
    have haccepts := Accepts.of_parse lib hparse
    have hextent := haccepts.extent_le
    have hwire := haccepts.isWireFrame
    rcases hclean with hle | hnone
    · rwa [haccepts.consumed_eq, List.take_of_length_le hle] at hwire
    · rw [← parseFrameBytes_take haccepts.header_le hextent, parseFrameBytes_ok_iff] at hparse
      exact absurd hparse (hnone frame n)

/-- A client on the WebSocket transport with a session key. -/
def keyedWsClient : Client := { ws := some {}, sessionKey := some sampleKey }

/-- The environment of a read that gets `message`. -/
def messageEnv (message : Bytes) : FrameEnv := { byteEnv with message := .ok message }

/-- A frame with a tag, alone in its message. -/
theorem ws_message_one_frame_iff_ping :
    (∃ c', exec (readTransportFrame storingLibs none (messageEnv (sampleFrame (ascii "ping"))))
        keyedWsClient = some (.ok (sampleResult (ascii "ping")), c')) ∧
      IsWireFrame storingLibs (sampleFrame (ascii "ping")) (sampleResult (ascii "ping")) := by
  have hparse : parseFrameBytes storingLibs (sampleFrame (ascii "ping")) (some sampleKey) =
      .ok (sampleResult (ascii "ping"), 80) := by decide +kernel
  have hread := readTransportFrame_webSocket (c := keyedWsClient)
    (w := ⟨_, _, messageEnv (sampleFrame (ascii "ping"))⟩) none rfl rfl hparse
  have hwhole : (sampleFrame (ascii "ping")).length ≤ frameExtent (sampleFrame (ascii "ping")) := by
    decide +kernel
  exact ⟨⟨_, hread⟩, (ws_message_one_frame_iff none rfl rfl).mpr (Or.inl hwhole) _ _ hread⟩

/-- **A second frame in a message is dropped**: the message is read as a ping, and
the pong behind it is gone. -/
theorem ws_message_drops_second_frame :
    (∃ c', exec (readTransportFrame storingLibs none
        (messageEnv (sampleFrame (ascii "ping") ++ sampleFrame (ascii "pong")))) keyedWsClient =
          some (.ok (sampleResult (ascii "ping")), c')) ∧
      ¬ IsWireFrame storingLibs (sampleFrame (ascii "ping") ++ sampleFrame (ascii "pong"))
        (sampleResult (ascii "ping")) := by
  have hparse : parseFrameBytes storingLibs (sampleFrame (ascii "ping") ++
      sampleFrame (ascii "pong"))
      (some sampleKey) = .ok (sampleResult (ascii "ping"), 80) := by decide +kernel
  have hlonger : frameExtent (sampleFrame (ascii "ping") ++ sampleFrame (ascii "pong")) ≠
      (sampleFrame (ascii "ping") ++ sampleFrame (ascii "pong")).length := by decide +kernel
  exact ⟨⟨_, readTransportFrame_webSocket (c := keyedWsClient)
      (w := ⟨_, _, messageEnv (sampleFrame (ascii "ping") ++ sampleFrame (ascii "pong"))⟩)
      none rfl rfl hparse⟩, fun hwire => hlonger hwire.extent_eq⟩

end Vynkor
