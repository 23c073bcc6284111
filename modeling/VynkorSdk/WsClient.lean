import VynkorSdk.BoundedReceives
import VynkorSdk.ClientSession
import VynkorSdk.WsOutbound

/-!
# The client on a WebSocket

The client takes its WebSocket for a carrier of messages: a message is sent or
it is not, and a receive gives a message or throws.  Underneath are frames on a
stream, pings among them, short reads and writes.  An `Endpoint` is both, with
the operations of the client on the stream itself.

Every run of these operations is a run of the client on messages
(`client_runs_over_webSocket`): the same results and the same client, where a
message received is the data of the frames taken for it, and the messages sent
are, in order, the binary frames on the stream.
-/

namespace Vynkor

open ByteCodec KeyedTable Procedure PrefixCode

/-- What the environment does while one wire frame is sent, on the socket or in
`send_binary`. -/
structure SendLink where
  senv : SendEnv := ⟨[], .ok ()⟩
  rand : Option (FixedBytes 4)
  writes : List WsWrite

/-- `RAND_bytes` works and no write fails. -/
def SendLink.GoesOn (link : SendLink) : Prop := link.rand.isSome ∧ WritesGoOn link.writes

def LinkEnv.GoesOn (link : LinkEnv) : Prop := ∀ run ∈ link.runs, run.GoesOn

namespace Endpoint

open Client

variable (lib : WireLibs) (proto : ProtoLib)

/-! ### The operations on the stream -/

def sendRawWithFlags (target : Bytes) (extraFlags : UInt16) (payload : Bytes) (link : SendLink) :
    Proc Exn Endpoint Unit := do
  let e ← get
  let baseFlags := if e.client.sessionKey.isSome then flagMacPresent else 0
  let flags := baseFlags ||| extraFlags
  if e.client.ws.isSome then
    if payload.length > maxPayloadSize then
      throw (.payloadTooLarge payload.length)
    else do
      let message ← settle (packFrameWs lib target flags payload e.client.sessionKey)
      let outcome ← onStream (WsImpl.sendBinary message link.rand link.writes)
      zoom client setClient (writeAllWs { link.senv with wsSend := outcome } message)
  else
    zoom client setClient (Client.sendRawWithFlags lib target extraFlags payload link.senv)

def send (target : Bytes) (env : Envelope) (link : SendLink) : Proc Exn Endpoint Unit :=
  sendRawWithFlags lib target 0 (proto.serialize env) link

def recv (links : List LinkEnv) : Proc Exn Endpoint Envelope := do
  let result ← recvFrameWith lib none links
  settle (decodeFrame proto result)

def waitForResponse (deadline : Int) (isTerminal : Envelope → Bool) :
    List (List LinkEnv) → Proc Exn Endpoint Envelope
  | [] => waiting
  | links :: rest => do
      let frame ← recvFrameWith lib (some deadline) links
      match proto.parse frame.payload with
      | none => throw (.proto (ascii "protobuf parse failed"))
      | some resp =>
          if isTerminal resp then
            pure resp
          else
            waitForResponse deadline isTerminal rest

def registerFull (pluginId version : Bytes) (manifest : PluginManifest) (jwtToken : Bytes)
    (link : SendLink) (links : List LinkEnv) : Proc Exn Endpoint PluginRegisterAck := do
  let e ← get
  let env : Envelope :=
    { payload := some (.pluginRegister
        { pluginId := pluginId, version := version, jwtToken := jwtToken,
          deviceId := e.client.deviceId, manifest := manifest }) }
  send lib proto (ascii "kernel") env link
  let ack ← recv lib proto links
  zoom client setClient (acceptRegistration lib pluginId ack)

/-! ### What goes over the stream -/

/-- One receive: the frames it took and what it returned or threw. -/
structure Receipt where
  taken : List WsIncomingFrame
  outcome : Except Exn Bytes

/-- The messages sent over the connection. -/
def sent (e : Endpoint) : List Bytes := (e.client.ws.map WsConnection.sent).getD []

/-- The messages among the frames written. -/
def messagesIn (frames : List ClientFrame) : List Bytes :=
  (frames.filter (fun f => f.opcode = opBinary)).map ClientFrame.payload

def controlsIn (frames : List ClientFrame) : List (UInt8 × Bytes) :=
  (frames.filter (fun f => f.opcode ≠ opBinary)).map ClientFrame.content

/-- **From `e` to `e'`** the client received this and the connection stays open.
What it was given is the data of the frames taken; what was written is whole
frames, the messages sent and the answers to the frames taken, and no torn frame
and no answer missing where it was `whole`. -/
structure Carried (e e' : Endpoint) (received : List Receipt) (whole : Prop) : Prop where
  isOpen : e'.client.ws.isSome
  taken : WsImpl.Taken e.impl.ahead (received.flatMap Receipt.taken) e'.impl.ahead
  given : ∀ r ∈ received, ∀ message, r.outcome = .ok message →
    message = r.taken.flatMap WsImpl.dataOf
  written : ∃ (frames : List ClientFrame) (torn : Bytes),
    e'.impl.outbound = e.impl.outbound ++ (encode ClientFrame.bytes frames ++ torn) ∧
      Torn ClientFrame.bytes torn ∧ e'.sent = e.sent ++ messagesIn frames ∧
      controlsIn frames <+: (received.flatMap Receipt.taken).filterMap WsImpl.answer ∧
      (whole → torn = [] ∧
        controlsIn frames = (received.flatMap Receipt.taken).filterMap WsImpl.answer)

variable {lib proto}

/-- Less is known of when the transport was whole. -/
theorem Carried.mono {e e' : Endpoint} {received : List Receipt} {whole whole' : Prop}
    (h : Carried e e' received whole) (himp : whole' → whole) : Carried e e' received whole' := by
  obtain ⟨frames, torn, hout, htorn, hsent, hfront, hall⟩ := h.written
  exact ⟨h.isOpen, h.taken, h.given, frames, torn, hout, htorn, hsent, hfront,
    fun hwhole => hall (himp hwhole)⟩

/-- Nothing moved on the stream. -/
theorem Carried.still {e : Endpoint} {c : Client} {whole : Prop} (hopen : e.client.ws.isSome)
    (hws : c.ws = e.client.ws) : Carried e (e.setClient c) [] whole where
  isOpen := by
    show c.ws.isSome
    rw [hws]
    exact hopen
  taken := .nil _
  given := by simp
  written := ⟨[], [], by simp [setClient], torn_nil, by simp [sent, setClient, hws, messagesIn],
    List.nil_prefix, fun _ => ⟨rfl, rfl⟩⟩

/-- Behind what was carried whole comes the next. -/
theorem Carried.trans {e₁ e₂ e₃ : Endpoint} {received received' : List Receipt} {whole : Prop}
    (h : Carried e₁ e₂ received True) (h' : Carried e₂ e₃ received' whole) :
    Carried e₁ e₃ (received ++ received') whole := by
  obtain ⟨frames, torn, hout, -, hsent, -, hall⟩ := h.written
  obtain ⟨rfl, hcontrols⟩ := hall trivial
  obtain ⟨frames', torn', hout', htorn', hsent', hfront', hall'⟩ := h'.written
  have hjoined : controlsIn (frames ++ frames') =
      (received.flatMap Receipt.taken).filterMap WsImpl.answer ++ controlsIn frames' := by
    rw [← hcontrols]
    simp [controlsIn]
  refine ⟨h'.isOpen, ?_, ?_, frames ++ frames', torn', ?_, htorn', ?_, ?_, ?_⟩
  · rw [List.flatMap_append]
    exact h.taken.trans h'.taken
  · intro r hr
    cases List.mem_append.mp hr with
    | inl hr => exact h.given r hr
    | inr hr => exact h'.given r hr
  · rw [hout', hout]
    simp
  · rw [hsent', hsent]
    simp [messagesIn]
  · rw [hjoined, List.flatMap_append, List.filterMap_append]
    exact (List.prefix_append_right_inj _).mpr hfront'
  · intro hwhole
    obtain ⟨htorn, hcontrols'⟩ := hall' hwhole
    exact ⟨htorn, by rw [hjoined, hcontrols', List.flatMap_append, List.filterMap_append]⟩

/-! ### Sending -/

/-- A packed message has fewer than 2^64 bytes. -/
theorem packFrameWs_length {target : Bytes} {flags : UInt16} {payload message : Bytes}
    {key : Option Block32} (h : packFrameWs lib target flags payload key = .ok message) :
    message.length < 2 ^ 64 := by
  unfold packFrameWs at h
  by_cases hsize : payload.length > maxPayloadSize
  · rw [if_pos hsize] at h
    cases h
  · rw [if_neg hsize] at h
    simp only [maxPayloadSize] at hsize
    cases key with
    | none =>
        cases h
        rw [List.length_append, (serializeHeaderWs target flags payload).2]
        omega
    | some key =>
        cases h
        rw [List.length_append, List.length_append, (serializeHeaderWs target flags payload).2,
          (computeTag lib key _ payload).2]
        omega

/-- A call that returned, or in which no write could fail, left nothing torn. -/
def Clean {α : Type} (r : Except Exn α) (goesOn : Prop) : Prop := (∃ a, r = .ok a) ∨ goesOn

/-- An error that is clean comes with writes that went on. -/
theorem Clean.thrown {α : Type} {error : Exn} {goesOn : Prop}
    (h : Clean (.error error : Except Exn α) goesOn) : goesOn := by
  cases h with
  | inl h =>
      obtain ⟨_, h⟩ := h
      cases h
  | inr hgoes => exact hgoes

/-- A call that returned has carried everything. -/
theorem Carried.returned {α : Type} {a : α} {e e' : Endpoint} {received : List Receipt}
    {goesOn : Prop} (h : Carried e e' received (Clean (.ok a : Except Exn α) goesOn))
    (whole : Prop) : Carried e e' received whole :=
  h.mono (fun _ => .inl ⟨a, rfl⟩)

/-- A call that threw, as a part of one in which more could go wrong. -/
theorem Carried.threw {α β : Type} {error : Exn} {e e' : Endpoint} {received : List Receipt}
    {goesOn goesOn' : Prop} (h : Carried e e' received (Clean (.error error : Except Exn α) goesOn))
    (himp : goesOn' → goesOn) :
    Carried e e' received (Clean (.error error : Except Exn β) goesOn') :=
  h.mono (fun hclean => .inr (himp hclean.thrown))

/-- A message on its way out. -/
theorem carried_message {e : Endpoint} {message : Bytes} {link : SendLink} {impl : WsImpl}
    {r : Except Exn Unit} (hopen : e.client.ws.isSome) (hsize : message.length < 2 ^ 64)
    (hexec : exec (WsImpl.sendBinary message link.rand link.writes) e.impl = some (r, impl)) :
    ∃ c, exec (writeAllWs { link.senv with wsSend := r } message) e.client = some (r, c) ∧
      Carried e ⟨c, impl⟩ [] (Clean r link.GoesOn) := by
  have hwritten :=
    WsImpl.writeFrame_written (by decide) hsize link.rand link.writes e.impl r impl hexec
  obtain ⟨ws, hws⟩ := Option.isSome_iff_exists.mp hopen
  rcases hwritten with ⟨rfl, hall⟩ | ⟨⟨error, rfl⟩, hbroken, hfront⟩
  · obtain ⟨frames, torn, said, hout, htorn, htells, -, hwhole⟩ := hall.written
    obtain ⟨rfl, rfl⟩ := hwhole trivial
    cases htells with
    | @cons f _ _ _ htell hnone =>
        cases hnone
        have hopcode : f.opcode = opBinary := congrArg Prod.fst htell
        have hpayload : f.payload = message := congrArg Prod.snd htell
        have hcontrols : controlsIn [f] = [] := by simp [controlsIn, hopcode]
        refine ⟨_, rfl, by simp [hws], hall.taken, by simp, [f], [], hout, torn_nil, ?_, ?_, ?_⟩
        · simp [sent, hws, messagesIn, hopcode, hpayload]
        · rw [hcontrols]
          exact List.nil_prefix
        · exact fun _ => ⟨rfl, hcontrols⟩
  -- The frame is torn: it counts neither as sent nor as written.
  · obtain ⟨frames, torn, said, hout, htorn, htells, hsaid, -⟩ := hfront.written
    obtain rfl := List.prefix_nil.mp hsaid
    cases htells
    refine ⟨e.client, rfl, hopen, hfront.taken, by simp, [], torn, hout, htorn,
      by simp [sent, messagesIn], List.nil_prefix, ?_⟩
    exact fun hclean => absurd hclean.thrown hbroken

/-- **One wire frame sent** is one message of the client, if it is sent. -/
theorem sendRawWithFlags_carried {e : Endpoint} (hopen : e.client.ws.isSome) (target : Bytes)
    (extraFlags : UInt16) (payload : Bytes) (link : SendLink) :
    Post (sendRawWithFlags lib target extraFlags payload link) e (fun r e' =>
      ∃ outcome, exec (Client.sendRawWithFlags lib target extraFlags payload
          { link.senv with wsSend := outcome }) e.client = some (r, e'.client) ∧
        Carried e e' [] (Clean r link.GoesOn)) := by
  have hstill : ∀ whole, Carried e e [] whole := fun _ => .still hopen rfl
  intro r e' hrun
  rw [sendRawWithFlags, exec_bind_ok (exec_get _)] at hrun
  dsimp only at hrun
  rw [if_pos hopen] at hrun
  by_cases hsize : payload.length > maxPayloadSize
  · rw [if_pos hsize] at hrun
    cases hrun
    refine ⟨.ok (), ?_, hstill _⟩
    rw [Client.sendRawWithFlags, exec_bind_ok (exec_get _)]
    dsimp only
    rw [if_pos hopen, if_pos hsize]
    rfl
  rw [if_neg hsize] at hrun
  cases hpack : packFrameWs lib target
      ((if e.client.sessionKey.isSome then flagMacPresent else 0) ||| extraFlags) payload
      e.client.sessionKey with
  | error error =>
      rw [hpack, exec_bind_error (exec_settle _ _)] at hrun
      cases hrun
      refine ⟨.ok (), ?_, hstill _⟩
      rw [Client.sendRawWithFlags, exec_bind_ok (exec_get _)]
      dsimp only
      rw [if_pos hopen, if_neg hsize, hpack, exec_bind_error (exec_settle _ _)]
  | ok message =>
      rw [hpack, exec_bind_ok (exec_settle _ _), exec_bind, exec_onStream] at hrun
      cases hexec : exec (WsImpl.sendBinary message link.rand link.writes) e.impl with
      | none =>
          rw [hexec] at hrun
          cases hrun
      | some out =>
          obtain ⟨outcome, impl⟩ := out
          obtain ⟨c, hclient, hcarried⟩ := carried_message hopen (packFrameWs_length hpack) hexec
          rw [hexec, Option.map_some] at hrun
          dsimp only at hrun
          rw [exec_zoom] at hrun
          change (exec (writeAllWs { link.senv with wsSend := outcome } message) e.client).map _ = _
            at hrun
          rw [hclient] at hrun
          cases hrun
          refine ⟨r, ?_, hcarried⟩
          rw [Client.sendRawWithFlags, exec_bind_ok (exec_get _)]
          dsimp only
          rw [if_pos hopen, if_neg hsize, hpack, exec_bind_ok (exec_settle _ _)]
          exact hclient

/-! ### Receiving -/

/-- What answers a frame is a control frame. -/
theorem answer_control {frame : WsIncomingFrame} {content : UInt8 × Bytes}
    (h : WsImpl.answer frame = some content) : content.1 ≠ opBinary := by
  unfold WsImpl.answer at h
  by_cases hping : frame.opcode = opPing
  · rw [if_pos hping] at h
    cases h
    exact (by decide : opPong ≠ opBinary)
  · rw [if_neg hping] at h
    by_cases hclose : frame.opcode = opClose
    · rw [if_pos hclose] at h
      cases h
      exact (by decide : opClose ≠ opBinary)
    · rw [if_neg hclose] at h
      cases h

/-- Frames that tell a front of the answers hold no message. -/
theorem controls_of_answers {frames : List ClientFrame} {taken : List WsIncomingFrame}
    (hfront : frames.map ClientFrame.content <+: taken.filterMap WsImpl.answer) :
    messagesIn frames = [] ∧ controlsIn frames = frames.map ClientFrame.content := by
  have hcontrol : ∀ f ∈ frames, f.opcode ≠ opBinary := by
    intro f hf
    have hmem := hfront.subset (List.mem_map_of_mem hf)
    obtain ⟨frame, -, hanswer⟩ := List.mem_filterMap.mp hmem
    exact answer_control hanswer
  constructor
  · rw [messagesIn, List.filter_eq_nil_iff.mpr (by simpa using hcontrol), List.map_nil]
  · rw [controlsIn, List.filter_eq_self.mpr (by simpa using hcontrol)]

/-- What one receive carries, whatever the client makes of the message. -/
theorem carried_receive {e : Endpoint} {deadline : Option Int} {runs : List WsImpl.FrameRun}
    {impl : WsImpl} {outcome : Except Exn Bytes} {c : Client} {whole : Prop}
    (hopen : e.client.ws.isSome) (hws : c.ws = e.client.ws)
    (hexec : exec (WsImpl.receiveBinaryDeadline deadline runs) e.impl = some (outcome, impl))
    (hwhole : whole → (∃ message, outcome = .ok message) ∨ ∀ run ∈ runs, run.GoesOn) :
    ∃ taken, Carried e ⟨c, impl⟩ [⟨taken, outcome⟩] whole := by
  obtain ⟨taken, hexchange, hreturn⟩ :=
    WsImpl.receiveLoop_exchange deadline runs (fun _ => rfl) e.impl outcome impl hexec
  -- A receive that returns has answered everything, whatever writes were to come.
  have hall : Emitted ClientFrame.bytes ClientFrame.Tells e.impl.outbound impl.outbound
      (taken.filterMap WsImpl.answer) whole := by
    by_cases hok : ∃ message, outcome = .ok message
    · obtain ⟨message, hmessage⟩ := hok
      exact (hreturn message hmessage).1.written.mono (fun _ => trivial)
    · exact hexchange.written.mono (fun h => (hwhole h).resolve_left hok)
  obtain ⟨frames, torn, said, hout, htorn, htells, hfront, hdone⟩ := hall
  have hsaid : List.Forall₂ (· = ·) (frames.map ClientFrame.content) said :=
    List.forall₂_map_left_iff.mpr htells
  rw [List.forall₂_eq_eq_eq] at hsaid
  subst hsaid
  obtain ⟨hnone, hcontrols⟩ := controls_of_answers hfront
  refine ⟨taken, ?_, by simpa using hexchange.taken, ?_, frames, torn, hout, htorn, ?_, ?_, ?_⟩
  · show c.ws.isSome
    rw [hws]
    exact hopen
  · intro r hr message hmessage
    cases List.mem_singleton.mp hr
    exact (hreturn message hmessage).2
  · rw [hnone, List.append_nil]
    simp only [sent, hws]
  · rw [hcontrols, List.flatMap_singleton]
    exact hfront
  · intro h
    obtain ⟨hsame, htorn⟩ := hdone h
    exact ⟨htorn, by rw [hcontrols, List.flatMap_singleton, hsame]⟩

/-- A receive step keeps the connection. -/
theorem recvStep_ws (deadline : Option Int) (env : FrameEnv) (c : Client) :
    Post (Client.recvStep lib deadline env) c (fun _ c' => c'.ws = c.ws) := by
  have hview : ReadInvariant Client.ws := ⟨fun _ _ => rfl, fun _ _ _ => rfl, fun _ _ => rfl⟩
  refine .bind ((readTransportFrame_view hview deadline env c).mono ?_)
  intro r c' hws
  cases r with
  | error error => exact hws
  | ok frame =>
      refine .ite (fun _ => ?_) (fun _ => .pure hws)
      intro r c'' hrun
      rw [exec_absorb] at hrun
      cases hrun
      exact hws

/-- A read that gets an exception for a message throws it. -/
theorem recvStep_error {deadline : Option Int} {env : FrameEnv} {c : Client} {error : Exn}
    (hopen : c.ws.isSome) (hmessage : env.message = .error error) :
    exec (Client.recvStep lib deadline env) c = some (.error error, c) := by
  have hactive : exec (readActiveFrame lib deadline env) c = some (.error error, c) := by
    rw [readActiveFrame, exec_bind_ok (exec_get _), if_pos hopen, readWsFrame,
      exec_bind_ok (exec_get _), hmessage, exec_bind_error (exec_settle _ _)]
  rw [Client.recvStep]
  refine exec_bind_error ?_
  rw [readTransportFrame, exec_bind_ok (exec_get _), exec_bind_error hactive]

/-- **One round** is a round of the client with the message the stream gave. -/
theorem recvStep_carried {e : Endpoint} (hopen : e.client.ws.isSome) (deadline : Option Int)
    (link : LinkEnv) :
    Post (recvStep lib deadline link) e (fun r e' => ∃ receipt : Receipt,
      exec (Client.recvStep lib deadline { link.env with message := receipt.outcome }) e.client =
          some (r, e'.client) ∧ Carried e e' [receipt] (Clean r link.GoesOn)) := by
  intro r e' hrun
  rw [recvStep, exec_bind_ok (exec_get _), if_pos hopen, exec_bind, exec_onStream] at hrun
  cases hexec : exec (WsImpl.receiveBinaryDeadline deadline link.runs) e.impl with
  | none =>
      rw [hexec] at hrun
      cases hrun
  | some out =>
      obtain ⟨outcome, impl⟩ := out
      rw [hexec, Option.map_some] at hrun
      dsimp only at hrun
      rw [exec_zoom, Option.map_eq_some_iff] at hrun
      obtain ⟨⟨r₁, c⟩, hclient, heq⟩ := hrun
      cases heq
      have hws : c.ws = e.client.ws := recvStep_ws deadline _ _ _ _ hclient
      have hwhole : Clean r link.GoesOn →
          (∃ message, outcome = .ok message) ∨ ∀ run ∈ link.runs, run.GoesOn := by
        intro hclean
        cases outcome with
        | ok message => exact .inl ⟨message, rfl⟩
        | error error =>
            have hthrown : exec (Client.recvStep lib deadline
                { link.env with message := .error error }) e.client =
                  some (.error error, e.client) := recvStep_error hopen rfl
            rw [show (e.setImpl impl).client = e.client from rfl, hthrown] at hclient
            cases hclient
            exact .inr hclean.thrown
      obtain ⟨taken, hcarried⟩ := carried_receive hopen hws hexec hwhole
      exact ⟨⟨taken, outcome⟩, hclient, hcarried⟩

/-- The environments of a receive of the client, with the messages it was given. -/
def answered (links : List LinkEnv) (receipts : List Receipt) : List FrameEnv :=
  List.zipWith (fun link receipt => { link.env with message := receipt.outcome }) links receipts

/-- **The receive loop** is the client's on the messages the stream gave. -/
theorem recvFrameWith_carried (deadline : Option Int) :
    ∀ (links : List LinkEnv) {e : Endpoint}, e.client.ws.isSome →
      Post (recvFrameWith lib deadline links) e (fun r e' => ∃ receipts,
        exec (Client.recvFrameWith lib deadline (answered links receipts)) e.client =
            some (r, e'.client) ∧
          Carried e e' receipts (Clean r (∀ link ∈ links, link.GoesOn))) := by
  intro links
  induction links with
  | nil =>
      intro e _
      exact .waiting
  | cons link links ih =>
      intro e hopen r e' hrun
      rw [recvFrameWith] at hrun
      obtain ⟨error, rfl, hstep⟩ | ⟨complete, e₁, hstep, hrest⟩ := exec_bind_cases hrun
      · obtain ⟨receipt, hclient, hcarried⟩ := recvStep_carried hopen deadline link _ _ hstep
        refine ⟨[receipt], ?_, hcarried.threw (fun hgoes => hgoes link List.mem_cons_self)⟩
        show exec (Client.recvFrameWith lib deadline
          ({ link.env with message := receipt.outcome } :: answered links [])) e.client = _
        rw [Client.exec_recvFrameWith_cons, hclient]
      · obtain ⟨receipt, hclient, hcarried⟩ := recvStep_carried hopen deadline link _ _ hstep
        cases complete with
        | some result =>
            cases hrest
            refine ⟨[receipt], ?_, hcarried.returned _⟩
            show exec (Client.recvFrameWith lib deadline
              ({ link.env with message := receipt.outcome } :: answered links [])) e.client = _
            rw [Client.exec_recvFrameWith_cons, hclient]
        | none =>
            obtain ⟨receipts, hclient', hcarried'⟩ := ih hcarried.isOpen _ _ hrest
            refine ⟨receipt :: receipts, ?_, ((hcarried.returned True).trans hcarried').mono ?_⟩
            · show exec (Client.recvFrameWith lib deadline
                ({ link.env with message := receipt.outcome } :: answered links receipts))
                  e.client = _
              rw [Client.exec_recvFrameWith_cons, hclient]
              exact hclient'
            · exact fun hclean => hclean.imp_right
                (fun hgoes other hother => hgoes other (List.mem_cons_of_mem _ hother))

/-- A receive that decodes what it gets. -/
theorem decoded_carried (deadline : Option Int) (links : List LinkEnv) {e : Endpoint}
    (hopen : e.client.ws.isSome) :
    Post (do
        let result ← recvFrameWith lib deadline links
        settle (decodeFrame proto result) : Proc Exn Endpoint Envelope) e (fun r e' => ∃ receipts,
      exec (do
          let result ← Client.recvFrameWith lib deadline (answered links receipts)
          settle (decodeFrame proto result) : Proc Exn Client Envelope) e.client =
          some (r, e'.client) ∧
        Carried e e' receipts (Clean r (∀ link ∈ links, link.GoesOn))) := by
  intro r e' hrun
  obtain ⟨error, rfl, hframe⟩ | ⟨result, e₁, hframe, hdecode⟩ := exec_bind_cases hrun
  · obtain ⟨receipts, hclient, hcarried⟩ := recvFrameWith_carried deadline links hopen _ _ hframe
    exact ⟨receipts, exec_bind_error hclient, hcarried.threw id⟩
  · obtain ⟨receipts, hclient, hcarried⟩ := recvFrameWith_carried deadline links hopen _ _ hframe
    cases hdecode
    exact ⟨receipts, exec_bind_ok hclient, hcarried.returned _⟩

/-- **Waiting for a response** is the client's wait on the messages the stream
gave. -/
theorem waitForResponse_carried (deadline : Int) (isTerminal : Envelope → Bool) :
    ∀ (calls : List (List LinkEnv)) {e : Endpoint}, e.client.ws.isSome →
      Post (waitForResponse lib proto deadline isTerminal calls) e (fun r e' => ∃ receipts,
        exec (Client.waitForResponse lib proto deadline isTerminal
            (List.zipWith answered calls receipts)) e.client = some (r, e'.client) ∧
          Carried e e' receipts.flatten
            (Clean r (∀ links ∈ calls, ∀ link ∈ links, link.GoesOn))) := by
  intro calls
  induction calls with
  | nil =>
      intro e _
      exact .waiting
  | cons links calls ih =>
      intro e hopen r e' hrun
      rw [waitForResponse] at hrun
      obtain ⟨error, rfl, hframe⟩ | ⟨frame, e₁, hframe, hrest⟩ := exec_bind_cases hrun
      · obtain ⟨receipts, hclient, hcarried⟩ :=
          recvFrameWith_carried (some deadline) links hopen _ _ hframe
        refine ⟨[receipts], ?_, ?_⟩
        · show exec (Client.waitForResponse lib proto deadline isTerminal
            (answered links receipts :: List.zipWith answered calls [])) e.client = _
          rw [Client.waitForResponse]
          exact exec_bind_error hclient
        · rw [List.flatten_singleton]
          exact hcarried.threw (fun hgoes => hgoes links List.mem_cons_self)
      · obtain ⟨receipts, hclient, hcarried⟩ :=
          recvFrameWith_carried (some deadline) links hopen _ _ hframe
        have hround : ∀ later : List (List Receipt), exec (Client.waitForResponse lib proto deadline
            isTerminal (answered links receipts :: List.zipWith answered calls later)) e.client =
            exec (match proto.parse frame.payload with
              | none => throw (.proto (ascii "protobuf parse failed"))
              | some resp =>
                  if isTerminal resp then
                    pure resp
                  else
                    Client.waitForResponse lib proto deadline isTerminal
                      (List.zipWith answered calls later) : Proc Exn Client Envelope)
              e₁.client := by
          intro later
          rw [Client.waitForResponse]
          exact exec_bind_ok hclient
        cases hparse : proto.parse frame.payload with
        | none =>
            rw [hparse] at hrest
            cases hrest
            refine ⟨[receipts], ?_, ?_⟩
            · exact (hround []).trans (by rw [hparse]; rfl)
            · rw [List.flatten_singleton]
              exact hcarried.returned _
        | some resp =>
            rw [hparse] at hrest
            dsimp only at hrest
            by_cases hterminal : isTerminal resp = true
            · rw [if_pos hterminal] at hrest
              cases hrest
              refine ⟨[receipts], ?_, ?_⟩
              · exact (hround []).trans (by rw [hparse]; dsimp only; rw [if_pos hterminal]; rfl)
              · rw [List.flatten_singleton]
                exact hcarried.returned _
            · rw [if_neg hterminal] at hrest
              obtain ⟨later, hclient', hcarried'⟩ := ih hcarried.isOpen _ _ hrest
              refine ⟨receipts :: later, ?_, ?_⟩
              · exact (hround later).trans
                  (by rw [hparse]; dsimp only; rw [if_neg hterminal]; exact hclient')
              · rw [List.flatten_cons]
                refine ((hcarried.returned True).trans hcarried').mono ?_
                exact fun hclean => hclean.imp_right
                  (fun hgoes other hother => hgoes other (List.mem_cons_of_mem _ hother))

/-! ### Registration -/

/-- Accepting a registration keeps it. -/
theorem acceptRegistration_ws (pluginId : Bytes) (ack : Envelope) (c : Client) :
    Post (acceptRegistration lib pluginId ack) c (fun _ c' => c'.ws = c.ws) := by
  unfold acceptRegistration
  refine .get_bind ?_
  split
  · refine .bind (.settle ?_)
    split
    · exact .bind (.modify (.pure rfl))
    · rfl
  · exact .throw rfl
  · exact .throw rfl

/-- Registering over the transport is registering over the outcomes it reports. -/
theorem registerFull_carried {e : Endpoint} (hopen : e.client.ws.isSome) (pluginId version : Bytes)
    (manifest : PluginManifest) (jwtToken : Bytes) (link : SendLink) (links : List LinkEnv) :
    Post (registerFull lib proto pluginId version manifest jwtToken link links) e (fun r e' =>
      ∃ outcome receipts, exec (Client.registerFull lib proto pluginId version manifest jwtToken
          { link.senv with wsSend := outcome } (answered links receipts)) e.client =
          some (r, e'.client) ∧
        Carried e e' receipts (link.GoesOn ∧ ∀ other ∈ links, other.GoesOn)) := by
  intro r e' hrun
  rw [registerFull, exec_bind_ok (exec_get _)] at hrun
  dsimp only at hrun
  obtain ⟨error, rfl, hsend⟩ | ⟨_, e₁, hsend, hrest⟩ := exec_bind_cases hrun
  · obtain ⟨outcome, hclient, hcarried⟩ := sendRawWithFlags_carried hopen _ _ _ _ _ _ hsend
    refine ⟨outcome, [], exec_bind_error ?_, hcarried.mono (fun h => .inr h.1)⟩
    rw [registerExchange, exec_bind_ok (exec_get _)]
    exact exec_bind_error hclient
  obtain ⟨outcome, hclient, hcarried⟩ := sendRawWithFlags_carried hopen _ _ _ _ _ _ hsend
  have hfirst := hcarried.returned True
  obtain ⟨error, rfl, hrecv⟩ | ⟨ack, e₂, hrecv, haccept⟩ := exec_bind_cases hrest
  · obtain ⟨receipts, hclient', hcarried'⟩ := decoded_carried none links hcarried.isOpen _ _ hrecv
    refine ⟨outcome, receipts, exec_bind_error ?_,
      (hfirst.trans hcarried').mono (fun h => .inr h.2)⟩
    rw [registerExchange, exec_bind_ok (exec_get _)]
    exact (exec_bind_ok hclient).trans hclient'
  · obtain ⟨receipts, hclient', hcarried'⟩ := decoded_carried none links hcarried.isOpen _ _ hrecv
    rw [exec_zoom, Option.map_eq_some_iff] at haccept
    obtain ⟨⟨r₁, c⟩, hset, heq⟩ := haccept
    cases heq
    have hlast : Carried e₂ (e₂.setClient c) [] True :=
      .still hcarried'.isOpen (acceptRegistration_ws pluginId ack _ _ _ hset)
    refine ⟨outcome, receipts, ?_, ?_⟩
    · have hexchange : exec (registerExchange lib proto pluginId version manifest jwtToken
          { link.senv with wsSend := outcome } (answered links receipts)) e.client =
          some (.ok ack, e₂.client) := by
        rw [registerExchange, exec_bind_ok (exec_get _)]
        exact (exec_bind_ok hclient).trans hclient'
      exact (exec_bind_ok hexchange).trans hset
    · have hall := (hfirst.trans (hcarried'.returned True)).trans hlast
      rw [List.nil_append, List.append_nil] at hall
      exact hall.mono (fun _ => trivial)

/-! ### Calls -/

/-- A public operation on the WebSocket, with what the environment does during
it. -/
inductive LinkedCall
  | registerFull (pluginId version : Bytes) (manifest : PluginManifest) (jwtToken : Bytes)
      (link : SendLink) (links : List LinkEnv)
  | send (target : Bytes) (env : Envelope) (link : SendLink)
  | sendRawWithFlags (target : Bytes) (extraFlags : UInt16) (payload : Bytes) (link : SendLink)
  | sendFragmented (target payload : Bytes) (chunkSize : UInt64) (senvs : List SendEnv)
  | recvFrame (links : List LinkEnv)
  | recv (links : List LinkEnv)
  | recvTimeout (timeoutMs now : Int) (links : List LinkEnv)
  | waitForResponse (deadline : Int) (isTerminal : Envelope → Bool) (calls : List (List LinkEnv))

/-- What the stream makes of a call: how its message went out, and what was
received, for each receive of a wait. -/
structure Answers where
  outcome : Except Exn Unit := .ok ()
  receipts : List (List Receipt) := []

namespace LinkedCall

variable (lib : WireLibs) (proto : ProtoLib)

def perform : LinkedCall → Proc Exn Endpoint Output
  | .registerFull pluginId version manifest jwtToken link links => do
      return .ack (← Endpoint.registerFull lib proto pluginId version manifest jwtToken link links)
  | .send target env link => do
      let _ ← Endpoint.send lib proto target env link
      return .done
  | .sendRawWithFlags target extraFlags payload link => do
      let _ ← Endpoint.sendRawWithFlags lib target extraFlags payload link
      return .done
  | .sendFragmented target payload chunkSize senvs => do
      let _ ← zoom client setClient (Client.sendFragmented lib target payload chunkSize senvs)
      return .done
  | .recvFrame links => do return .frame (← Endpoint.recvFrameWith lib none links)
  | .recv links => do return .envelope (← Endpoint.recv lib proto links)
  | .recvTimeout timeoutMs now links => do
      return .envelope (← Endpoint.recvTimeout lib proto timeoutMs now links)
  | .waitForResponse deadline isTerminal calls => do
      return .envelope (← Endpoint.waitForResponse lib proto deadline isTerminal calls)

/-- The call as an operation of the client on messages. -/
def op (answers : Answers) : LinkedCall → Op
  | .registerFull pluginId version manifest jwtToken link links =>
      .registerFull pluginId version manifest jwtToken
        { link.senv with wsSend := answers.outcome } (answered links answers.receipts.flatten)
  | .send target env link => .send target env { link.senv with wsSend := answers.outcome }
  | .sendRawWithFlags target extraFlags payload link =>
      .sendRawWithFlags target extraFlags payload { link.senv with wsSend := answers.outcome }
  | .sendFragmented target payload chunkSize senvs => .sendFragmented target payload chunkSize senvs
  | .recvFrame links => .recvFrame (answered links answers.receipts.flatten)
  | .recv links => .recv (answered links answers.receipts.flatten)
  | .recvTimeout timeoutMs now links =>
      .recvTimeout timeoutMs now (answered links answers.receipts.flatten)
  | .waitForResponse deadline isTerminal calls =>
      .waitForResponse deadline isTerminal (List.zipWith answered calls answers.receipts)

/-- `RAND_bytes` works and no write of the call fails. -/
def GoesOn : LinkedCall → Prop
  | .registerFull _ _ _ _ link links => link.GoesOn ∧ ∀ other ∈ links, other.GoesOn
  | .send _ _ link => link.GoesOn
  | .sendRawWithFlags _ _ _ link => link.GoesOn
  | .sendFragmented _ _ _ _ => True
  | .recvFrame links => ∀ link ∈ links, link.GoesOn
  | .recv links => ∀ link ∈ links, link.GoesOn
  | .recvTimeout _ _ links => ∀ link ∈ links, link.GoesOn
  | .waitForResponse _ _ calls => ∀ links ∈ calls, ∀ link ∈ links, link.GoesOn

end LinkedCall

/-- What a procedure returns may be put into another shape on both levels. -/
theorem shaped {α : Type} {p : Proc Exn Endpoint α} {q : Answers → Proc Exn Client α} {e : Endpoint}
    {goesOn : Prop} (f : α → Output) (hp : Post p e (fun r e' => ∃ answers,
      exec (q answers) e.client = some (r, e'.client) ∧
        Carried e e' answers.receipts.flatten goesOn)) :
    Post (p >>= fun a => pure (f a)) e (fun r e' => ∃ answers,
      exec (q answers >>= fun a => pure (f a)) e.client = some (r, e'.client) ∧
        Carried e e' answers.receipts.flatten goesOn) := by
  intro r e' hrun
  rw [exec_bind_pure, Option.map_eq_some_iff] at hrun
  obtain ⟨⟨r₀, e₀⟩, hexec, heq⟩ := hrun
  cases heq
  obtain ⟨answers, hclient, hcarried⟩ := hp _ _ hexec
  exact ⟨answers, by rw [exec_bind_pure, hclient]; rfl, hcarried⟩

/-- **One call** is an operation of the client. -/
theorem perform_carried {e : Endpoint} (hopen : e.client.ws.isSome) (call : LinkedCall) :
    Post (call.perform lib proto) e (fun r e' => ∃ answers,
      exec ((call.op answers).perform lib proto) e.client = some (r, e'.client) ∧
        Carried e e' answers.receipts.flatten call.GoesOn) := by
  have hreceipts : ∀ receipts : List Receipt, [receipts].flatten = receipts := by simp
  cases call with
  | registerFull pluginId version manifest jwtToken link links =>
      refine shaped (q := fun answers => Client.registerFull lib proto pluginId version manifest
        jwtToken { link.senv with wsSend := answers.outcome }
        (answered links answers.receipts.flatten)) Output.ack ?_
      intro r e' hrun
      obtain ⟨outcome, receipts, hclient, hcarried⟩ :=
        registerFull_carried hopen pluginId version manifest jwtToken link links r e' hrun
      refine ⟨⟨outcome, [receipts]⟩, ?_⟩
      dsimp only
      rw [hreceipts]
      exact ⟨hclient, hcarried⟩
  | send target env link =>
      refine shaped (q := fun answers => Client.send lib proto target env
        { link.senv with wsSend := answers.outcome }) (fun _ => Output.done) ?_
      intro r e' hrun
      obtain ⟨outcome, hclient, hcarried⟩ :=
        sendRawWithFlags_carried hopen target 0 (proto.serialize env) link r e' hrun
      exact ⟨⟨outcome, []⟩, hclient, hcarried.mono .inr⟩
  | sendRawWithFlags target extraFlags payload link =>
      refine shaped (q := fun answers => Client.sendRawWithFlags lib target extraFlags payload
        { link.senv with wsSend := answers.outcome }) (fun _ => Output.done) ?_
      intro r e' hrun
      obtain ⟨outcome, hclient, hcarried⟩ :=
        sendRawWithFlags_carried hopen target extraFlags payload link r e' hrun
      exact ⟨⟨outcome, []⟩, hclient, hcarried.mono .inr⟩
  | sendFragmented target payload chunkSize senvs =>
      refine shaped (q := fun _ => Client.sendFragmented lib target payload chunkSize senvs)
        (fun _ => Output.done) ?_
      -- Fragments are refused on this transport.
      have hrefused : exec (Client.sendFragmented lib target payload chunkSize senvs) e.client =
          some (.error (.internal
            (ascii "fragmented frames are not supported over WebSocket (R5-03)")), e.client) := by
        rw [Client.sendFragmented, exec_bind_ok (exec_get _), if_pos hopen]
        rfl
      intro r e' hrun
      rw [exec_zoom, hrefused] at hrun
      cases hrun
      exact ⟨{}, hrefused, .still hopen rfl⟩
  | recvFrame links =>
      refine shaped (q := fun answers => Client.recvFrameWith lib none
        (answered links answers.receipts.flatten)) Output.frame ?_
      intro r e' hrun
      obtain ⟨receipts, hclient, hcarried⟩ := recvFrameWith_carried none links hopen r e' hrun
      refine ⟨⟨.ok (), [receipts]⟩, ?_⟩
      dsimp only
      rw [hreceipts]
      exact ⟨hclient, hcarried.mono .inr⟩
  | recv links =>
      refine shaped (q := fun answers => Client.recv lib proto
        (answered links answers.receipts.flatten)) Output.envelope ?_
      intro r e' hrun
      obtain ⟨receipts, hclient, hcarried⟩ := decoded_carried none links hopen r e' hrun
      refine ⟨⟨.ok (), [receipts]⟩, ?_⟩
      dsimp only
      rw [hreceipts]
      exact ⟨hclient, hcarried.mono .inr⟩
  | recvTimeout timeoutMs now links =>
      refine shaped (q := fun answers => Client.recvTimeout lib proto timeoutMs now
        (answered links answers.receipts.flatten)) Output.envelope ?_
      intro r e' hrun
      rw [recvTimeout] at hrun
      obtain ⟨receipts, hclient, hcarried⟩ :=
        decoded_carried (some (recvDeadline timeoutMs now)) links hopen r e' hrun
      refine ⟨⟨.ok (), [receipts]⟩, ?_⟩
      dsimp only
      rw [hreceipts]
      exact ⟨hclient, hcarried.mono .inr⟩
  | waitForResponse deadline isTerminal calls =>
      refine shaped (q := fun answers => Client.waitForResponse lib proto deadline isTerminal
        (List.zipWith answered calls answers.receipts)) Output.envelope ?_
      intro r e' hrun
      obtain ⟨receipts, hclient, hcarried⟩ :=
        waitForResponse_carried deadline isTerminal calls hopen r e' hrun
      exact ⟨⟨.ok (), receipts⟩, hclient, hcarried.mono .inr⟩

/-! ### Runs -/

/-- The results of one procedure after the other, and the state in the end;
`none` if one of them still waits. -/
def results {σ : Type} : List (Proc Exn σ Output) → σ → Option (List (Except Exn Output) × σ)
  | [], s => some ([], s)
  | p :: ps, s =>
      match exec p s with
      | none => none
      | some (r, s') => (results ps s').map (fun out => (r :: out.1, out.2))

/-- **The client on messages is what runs on the stream.**  In a run of calls on
an open WebSocket of which only the last may see a write fail, the results and
the client in the end are those of the same operations on the message-level
client, each given how its message went out and the messages that came in.
These are the data of the frames taken off the server's stream, in order, and
the client's stream has grown by whole masked frames: the binary ones are the
messages sent, in order, the others answer the frames taken, and only behind the
last of them may a torn frame be left, if a write failed. -/
theorem client_runs_over_webSocket (lib : WireLibs) (proto : ProtoLib) (calls : List LinkedCall)
    (last : LinkedCall) (e e' : Endpoint) (rs : List (Except Exn Output))
    (hopen : e.client.ws.isSome) (hcalls : ∀ call ∈ calls, call.GoesOn)
    (hrun : results ((calls ++ [last]).map (LinkedCall.perform lib proto)) e = some (rs, e')) :
    ∃ answers : List Answers, answers.length = calls.length + 1 ∧
      results ((List.zipWith LinkedCall.op answers (calls ++ [last])).map (Op.perform lib proto))
        e.client = some (rs, e'.client) ∧
      Carried e e' (answers.flatMap (fun a => a.receipts.flatten)) last.GoesOn := by
  induction calls generalizing e rs with
  | nil =>
      rw [List.nil_append, List.map_singleton, results] at hrun
      cases hexec : exec (last.perform lib proto) e with
      | none =>
          rw [hexec] at hrun
          cases hrun
      | some out =>
          obtain ⟨r, e₁⟩ := out
          rw [hexec] at hrun
          cases hrun
          obtain ⟨answers, hclient, hcarried⟩ := perform_carried hopen last _ _ hexec
          refine ⟨[answers], rfl, ?_, ?_⟩
          · rw [List.nil_append, List.zipWith_cons_cons, List.zipWith_nil_left, List.map_singleton,
              results, hclient]
            rfl
          · rw [List.flatMap_singleton]
            exact hcarried
  | cons call calls ih =>
      rw [List.cons_append, List.map_cons, results] at hrun
      cases hexec : exec (call.perform lib proto) e with
      | none =>
          rw [hexec] at hrun
          cases hrun
      | some out =>
          obtain ⟨r, e₁⟩ := out
          rw [hexec] at hrun
          dsimp only at hrun
          rw [Option.map_eq_some_iff] at hrun
          obtain ⟨⟨rs', e₂⟩, hrest, heq⟩ := hrun
          cases heq
          obtain ⟨first, hclient, hcarried⟩ := perform_carried hopen call _ _ hexec
          have hfirst : Carried _ _ _ True :=
            hcarried.mono (fun _ => hcalls call List.mem_cons_self)
          obtain ⟨answers, hlength, hclients, hlater⟩ := ih e₁ rs' hcarried.isOpen
            (fun other hother => hcalls other (List.mem_cons_of_mem _ hother)) hrest
          refine ⟨first :: answers, by rw [List.length_cons, List.length_cons, hlength], ?_, ?_⟩
          · rw [List.cons_append, List.zipWith_cons_cons, List.map_cons, results, hclient]
            dsimp only
            rw [hclients]
            rfl
          · rw [List.flatMap_cons]
            exact hfirst.trans hlater

/-- A ping and a message are there to be received. -/
def pingedEndpoint : Endpoint where
  client := { ws := some {} }
  impl := { readBuf := [0x89, 1, 7, 0x82, 44] ++ emptyFrame }

def pingedCall : LinkedCall := .recvFrame [⟨byteEnv, [WsImpl.readyRun, WsImpl.readyRun]⟩]

def emptyCall : LinkedCall :=
  .sendRawWithFlags [] 0 [] { rand := some WsImpl.sampleMask, writes := [.wrote 100] }

/-- The ping is answered while the client waits for a message, and the message it
sends is behind the pong. -/
theorem client_runs_over_webSocket_pinged :
    ∃ rs e' frames, results ([pingedCall, emptyCall].map
        (LinkedCall.perform storingLibs emptyProto)) pingedEndpoint = some (rs, e') ∧
      e'.sent = messagesIn frames ∧
      frames = [⟨opPong, WsImpl.sampleMask, [7], by decide, by decide⟩,
        ⟨opBinary, WsImpl.sampleMask, emptyFrame, by decide, by decide⟩] := by
  have hseen : (results ([pingedCall, emptyCall].map
      (LinkedCall.perform storingLibs emptyProto)) pingedEndpoint).map
        (fun out => out.2.impl.outbound) =
          some (encode ClientFrame.bytes [⟨opPong, WsImpl.sampleMask, [7], by decide, by decide⟩,
          ⟨opBinary, WsImpl.sampleMask, emptyFrame, by decide, by decide⟩]) := by decide +kernel
  obtain ⟨⟨rs, e'⟩, hrun, hbytes⟩ := Option.map_eq_some_iff.mp hseen
  obtain ⟨answers, -, -, hcarried⟩ := client_runs_over_webSocket storingLibs emptyProto [pingedCall]
    emptyCall pingedEndpoint e' rs rfl
    (by simp [pingedCall, LinkedCall.GoesOn, LinkEnv.GoesOn, WsImpl.FrameRun.GoesOn, WritesGoOn,
      WsImpl.readyRun]) hrun
  obtain ⟨frames, torn, hout, -, hmessages, -, hall⟩ := hcarried.written
  obtain ⟨rfl, -⟩ := hall ⟨rfl, by simp [WritesGoOn]⟩
  have hwritten : e'.impl.outbound = encode ClientFrame.bytes frames ++ [] := hout
  exact ⟨rs, e', frames, hrun, hmessages, (ClientFrame.isPrefixCode.one_reading torn_nil torn_nil
    (hwritten.symm.trans (hbytes.trans (List.append_nil _).symm))).1⟩

end Endpoint

end Vynkor
