import VynkorSdk.ClientSession
import VynkorSdk.ServedPlugin

/-!
# A plugin and the kernel

A plugin whose callbacks keep to their own state is served over a byte stream
on which the kernel answers the registration, says what it says and hangs up.
What the plugin is called with, how `serve` ends and what it passes to `send`
are those of `serve` on the envelopes themselves; and whoever reads the
plugin's side of the stream gets the registration and then exactly the
envelopes passed to `send` that fit into a frame.
-/

namespace Vynkor

open ByteCodec KeyedTable Procedure Client Session

/-- A plugin that leaves the client alone. -/
structure LocalPlugin (P : Type) where
  id : Bytes
  version : Bytes := ascii "1.0.0"
  manifest : PluginManifest := {}
  onInit : P → Except Thrown Unit × P := fun p => (.ok (), p)
  onMessage : Envelope → P → Except Thrown (Option Envelope) × P
  onEvent : Event → P → Except Thrown (Option Envelope) × P := fun _ p => (.ok none, p)
  onShutdown : P → P := fun p => p

variable {P : Type}

/-- Code on the plugin's half of the pair. -/
def ownState {α : Type} (f : P → Except Thrown α × P) : Proc Thrown (Client × P) α :=
  zoom Prod.snd (fun p s => (s.1, p)) (ofStep f)

def LocalPlugin.code (plugin : LocalPlugin P) : PluginCode P where
  id := plugin.id
  version := plugin.version
  manifest := plugin.manifest
  onInit := ownState plugin.onInit
  onMessage env := ownState (plugin.onMessage env)
  onEvent event := ownState (plugin.onEvent event)
  onShutdown s := (s.1, plugin.onShutdown s.2)

/-! ### The conversation as `serve` sees it -/

section Script

variable (proto : ProtoLib) (plugin : LocalPlugin P)

/-- The envelope fits into a frame. -/
def fits (env : Envelope) : Bool := decide ((proto.serialize env).length ≤ maxPayloadSize)

/-- What `client.send` makes of the envelope. -/
def sendOutcome (env : Envelope) : Except Thrown Unit :=
  if fits proto env then .ok () else .error (.sdk (.payloadTooLarge (proto.serialize env).length))

def replyOutcome (reply : Except Thrown (Option Envelope)) : Except Thrown Unit :=
  match reply with
  | .ok (some env) => sendOutcome proto env
  | _ => .ok ()

/-- What `on_message`, or the send of its reply, throws. -/
def handlerError (reply : Except Thrown (Option Envelope)) : Option Thrown :=
  match reply, replyOutcome proto reply with
  | .error e, _ => some e
  | .ok _, .error e => some e
  | .ok _, .ok _ => none

namespace LocalPlugin

/-- The round in which the plugin, in state `p`, meets the envelope. -/
def round (env : Envelope) (time : UInt64) (p : P) : Round where
  received := .ok env
  pongTime := time
  onEvent := match env.payload with
    | some (.event event) => (plugin.onEvent event p).1
    | _ => .ok none
  onMessage := (plugin.onMessage env p).1
  firstSend := match env.payload with
    | some (.ping timestamp) => sendOutcome proto { payload := some (.pong timestamp time) }
    | some (.event event) => sendOutcome proto (eventAck event)
    | _ => replyOutcome proto (plugin.onMessage env p).1
  secondSend := match env.payload with
    | some (.event event) => replyOutcome proto (plugin.onEvent event p).1
    | _ => .ok ()

/-- The plugin's state behind it. -/
def after (env : Envelope) (p : P) : P :=
  match env.payload with
  | some (.pluginShutdown _ _) => p
  | some (.ping _) => p
  | some (.event event) => (plugin.onEvent event p).2
  | _ => (plugin.onMessage env p).2

/-- Envelopes with the clock readings of their rounds, and then the end of the
stream. -/
def rounds : List (Envelope × UInt64) → P → List Round
  | [], _ => [{ received := .error (.sdk (.io (ascii "connection closed or recv error"))) }]
  | (env, time) :: talk, p => plugin.round proto env time p :: rounds talk (plugin.after env p)

def script (ack : PluginRegisterAck) (talk : List (Envelope × UInt64)) (p : P) : Script where
  registration := .ok ack
  onInit := (plugin.onInit p).1
  rounds := plugin.rounds proto talk (plugin.onInit p).2

/-- The envelope a client registers the plugin with. -/
def registration (jwtToken deviceId : Bytes) : Envelope :=
  { payload := some (.pluginRegister
      { pluginId := plugin.id, version := plugin.version, jwtToken := jwtToken,
        deviceId := deviceId, manifest := plugin.manifest }) }

end LocalPlugin

end Script

/-! ### The client's side of the stream -/

variable {lib : WireLibs} {proto : ProtoLib}

/-- From `c` to `c'` the client wrote one frame for each of these envelopes that
fits into one, and is now left with `rest` to read. -/
structure Spoke (lib : WireLibs) (proto : ProtoLib) (key : Option Block32) (rest : Bytes)
    (said : List Envelope) (c c' : Client) : Prop where
  listening : Listening key rest ∅ c'
  secret_eq : c'.secret = c.secret
  written : ∃ wires, List.Forall₂ (fun env ws => ws.length = 1 ∧
      Transmission lib key (proto.serialize env) false ws) (said.filter (fits proto)) wires ∧
    c'.outbound = c.outbound ++ wires.flatten.flatten

/-- Two stretches of a conversation one after the other. -/
theorem Spoke.trans {key : Option Block32} {rest rest' : Bytes} {said said' : List Envelope}
    {c₁ c₂ c₃ : Client} (h : Spoke lib proto key rest said c₁ c₂)
    (h' : Spoke lib proto key rest' said' c₂ c₃) :
    Spoke lib proto key rest' (said ++ said') c₁ c₃ := by
  obtain ⟨wires, hwires, hout⟩ := h.written
  obtain ⟨wires', hwires', hout'⟩ := h'.written
  refine ⟨h'.listening, h'.secret_eq.trans h.secret_eq, wires ++ wires', ?_, ?_⟩
  · rw [List.filter_append]
    exact List.rel_append hwires hwires'
  · rw [hout', hout]
    simp

/-- The part of a client that no send touches. -/
def unwritten (c : Client) : Option Block32 × Bytes × ReassemblyTable × Bytes :=
  (c.sessionKey, c.inbound, c.reassembly, c.secret)

/-- No write touches what has not been written. -/
theorem unwritten_writeInvariant : WriteInvariant unwritten := by
  refine ⟨fun bytes c => ?_, fun _ _ => rfl⟩
  cases hfd : c.fd <;> simp [unwritten, setOutbound, inbound, hfd]

/-- No read touches what has been written. -/
theorem written_readInvariant : ReadInvariant (fun c : Client => (c.outbound, c.secret)) := by
  refine ⟨fun bytes c => ?_, fun _ _ _ => rfl, fun _ _ => rfl⟩
  cases hfd : c.fd <;> simp [outbound, setInbound, hfd]

variable (proto) in
/-- **One send.** -/
theorem send_spoke (hz : lib.ZstdRoundTrip) {key : Option Block32} {rest : Bytes} {c : Client}
    (hc : Listening key rest ∅ c) (env : Envelope) {senv : SendEnv}
    (hwrites : SteadyWrites maxFrameSize senv.writes) :
    ∃ r c', exec (Client.send lib proto (ascii "kernel") env senv) c = some (r, c') ∧
      r.mapError .sdk = sendOutcome proto env ∧ Spoke lib proto key rest [env] c c' := by
  by_cases hfits : (proto.serialize env).length ≤ maxPayloadSize
  · obtain ⟨frame, c', hcarries, hsend, hsent⟩ := sendRawWithFlags_steady hz hc.ws_eq hc.fd_open
      (ascii "kernel") 0 hfits (Or.inl rfl) hwrites
    have hview := sendRawWithFlags_view unwritten_writeInvariant _ _ _ _ _ _ _ hsend
    simp only [unwritten, Prod.mk.injEq] at hview
    rw [hc.key_eq] at hcarries
    refine ⟨.ok (), c', hsend, by rw [sendOutcome, fits, if_pos (by simpa using hfits)]; rfl,
      ⟨hview.1.trans hc.key_eq, hsent.ws_eq, hsent.fd_open, hview.2.1.trans hc.inbound_eq,
        hview.2.2.1.trans hc.table_eq⟩, hview.2.2.2, [[frame]], ?_, ?_⟩
    · rw [List.filter_cons_of_pos (by simpa [fits] using hfits), List.filter_nil]
      exact .cons ⟨rfl, .whole rfl hcarries⟩ .nil
    · rw [hsent.outbound_eq]
      simp
  · refine ⟨.error (.payloadTooLarge (proto.serialize env).length), c, ?_,
      by rw [sendOutcome, fits, if_neg (by simpa using hfits)]; rfl, hc, rfl, [], ?_, by simp⟩
    · unfold Client.send sendRaw sendRawWithFlags
      rw [exec_bind_ok (exec_get _), hc.ws_eq, if_neg (by simp), packFrameRaw,
        if_pos (Nat.lt_of_not_le hfits), exec_bind_error (exec_settle _ _)]
    · rw [List.filter_cons_of_neg (by simpa [fits] using hfits)]
      exact .nil

/-- What the kernel says, the frames it comes in, and the round in which it is
received. -/
structure Utterance where
  payload : Bytes
  envelope : Envelope
  wires : List Bytes
  round : RoundEnv

/-- The envelope is within the bounds, its frames are those of one send, and
nothing is in the way of its round. -/
structure Utterance.Steady (lib : WireLibs) (proto : ProtoLib) (key : Option Block32)
    (u : Utterance) : Prop where
  parses : proto.parse u.payload = some u.envelope
  size : u.payload.length ≤ maxPayloadSize
  carried : Transmission lib key u.payload false u.wires
  received : SteadyCall u.wires.length u.round.recv
  first : SteadyWrites maxFrameSize u.round.first.writes
  second : SteadyWrites maxFrameSize u.round.second.writes

/-- **One receive.** -/
theorem recv_spoke {key : Option Block32} {rest : Bytes} {c : Client} {u : Utterance}
    (hc : Listening key (u.wires.flatten ++ rest) ∅ c) (hu : u.Steady lib proto key) :
    ∃ c', exec (Client.recv lib proto u.round.recv) c = some (.ok u.envelope, c') ∧
      Spoke lib proto key rest [] c c' := by
  obtain ⟨result, c', hrecv, hreceived, hlistening⟩ :=
    recvFrame_steady hu.size hu.carried hc hu.received
  have hview := recvFrameWith_view written_readInvariant none u.round.recv c _ _ hrecv
  simp only [Prod.mk.injEq] at hview
  refine ⟨c', ?_, hlistening, hview.2, [], .nil, by simpa using hview.1⟩
  unfold Client.recv
  rw [exec_bind_ok hrecv, decodeFrame, hreceived.raw_iff, if_neg (by simp), hreceived.payload_eq,
    hu.parses, exec_settle]

/-! ### The rounds -/

variable {plugin : LocalPlugin P}

variable (proto) in
/-- Sending an envelope says it, or fails without a word where it does not fit. -/
theorem transmitOn_spoke (hz : lib.ZstdRoundTrip) {key : Option Block32} {rest : Bytes}
    {s : Session P} (hs : Listening key rest ∅ s.client) (env : Envelope) {senv : SendEnv}
    (hwrites : SteadyWrites maxFrameSize senv.writes) :
    ∃ c', exec (transmitOn lib proto env senv) s =
        some (sendOutcome proto env, ⟨c', s.plugin, s.record.pass env⟩) ∧
      Spoke lib proto key rest [env] s.client c' := by
  obtain ⟨r, c', hsend, houtcome, hspoke⟩ := send_spoke proto hz hs env hwrites
  refine ⟨c', ?_, hspoke⟩
  unfold transmitOn
  rw [exec_bind_ok (exec_modify _ _), onClient, exec_zoom, exec_raising,
    show (onRecord (.pass env) s).client = s.client from rfl, hsend, ← houtcome]
  rfl

variable (proto) in
/-- Sending a reply says it, if there is one. -/
theorem transmitReplyOn_spoke (hz : lib.ZstdRoundTrip) {key : Option Block32} {rest : Bytes}
    {s : Session P} (hs : Listening key rest ∅ s.client) (reply : Option Envelope) {senv : SendEnv}
    (hwrites : SteadyWrites maxFrameSize senv.writes) :
    ∃ c', exec (transmitReplyOn lib proto reply senv) s =
        some (replyOutcome proto (.ok reply),
          ⟨c', s.plugin, { s.record with sent := s.record.sent ++ reply.toList }⟩) ∧
      Spoke lib proto key rest reply.toList s.client c' := by
  cases reply with
  | none => exact ⟨s.client, by simp [transmitReplyOn, replyOutcome],
      hs, rfl, [], .nil, by simp⟩
  | some env => exact transmitOn_spoke proto hz hs env hwrites

/-- A callback changes the plugin and the record only. -/
theorem exec_callOn {α : Type} (c : Callback) (f : P → Except Thrown α × P) (s : Session P) :
    exec (callOn c (ownState f)) s =
      some ((f s.plugin).1, ⟨s.client, (f s.plugin).2, s.record.record c⟩) := rfl

/-- Nothing said, nothing heard. -/
theorem Spoke.refl {key : Option Block32} {rest : Bytes} {c : Client}
    (hc : Listening key rest ∅ c) : Spoke lib proto key rest [] c c :=
  ⟨hc, rfl, [], .nil, by simp⟩

variable (proto plugin) in
/-- What a round with an event passes to `send`. -/
theorem round_event {env : Envelope} {event : Event} (hevent : env.payload = some (.event event))
    (time : UInt64) (p : P) (s : ServeState) :
    plugin.after env p = (plugin.onEvent event p).2 ∧
    (plugin.round proto env time p).sends =
      (match (plugin.onEvent event p).1, sendOutcome proto (eventAck event) with
        | .ok reply, .ok _ => eventAck event :: reply.toList
        | .ok _, .error _ => [eventAck event]
        | .error _, _ => []) ∧
    (plugin.round proto env time p).advance s =
      { s.record (.onEvent event) with
        sent := s.sent ++ (plugin.round proto env time p).sends } := by
  refine ⟨by simp [LocalPlugin.after, hevent], ?_, ?_⟩
  · obtain ⟨messageId, timestamp, senderId, payload⟩ := env
    cases hevent
    rfl
  · simp [LocalPlugin.round, Round.advance, Round.calls, hevent, ServeState.record]

variable (proto plugin) in
/-- Handling an event says what the plugin's round for it sends. -/
theorem handleEventOn_spoke (hz : lib.ZstdRoundTrip) {key : Option Block32} {rest : Bytes}
    {s : Session P} (hs : Listening key rest ∅ s.client) (env : Envelope) {event : Event}
    (hevent : env.payload = some (.event event)) {renv : RoundEnv}
    (hfirst : SteadyWrites maxFrameSize renv.first.writes)
    (hsecond : SteadyWrites maxFrameSize renv.second.writes) :
    ∃ c', exec (handleEventOn lib proto plugin.code event renv) s =
        some (.ok (), ⟨c', plugin.after env s.plugin,
          (plugin.round proto env renv.pongTime s.plugin).advance s.record⟩) ∧
      Spoke lib proto key rest (plugin.round proto env renv.pongTime s.plugin).sends
        s.client c' := by
  obtain ⟨hafter, hsends, hadvance⟩ :=
    round_event proto plugin hevent renv.pongTime s.plugin s.record
  rw [hadvance, hafter, hsends]
  unfold handleEventOn
  rw [exec_tryCatch, exec_bind, show plugin.code.onEvent event = ownState (plugin.onEvent event)
    from rfl, exec_callOn]
  obtain ⟨outcome, p'⟩ := plugin.onEvent event s.plugin
  cases outcome with
  | error e => exact ⟨s.client, by simp [ServeState.record], .refl hs⟩
  | ok reply =>
      obtain ⟨c₁, hack, hspoke⟩ := transmitOn_spoke proto hz
        (s := ⟨s.client, p', s.record.record (.onEvent event)⟩) hs (eventAck event) hfirst
      dsimp only
      rw [exec_bind, hack]
      cases sendOutcome proto (eventAck event) with
      | error e => exact ⟨c₁, rfl, hspoke⟩
      | ok _ =>
          obtain ⟨c₂, hreply, hspoke'⟩ := transmitReplyOn_spoke proto hz
            (s := ⟨c₁, p', (s.record.record (.onEvent event)).pass (eventAck event)⟩)
            hspoke.listening reply hsecond
          refine ⟨c₂, ?_, hspoke.trans hspoke'⟩
          dsimp only
          rw [hreply]
          -- The reply's own failure is swallowed like that of the callback.
          cases replyOutcome proto (.ok reply) <;> simp [ServeState.record, ServeState.pass]

variable (proto plugin) in
/-- What a round with a message returns as `handler_err`. -/
theorem round_message {env : Envelope} (henv : env.toMessage = true) (time : UInt64) (p : P) :
    plugin.after env p = (plugin.onMessage env p).2 ∧
    (plugin.round proto env time p).messageError =
      handlerError proto (plugin.onMessage env p).1 := by
  obtain ⟨messageId, timestamp, senderId, payload⟩ := env
  have hround : ∀ env : Envelope,
      (plugin.round proto env time p).firstSend = replyOutcome proto (plugin.onMessage env p).1 →
      (plugin.round proto env time p).messageError =
        handlerError proto (plugin.onMessage env p).1 := by
    intro env hfirst
    rw [Round.messageError, hfirst, show (plugin.round proto env time p).onMessage =
      (plugin.onMessage env p).1 from rfl]
    rcases (plugin.onMessage env p).1 with e | _ | reply
    · rfl
    · rfl
    · unfold handlerError
      cases replyOutcome proto (.ok (some reply)) <;> rfl
  cases payload with
  | none => exact ⟨rfl, hround _ rfl⟩
  | some payload => cases payload <;> first | exact ⟨rfl, hround _ rfl⟩ | cases henv

variable (plugin) in
/-- Handling a message says the plugin's reply to it. -/
theorem handleMessageOn_spoke (hz : lib.ZstdRoundTrip) {key : Option Block32} {rest : Bytes}
    {s : Session P} (hs : Listening key rest ∅ s.client) (env : Envelope) {renv : RoundEnv}
    (hfirst : SteadyWrites maxFrameSize renv.first.writes) :
    ∃ c', exec (handleMessageOn lib proto plugin.code env renv) s =
        some (.ok (handlerError proto (plugin.onMessage env s.plugin).1),
          ⟨c', (plugin.onMessage env s.plugin).2,
            { s.record.record (.onMessage env) with
              sent := s.record.sent ++ match (plugin.onMessage env s.plugin).1 with
                | .ok reply => reply.toList
                | .error _ => [] }⟩) ∧
      Spoke lib proto key rest (match (plugin.onMessage env s.plugin).1 with
        | .ok reply => reply.toList
        | .error _ => []) s.client c' := by
  unfold handleMessageOn
  rw [exec_tryCatch, exec_bind, show plugin.code.onMessage env = ownState (plugin.onMessage env)
    from rfl, exec_callOn]
  obtain ⟨outcome, p'⟩ := plugin.onMessage env s.plugin
  cases outcome with
  | error e => exact ⟨s.client, by simp [handlerError, ServeState.record], .refl hs⟩
  | ok reply =>
      obtain ⟨c₁, hreply, hspoke⟩ := transmitReplyOn_spoke proto hz
        (s := ⟨s.client, p', s.record.record (.onMessage env)⟩) hs reply hfirst
      refine ⟨c₁, ?_, hspoke⟩
      dsimp only
      rw [exec_bind, hreply]
      unfold handlerError
      cases replyOutcome proto (.ok reply) <;> rfl

variable (proto plugin) in
/-- **One reaction** is the round of `serve`, and writes what that passes to
`send`. -/
theorem reactOn_spoke (hz : lib.ZstdRoundTrip) {key : Option Block32} {rest : Bytes}
    {s : Session P} (hs : Listening key rest ∅ s.client) (env : Envelope) {renv : RoundEnv}
    (hfirst : SteadyWrites maxFrameSize renv.first.writes)
    (hsecond : SteadyWrites maxFrameSize renv.second.writes) :
    ∃ c', exec (reactOn lib proto plugin.code env renv) s =
        some ((plugin.round proto env renv.pongTime s.plugin).verdict,
          ⟨c', plugin.after env s.plugin,
            (plugin.round proto env renv.pongTime s.plugin).advance s.record⟩) ∧
      Spoke lib proto key rest (plugin.round proto env renv.pongTime s.plugin).sends
        s.client c' := by
  cases henv : env.toMessage with
  | true =>
      obtain ⟨c', hhandle, hspoke⟩ := handleMessageOn_spoke plugin hz hs env hfirst
      obtain ⟨hverdict, hcalls, hsends⟩ :=
        Round.of_message (plugin.round proto env renv.pongTime s.plugin) rfl henv
      refine ⟨c', ?_, by rw [hsends]; exact hspoke⟩
      obtain ⟨hafter, herror⟩ := round_message proto plugin henv
        renv.pongTime s.plugin
      rw [reactOn_message henv, exec_bind_ok hhandle, hverdict, Round.advance, hcalls, hsends,
        hafter, herror]
      rfl
  | false =>
      obtain ⟨messageId, time, senderId, payload⟩ := env
      cases payload with
      | none => cases henv
      | some p =>
          cases p with
          | pluginShutdown reason grace =>
              refine ⟨s.client, ?_, .refl hs⟩
              simp [reactOn, LocalPlugin.round, Round.verdict, Round.ending, Round.advance,
                Round.calls, Round.sends, LocalPlugin.after]
          | ping timestamp =>
              obtain ⟨c', hsend, hspoke⟩ := transmitOn_spoke proto hz hs
                { payload := some (.pong timestamp renv.pongTime) } hfirst
              refine ⟨c', ?_, hspoke⟩
              unfold reactOn
              dsimp only
              rw [exec_bind, hsend]
              cases hout : sendOutcome proto { payload := some (.pong timestamp renv.pongTime) } <;>
                simp [LocalPlugin.round, Round.verdict, Round.ending, Round.pongError, hout,
                  Round.advance, Round.calls, Round.sends, LocalPlugin.after, ServeState.pass]
          | event event =>
              obtain ⟨c', hhandle, hspoke⟩ := handleEventOn_spoke proto plugin hz hs
                ⟨messageId, time, senderId, some (.event event)⟩ rfl hfirst hsecond
              refine ⟨c', ?_, hspoke⟩
              unfold reactOn
              dsimp only
              rw [exec_bind_ok hhandle]
              rfl
          | _ => cases henv

/-- The kernel has closed the connection between two frames. -/
def Closes (renv : RoundEnv) : Prop :=
  ∃ fenv fenvs early late, renv.recv = fenv :: fenvs ∧ fenv.firstReads = early ++ .closed :: late ∧
    ∀ read ∈ early, read = .eintr

/-- Putting back what was there changes nothing. -/
theorem setInbound_inbound (c : Client) : c.setInbound c.inbound = c := by
  obtain ⟨socketPath, fd, ws, secret, deviceId, sessionKey, reassembly, nextStreamId, heard⟩ := c
  cases fd <;> rfl

variable (lib proto) in
/-- On a closed connection `recv` fails and leaves the client as it is. -/
theorem recv_closed {key : Option Block32} {rest : Bytes} {c : Client} {renv : RoundEnv}
    (hc : Listening key rest ∅ c) (hcloses : Closes renv) :
    exec (Client.recv lib proto renv.recv) c =
      some (.error (.io (ascii "connection closed or recv error")), c) := by
  obtain ⟨fenv, fenvs, early, late, hrecv, hreads, hearly⟩ := hcloses
  have hfirst : exec (recvExact fenv.firstReads 1 []) c.inbound =
      some (.error (.io (ascii "connection closed or recv error")), c.inbound) := by
    have hagain : ∀ (read : ReadResult) (reads : List ReadResult), read = .eintr →
        exec (recvExact (read :: reads) 1 []) c.inbound =
          exec (recvExact reads 1 []) c.inbound := by
      rintro _ reads rfl
      rfl
    rw [hreads, @exec_retry _ _ _ _ (fun reads => recvExact reads 1 []) _ _ hagain _ hearly]
    rfl
  have hread : exec (readActiveFrame lib none fenv) c =
      some (.error (.io (ascii "connection closed or recv error")), c) := by
    unfold readActiveFrame readSocketFrame
    rw [exec_bind_ok (exec_get _), hc.ws_eq, if_neg (by simp), exec_bind_ok (exec_get _),
      exec_zoom, if_pos hc.fd_open]
    dsimp only
    unfold readFrameFull readFrameFullWithTimeout
    rw [exec_bind_error hfirst]
    exact congrArg (fun c' => some (_, c')) (setInbound_inbound c)
  have htransport : exec (readTransportFrame lib none fenv) c =
      some (.error (.io (ascii "connection closed or recv error")), c) := by
    unfold readTransportFrame
    rw [exec_bind_ok (exec_get _), exec_bind_error hread]
  unfold Client.recv recvFrame
  rw [hrecv]
  unfold recvFrameWith
  rw [exec_bind_error (exec_bind_error htransport)]

/-- A receive of the session that brings an envelope. -/
theorem recvOn_ok {s : Session P} {c' : Client} {renv : RoundEnv} {env : Envelope}
    (hrecv : exec (Client.recv lib proto renv.recv) s.client = some (.ok env, c')) :
    exec (recvOn lib proto renv) s = some (.ok (some env), s.setClient c') := by
  unfold recvOn
  rw [exec_tryCatch, exec_bind, onClient, exec_zoom, exec_raising, hrecv]
  rfl

/-- A receive of the session that ends the loop. -/
theorem recvOn_error {s : Session P} {c' : Client} {renv : RoundEnv} {e : Exn}
    (hrecv : exec (Client.recv lib proto renv.recv) s.client = some (.error e, c')) :
    exec (recvOn lib proto renv) s = some (.ok none, s.setClient c') := by
  unfold recvOn
  rw [exec_tryCatch, exec_bind, onClient, exec_zoom, exec_raising, hrecv]
  rfl

variable (plugin) in
/-- **The loop**, from any point of the conversation on. -/
theorem serveLoop_spoke (hz : lib.ZstdRoundTrip) {key : Option Block32} {closing : RoundEnv}
    (hcloses : Closes closing) :
    ∀ (us : List Utterance) (s : Session P), (∀ u ∈ us, u.Steady lib proto key) →
      Listening key (us.map (fun u => u.wires.flatten)).flatten ∅ s.client →
      ∃ r s' rest said,
        exec (serveLoop lib proto plugin.code (us.map Utterance.round ++ [closing])) s =
          some (r, s') ∧
        exec (receiveLoop (plugin.rounds proto (us.map (fun u => (u.envelope, u.round.pongTime)))
          s.plugin)) s.record = some (r, s'.record) ∧
        s'.record.sent = s.record.sent ++ said ∧
        Spoke lib proto key rest said s.client s'.client := by
  intro us
  induction us with
  | nil =>
      intro s _ hlistening
      have hrecv := recv_closed lib proto hlistening hcloses
      refine ⟨.ok none, s, _, [], ?_, ?_, by simp, .refl hlistening⟩
      · rw [List.map_nil, List.nil_append, serveLoop, exec_bind_ok (recvOn_error hrecv)]
        rfl
      · rw [List.map_nil, LocalPlugin.rounds, exec_receiveLoop_verdict]
        simp [Round.verdict, Round.ending, Round.advance, Round.calls, Round.sends]
  | cons u us ih =>
      intro s hus hlistening
      have hu := hus u (by simp)
      rw [List.map_cons, List.flatten_cons] at hlistening
      obtain ⟨c₁, hrecv, hspoke⟩ := recv_spoke hlistening hu
      obtain ⟨c₂, hreact, hspoke'⟩ := reactOn_spoke proto plugin hz
        (s := s.setClient c₁) hspoke.listening u.envelope hu.first hu.second
      rw [List.map_cons, List.cons_append, List.map_cons, LocalPlugin.rounds,
        exec_receiveLoop_verdict, serveLoop, exec_bind_ok (recvOn_ok hrecv)]
      dsimp only
      rw [exec_bind, hreact]
      dsimp only [Session.setClient]
      cases (plugin.round proto u.envelope u.round.pongTime s.plugin).verdict with
      | error e => exact ⟨_, _, _, _, rfl, rfl, rfl, hspoke.trans hspoke'⟩
      | ok ended =>
          cases ended with
          | some handlerErr => exact ⟨_, _, _, _, rfl, rfl, rfl, hspoke.trans hspoke'⟩
          | none =>
              obtain ⟨r, s', rest, said, hloop, habstract, hsent, hrest⟩ := ih
                ⟨c₂, plugin.after u.envelope s.plugin,
                  (plugin.round proto u.envelope u.round.pongTime s.plugin).advance s.record⟩
                (fun v hv => hus v (List.mem_cons_of_mem _ hv)) hspoke'.listening
              refine ⟨r, s', rest, _, hloop, habstract, ?_, (hspoke.trans hspoke').trans hrest⟩
              rw [hsent, List.nil_append, Round.advance, List.append_assoc]
              rfl

/-! ### From the registration on -/

/-- Whoever reads these bytes under `key` gets these envelopes, one from each
`recv_frame`, and is left with what comes behind. -/
def HeardAs (lib : WireLibs) (proto : ProtoLib) (key : Option Block32) (envs : List Envelope)
    (bytes : Bytes) : Prop :=
  ∀ (peer : Client) (rest : Bytes) (calls : List (List FrameEnv)),
    Listening key (bytes ++ rest) ∅ peer →
    List.Forall₂ (fun _ call => SteadyCall 1 call) envs calls →
    ∃ results peer', exec (recvAll lib calls) peer = some (.ok results, peer') ∧
      List.Forall₂ (fun env r => Received (proto.serialize env) false r) envs results ∧
      Listening key rest ∅ peer'

/-- The peer hears what was said, as far as it fits. -/
theorem Spoke.heardAs {key : Option Block32} {rest : Bytes} {said : List Envelope} {c c' : Client}
    (h : Spoke lib proto key rest said c c') :
    ∃ bytes, c'.outbound = c.outbound ++ bytes ∧
      HeardAs lib proto key (said.filter (fits proto)) bytes := by
  obtain ⟨wires, hwires, hout⟩ := h.written
  refine ⟨_, hout, ?_⟩
  intro peer rest calls hpeer hcalls
  let op : Envelope → SendOp × List SendEnv := fun env => (.send (ascii "kernel") env, [])
  obtain ⟨results, peer', hrun, hresults, hpeer'⟩ := @recvAll_steady lib proto _ _
    ((said.filter (fits proto)).map op) wires calls peer
    (by
      intro o ho
      obtain ⟨env, henv, rfl⟩ := List.mem_map.mp ho
      exact ⟨of_decide_eq_true (List.mem_filter.mp henv).2, trivial⟩)
    (List.forall₂_map_left_iff.mpr hwires)
    (List.forall₂_map_left_iff.mpr hcalls) hpeer
  exact ⟨results, peer', hrun, List.forall₂_map_left_iff.mp hresults, hpeer'⟩

/-- **The registration.** -/
theorem register_spoke (hz : lib.ZstdRoundTrip) {key₀ k : Option Block32} {rest : Bytes}
    {c : Client} {answer : Utterance} {ack : PluginRegisterAck} (jwtToken : Bytes)
    (hc : Listening key₀ (answer.wires.flatten ++ rest) ∅ c)
    (hfits : fits proto (plugin.registration jwtToken c.deviceId) = true)
    (hanswer : answer.Steady lib proto key₀)
    (hack : answer.envelope.payload = some (.pluginRegisterAck ack))
    (hkey : registeredKey lib c.secret plugin.id ack = .ok k) :
    ∃ c', exec (Client.registerFull lib proto plugin.id plugin.version plugin.manifest jwtToken
        answer.round.first answer.round.recv) c =
          some (.ok ack, { c' with sessionKey := k.or key₀ }) ∧
      Spoke lib proto key₀ rest [plugin.registration jwtToken c.deviceId] c c' := by
  obtain ⟨r, c₁, hsend, houtcome, hspoke⟩ := send_spoke proto hz hc
    (plugin.registration jwtToken c.deviceId) hanswer.first
  rw [sendOutcome, if_pos hfits] at houtcome
  obtain ⟨c₂, hrecv, hspoke'⟩ := recv_spoke hspoke.listening hanswer
  refine ⟨c₂, ?_, by simpa using hspoke.trans hspoke'⟩
  cases r with
  | error e => cases houtcome
  | ok _ =>
      have hexchange : exec (registerExchange lib proto plugin.id plugin.version plugin.manifest
          jwtToken answer.round.first answer.round.recv) c = some (.ok answer.envelope, c₂) := by
        unfold registerExchange
        rw [exec_bind_ok (exec_get _)]
        exact (exec_bind_ok hsend).trans hrecv
      have hkey₂ : registeredKey lib c₂.secret plugin.id ack = .ok k := by
        rw [hspoke'.secret_eq, hspoke.secret_eq, hkey]
      unfold registerFull
      rw [exec_bind_ok hexchange]
      unfold acceptRegistration
      rw [exec_bind_ok (exec_get _), hack]
      dsimp only
      rw [hkey₂, exec_bind_ok (exec_settle _ _), exec_bind_ok (exec_modify _ _),
        hspoke'.listening.key_eq]
      rfl

/-- **A plugin served over the wire.**  The kernel answers the registration,
says `us` and closes.  Then `serve` on the client ends as `serve` does on the
envelopes, with the same callbacks in the same order and the same envelopes
passed to `send`; and the plugin's side of the stream carries the registration
under the old key, and under the key of the session those envelopes, in order,
that fit into a frame, and nothing else. -/
theorem plugin_served_over_the_wire (lib : WireLibs) (proto : ProtoLib) (hz : lib.ZstdRoundTrip)
    (plugin : LocalPlugin P) (p : P) (jwtToken : Bytes) (c : Client) (ack : PluginRegisterAck)
    (answer : Utterance) (us : List Utterance) (closing : RoundEnv) (key₀ k : Option Block32)
    (hc : Listening key₀ (answer.wires.flatten ++ (us.map (fun u => u.wires.flatten)).flatten) ∅ c)
    (hfits : fits proto (plugin.registration jwtToken c.deviceId) = true)
    (hanswer : answer.Steady lib proto key₀)
    (hack : answer.envelope.payload = some (.pluginRegisterAck ack))
    (hkey : registeredKey lib c.secret plugin.id ack = .ok k)
    (hus : ∀ u ∈ us, u.Steady lib proto (k.or key₀)) (hcloses : Closes closing) :
    ∃ r s' registration talk,
      exec (serveOn lib proto plugin.code jwtToken
        { register := answer.round.first, ack := answer.round.recv,
          rounds := us.map Utterance.round ++ [closing] }) ⟨c, p, {}⟩ = some (r, s') ∧
      exec (serve (plugin.script proto ack (us.map (fun u => (u.envelope, u.round.pongTime))) p))
        {} = some (r, s'.record) ∧
      s'.client.outbound = c.outbound ++ (registration ++ talk) ∧
      HeardAs lib proto key₀ [plugin.registration jwtToken c.deviceId] registration ∧
      HeardAs lib proto (k.or key₀) (s'.record.sent.filter (fits proto)) talk := by
  let env : ServeEnv :=
    { register := answer.round.first, ack := answer.round.recv,
      rounds := us.map Utterance.round ++ [closing] }
  obtain ⟨c₁, hregister, hspoke⟩ := register_spoke hz jwtToken hc hfits hanswer hack hkey
  obtain ⟨registration, hout, hheard⟩ := hspoke.heardAs
  rw [List.filter_cons_of_pos hfits, List.filter_nil] at hheard
  let c₂ : Client := { c₁ with sessionKey := k.or key₀ }
  have hlistening : Listening (k.or key₀) (us.map (fun u => u.wires.flatten)).flatten ∅ c₂ :=
    ⟨rfl, hspoke.listening.ws_eq, hspoke.listening.fd_open, hspoke.listening.inbound_eq,
      hspoke.listening.table_eq⟩
  let s₁ : Session P := ⟨c₂, p, ({} : ServeState).setClient true⟩
  have hack : exec (onClient (P := P) (Client.registerFull lib proto plugin.code.id
      plugin.code.version plugin.code.manifest jwtToken env.register env.ack))
        (onRecord (.setClient true) ⟨c, p, {}⟩) = some (.ok ack, s₁) := by
    exact congrArg (fun out => (out.map (fun (r, c') => (r.mapError Thrown.sdk, c'))).map
      (fun (r, c') => (r, (onRecord (.setClient true) (⟨c, p, {}⟩ : Session P)).setClient c')))
      hregister
  -- What happens behind the registration, where nothing or `said` is written.
  suffices h : ∃ r s' rest said, exec (serveOn lib proto plugin.code jwtToken env) ⟨c, p, {}⟩ =
        some (r, s') ∧
      exec (serve (plugin.script proto ack (us.map (fun u => (u.envelope, u.round.pongTime))) p))
        {} = some (r, s'.record) ∧
      s'.record.sent = said ∧ Spoke lib proto (k.or key₀) rest said c₂ s'.client by
    obtain ⟨r, s', rest, said, hrun, habstract, rfl, hsaid⟩ := h
    obtain ⟨talk, hout', hheard'⟩ := hsaid.heardAs
    refine ⟨r, s', registration, talk, hrun, habstract, ?_, hheard, hheard'⟩
    rw [hout', ← List.append_assoc, ← hout]
    rfl
  unfold serveOn serve LocalPlugin.script
  rw [exec_bind_ok (exec_modify _ _), exec_bind_ok hack, exec_bind_ok (exec_modify _ _),
    exec_bind_ok (exec_settle _ _)]
  dsimp only
  cases haccepted : ack.accepted with
  | false =>
      exact ⟨_, _, _, [], rfl, rfl, rfl, .refl hlistening⟩
  | true =>
      rw [if_neg (by simp), if_neg (by simp), exec_bind, exec_tryCatch,
        show plugin.code.onInit = ownState plugin.onInit from rfl, exec_callOn, exec_bind,
        exec_tryCatch, exec_call]
      cases hinit : (plugin.onInit s₁.plugin).1 with
      | error e => exact ⟨_, _, _, [], rfl, rfl, rfl, .refl hlistening⟩
      | ok _ =>
          obtain ⟨handlerErr, s₂, rest, said, hloop, habstract, hsent, hsaid⟩ :=
            serveLoop_spoke plugin hz hcloses us
              ⟨c₂, (plugin.onInit p).2, s₁.record.record .onInit⟩ hus hlistening
          have hsent : s₂.record.sent = said := hsent
          dsimp only
          rw [exec_bind, hloop, exec_bind, habstract]
          cases handlerErr with
          | error e => exact ⟨_, s₂, rest, said, rfl, rfl, hsent, hsaid⟩
          | ok handlerErr =>
              cases handlerErr with
              | none => exact ⟨_, _, rest, said, rfl, rfl, hsent, hsaid⟩
              | some e => exact ⟨_, _, rest, said, rfl, rfl, hsent, hsaid⟩

/-- A plugin that answers no message. -/
def silentPlugin : LocalPlugin Unit where
  id := ascii "p"
  onMessage _ p := (.ok none, p)

/-- Protobuf on the envelopes of one short conversation. -/
def eventProto : ProtoLib where
  serialize env := match env.payload with
    | some (.pluginRegister _) => [1]
    | some (.pluginRegisterAck _) => [2]
    | some (.event _) => [3]
    | _ => [4]
  parse bytes :=
    if bytes = [2] then some { payload := some (.pluginRegisterAck sampleAck) }
    else if bytes = [3] then some { payload := some (.event {}) }
    else none

def slowRound : RoundEnv where
  recv := [slowFrameEnv]
  first := slowSendEnv
  second := slowSendEnv

/-- An event under the key of the session, over a stream that moves one byte at
a time: it is acknowledged, and the ack is all the peer finds behind the
registration. -/
theorem plugin_served_over_the_wire_event :
    ∃ (c : Client) (env : ServeEnv) (r : Except Thrown Unit) (s' : Session Unit),
      c.secret = ascii "secret" ∧
      exec (serveOn storingLibs eventProto silentPlugin.code [] env) ⟨c, (), {}⟩ = some (r, s') ∧
      s'.record.callbacks = [.onInit, .onEvent {}, .onShutdown] ∧
      s'.record.sent = [eventAck {}] := by
  have hderived : (registeredKey storingLibs (ascii "secret") silentPlugin.id
      sampleAck).toOption.isSome :=
    by decide +kernel
  obtain ⟨k, hkey⟩ : ∃ k, registeredKey storingLibs (ascii "secret") silentPlugin.id sampleAck =
      .ok k := by
    cases h : registeredKey storingLibs (ascii "secret") silentPlugin.id sampleAck with
    | error e => rw [h] at hderived; cases hderived
    | ok k => exact ⟨k, rfl⟩
  have hround : ∀ key payload env, eventProto.parse payload = some env →
      payload.length ≤ maxPayloadSize → ∃ u : Utterance, u.envelope = env ∧ u.round = slowRound ∧
        u.Steady storingLibs eventProto key := by
    intro key payload env hparse hsize
    obtain ⟨frame, _, hcarries⟩ :=
      carries_of_pack storingLibs_roundTrip (ascii "p") key hsize (Or.inl rfl)
    refine ⟨⟨payload, env, [frame], slowRound⟩, rfl, rfl, hparse, hsize, .whole rfl hcarries,
      ⟨by simp [slowRound], ?_, ?_⟩, slowSendEnv_steady, slowSendEnv_steady⟩
    · intro fenv hfenv
      rw [List.mem_singleton.mp hfenv]
      exact slowFrameEnv_steady
    · intro first _ fenv hfenv
      cases hfenv
  obtain ⟨answer, hanswer, _, hsteady⟩ := hround none [2] _ rfl (by decide)
  obtain ⟨u, hu, hurround, husteady⟩ := hround (k.or none) [3] _ rfl (by decide)
  let c : Client :=
    { fd := some { inbound := answer.wires.flatten ++ u.wires.flatten }, secret := ascii "secret" }
  let closing : RoundEnv :=
    { slowRound with recv := [{ slowFrameEnv with firstReads := [.closed] }] }
  obtain ⟨r, s', _, _, hrun, hserve, _⟩ := plugin_served_over_the_wire storingLibs eventProto
    storingLibs_roundTrip silentPlugin () [] c sampleAck answer [u] closing none k
    ⟨rfl, rfl, rfl, by simp [c, inbound], rfl⟩ rfl hsteady (by rw [hanswer]) hkey
    (by simpa using husteady) ⟨_, _, [], [], rfl, rfl, by simp⟩
  have habstract : exec (serve (silentPlugin.script eventProto sampleAck
      [(u.envelope, u.round.pongTime)] ())) {} = some (.ok (),
        { callbacks := [.onInit, .onEvent {}, .onShutdown], sent := [eventAck {}] }) := by
    rw [hu]
    rfl
  rw [List.map_cons, List.map_nil, habstract] at hserve
  refine ⟨c, _, r, s', rfl, hrun, ?_, ?_⟩
  · rw [← (Prod.mk.inj (Option.some.inj hserve)).2]
  · rw [← (Prod.mk.inj (Option.some.inj hserve)).2]

end Vynkor
