import VynkorSdk.ClientAuthenticity
import VynkorSdk.ClientDelivery
import VynkorSdk.Plugin

/-!
# A plugin served over the wire

`Plugin::serve` with nothing left out between the plugin and the byte stream:
its overrides are procedures on the client and on a state of their own, and
registration, receives and sends are the client's operations.  `serve` of the
module before, which is given every outcome from outside, is what is left when
the client and the plugin are forgotten: each run here is a run there
(`serveOn_refines`), with the outcomes that the client and the plugin had, one
after the other (`ServeOutcomes`).
-/

namespace Vynkor

open ByteCodec KeyedTable Procedure

/-- What a plugin overrides.  A callback may use the client it is served by;
`onShutdown` returns nothing and throws nothing. -/
structure PluginCode (P : Type) where
  id : Bytes
  version : Bytes := ascii "1.0.0"
  manifest : PluginManifest := {}
  onInit : Proc Thrown (Client × P) Unit := pure ()
  onMessage : Envelope → Proc Thrown (Client × P) (Option Envelope)
  onEvent : Event → Proc Thrown (Client × P) (Option Envelope) := fun _ => pure none
  onShutdown : Client × P → Client × P := fun s => s

/-- The client, the plugin's own state, and the record of `ServeState`. -/
structure Session (P : Type) where
  client : Client
  plugin : P
  record : ServeState := {}

/-- The environment of one round of the loop: of its `recv`, of the clock for a
pong, and of its two sends. -/
structure RoundEnv where
  recv : List FrameEnv
  pongTime : UInt64 := 0
  first : SendEnv
  second : SendEnv

/-- The environment of one call of `serve`. -/
structure ServeEnv where
  register : SendEnv
  ack : List FrameEnv
  rounds : List RoundEnv

namespace Session

variable {P : Type}

def inner (s : Session P) : Client × P := (s.client, s.plugin)

def setInner (inner : Client × P) (s : Session P) : Session P :=
  { s with client := inner.1, plugin := inner.2 }

def setClient (c : Client) (s : Session P) : Session P := { s with client := c }

def onRecord (f : ServeState → ServeState) (s : Session P) : Session P :=
  { s with record := f s.record }

/-- An operation of the client. -/
def onClient {α : Type} (p : Proc Exn Client α) : Proc Thrown (Session P) α :=
  zoom client setClient (raising .sdk p)

/-- Code of the plugin. -/
def onPlugin {α : Type} (p : Proc Thrown (Client × P) α) : Proc Thrown (Session P) α :=
  zoom inner setInner p

end Session

open Session

variable {P : Type}

section Serving

variable (lib : WireLibs) (proto : ProtoLib) (code : PluginCode P)

def callOn {α : Type} (c : Callback) (p : Proc Thrown (Client × P) α) :
    Proc Thrown (Session P) α := do
  modify (onRecord (.record c))
  onPlugin p

def shutdownOn : Proc Thrown (Session P) Unit := do
  modify (onRecord (.record .onShutdown))
  modify (fun s => s.setInner (code.onShutdown s.inner))

/-- `client.send("kernel", env)`. -/
def transmitOn (env : Envelope) (senv : SendEnv) : Proc Thrown (Session P) Unit := do
  modify (onRecord (.pass env))
  onClient (Client.send lib proto (ascii "kernel") env senv)

def transmitReplyOn (reply : Option Envelope) (senv : SendEnv) : Proc Thrown (Session P) Unit :=
  match reply with
  | some env => transmitOn lib proto env senv
  | none => pure ()

def handleEventOn (event : Event) (round : RoundEnv) : Proc Thrown (Session P) Unit :=
  tryCatch
    (do
      let reply ← callOn (.onEvent event) (code.onEvent event)
      transmitOn lib proto (eventAck event) round.first
      transmitReplyOn lib proto reply round.second)
    (fun _ => pure ())

def handleMessageOn (env : Envelope) (round : RoundEnv) :
    Proc Thrown (Session P) (Option Thrown) :=
  tryCatch
    (do
      let reply ← callOn (.onMessage env) (code.onMessage env)
      transmitReplyOn lib proto reply round.first
      return none)
    (fun e => pure (some e))

/-- `client.recv()`, where an exception is the end of the loop. -/
def recvOn (round : RoundEnv) : Proc Thrown (Session P) (Option Envelope) :=
  tryCatch
    (do
      let env ← onClient (Client.recv lib proto round.recv)
      return some env)
    (fun _ => pure none)

/-- The reaction to one envelope: `some` ends the loop, with this
`handler_err`. -/
def reactOn (env : Envelope) (round : RoundEnv) :
    Proc Thrown (Session P) (Option (Option Thrown)) :=
  match env.payload with
  | some (.pluginShutdown _ _) => pure (some none)
  | some (.ping timestamp) => do
      transmitOn lib proto { payload := some (.pong timestamp round.pongTime) } round.first
      return none
  | some (.event event) => do
      handleEventOn lib proto code event round
      return none
  | _ => do
      let handlerErr ← handleMessageOn lib proto code env round
      return handlerErr.map some

def serveLoop : List RoundEnv → Proc Thrown (Session P) (Option Thrown)
  | [] => waiting
  | round :: rounds => do
      let received ← recvOn lib proto round
      match received with
      | none => pure none
      | some env => do
          let ended ← reactOn lib proto code env round
          match ended with
          | some handlerErr => pure handlerErr
          | none => serveLoop rounds

def serveOn (jwtToken : Bytes) (env : ServeEnv) : Proc Thrown (Session P) Unit := do
  modify (onRecord (.setClient true))
  let ack ← onClient (Client.registerFull lib proto code.id code.version code.manifest jwtToken
    env.register env.ack)
  if !ack.accepted then do
    modify (onRecord (.setClient false))
    throw (rejection ack)
  else do
    tryCatch (callOn .onInit code.onInit) (fun e => do
      shutdownOn code
      modify (onRecord (.setClient false))
      throw e)
    let handlerErr ← serveLoop lib proto code env.rounds
    shutdownOn code
    modify (onRecord (.setClient false))
    match handlerErr with
    | some e => throw e
    | none => pure ()

end Serving

/-! ### The outcomes of a run -/

/-- The envelopes that go to `on_message`. -/
def Envelope.toMessage (env : Envelope) : Bool :=
  match env.payload with
  | some (.pluginShutdown _ _) => false
  | some (.ping _) => false
  | some (.event _) => false
  | _ => true

/-- How a round ends: with an exception, with the end of the loop, or not. -/
def Round.verdict (round : Round) : Except Thrown (Option (Option Thrown)) :=
  match round.ending, round.pongError with
  | some handlerErr, _ => .ok (some handlerErr)
  | none, some e => .error e
  | none, none => .ok none

section Outcomes

variable (lib : WireLibs) (proto : ProtoLib) (code : PluginCode P)

/-- `client.send("kernel", env)` had this outcome. -/
def Sent (env : Envelope) (senv : SendEnv) (x : Client × P) (r : Except Thrown Unit)
    (x' : Client × P) : Prop :=
  ∃ outcome, exec (Client.send lib proto (ascii "kernel") env senv) x.1 = some (outcome, x'.1) ∧
    r = outcome.mapError .sdk ∧ x'.2 = x.2

/-- A reply is sent, and nothing where there is none. -/
def Replied (reply : Option Envelope) (senv : SendEnv) (x : Client × P) (r : Except Thrown Unit)
    (x' : Client × P) : Prop :=
  match reply with
  | some env => Sent lib proto env senv x r x'
  | none => r = .ok () ∧ x' = x

/-- The outcomes of a reaction, one after the other; what an exception skips has
none. -/
inductive Reacted (env : Envelope) (renv : RoundEnv) (x : Client × P) : Round → Client × P → Prop
  | shutdown {reason : Bytes} {grace : UInt32}
      (henv : env.payload = some (.pluginShutdown reason grace)) :
      Reacted env renv x { received := .ok env } x
  | ping {timestamp : UInt64} {r : Except Thrown Unit} {x' : Client × P}
      (henv : env.payload = some (.ping timestamp))
      (hpong : Sent lib proto { payload := some (.pong timestamp renv.pongTime) } renv.first x r
        x') :
      Reacted env renv x { received := .ok env, pongTime := renv.pongTime, firstSend := r } x'
  | eventThrew {event : Event} {e : Thrown} {x' : Client × P}
      (henv : env.payload = some (.event event))
      (hcall : exec (code.onEvent event) x = some (.error e, x')) :
      Reacted env renv x { received := .ok env, onEvent := .error e } x'
  | eventUnacked {event : Event} {reply : Option Envelope} {e : Thrown} {x₁ x' : Client × P}
      (henv : env.payload = some (.event event))
      (hcall : exec (code.onEvent event) x = some (.ok reply, x₁))
      (hack : Sent lib proto (eventAck event) renv.first x₁ (.error e) x') :
      Reacted env renv x { received := .ok env, onEvent := .ok reply, firstSend := .error e } x'
  | event {event : Event} {reply : Option Envelope} {r : Except Thrown Unit}
      {x₁ x₂ x' : Client × P} (henv : env.payload = some (.event event))
      (hcall : exec (code.onEvent event) x = some (.ok reply, x₁))
      (hack : Sent lib proto (eventAck event) renv.first x₁ (.ok ()) x₂)
      (hreply : Replied lib proto reply renv.second x₂ r x') :
      Reacted env renv x { received := .ok env, onEvent := .ok reply, secondSend := r } x'
  | messageThrew {e : Thrown} {x' : Client × P} (henv : env.toMessage = true)
      (hcall : exec (code.onMessage env) x = some (.error e, x')) :
      Reacted env renv x { received := .ok env, onMessage := .error e } x'
  | message {reply : Option Envelope} {r : Except Thrown Unit} {x₁ x' : Client × P}
      (henv : env.toMessage = true) (hcall : exec (code.onMessage env) x = some (.ok reply, x₁))
      (hreply : Replied lib proto reply renv.first x₁ r x') :
      Reacted env renv x { received := .ok env, onMessage := .ok reply, firstSend := r } x'

/-- The outcomes of the loop: of its receives in turn, and of the reactions to
what they return. -/
inductive LoopOutcomes : List RoundEnv → Client × P → List Round → Prop
  | closed {renv : RoundEnv} {renvs : List RoundEnv} {x : Client × P} {e : Exn} {c : Client}
      (hrecv : exec (Client.recv lib proto renv.recv) x.1 = some (.error e, c)) :
      LoopOutcomes (renv :: renvs) x [{ received := .error (.sdk e) }]
  | last {renv : RoundEnv} {renvs : List RoundEnv} {x x' : Client × P} {env : Envelope} {c : Client}
      {rd : Round} (hrecv : exec (Client.recv lib proto renv.recv) x.1 = some (.ok env, c))
      (hreact : Reacted lib proto code env renv (c, x.2) rd x') (hends : rd.verdict ≠ .ok none) :
      LoopOutcomes (renv :: renvs) x [rd]
  | next {renv : RoundEnv} {renvs : List RoundEnv} {x x' : Client × P} {env : Envelope} {c : Client}
      {rd : Round} {rounds : List Round}
      (hrecv : exec (Client.recv lib proto renv.recv) x.1 = some (.ok env, c))
      (hreact : Reacted lib proto code env renv (c, x.2) rd x') (hgoes : rd.verdict = .ok none)
      (hrest : LoopOutcomes renvs x' rounds) : LoopOutcomes (renv :: renvs) x (rd :: rounds)

/-- The outcomes of a call of `serve`: of the client's registration, of
`on_init`, and of the loop. -/
inductive ServeOutcomes (jwtToken : Bytes) (env : ServeEnv) (x : Client × P) : Script → Prop
  | unregistered {e : Exn} {c : Client}
      (hregister : exec (Client.registerFull lib proto code.id code.version code.manifest jwtToken
        env.register env.ack) x.1 = some (.error e, c)) :
      ServeOutcomes jwtToken env x { registration := .error (.sdk e) }
  | rejected {ack : PluginRegisterAck} {c : Client}
      (hregister : exec (Client.registerFull lib proto code.id code.version code.manifest jwtToken
        env.register env.ack) x.1 = some (.ok ack, c)) (haccepted : ack.accepted = false) :
      ServeOutcomes jwtToken env x { registration := .ok ack }
  | uninitialised {ack : PluginRegisterAck} {c : Client} {e : Thrown} {x' : Client × P}
      (hregister : exec (Client.registerFull lib proto code.id code.version code.manifest jwtToken
        env.register env.ack) x.1 = some (.ok ack, c)) (haccepted : ack.accepted = true)
      (hinit : exec code.onInit (c, x.2) = some (.error e, x')) :
      ServeOutcomes jwtToken env x { registration := .ok ack, onInit := .error e }
  | served {ack : PluginRegisterAck} {c : Client} {x' : Client × P} {rounds : List Round}
      (hregister : exec (Client.registerFull lib proto code.id code.version code.manifest jwtToken
        env.register env.ack) x.1 = some (.ok ack, c)) (haccepted : ack.accepted = true)
      (hinit : exec code.onInit (c, x.2) = some (.ok (), x'))
      (hloop : LoopOutcomes lib proto code env.rounds x' rounds) :
      ServeOutcomes jwtToken env x { registration := .ok ack, rounds := rounds }

end Outcomes

/-! ### Forgetting the client -/

/-- A finished run in which the record changed as `q` changes it. -/
def Records {α : Type} (q : Proc Thrown ServeState α) (s : Session P) (r : Except Thrown α)
    (s' : Session P) : Prop :=
  exec q s.record = some (r, s'.record)

variable {lib : WireLibs} {proto : ProtoLib} {code : PluginCode P} {s : Session P}

/-- The record fixes the outcome and the state that was recorded. -/
theorem Records.unique {α : Type} {q : Proc Thrown ServeState α} {r r' : Except Thrown α}
    {s' : Session P} {t : ServeState} (h : Records q s r s')
    (hrun : exec q s.record = some (r', t)) : r = r' ∧ s'.record = t := by
  unfold Records at h
  rw [h] at hrun
  cases hrun
  exact ⟨rfl, rfl⟩

/-- An operation of the client changes nothing else. -/
theorem onClient_spec {α : Type} (p : Proc Exn Client α) :
    Post (onClient p) s (fun r s' => ∃ outcome c, exec p s.client = some (outcome, c) ∧
      r = outcome.mapError .sdk ∧ s' = s.setClient c) := by
  intro r s' hrun
  rw [onClient, exec_zoom, exec_raising, Option.map_map, Option.map_eq_some_iff] at hrun
  obtain ⟨⟨outcome, c⟩, hclient, heq⟩ := hrun
  cases heq
  exact ⟨outcome, c, hclient, rfl, rfl⟩

/-- A callback has its own outcome, and is recorded. -/
theorem callOn_spec {α : Type} (c : Callback) (p : Proc Thrown (Client × P) α) :
    Post (callOn c p) s (fun r s' => exec p s.inner = some (r, s'.inner) ∧
      Records (call c r) s r s') := by
  intro r s' hrun
  rw [callOn, exec_bind_ok (exec_modify _ _), onPlugin, exec_zoom, Option.map_eq_some_iff] at hrun
  obtain ⟨⟨outcome, x⟩, hcode, heq⟩ := hrun
  cases heq
  exact ⟨hcode, rfl⟩

/-- A send has the outcome of the client's, and is recorded. -/
theorem transmitOn_spec (env : Envelope) (senv : SendEnv) :
    Post (transmitOn lib proto env senv) s (fun r s' =>
      Sent lib proto env senv s.inner r s'.inner ∧ Records (transmit env r) s r s') := by
  intro r s' hrun
  rw [transmitOn, exec_bind_ok (exec_modify _ _)] at hrun
  obtain ⟨outcome, c, hsend, rfl, rfl⟩ := onClient_spec _ _ _ hrun
  exact ⟨⟨outcome, hsend, rfl, rfl⟩, rfl⟩

/-- A reply is sent and recorded, if there is one. -/
theorem transmitReplyOn_spec (reply : Option Envelope) (senv : SendEnv) :
    Post (transmitReplyOn lib proto reply senv) s (fun r s' =>
      Replied lib proto reply senv s.inner r s'.inner ∧
        Records (transmitReply reply r) s r s') := by
  cases reply with
  | none => exact Post.pure ⟨⟨rfl, rfl⟩, rfl⟩
  | some env => exact transmitOn_spec env senv

/-- The loop goes on, ends or throws as the round's verdict says. -/
theorem exec_receiveLoop_verdict (round : Round) (rounds : List Round) (s : ServeState) :
    exec (receiveLoop (round :: rounds)) s =
      match round.verdict with
      | .ok (some handlerErr) => some (.ok handlerErr, round.advance s)
      | .ok none => exec (receiveLoop rounds) (round.advance s)
      | .error e => some (.error e, round.advance s) := by
  rw [exec_receiveLoop_cons, Round.verdict]
  cases round.ending with
  | some handlerErr => rfl
  | none => cases round.pongError <;> rfl

/-- **The reaction to an event**, whatever of it throws. -/
theorem handleEventOn_spec {env : Envelope} {event : Event}
    (henv : env.payload = some (.event event)) (round : RoundEnv) :
    Post (handleEventOn lib proto code event round) s (fun r s' =>
      ∃ rd, rd.received = .ok env ∧ Reacted lib proto code env round s.inner rd s'.inner ∧
        Records (handleEvent event rd) s r s') := by
  intro r s' hrun
  unfold Records handleEvent
  unfold handleEventOn at hrun
  rw [exec_tryCatch] at hrun
  -- An exception of the callback, of the ack or of the reply: none is seen.
  cases hbody : exec (do
      let reply ← callOn (.onEvent event) (code.onEvent event)
      transmitOn lib proto (eventAck event) round.first
      transmitReplyOn lib proto reply round.second) s with
  | none => rw [hbody] at hrun; cases hrun
  | some out =>
      obtain ⟨outcome, s₃⟩ := out
      have hend : r = .ok () ∧ s' = s₃ := by
        rw [hbody] at hrun
        cases outcome <;> cases hrun <;> exact ⟨rfl, rfl⟩
      obtain ⟨rfl, rfl⟩ := hend
      obtain ⟨e, rfl, hcall⟩ | ⟨reply, s₁, hcall, hsends⟩ := exec_bind_cases hbody
      · obtain ⟨hcode, hcall⟩ := callOn_spec _ _ _ _ hcall
        refine ⟨_, rfl, .eventThrew henv hcode, ?_⟩
        rw [exec_tryCatch, exec_bind_error hcall]
        rfl
      · obtain ⟨hcode, hcall⟩ := callOn_spec _ _ _ _ hcall
        obtain ⟨e, rfl, hack⟩ | ⟨_, s₂, hack, hreply⟩ := exec_bind_cases hsends
        · obtain ⟨hsent, hack⟩ := transmitOn_spec _ _ _ _ hack
          refine ⟨_, rfl, .eventUnacked henv hcode hsent, ?_⟩
          rw [exec_tryCatch, exec_bind_ok hcall, exec_bind_error hack]
          rfl
        · obtain ⟨hsent, hack⟩ := transmitOn_spec _ _ _ _ hack
          obtain ⟨hreplied, hreply⟩ := transmitReplyOn_spec _ _ _ _ hreply
          refine ⟨_, rfl, .event henv hcode hsent hreplied, ?_⟩
          rw [exec_tryCatch, exec_bind_ok hcall, exec_bind_ok hack, hreply]
          cases outcome <;> rfl

/-- **The reaction to a message**, whatever of it throws. -/
theorem handleMessageOn_spec {env : Envelope} (henv : env.toMessage = true) (round : RoundEnv) :
    Post (handleMessageOn lib proto code env round) s (fun r s' =>
      ∃ rd, rd.received = .ok env ∧ Reacted lib proto code env round s.inner rd s'.inner ∧
        Records (handleMessage env rd) s r s') := by
  intro r s' hrun
  unfold Records handleMessage
  unfold handleMessageOn at hrun
  rw [exec_tryCatch] at hrun
  cases hbody : exec (do
      let reply ← callOn (.onMessage env) (code.onMessage env)
      transmitReplyOn lib proto reply round.first
      return none) s with
  | none => rw [hbody] at hrun; cases hrun
  | some out =>
      obtain ⟨outcome, s₃⟩ := out
      rw [hbody] at hrun
      obtain ⟨e, rfl, hcall⟩ | ⟨reply, s₁, hcall, hsend⟩ := exec_bind_cases hbody
      · obtain ⟨hcode, hcall⟩ := callOn_spec _ _ _ _ hcall
        cases hrun
        refine ⟨_, rfl, .messageThrew henv hcode, ?_⟩
        rw [exec_tryCatch, exec_bind_error hcall]
        rfl
      · obtain ⟨hcode, hcall⟩ := callOn_spec _ _ _ _ hcall
        obtain ⟨e, rfl, hreply⟩ | ⟨_, s₂, hreply, hreturn⟩ := exec_bind_cases hsend
        · obtain ⟨hreplied, hreply⟩ := transmitReplyOn_spec _ _ _ _ hreply
          cases hrun
          refine ⟨_, rfl, .message henv hcode hreplied, ?_⟩
          rw [exec_tryCatch, exec_bind_ok hcall, exec_bind_error hreply]
          rfl
        · obtain ⟨hreplied, hreply⟩ := transmitReplyOn_spec _ _ _ _ hreply
          cases hreturn
          cases hrun
          refine ⟨_, rfl, .message henv hcode hreplied, ?_⟩
          rw [exec_tryCatch, exec_bind_ok hcall, exec_bind_ok hreply]
          rfl

/-- A message goes to the message handler. -/
theorem reactOn_message {env : Envelope} (henv : env.toMessage = true) (round : RoundEnv) :
    reactOn lib proto code env round = do
      let handlerErr ← handleMessageOn lib proto code env round
      return handlerErr.map some := by
  obtain ⟨messageId, timestamp, senderId, payload⟩ := env
  cases payload with
  | none => rfl
  | some p => cases p <;> first | rfl | cases henv

/-- A round in which the envelope goes to `on_message`. -/
theorem Round.of_message (round : Round) {env : Envelope} (hreceived : round.received = .ok env)
    (henv : env.toMessage = true) :
    round.verdict = .ok (round.messageError.map some) ∧ round.calls = [.onMessage env] ∧
      round.sends = match round.onMessage with
        | .ok reply => reply.toList
        | .error _ => [] := by
  obtain ⟨received, pongTime, onEvent, onMessage, firstSend, secondSend⟩ := round
  obtain ⟨messageId, time, senderId, payload⟩ := env
  cases hreceived
  have hverdict : ∀ o : Option Thrown, (match o.map some, (none : Option Thrown) with
      | some handlerErr, _ => Except.ok (some handlerErr)
      | none, some e => .error e
      | none, none => .ok none) = .ok (o.map some) := by
    rintro (_ | _) <;> rfl
  cases payload with
  | none => exact ⟨hverdict _, rfl, rfl⟩
  | some p => cases p <;> first | exact ⟨hverdict _, rfl, rfl⟩ | cases henv

/-- Handling an event is the round for it. -/
theorem exec_handleEvent_advance {round : Round} {env : Envelope} {event : Event}
    (hreceived : round.received = .ok env) (hevent : env.payload = some (.event event))
    (s : ServeState) : exec (handleEvent event round) s = some (.ok (), round.advance s) := by
  rw [exec_handleEvent, Round.advance, Round.calls, Round.sends, hreceived]
  dsimp only
  rw [hevent]
  cases round.onEvent <;> cases round.firstSend <;> simp [ServeState.record]

/-- **One reaction** is a round of the loop of `serve`, on the outcomes of its
parts. -/
theorem reactOn_spec (env : Envelope) (round : RoundEnv) :
    Post (reactOn lib proto code env round) s (fun r s' =>
      ∃ rd : Round, Reacted lib proto code env round s.inner rd s'.inner ∧ r = rd.verdict ∧
        s'.record = rd.advance s.record) := by
  intro r s' hrun
  cases henv : env.toMessage with
  | true =>
      rw [reactOn_message henv] at hrun
      obtain ⟨e, rfl, hhandle⟩ | ⟨handlerErr, s₁, hhandle, hreturn⟩ := exec_bind_cases hrun
      · obtain ⟨rd, _, _, hhandle⟩ := handleMessageOn_spec henv round _ _ hhandle
        cases (hhandle.unique (exec_handleMessage _ _ _)).1
      · cases hreturn
        obtain ⟨rd, hreceived, hreacted, hhandle⟩ := handleMessageOn_spec henv round _ _ hhandle
        obtain ⟨hok, hrecord⟩ := hhandle.unique (exec_handleMessage _ _ _)
        cases hok
        obtain ⟨hverdict, hcalls, hsends⟩ := Round.of_message rd hreceived henv
        exact ⟨rd, hreacted, hverdict.symm, by rw [Round.advance, hcalls, hsends]; exact hrecord⟩
  | false =>
      obtain ⟨messageId, time, senderId, payload⟩ := env
      cases payload with
      | none => cases henv
      | some p =>
          cases p with
          | pluginShutdown reason grace =>
              cases hrun
              refine ⟨_, .shutdown rfl, rfl, ?_⟩
              simp [Round.advance, Round.calls, Round.sends]
          | ping timestamp =>
              obtain ⟨e, rfl, hsend⟩ | ⟨_, s₁, hsend, hreturn⟩ := exec_bind_cases hrun
              · obtain ⟨hsent, hsend⟩ := transmitOn_spec _ _ _ _ hsend
                refine ⟨_, .ping rfl hsent, rfl, ?_⟩
                rw [(hsend.unique rfl).2]
                simp [Round.advance, Round.calls, Round.sends, ServeState.pass]
              · obtain ⟨hsent, hsend⟩ := transmitOn_spec _ _ _ _ hsend
                cases hreturn
                refine ⟨_, .ping rfl hsent, rfl, ?_⟩
                rw [(hsend.unique rfl).2]
                simp [Round.advance, Round.calls, Round.sends, ServeState.pass]
          | event event =>
              have hround : ∀ r' s', exec (handleEventOn lib proto code event round) s =
                  some (r', s') → r' = .ok () ∧ ∃ rd : Round,
                    rd.received = .ok ⟨messageId, time, senderId, some (.event event)⟩ ∧
                    Reacted lib proto code ⟨messageId, time, senderId, some (.event event)⟩ round
                      s.inner rd s'.inner ∧ s'.record = rd.advance s.record := by
                intro r' s' hhandle
                obtain ⟨rd, hreceived, hreacted, hhandle⟩ :=
                  handleEventOn_spec (show Envelope.payload
                    ⟨messageId, time, senderId, some (.event event)⟩ = _ from rfl) round _ _ hhandle
                obtain ⟨hok, hrecord⟩ := hhandle.unique (exec_handleEvent_advance hreceived rfl _)
                exact ⟨hok, rd, hreceived, hreacted, hrecord⟩
              obtain ⟨e, rfl, hhandle⟩ | ⟨_, s₁, hhandle, hreturn⟩ := exec_bind_cases hrun
              · cases (hround _ _ hhandle).1
              · obtain ⟨_, rd, hreceived, hreacted, hrecord⟩ := hround _ _ hhandle
                cases hreturn
                refine ⟨rd, hreacted, ?_, hrecord⟩
                rw [Round.verdict, Round.ending, Round.pongError, hreceived]
          | _ => cases henv

/-- **A receive** has the outcome of the client's; the loop sees an exception as
the end of the stream. -/
theorem recvOn_spec (round : RoundEnv) :
    Post (recvOn lib proto round) s (fun r s' => ∃ outcome c,
      exec (Client.recv lib proto round.recv) s.client = some (outcome, c) ∧
      r = .ok outcome.toOption ∧ s' = s.setClient c) := by
  intro r s' hrun
  unfold recvOn at hrun
  rw [exec_tryCatch] at hrun
  cases hbody : exec (do
      let env ← onClient (Client.recv lib proto round.recv)
      return some env) s with
  | none => rw [hbody] at hrun; cases hrun
  | some out =>
      obtain ⟨result, s₁⟩ := out
      rw [hbody] at hrun
      obtain ⟨e, rfl, hclient⟩ | ⟨env, s₂, hclient, hreturn⟩ := exec_bind_cases hbody
      · obtain ⟨outcome, c, hrecv, hresult, rfl⟩ := onClient_spec _ _ _ hclient
        cases hrun
        cases outcome with
        | error e => exact ⟨.error e, c, hrecv, rfl, rfl⟩
        | ok env => cases hresult
      · obtain ⟨outcome, c, hrecv, hresult, rfl⟩ := onClient_spec _ _ _ hclient
        cases hreturn
        cases hrun
        cases outcome with
        | error e => cases hresult
        | ok env' =>
            cases hresult
            exact ⟨.ok env, c, hrecv, rfl, rfl⟩

/-- **The loop** is the loop of `serve` on the outcomes of its rounds. -/
theorem serveLoop_spec :
    ∀ (renvs : List RoundEnv) (s s' : Session P) (r : Except Thrown (Option Thrown)),
      exec (serveLoop lib proto code renvs) s = some (r, s') →
      ∃ rounds : List Round, LoopOutcomes lib proto code renvs s.inner rounds ∧
        Records (receiveLoop rounds) s r s' := by
  intro renvs
  induction renvs with
  | nil =>
      intro s s' r hrun
      cases hrun
  | cons renv renvs ih =>
      intro s s' r hrun
      obtain ⟨e, rfl, hrecv⟩ | ⟨received, s₁, hrecv, hrest⟩ := exec_bind_cases hrun
      · obtain ⟨_, _, _, hok, _⟩ := recvOn_spec _ _ _ hrecv
        cases hok
      obtain ⟨outcome, c, hclient, hok, rfl⟩ := recvOn_spec _ _ _ hrecv
      cases hok
      cases outcome with
      | error e =>
          -- Whatever ended the stream, the loop does not see it.
          cases hrest
          refine ⟨_, .closed hclient, ?_⟩
          rw [Records, exec_receiveLoop_verdict]
          simp [Round.verdict, Round.ending, Round.advance, Round.calls, Round.sends, setClient]
      | ok env =>
          obtain ⟨e, rfl, hreact⟩ | ⟨ended, s₂, hreact, hgo⟩ := exec_bind_cases hrest
          · obtain ⟨rd, hreacted, hverdict, hrecord⟩ := reactOn_spec _ _ _ _ hreact
            refine ⟨[rd], .last hclient hreacted (by rw [← hverdict]; simp), ?_⟩
            rw [Records, exec_receiveLoop_verdict, ← hverdict, hrecord]
            rfl
          · obtain ⟨rd, hreacted, hverdict, hrecord⟩ := reactOn_spec _ _ _ _ hreact
            cases ended with
            | some handlerErr =>
                cases hgo
                refine ⟨[rd], .last hclient hreacted (by rw [← hverdict]; simp), ?_⟩
                rw [Records, exec_receiveLoop_verdict, ← hverdict, hrecord]
                rfl
            | none =>
                obtain ⟨rounds, houtcomes, hrounds⟩ := ih s₂ s' r hgo
                refine ⟨rd :: rounds, .next hclient hreacted hverdict.symm houtcomes, ?_⟩
                have hsame : (s.setClient c).record = s.record := rfl
                rw [Records, exec_receiveLoop_verdict, ← hverdict, ← hsame, ← hrecord]
                exact hrounds

/-- **Refinement of `serve`.**  Whatever the callbacks do with the client, a
finished call of `serve` on a client is a call of `serve` on the outcomes of its
parts, which are, one after the other, those of the client's registration,
receives and sends and of the plugin's callbacks: it ends the same way, with the
same callbacks and the same envelopes sent. -/
theorem serveOn_refines {jwtToken : Bytes} {env : ServeEnv} {r : Except Thrown Unit}
    {s' : Session P} (hrun : exec (serveOn lib proto code jwtToken env) s = some (r, s')) :
    ∃ script : Script, ServeOutcomes lib proto code jwtToken env s.inner script ∧
      exec (serve script) s.record = some (r, s'.record) := by
  unfold serveOn at hrun
  rw [exec_bind_ok (exec_modify _ _)] at hrun
  obtain ⟨e, rfl, hregister⟩ | ⟨ack, s₁, hregister, hserve⟩ := exec_bind_cases hrun
  · obtain ⟨outcome, c, hclient, hresult, rfl⟩ := onClient_spec _ _ _ hregister
    cases outcome with
    | ok ack => cases hresult
    | error e =>
        cases hresult
        refine ⟨_, .unregistered hclient, ?_⟩
        rw [serve, exec_bind_ok (exec_modify _ _), exec_bind_error (exec_settle _ _)]
        rfl
  obtain ⟨outcome, c, hclient, hresult, rfl⟩ := onClient_spec _ _ _ hregister
  obtain rfl : outcome = .ok ack := by
    cases outcome <;> cases hresult
    rfl
  cases haccepted : ack.accepted with
  | false =>
      rw [haccepted] at hserve
      cases hserve
      refine ⟨_, .rejected hclient haccepted, ?_⟩
      rw [serve, exec_bind_ok (exec_modify _ _), exec_bind_ok (exec_settle _ _), haccepted]
      rfl
  | true =>
      rw [haccepted, if_neg (by simp), exec_bind, exec_tryCatch] at hserve
      cases hinit : exec (callOn .onInit code.onInit)
          ((onRecord (.setClient true) s).setClient c) with
      | none => rw [hinit] at hserve; cases hserve
      | some out =>
          obtain ⟨outcome, s₂⟩ := out
          obtain ⟨hcode, hcall⟩ := callOn_spec _ _ _ _ hinit
          have hcall : exec (call .onInit outcome) (s.record.setClient true) =
              some (outcome, s₂.record) := hcall
          rw [hinit] at hserve
          cases outcome with
          | error e =>
              cases hserve
              refine ⟨_, .uninitialised hclient haccepted hcode, ?_⟩
              rw [serve, exec_bind_ok (exec_modify _ _), exec_bind_ok (exec_settle _ _),
                haccepted, if_neg (by simp), exec_bind, exec_tryCatch, hcall]
              rfl
          | ok _ =>
              obtain ⟨e, rfl, hloop⟩ | ⟨handlerErr, s₃, hloop, hend⟩ := exec_bind_cases hserve
              · obtain ⟨rounds, houtcomes, hrounds⟩ := serveLoop_spec _ _ _ _ hloop
                refine ⟨_, .served hclient haccepted hcode houtcomes, ?_⟩
                rw [serve, exec_bind_ok (exec_modify _ _), exec_bind_ok (exec_settle _ _),
                  haccepted, if_neg (by simp), exec_bind, exec_tryCatch, hcall]
                dsimp only
                rw [exec_bind_error hrounds]
              · obtain ⟨rounds, houtcomes, hrounds⟩ := serveLoop_spec _ _ _ _ hloop
                refine ⟨_, .served hclient haccepted hcode houtcomes, ?_⟩
                rw [serve, exec_bind_ok (exec_modify _ _), exec_bind_ok (exec_settle _ _),
                  haccepted, if_neg (by simp), exec_bind, exec_tryCatch, hcall]
                dsimp only
                rw [exec_bind_ok hrounds]
                cases handlerErr with
                | none => cases hend; rfl
                | some e => cases hend; rfl

/-- A plugin that counts events and answers each with an empty envelope. -/
def countingCode : PluginCode Nat where
  id := ascii "p"
  onMessage _ := pure none
  onEvent _ := do
    modify (fun x => (x.1, x.2 + 1))
    return some {}

/-- Protobuf on a registration, an event and what answers it. -/
def countedProto : ProtoLib where
  serialize env :=
    match env.payload with
    | none => []
    | some (.eventAck _) => [0xCA, 0x02, 0x00]
    | _ => Client.registerProto.serialize env
  parse bytes :=
    if bytes = [0xC2, 0x02, 0x00] then
      some { payload := some (.event {}) }
    else
      Client.registerProto.parse bytes

/-- The ack of the registration is there, an event under the session key behind
it, and then the peer has closed. -/
def countedEnv : ServeEnv where
  register := Client.promptSendEnv
  ack := [Client.promptFrameEnv]
  rounds :=
    [{ recv := [Client.promptFrameEnv], first := Client.promptSendEnv
       second := Client.promptSendEnv },
     { recv := [{ Client.promptFrameEnv with firstReads := [.closed] }]
       first := Client.promptSendEnv, second := Client.promptSendEnv }]

def countedClient : Client :=
  Client.clientWith (Client.wireFrame 0 Client.sampleAckBytes none ++
    Client.wireFrame flagMacPresent [0xC2, 0x02, 0x00] Client.sampleSessionKey)

/-- A registration over the wire, an event, and the end of the stream. -/
theorem serveOn_refines_event :
    ∃ script : Script,
      ServeOutcomes storingLibs countedProto countingCode [] countedEnv (countedClient, 0) script ∧
      (exec (serve script) {}).map (fun out => (out.2.callbacks, out.2.sent)) =
        some ([.onInit, .onEvent {}, .onShutdown], [eventAck {}, {}]) := by
  have hrecord : (exec (serveOn storingLibs countedProto countingCode [] countedEnv)
      ⟨countedClient, 0, {}⟩).map (fun out => (out.2.record.callbacks, out.2.record.sent)) =
        some ([.onInit, .onEvent {}, .onShutdown], [eventAck {}, {}]) := by
    decide +kernel
  obtain ⟨⟨r, s'⟩, hrun, hrecord⟩ := Option.map_eq_some_iff.mp hrecord
  obtain ⟨script, houtcomes, hserve⟩ := serveOn_refines hrun
  exact ⟨script, houtcomes, by rw [hserve]; exact congrArg some hrecord⟩

end Vynkor
