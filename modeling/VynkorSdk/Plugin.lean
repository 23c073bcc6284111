import VynkorSdk.ConcurrentLoop
import VynkorSdk.Procedure

/-!
# Serving a plugin

`Plugin::serve` and `serve_concurrent`: registration, `on_init`, the receive
loop, `on_shutdown`.  Everything around them is given from outside: what the
registration, each receive, each send and each callback returns or throws.  The
state is the pointer `client_` and a record of the callbacks made and of the
envelopes passed to `client.send`.

The body of the concurrent loop is written out once more as a procedure, with
its callbacks on record.  `ConcurrentLoop.step` has it as `LoopState.handle`,
which keeps the envelopes only; `dispatch_sent` says that the two agree.
-/

namespace Vynkor

open ByteCodec Procedure StepMachine

/-- Whatever is thrown: an exception of the SDK, or one of the plugin's own,
with a text if it is a `std::exception`. -/
inductive Thrown
  | sdk (e : Exn)
  | other (what : Option Bytes)
  deriving DecidableEq

/-- A call into the plugin. -/
inductive Callback
  | onInit
  | onEvent (event : Event)
  | onMessage (env : Envelope)
  | onShutdown
  deriving DecidableEq

structure ServeState where
  /-- `client_` is not null. -/
  clientSet : Bool := false
  callbacks : List Callback := []
  /-- Everything passed to `client.send` by the loop itself. -/
  sent : List Envelope := []
  deriving DecidableEq

namespace ServeState

def setClient (b : Bool) (s : ServeState) : ServeState := { s with clientSet := b }

def record (c : Callback) (s : ServeState) : ServeState :=
  { s with callbacks := s.callbacks ++ [c] }

def pass (env : Envelope) (s : ServeState) : ServeState := { s with sent := s.sent ++ [env] }

end ServeState

/-- A callback, with what it returns or throws. -/
def call {α : Type} (c : Callback) (outcome : Except Thrown α) : Proc Thrown ServeState α := do
  modify (.record c)
  settle outcome

/-- `client.send("kernel", env)`. -/
def transmit (env : Envelope) (outcome : Except Thrown Unit) : Proc Thrown ServeState Unit := do
  modify (.pass env)
  settle outcome

def transmitReply (reply : Option Envelope) (outcome : Except Thrown Unit) :
    Proc Thrown ServeState Unit :=
  match reply with
  | some env => transmit env outcome
  | none => pure ()

/-- A callback is recorded and ends as the script says. -/
@[simp] theorem exec_call {α : Type} (c : Callback) (outcome : Except Thrown α) (s : ServeState) :
    exec (call c outcome) s = some (outcome, s.record c) := rfl

/-- A send is recorded and ends as the script says. -/
@[simp] theorem exec_transmit (env : Envelope) (outcome : Except Thrown Unit) (s : ServeState) :
    exec (transmit env outcome) s = some (outcome, s.pass env) := rfl

def eventAck (event : Event) : Envelope := { payload := some (.eventAck event.eventId) }

/-! ### `Plugin::serve` -/

/-- What happens in one round of the receive loop.  `firstSend` is the outcome
of the pong, of the ack or of the reply to a message; `secondSend` that of the
reply to an event, behind its ack. -/
structure Round where
  received : Except Thrown Envelope
  pongTime : UInt64 := 0
  onEvent : Except Thrown (Option Envelope) := .ok none
  onMessage : Except Thrown (Option Envelope) := .ok none
  firstSend : Except Thrown Unit := .ok ()
  secondSend : Except Thrown Unit := .ok ()

/-- The reaction to an event: an exception skips what is left of it. -/
def handleEvent (event : Event) (round : Round) : Proc Thrown ServeState Unit :=
  tryCatch
    (do
      let reply ← call (.onEvent event) round.onEvent
      transmit (eventAck event) round.firstSend
      transmitReply reply round.secondSend)
    (fun _ => pure ())

/-- The reaction to any other envelope; returns the captured `handler_err`. -/
def handleMessage (env : Envelope) (round : Round) : Proc Thrown ServeState (Option Thrown) :=
  tryCatch
    (do
      let reply ← call (.onMessage env) round.onMessage
      transmitReply reply round.firstSend
      return none)
    (fun e => pure (some e))

/-- The receive loop of `serve`, up to `handler_err`. -/
def receiveLoop : List Round → Proc Thrown ServeState (Option Thrown)
  | [] => waiting
  | round :: rounds =>
      match round.received with
      | .error _ => pure none
      | .ok env =>
          match env.payload with
          | some (.pluginShutdown _ _) => pure none
          | some (.ping timestamp) => do
              transmit { payload := some (.pong timestamp round.pongTime) } round.firstSend
              receiveLoop rounds
          | some (.event event) => do
              handleEvent event round
              receiveLoop rounds
          | _ => do
              let handlerErr ← handleMessage env round
              match handlerErr with
              | some e => pure (some e)
              | none => receiveLoop rounds

/-! What one round does, read off its inputs. -/

namespace Round

/-- The callback made. -/
def calls (round : Round) : List Callback :=
  match round.received with
  | .error _ => []
  | .ok env =>
      match env.payload with
      | some (.pluginShutdown _ _) => []
      | some (.ping _) => []
      | some (.event event) => [.onEvent event]
      | _ => [.onMessage env]

/-- The envelopes passed to `client.send`. -/
def sends (round : Round) : List Envelope :=
  match round.received with
  | .error _ => []
  | .ok env =>
      match env.payload with
      | some (.pluginShutdown _ _) => []
      | some (.ping timestamp) => [{ payload := some (.pong timestamp round.pongTime) }]
      | some (.event event) =>
          match round.onEvent, round.firstSend with
          | .ok reply, .ok _ => eventAck event :: reply.toList
          | .ok _, .error _ => [eventAck event]
          | .error _, _ => []
      | _ =>
          match round.onMessage with
          | .ok reply => reply.toList
          | .error _ => []

/-- What `on_message`, or the send of its reply, threw. -/
def messageError (round : Round) : Option Thrown :=
  match round.onMessage, round.firstSend with
  | .error e, _ => some e
  | .ok (some _), .error e => some e
  | .ok _, _ => none

/-- The loop ends with this round, with this `handler_err`. -/
def ending (round : Round) : Option (Option Thrown) :=
  match round.received with
  | .error _ => some none
  | .ok env =>
      match env.payload with
      | some (.pluginShutdown _ _) => some none
      | some (.ping _) => none
      | some (.event _) => none
      | _ => round.messageError.map some

/-- The pong of this round is not sent: `client.send` throws. -/
def pongError (round : Round) : Option Thrown :=
  match round.received, round.firstSend with
  | .ok { payload := some (.ping _), .. }, .error e => some e
  | _, _ => none

def advance (round : Round) (s : ServeState) : ServeState :=
  { s with callbacks := s.callbacks ++ round.calls, sent := s.sent ++ round.sends }

end Round

/-- Handling an event: the acknowledgement, and the reply if there is one. -/
theorem exec_handleEvent (event : Event) (round : Round) (s : ServeState) :
    exec (handleEvent event round) s =
      match round.onEvent, round.firstSend with
      | .ok reply, .ok _ => some (.ok (), { s.record (.onEvent event) with
          sent := s.sent ++ eventAck event :: reply.toList })
      | .ok _, .error _ => some (.ok (), { s.record (.onEvent event) with
          sent := s.sent ++ [eventAck event] })
      | .error _, _ => some (.ok (), s.record (.onEvent event)) := by
  unfold handleEvent
  rw [exec_tryCatch, exec_bind, exec_call]
  cases round.onEvent with
  | error e => rfl
  | ok reply =>
      dsimp only
      rw [exec_bind, exec_transmit]
      cases round.firstSend with
      | error e => rfl
      | ok _ =>
          cases reply with
          | none => rfl
          | some env =>
              cases round.secondSend <;> simp [transmitReply, ServeState.pass, ServeState.record]

/-- Handling a message: the reply if there is one, and the error if it failed. -/
theorem exec_handleMessage (env : Envelope) (round : Round) (s : ServeState) :
    exec (handleMessage env round) s =
      some (.ok round.messageError, { s.record (.onMessage env) with
        sent := s.sent ++ match round.onMessage with
          | .ok reply => reply.toList
          | .error _ => [] }) := by
  unfold handleMessage
  rw [exec_tryCatch, exec_bind, exec_call]
  unfold Round.messageError
  cases round.onMessage with
  | error e => simp [ServeState.record]
  | ok reply =>
      cases reply with
      | none => simp [transmitReply, ServeState.record]
      | some env => cases round.firstSend <;> rfl

/-- A round in which the envelope goes to `on_message`. -/
theorem exec_receiveLoop_message {round : Round} {rounds : List Round} {env : Envelope}
    (hloop : receiveLoop (round :: rounds) = do
      let handlerErr ← handleMessage env round
      match handlerErr with
      | some e => pure (some e)
      | none => receiveLoop rounds)
    (hending : round.ending = round.messageError.map some) (hpong : round.pongError = none)
    (hcalls : round.calls = [.onMessage env])
    (hsends : round.sends = match round.onMessage with
      | .ok reply => reply.toList
      | .error _ => []) (s : ServeState) :
    exec (receiveLoop (round :: rounds)) s =
      match round.ending, round.pongError with
      | some handlerErr, _ => some (.ok handlerErr, round.advance s)
      | none, some e => some (.error e, round.advance s)
      | none, none => exec (receiveLoop rounds) (round.advance s) := by
  have hstate : { s.record (.onMessage env) with sent := s.sent ++ match round.onMessage with
      | .ok reply => reply.toList
      | .error _ => [] } = round.advance s := by
    rw [Round.advance, hcalls, hsends]
    rfl
  rw [hloop, exec_bind, exec_handleMessage, hstate, hending, hpong]
  cases round.messageError with
  | none => rfl
  | some e => rfl

/-- **One round of the receive loop.** -/
theorem exec_receiveLoop_cons (round : Round) (rounds : List Round) (s : ServeState) :
    exec (receiveLoop (round :: rounds)) s =
      match round.ending, round.pongError with
      | some handlerErr, _ => some (.ok handlerErr, round.advance s)
      | none, some e => some (.error e, round.advance s)
      | none, none => exec (receiveLoop rounds) (round.advance s) := by
  obtain ⟨received, pongTime, onEvent, onMessage, firstSend, secondSend⟩ := round
  cases received with
  | error e => simp [receiveLoop, Round.ending, Round.advance, Round.calls, Round.sends]
  | ok env =>
      obtain ⟨messageId, timestamp, senderId, payload⟩ := env
      cases payload with
      | none => exact exec_receiveLoop_message rfl rfl rfl rfl rfl s
      | some p =>
          cases p with
          | pluginShutdown reason grace =>
              simp [receiveLoop, Round.ending, Round.advance, Round.calls, Round.sends]
          | ping time =>
              rw [receiveLoop, exec_bind, exec_transmit]
              cases firstSend <;> simp [Round.ending, Round.pongError, Round.advance, Round.calls,
                Round.sends, ServeState.pass]
          | event event =>
              rw [receiveLoop, exec_bind, exec_handleEvent]
              cases onEvent <;> cases firstSend <;> simp [Round.ending, Round.pongError,
                Round.advance, Round.calls, Round.sends, ServeState.record]
          | _ => exact exec_receiveLoop_message rfl rfl rfl rfl rfl s

/-- What happens to one call of `serve`. -/
structure Script where
  registration : Except Thrown PluginRegisterAck
  onInit : Except Thrown Unit := .ok ()
  rounds : List Round := []

def rejection (ack : PluginRegisterAck) : Thrown :=
  .sdk (.permissionDenied (ascii "registration rejected: " ++ ack.rejectReason))

def serve (script : Script) : Proc Thrown ServeState Unit := do
  modify (.setClient true)
  let ack ← settle script.registration
  if !ack.accepted then do
    modify (.setClient false)
    throw (rejection ack)
  else do
    tryCatch (call .onInit script.onInit) (fun e => do
      call .onShutdown (.ok ())
      modify (.setClient false)
      throw e)
    let handlerErr ← receiveLoop script.rounds
    call .onShutdown (.ok ())
    modify (.setClient false)
    match handlerErr with
    | some e => throw e
    | none => pure ()

/-! ### `serve_concurrent` -/

/-- What happens to one call of `run_concurrent_loop`: whether `pipe2`
succeeds, which transport the client has, and the events of the loop. -/
structure LoopRun where
  pipeOpens : Bool := true
  webSocket : Bool := false
  capacity : Nat
  events : List ConcurrentLoop.LoopEvent

/-- `native_handle` throws on a WebSocket client, before the first poll. -/
def runConcurrentLoop (loop : LoopRun) : Proc Thrown ServeState Unit :=
  if !loop.pipeOpens then
    throw (.sdk (.io (ascii "pipe2 failed for concurrent loop wake channel")))
  else if loop.webSocket then
    throw (.sdk (.internal (ascii "native_handle is only valid on the UDS transport")))
  else
    match run (ConcurrentLoop.step loop.capacity) {} loop.events with
    | some s => if s.pc = .returned then pure () else waiting
    | none => waiting

structure ConcurrentScript where
  registration : Except Thrown PluginRegisterAck
  onInit : Except Thrown Unit := .ok ()
  loop : LoopRun

def serveConcurrent (script : ConcurrentScript) : Proc Thrown ServeState Unit := do
  let ack ← settle script.registration
  if !ack.accepted then
    throw (rejection ack)
  else do
    tryCatch (call .onInit script.onInit) (fun e => do
      call .onShutdown (.ok ())
      throw e)
    runConcurrentLoop script.loop
    call .onShutdown (.ok ())

/-! ### The body of the concurrent loop -/

namespace ConcurrentLoop

/-- `send_best_effort`: an exception is swallowed. -/
def sendBestEffort (env : Envelope) (outcome : Except Thrown Unit) :
    Proc Thrown ServeState Unit :=
  tryCatch (transmit env outcome) (fun _ => pure ())

def replyBestEffort (reply : Option Envelope) : Proc Thrown ServeState Unit :=
  match reply with
  | some env => sendBestEffort env (.ok ())
  | none => pure ()

/-- A callback's exception, of which the loop looks at nothing. -/
def Reaction.outcome {α : Type} (r : Option α) : Except Thrown α :=
  match r with
  | some a => .ok a
  | none => .error (.other none)

/-- What the loop does with an envelope it handles itself.  An `ActionRequest`
goes to `spawn_handler`, whose replies come over the channel. -/
def dispatch (env : Envelope) (reaction : Reaction) : Proc Thrown ServeState Unit :=
  match env.payload with
  | some (.ping timestamp) => sendBestEffort (makePong timestamp reaction.pongTime) (.ok ())
  | some (.pluginShutdown _ _) => pure ()
  | some (.actionRequest _) => pure ()
  | some (.event event) =>
      tryCatch
        (do
          let reply ← call (.onEvent event) (Reaction.outcome reaction.onEvent)
          transmit (eventAck event) (if reaction.ackSent then .ok () else .error (.other none))
          replyBestEffort reply)
        (fun _ => pure ())
  | _ =>
      tryCatch
        (do
          let reply ← call (.onMessage env) (Reaction.outcome reaction.onMessage)
          replyBestEffort reply)
        (fun _ => pure ())

end ConcurrentLoop

end Vynkor
