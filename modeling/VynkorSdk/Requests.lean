import VynkorSdk.Client
import VynkorSdk.ConfirmationGate

/-!
# Requests and their answers

`publish_event`, `send_action`, `send_action_streaming` and `send_command`: an
envelope out, and for all but the streaming call an envelope back.  An action
id is the wall clock and the process-wide counter `g_action_seq`, so a call of
`send_action` is a procedure on a process: the counter and the client it uses.

Ids of one process differ whatever its clock shows (`nextActionId_nodup`), and
`decideAction` is what an envelope says about the action with an id.
-/

namespace Vynkor

open ByteCodec Procedure ConfirmationGate

structure EventPublishAck where
  eventId : Bytes := []
  status : EventPublishStatus := .unknown
  error : Bytes := []
  deriving DecidableEq, Repr

structure KernelCommandAck where
  commandId : Bytes := []
  status : CommandStatus := .unknown
  dataJson : Bytes := []
  error : Bytes := []
  deriving DecidableEq, Repr

/-- A process: the counter of `next_action_id` and the client of the call. -/
structure Process where
  actionSeq : UInt64 := 0
  client : Client := {}

namespace Process

def setSeq (seq : UInt64) (p : Process) : Process := { p with actionSeq := seq }

def setClient (c : Client) (p : Process) : Process := { p with client := c }

end Process

namespace Client

/-! ### Action ids -/

def actionIdText (nowMs : Int) (seq : UInt64) : Bytes :=
  ascii "act-" ++ decimalInt nowMs ++ ascii "-" ++ decimal seq.toNat

/-- `next_action_id`, on the counter; `nowMs` is the wall clock. -/
def nextActionId (nowMs : Int) : Proc Exn UInt64 Bytes := do
  let seq ← get
  set (seq + 1)
  return actionIdText nowMs seq

/-- The counter can be read off an id: it is what follows the last dash. -/
theorem actionIdText_seq {m m' : Int} {q q' : UInt64} (h : actionIdText m q = actionIdText m' q') :
    q = q' := by
  have htail : ∀ (m : Int) (q : UInt64),
      (actionIdText m q).reverse.takeWhile (· != 0x2D) = (decimal q.toNat).reverse := by
    intro m q
    have hdash : ascii "-" = [0x2D] := rfl
    have hdigits : ∀ b ∈ (decimal q.toNat).reverse, (b != 0x2D) = true := by
      intro b hb
      rw [bne_iff_ne]
      rintro rfl
      exact dash_not_mem_decimal _ (List.mem_reverse.mp hb)
    rw [actionIdText, hdash, List.reverse_append, List.reverse_append, List.reverse_singleton,
      List.takeWhile_append_of_pos hdigits, List.singleton_append,
      List.takeWhile_cons_of_neg (by simp), List.append_nil]
  have hseq : (decimal q.toNat).reverse = (decimal q'.toNat).reverse := by
    rw [← htail m q, ← htail m' q', h]
  exact UInt64.toNat_inj.mp (decimal_injective (List.reverse_injective hseq))

/-- The ids of successive draws carry successive counters. -/
theorem mapM_nextActionId : ∀ (clocks : List Int) (seq : UInt64),
    ∃ ids, exec (clocks.mapM nextActionId) seq =
        some (.ok ids, seq + UInt64.ofNat clocks.length) ∧ ids.length = clocks.length ∧
      ∀ id ∈ ids, ∃ nowMs, ∃ k < clocks.length, id = actionIdText nowMs (seq + UInt64.ofNat k) := by
  intro clocks
  induction clocks with
  | nil =>
      intro seq
      exact ⟨[], by simp, rfl, by simp⟩
  | cons nowMs clocks ih =>
      intro seq
      obtain ⟨ids, hrun, hlen, hids⟩ := ih (seq + 1)
      have hnext : ∀ k, seq + 1 + UInt64.ofNat k = seq + UInt64.ofNat (k + 1) := by
        intro k
        rw [UInt64.ofNat_add, UInt64.add_assoc, UInt64.add_comm (UInt64.ofNat k)]
        rfl
      refine ⟨actionIdText nowMs seq :: ids, ?_, by simp [hlen], ?_⟩
      · rw [List.mapM_cons, exec_bind_ok (show exec (nextActionId nowMs) seq =
          some (.ok (actionIdText nowMs seq), seq + 1) from rfl), exec_bind_ok hrun, hnext]
        rfl
      · intro id hid
        rcases List.mem_cons.mp hid with rfl | hid
        · exact ⟨nowMs, 0, by simp, by simp⟩
        · obtain ⟨now', k, hk, rfl⟩ := hids id hid
          exact ⟨now', k + 1, by simpa using hk, by rw [hnext]⟩

/-- Fewer than 2^64 draws give different ids, whatever the clock shows. -/
theorem nextActionId_nodup : ∀ (clocks : List Int) (seq : UInt64), clocks.length < 2 ^ 64 →
    ∃ ids seq', exec (clocks.mapM nextActionId) seq = some (.ok ids, seq') ∧
      ids.length = clocks.length ∧ ids.Nodup := by
  intro clocks
  induction clocks with
  | nil =>
      intro seq _
      exact ⟨[], seq, by simp, rfl, List.nodup_nil⟩
  | cons nowMs clocks ih =>
      intro seq hlt
      rw [List.length_cons] at hlt
      obtain ⟨ids, seq', hrun, hlen, hnodup⟩ := ih (seq + 1) (by omega)
      obtain ⟨ids', hrun', _, hids⟩ := mapM_nextActionId clocks (seq + 1)
      obtain rfl : ids = ids' := by
        rw [hrun] at hrun'
        simpa using congrArg (Option.map Prod.fst) hrun'
      refine ⟨actionIdText nowMs seq :: ids, seq', ?_, by simp [hlen], ?_⟩
      · rw [List.mapM_cons, exec_bind_ok (show exec (nextActionId nowMs) seq =
          some (.ok (actionIdText nowMs seq), seq + 1) from rfl), exec_bind_ok hrun]
        rfl
      · refine List.nodup_cons.mpr ⟨?_, hnodup⟩
        intro hmem
        obtain ⟨now', k, hk, heq⟩ := hids _ hmem
        have hnat := congrArg UInt64.toNat (actionIdText_seq heq)
        have hsmall : (UInt64.ofNat k).toNat = k :=
          UInt64.toNat_ofNat_of_lt' (by simp only [UInt64.size]; omega)
        rw [UInt64.toNat_add, UInt64.toNat_add, hsmall, UInt64.toNat_one] at hnat
        have := seq.toNat_lt
        omega

/-! ### One request -/

/-- `DEFAULT_REQUEST_TIMEOUT`. -/
def defaultRequestTimeoutMs : Int := 30000

/-- What the environment does during one request: the wall clock of
`next_action_id`, the steady clock the deadline is computed from, the frame that
is written and those that are received. -/
structure RequestEnv where
  nowMs : Int := 0
  start : Int
  senv : SendEnv
  frames : List (List FrameEnv)

def requestDeadline (timeoutMs : UInt32) (start : Int) : Int :=
  let timeout := if timeoutMs = 0 then defaultRequestTimeoutMs else timeoutMs.toNat
  start + timeout * millisecond

variable (lib : WireLibs) (proto : ProtoLib)

/-- Send an envelope to the kernel and wait for a terminal one. -/
def exchange (env : Envelope) (timeoutMs : UInt32) (isTerminal : Envelope → Bool)
    (renv : RequestEnv) : Proc Exn Client Envelope := do
  send lib proto (ascii "kernel") env renv.senv
  waitForResponse lib proto (requestDeadline timeoutMs renv.start) isTerminal renv.frames

def kernelError (error : ErrorMessage) : Exn :=
  .internal (ascii "kernel error: " ++ error.message ++ ascii " (" ++ error.details ++ ascii ")")

def publishRequest (eventType payloadJson : Bytes) : Envelope :=
  { payload := some (.eventPublish eventType payloadJson) }

def publishTerminal (e : Envelope) : Bool :=
  match e.payload with
  | some (.eventPublishAck _ _ _) => true
  | some (.error _) => true
  | _ => false

def publishOutcome (resp : Envelope) : Except Exn EventPublishAck :=
  match resp.payload with
  | some (.error error) => .error (kernelError error)
  | some (.eventPublishAck eventId status error) => .ok ⟨eventId, status, error⟩
  | _ => .ok {}

def publishEvent (eventType payloadJson : Bytes) (timeoutMs : UInt32) (renv : RequestEnv) :
    Proc Exn Client EventPublishAck := do
  let resp ← exchange lib proto (publishRequest eventType payloadJson) timeoutMs publishTerminal
    renv
  settle (publishOutcome resp)

def actionRequest (actionId action paramsJson : Bytes) (timeoutMs : UInt32) (streaming : Bool) :
    Envelope :=
  { payload := some (.actionRequest
      { actionId := actionId, action := action, paramsJson := paramsJson, timeoutMs := timeoutMs,
        streaming := streaming }) }

def actionTerminal (actionId : Bytes) (e : Envelope) : Bool :=
  match e.payload with
  | some (.actionResponse response) => response.actionId == actionId
  | some (.actionStreamAbort id _) => id == actionId
  | some (.error _) => true
  | _ => false

def actionOutcome (resp : Envelope) : Except Exn ActionResponse :=
  match resp.payload with
  | some (.error error) => .error (kernelError error)
  | some (.actionStreamAbort _ reason) => .error (.internal (ascii "stream aborted: " ++ reason))
  | some (.actionResponse response) => .ok response
  | _ => .ok {}

/-- `send_action` behind its id. -/
def requestAction (actionId action paramsJson : Bytes) (timeoutMs : UInt32) (renv : RequestEnv) :
    Proc Exn Client ActionResponse := do
  let resp ← exchange lib proto (actionRequest actionId action paramsJson timeoutMs false) timeoutMs
    (actionTerminal actionId) renv
  settle (actionOutcome resp)

def sendAction (action paramsJson : Bytes) (timeoutMs : UInt32) (renv : RequestEnv) :
    Proc Exn Process ActionResponse := do
  let actionId ← zoom Process.actionSeq Process.setSeq (nextActionId renv.nowMs)
  zoom Process.client Process.setClient
    (requestAction lib proto actionId action paramsJson timeoutMs renv)

def sendActionStreaming (action : Bytes) (timeoutMs : UInt32) (nowMs : Int) (senv : SendEnv) :
    Proc Exn Process Bytes := do
  let actionId ← zoom Process.actionSeq Process.setSeq (nextActionId nowMs)
  zoom Process.client Process.setClient
    (send lib proto (ascii "kernel") (actionRequest actionId action [] timeoutMs true) senv)
  return actionId

def commandRequest (commandId command paramsJson : Bytes) : Envelope :=
  { payload := some (.kernelCommand commandId command paramsJson) }

def commandOutcome (resp : Envelope) : Except Exn KernelCommandAck :=
  match resp.payload with
  | some (.kernelCommandAck commandId status dataJson error) =>
      .ok ⟨commandId, status, dataJson, error⟩
  | _ => .error (.internal (ascii "expected KernelCommandAck"))

def sendCommand (commandId command paramsJson : Bytes) (senv : SendEnv) (envs : List FrameEnv) :
    Proc Exn Client KernelCommandAck := do
  send lib proto (ascii "kernel") (commandRequest commandId command paramsJson) senv
  let resp ← recv lib proto envs
  settle (commandOutcome resp)

/-! ### `send_action` -/

/-- What an envelope says about the action: a response, an exception, or
nothing. -/
def decideAction (actionId : Bytes) (e : Envelope) : Option (Except Exn ActionResponse) :=
  match e.payload with
  | some (.actionResponse response) =>
      if response.actionId = actionId then some (.ok response) else none
  | some (.actionStreamAbort id reason) =>
      if id = actionId then some (.error (.internal (ascii "stream aborted: " ++ reason))) else none
  | some (.error error) => some (.error (kernelError error))
  | _ => none

/-- The wait and the code behind it decide as `decideAction` does. -/
theorem decideAction_eq (actionId : Bytes) (e : Envelope) :
    decideAction actionId e =
      if actionTerminal actionId e then some (actionOutcome e) else none := by
  obtain ⟨messageId, timestamp, senderId, payload⟩ := e
  cases payload with
  | none => rfl
  | some p => cases p <;> simp [decideAction, actionTerminal, actionOutcome]

/-- An envelope decides nothing exactly when it is not terminal for the action. -/
theorem decideAction_none {actionId : Bytes} {e : Envelope} :
    decideAction actionId e = none ↔ actionTerminal actionId e = false := by
  rw [decideAction_eq]
  cases actionTerminal actionId e <;> simp

/-- An envelope decides an action when it is terminal, and as its outcome says. -/
theorem decideAction_some {actionId : Bytes} {e : Envelope} {r : Except Exn ActionResponse} :
    decideAction actionId e = some r ↔ actionTerminal actionId e = true ∧ actionOutcome e = r := by
  rw [decideAction_eq]
  cases actionTerminal actionId e <;> simp

/-- `send_action` draws an id and goes on with it. -/
theorem exec_sendAction (action paramsJson : Bytes) (timeoutMs : UInt32) (renv : RequestEnv)
    (p : Process) :
    exec (sendAction lib proto action paramsJson timeoutMs renv) p =
      (exec (requestAction lib proto (actionIdText renv.nowMs p.actionSeq) action paramsJson
        timeoutMs renv) p.client).map (fun (r, c) => (r, ⟨p.actionSeq + 1, c⟩)) := by
  have hdraw : exec (zoom Process.actionSeq Process.setSeq (nextActionId renv.nowMs)) p =
      some (.ok (actionIdText renv.nowMs p.actionSeq), p.setSeq (p.actionSeq + 1)) := rfl
  rw [sendAction, exec_bind_ok hdraw, exec_zoom]
  rfl

/-- A streaming action draws an id and sends its request. -/
theorem exec_sendActionStreaming (action : Bytes) (timeoutMs : UInt32) (nowMs : Int)
    (senv : SendEnv) (p : Process) :
    exec (sendActionStreaming lib proto action timeoutMs nowMs senv) p =
      (exec (send lib proto (ascii "kernel") (actionRequest (actionIdText nowMs p.actionSeq) action
        [] timeoutMs true) senv) p.client).map
          (fun (r, c) => (r.map (fun _ => actionIdText nowMs p.actionSeq),
            ⟨p.actionSeq + 1, c⟩)) := by
  have hdraw : exec (zoom Process.actionSeq Process.setSeq (nextActionId nowMs)) p =
      some (.ok (actionIdText nowMs p.actionSeq), p.setSeq (p.actionSeq + 1)) := rfl
  rw [sendActionStreaming, exec_bind_ok hdraw, exec_bind, exec_zoom]
  show _ = Option.map _ (exec (send lib proto _ _ senv) p.client)
  have hclient : (p.setSeq (p.actionSeq + 1)).client = p.client := rfl
  rw [hclient]
  cases exec (send lib proto (ascii "kernel") (actionRequest (actionIdText nowMs p.actionSeq) action
    [] timeoutMs true) senv) p.client with
  | none => rfl
  | some out =>
      obtain ⟨e | _, c⟩ := out
      · rfl
      · rfl

/-- A call that draws an action id. -/
inductive ActionCall
  | sendAction (action paramsJson : Bytes) (timeoutMs : UInt32) (renv : RequestEnv)
  | sendActionStreaming (action : Bytes) (timeoutMs : UInt32) (nowMs : Int) (senv : SendEnv)

/-- The id a call draws, on the counter of the process. -/
def ActionCall.draw : ActionCall → Proc Exn UInt64 Bytes
  | .sendAction _ _ _ renv => nextActionId renv.nowMs
  | .sendActionStreaming _ _ nowMs _ => nextActionId nowMs

def ActionCall.nowMs : ActionCall → Int
  | .sendAction _ _ _ renv => renv.nowMs
  | .sendActionStreaming _ _ nowMs _ => nowMs

/-- Drawing for calls is drawing at their clocks. -/
theorem mapM_draw (calls : List ActionCall) :
    calls.mapM ActionCall.draw = (calls.map ActionCall.nowMs).mapM nextActionId := by
  have hdraw : ActionCall.draw = nextActionId ∘ ActionCall.nowMs := by
    funext call
    cases call <;> rfl
  rw [List.mapM_map, hdraw]

end Client

end Vynkor
