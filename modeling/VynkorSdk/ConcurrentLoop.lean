import VynkorSdk.Protocol
import VynkorSdk.StepMachine
import VynkorSdk.WireBase

/-!
# The concurrent loop

`run_concurrent_loop` and its handler threads as one step machine.  The loop
thread polls the socket and the wake pipe, sends what the response channel
holds, receives an envelope and reacts to it; each accepted `ActionRequest`
gets a thread that calls `on_action` and pushes what it returned.

A push is two steps, the enqueue under the mutex and the write to the wake
pipe, and anything may happen in between.  `recv()` is one step for each wire
frame it reads.  What the handler's callbacks return or throw, what arrives and
which thread moves is chosen by the events.

Requests are numbered in the order they are received.  The numbers on the
channel and in the outbox, the list of `on_action` calls and the verdicts are
history: no step depends on them.
-/

namespace Vynkor

open ByteCodec

namespace ConcurrentLoop

/-! ### State -/

/-- How far the reply to a request has come.  From `spawned` on this is the
state of its thread; the loop thread pushes rejections itself. -/
inductive Phase
  /-- The loop is about to call `accept`. -/
  | accepting
  | spawned
  /-- In `on_action`. -/
  | running
  /-- Before the next enqueue. -/
  | pushing (rest : List Envelope)
  /-- Behind an enqueue, before the write to the wake pipe. -/
  | writing (rest : List Envelope)
  | finished
  deriving DecidableEq

/-- What was decided about a request.  An exception has a text if it is a
`std::exception`. -/
inductive Verdict
  | undecided
  | rejected (what : Option Bytes)
  | panicked (what : Option Bytes)
  | answered (envelopes : List Envelope)
  deriving DecidableEq

structure Request where
  req : ActionRequest
  phase : Phase := .accepting
  verdict : Verdict := .undecided
  deriving DecidableEq

def rejectText (what : Option Bytes) : Bytes := what.getD (ascii "rejected")

def panicText : Option Bytes → Bytes
  | some what => ascii "handler panicked: " ++ what
  | none => ascii "handler panicked"

/-- The envelopes that make up the reply. -/
def Verdict.envelopes (actionId : Bytes) : Verdict → List Envelope
  | .undecided => []
  | .rejected what => [responseEnvelope actionId (.Err (rejectText what))]
  | .panicked what => [responseEnvelope actionId (.Err (panicText what))]
  | .answered envelopes => envelopes

def Request.replies (r : Request) : List Envelope := r.verdict.envelopes r.req.actionId

/-- Where the loop thread is.  `socket` is what poll said about the socket. -/
inductive Pc
  | polling
  | draining (socket : Bool)
  | popping (socket : Bool)
  /-- In `recv()`; `again` if it has absorbed a fragment and waits for the next
  frame. -/
  | receiving (again : Bool)
  | deciding (k : Nat)
  | rejecting (k : Nat)
  | joining
  | returned
  deriving DecidableEq

structure LoopState where
  pc : Pc := .polling
  queue : List (Nat × Envelope) := []
  /-- Bytes in the wake pipe. -/
  wake : Nat := 0
  requests : List Request := []
  /-- Everything passed to `client.send`, with the request it answers if it came
  off the channel. -/
  outbox : List (Option Nat × Envelope) := []
  called : List Nat := []
  deriving DecidableEq

/-! ### Events -/

/-- How `poll` returns; the wake pipe is reported as it is. -/
inductive Polled
  | interrupted
  | failed
  | ready (socket : Bool)
  deriving DecidableEq

/-- What the callbacks on the loop thread do: `none` is an exception. -/
structure Reaction where
  pongTime : UInt64 := 0
  onEvent : Option (Option Envelope) := some none
  ackSent : Bool := true
  onMessage : Option (Option Envelope) := some none
  deriving DecidableEq

inductive Received
  | fragment
  | fails
  | envelope (env : Envelope) (reaction : Reaction)
  deriving DecidableEq

inductive LoopEvent
  | poll (r : Polled)
  | drain
  | pop
  | recv (r : Received)
  /-- `accept` returns, or throws. -/
  | accept
  | reject (what : Option Bytes)
  /-- The thread of request `k` calls `on_action`, which then returns or throws. -/
  | begin (k : Nat)
  | finish (k : Nat) (outcome : Except (Option Bytes) (List Envelope))
  | enqueue (k : Nat)
  | signal (k : Nat)
  | join
  deriving DecidableEq

/-! ### Steps -/

def makePong (timestamp serverTimestamp : UInt64) : Envelope :=
  { payload := some (.pong timestamp serverTimestamp) }

/-- The envelopes the loop sends for an envelope it handles itself.  The reply
of `on_event` is sent only behind its ack. -/
def directReplies (env : Envelope) (reaction : Reaction) : List Envelope :=
  match env.payload with
  | some (.ping timestamp) => [makePong timestamp reaction.pongTime]
  | some (.event event) =>
      match reaction.onEvent with
      | none => []
      | some reply => { payload := some (.eventAck event.eventId) } ::
          (if reaction.ackSent then reply.toList else [])
  | _ =>
      match reaction.onMessage with
      | none => []
      | some reply => reply.toList

/-- The reaction to one envelope. -/
def LoopState.handle (s : LoopState) (env : Envelope) (reaction : Reaction) : LoopState :=
  match env.payload with
  | some (.pluginShutdown _ _) => { s with pc := .joining }
  | some (.actionRequest req) =>
      { s with pc := .deciding s.requests.length, requests := s.requests ++ [{ req := req }] }
  | _ =>
      { s with
        pc := .polling
        outbox := s.outbox ++ (directReplies env reaction).map (fun env => (none, env)) }

/-- Where a pusher goes on behind the wake write, or with a list to push. -/
def Phase.push (rest : List Envelope) : Phase := if rest = [] then .finished else .pushing rest

def LoopState.setRequest (s : LoopState) (k : Nat) (r : Request) : List Request :=
  s.requests.set k r

def verdictOf : Except (Option Bytes) (List Envelope) → Verdict
  | .ok envelopes => .answered envelopes
  | .error what => .panicked what

variable (capacity : Nat)

def step (s : LoopState) : LoopEvent → Option LoopState
  | .poll r =>
      if s.pc = .polling then
        match r with
        | .interrupted => some s
        | .failed => some { s with pc := .joining }
        | .ready socket =>
            if 0 < s.wake then
              some { s with pc := .draining socket }
            else if socket then
              some { s with pc := .receiving false }
            else
              none
      else
        none
  | .drain =>
      match s.pc with
      | .draining socket =>
          if s.wake = 0 then
            some { s with pc := .popping socket }
          else
            some { s with wake := s.wake - min 64 s.wake }
      | _ => none
  | .pop =>
      match s.pc with
      | .popping socket =>
          match s.queue with
          | [] => some { s with pc := if socket then .receiving false else .polling }
          | (k, env) :: queue =>
              some { s with queue := queue, outbox := s.outbox ++ [(some k, env)] }
      | _ => none
  | .recv r =>
      match s.pc with
      | .receiving _ =>
          match r with
          | .fragment => some { s with pc := .receiving true }
          | .fails => some { s with pc := .joining }
          | .envelope env reaction => some (s.handle env reaction)
      | _ => none
  | .accept =>
      match s.pc with
      | .deciding k =>
          match s.requests[k]? with
          | some r =>
              some { s with
                pc := .polling, requests := s.setRequest k { r with phase := .spawned } }
          | none => none
      | _ => none
  | .reject what =>
      match s.pc with
      | .deciding k =>
          match s.requests[k]? with
          | some r =>
              some { s with
                pc := .rejecting k
                requests := s.setRequest k { r with
                  phase := .push ((Verdict.rejected what).envelopes r.req.actionId)
                  verdict := .rejected what } }
          | none => none
      | _ => none
  | .begin k =>
      match s.requests[k]? with
      | some r =>
          if r.phase = .spawned then
            some { s with
              requests := s.setRequest k { r with phase := .running }
              called := s.called ++ [k] }
          else
            none
      | none => none
  | .finish k outcome =>
      match s.requests[k]? with
      | some r =>
          if r.phase = .running then
            some { s with
              requests := s.setRequest k { r with
                phase := .push ((verdictOf outcome).envelopes r.req.actionId)
                verdict := verdictOf outcome } }
          else
            none
      | none => none
  | .enqueue k =>
      match s.requests[k]? with
      | some r =>
          match r.phase with
          | .pushing (env :: rest) =>
              some { s with
                queue := s.queue ++ [(k, env)]
                requests := s.setRequest k { r with phase := .writing rest } }
          | _ => none
      | none => none
  | .signal k =>
      match s.requests[k]? with
      | some r =>
          match r.phase with
          | .writing rest =>
              some { s with
                pc := if s.pc = .rejecting k then .polling else s.pc
                wake := if s.wake < capacity then s.wake + 1 else s.wake
                requests := s.setRequest k { r with phase := .push rest } }
          | _ => none
      | none => none
  | .join =>
      if s.pc = .joining ∧ ∀ r ∈ s.requests, r.phase = .finished then
        some { s with pc := .returned }
      else
        none

end ConcurrentLoop

end Vynkor
