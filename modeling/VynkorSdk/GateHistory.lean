import VynkorSdk.ConfirmationGate
import VynkorSdk.StepMachine

/-!
# Histories of a gate

Any number of threads call `route` on one gate.  A call is in one of five
phases; between two of its steps other calls may take theirs.  The critical
sections are single steps, since the mutex is held throughout, and the clock
readings made under it never decrease.  Other gates of the process draw from
the same counter.

The state carries the history of what happened at the gate.  The invariant
`GateInv` says what the pending map is in terms of it: an id is in the map
exactly if it was stored, nothing has taken it, and no sweep since has found it
expired.
-/

namespace Vynkor

open ByteCodec KeyedTable StepMachine

namespace ConfirmationGate

/-! ### The machine -/

/-- How far a call of `route` has come. -/
inductive Phase
  /-- Before the critical section that stores its params. -/
  | storing
  /-- Before the critical section that looks `id` up. -/
  | taking (id : Bytes)
  /-- With a pending action in hand, before the executor. -/
  | granted (id : Bytes) (pending : PendingAction)
  /-- In the executor. -/
  | running
  | returned (outcome : Except Exn (List Envelope))

structure Call where
  req : ActionRequest
  phase : Phase

/-- What a history records. -/
inductive Action
  | stored (call : Nat) (id : Bytes) (pending : PendingAction) (sweptAt : Int)
  | taken (call : Nat) (id : Bytes) (sweptAt : Int) (found : Option PendingAction)
  | executed (call : Nat) (id params : Bytes)
  | drawnElsewhere
  deriving DecidableEq

structure GateState where
  pending : PendingMap := ∅
  /-- `next_seq()`, shared by all gates of the process. -/
  seq : UInt64
  /-- The last clock reading made under the mutex. -/
  clock : Int
  calls : List Call := []
  /-- History.  No step reads it. -/
  log : List Action := []

inductive GateEvent
  | call (req : ActionRequest)
  | enter (call : Nat) (r : Readings)
  | invoke (call : Nat)
  | finish (call : Nat) (result : Except Exn ActionResult)
  | drawElsewhere

/-- The phase in which a call reaches its critical section, or ends. -/
def firstPhase (g : ConfirmationGate) (req : ActionRequest) : Phase :=
  match g.dispatch req with
  | .answer outcome => .returned outcome
  | .store => .storing
  | .take id => .taking id

def GateState.setPhase (s : GateState) (i : Nat) (req : ActionRequest) (phase : Phase) :
    List Call :=
  s.calls.set i ⟨req, phase⟩

def step (g : ConfirmationGate) (s : GateState) : GateEvent → Option GateState
  | .call req => some { s with calls := s.calls ++ [⟨req, g.firstPhase req⟩] }
  | .drawElsewhere => some { s with seq := s.seq + 1, log := s.log ++ [.drawnElsewhere] }
  | .enter i r =>
      match s.calls[i]? with
      | some ⟨req, .storing⟩ =>
          if s.clock ≤ r.sweptAt ∧ r.sweptAt ≤ r.createdAt then
            let (id, t) := g.storeRequest req r s.seq s.pending
            some { s with
              pending := t
              seq := s.seq + 1
              clock := r.createdAt
              calls := s.setPhase i req (.returned (.ok (g.storedReply req id)))
              log := s.log ++ [.stored i id (storedEntry req r.createdAt) r.sweptAt] }
          else
            none
      | some ⟨req, .taking id⟩ =>
          if s.clock ≤ r.sweptAt then
            let (found, t) := g.takePending r.sweptAt id s.pending
            some { s with
              pending := t
              clock := r.sweptAt
              calls := s.setPhase i req (match found with
                | none => .returned (.ok (g.noPendingReply req id))
                | some pending => .granted id pending)
              log := s.log ++ [.taken i id r.sweptAt found] }
          else
            none
      | _ => none
  | .invoke i =>
      match s.calls[i]? with
      | some ⟨req, .granted id pending⟩ =>
          some { s with
            calls := s.setPhase i req .running
            log := s.log ++ [.executed i id pending.params] }
      | _ => none
  | .finish i result =>
      match s.calls[i]? with
      | some ⟨req, .running⟩ =>
          some { s with
            calls := s.setPhase i req
              (.returned (result.map (fun result => [responseEnvelope req.actionId result]))) }
      | _ => none

/-- A new gate, in a process whose counter stands at `start`. -/
def initial (start : UInt64) (clock : Int) : GateState := { seq := start, clock := clock }

/-- Number of `route` calls in a run, on this gate or on another one. -/
def routed (events : List GateEvent) : Nat :=
  events.countP (fun e => match e with
    | .call _ => true
    | .drawElsewhere => true
    | _ => false)

/-- **What one step can do**, with the state it leaves. -/
inductive Moves (g : ConfirmationGate) (s : GateState) : GateEvent → GateState → Prop
  | call (req : ActionRequest) :
      Moves g s (.call req) { s with calls := s.calls ++ [⟨req, g.firstPhase req⟩] }
  | drawElsewhere :
      Moves g s .drawElsewhere { s with seq := s.seq + 1, log := s.log ++ [.drawnElsewhere] }
  | store {i : Nat} {req : ActionRequest} {r : Readings}
      (hcall : s.calls[i]? = some ⟨req, .storing⟩)
      (hclock : s.clock ≤ r.sweptAt ∧ r.sweptAt ≤ r.createdAt) :
      Moves g s (.enter i r) { s with
        pending := (g.storeRequest req r s.seq s.pending).2
        seq := s.seq + 1
        clock := r.createdAt
        calls := s.setPhase i req (.returned (.ok (g.storedReply req (pendingId r.millis s.seq))))
        log := s.log ++
          [.stored i (pendingId r.millis s.seq) (storedEntry req r.createdAt) r.sweptAt] }
  | miss {i : Nat} {req : ActionRequest} {id : Bytes} {r : Readings}
      (hcall : s.calls[i]? = some ⟨req, .taking id⟩) (hclock : s.clock ≤ r.sweptAt)
      (hfound : (g.takePending r.sweptAt id s.pending).1 = none) :
      Moves g s (.enter i r) { s with
        pending := (g.takePending r.sweptAt id s.pending).2
        clock := r.sweptAt
        calls := s.setPhase i req (.returned (.ok (g.noPendingReply req id)))
        log := s.log ++ [.taken i id r.sweptAt none] }
  | take {i : Nat} {req : ActionRequest} {id : Bytes} {r : Readings} {pending : PendingAction}
      (hcall : s.calls[i]? = some ⟨req, .taking id⟩) (hclock : s.clock ≤ r.sweptAt)
      (hfound : (g.takePending r.sweptAt id s.pending).1 = some pending) :
      Moves g s (.enter i r) { s with
        pending := (g.takePending r.sweptAt id s.pending).2
        clock := r.sweptAt
        calls := s.setPhase i req (.granted id pending)
        log := s.log ++ [.taken i id r.sweptAt (some pending)] }
  | invoke {i : Nat} {req : ActionRequest} {id : Bytes} {pending : PendingAction}
      (hcall : s.calls[i]? = some ⟨req, .granted id pending⟩) :
      Moves g s (.invoke i) { s with
        calls := s.setPhase i req .running
        log := s.log ++ [.executed i id pending.params] }
  | finish {i : Nat} {req : ActionRequest} (result : Except Exn ActionResult)
      (hcall : s.calls[i]? = some ⟨req, .running⟩) :
      Moves g s (.finish i result) { s with
        calls := s.setPhase i req
          (.returned (result.map (fun result => [responseEnvelope req.actionId result]))) }

variable {g : ConfirmationGate}

/-- Every step of the gate is one of the moves. -/
theorem Moves.of_step {s s' : GateState} {e : GateEvent} (h : g.step s e = some s') :
    Moves g s e s' := by
  cases e with
  | call req =>
      cases h
      exact .call req
  | drawElsewhere =>
      cases h
      exact .drawElsewhere
  | enter i r =>
      rw [step] at h
      split at h
      · rename_i req hcall
        split at h
        · rename_i hclock
          cases h
          exact .store hcall hclock
        · cases h
      · rename_i req id hcall
        split at h
        · rename_i hclock
          generalize htake : g.takePending r.sweptAt id s.pending = out at h
          obtain ⟨found, t⟩ := out
          cases found with
          | none =>
              have hmove : Moves g s _ _ := .miss hcall hclock (by rw [htake])
              rw [htake] at hmove
              cases h
              exact hmove
          | some pending =>
              have hmove : Moves g s _ _ := .take hcall hclock (by rw [htake])
              rw [htake] at hmove
              cases h
              exact hmove
        · cases h
      · cases h
  | invoke i =>
      rw [step] at h
      split at h
      · rename_i req id pending hcall
        cases h
        exact .invoke hcall
      · cases h
  | finish i result =>
      rw [step] at h
      split at h
      · rename_i req hcall
        cases h
        exact .finish result hcall
      · cases h

end ConfirmationGate

end Vynkor
