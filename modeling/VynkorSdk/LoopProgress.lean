import VynkorSdk.LoopShutdown
import VynkorSdk.LoopWakeup

/-!
# The concurrent loop comes to rest

What the loop and its handler threads do by themselves, between two arrivals on
the socket, is measured by three numbers: how far the requests are from being
decided, what is still to be pushed, and what the loop thread still has to read
out of the pipe and the queue.  Each step takes the first of them that it
changes down, and a step that only waits for another thread finds that thread
able to move.
-/

namespace Vynkor

open ByteCodec StepMachine

namespace ConcurrentLoop

/-- The step needs nothing from outside: neither a frame nor a failure of the
socket.  A poll is one if only the wake pipe has it return. -/
def LoopEvent.Own : LoopEvent → Prop
  | .poll (.ready false) => True
  | .poll _ => False
  | .recv _ => False
  | _ => True

/-! ### The measure -/

def Phase.toDecide : Phase → Nat
  | .accepting => 3
  | .spawned => 2
  | .running => 1
  | _ => 0

def Phase.toPush : Phase → Nat
  | .pushing rest => 2 * rest.length
  | .writing rest => 2 * rest.length + 1
  | _ => 0

/-- The reads of the loop thread that find nothing. -/
def Pc.toRead (wake : Nat) : Pc → Nat
  | .polling => 1
  | .draining _ => if wake = 0 then 3 else 0
  | .popping _ => 2
  | .joining => 1
  | _ => 0

def LoopState.toDecide (s : LoopState) : Nat := (s.requests.map (·.phase.toDecide)).sum

def LoopState.toPush (s : LoopState) : Nat := (s.requests.map (·.phase.toPush)).sum

def LoopState.toRead (s : LoopState) : Nat := 4 * s.wake + s.queue.length + s.pc.toRead s.wake

def LoopState.work (s : LoopState) : Nat × Nat × Nat := (s.toDecide, s.toPush, s.toRead)

/-- The first number that differs is the smaller one. -/
def Less : Nat × Nat × Nat → Nat × Nat × Nat → Prop :=
  Prod.Lex (· < ·) (Prod.Lex (· < ·) (· < ·))

/-- The order on the work left is well founded. -/
theorem less_wf : WellFounded Less :=
  ⟨fun (_, _) => Prod.lexAccessible (Nat.lt_wfRel.wf.apply _)
    (fun (_, _) => Prod.lexAccessible (Nat.lt_wfRel.wf.apply _) Nat.lt_wfRel.wf.apply _) _⟩

/-- A decision made: less work, whatever is left to push and to read. -/
theorem Less.of_decide {s s' : LoopState} (h : s'.toDecide < s.toDecide) : Less s'.work s.work :=
  .left _ _ h

/-- A reply pushed with no decision opened: less work. -/
theorem Less.of_push {s s' : LoopState} (heq : s'.toDecide = s.toDecide)
    (h : s'.toPush < s.toPush) : Less s'.work s.work := by
  unfold LoopState.work
  rw [heq]
  exact .right _ (.left _ _ h)

/-- A read with the requests as they were: less work. -/
theorem Less.of_read {s s' : LoopState} (heq : s'.requests = s.requests)
    (h : s'.toRead < s.toRead) : Less s'.work s.work := by
  unfold LoopState.work LoopState.toDecide LoopState.toPush
  rw [heq]
  exact .right _ (.right _ h)

/-- Replacing one element changes the sum by the difference of the two. -/
theorem sum_map_set {α : Type} (f : α → Nat) (b : α) : ∀ (l : List α) (k : Nat) (a : α),
    l[k]? = some a → ((l.set k b).map f).sum + f a = (l.map f).sum + f b := by
  intro l
  induction l with
  | nil => intro k a h; cases h
  | cons c l ih =>
      intro k a h
      cases k with
      | zero =>
          cases h
          simp only [List.set_cons_zero, List.map_cons, List.sum_cons]
          omega
      | succ k =>
          have hsum := ih k a h
          simp only [List.set_cons_succ, List.map_cons, List.sum_cons]
          omega

/-- A request comes closer to its decision. -/
theorem decide_lt {s s' : LoopState} {k : Nat} {r r' : Request} (hr : s.requests[k]? = some r)
    (hset : s'.requests = s.setRequest k r') (hlt : r'.phase.toDecide < r.phase.toDecide) :
    Less s'.work s.work := by
  apply Less.of_decide
  have hsum := sum_map_set (·.phase.toDecide) r' s.requests k r hr
  rw [LoopState.toDecide, LoopState.toDecide, hset, LoopState.setRequest]
  omega

/-- A pusher comes closer to its end. -/
theorem push_lt {s s' : LoopState} {k : Nat} {r r' : Request} (hr : s.requests[k]? = some r)
    (hset : s'.requests = s.setRequest k r') (heq : r'.phase.toDecide = r.phase.toDecide)
    (hlt : r'.phase.toPush < r.phase.toPush) : Less s'.work s.work := by
  have hdecide := sum_map_set (·.phase.toDecide) r' s.requests k r hr
  have hpush := sum_map_set (·.phase.toPush) r' s.requests k r hr
  apply Less.of_push
  · rw [LoopState.toDecide, LoopState.toDecide, hset, LoopState.setRequest]
    omega
  · rw [LoopState.toPush, LoopState.toPush, hset, LoopState.setRequest]
    omega

/-- A worker with its replies in hand has nothing left to decide. -/
theorem push_toDecide (rest : List Envelope) : (Phase.push rest).toDecide = 0 := by
  unfold Phase.push
  split <;> rfl

/-- Each reply in hand counts twice: its push, and its pop from the queue. -/
theorem push_toPush (rest : List Envelope) : (Phase.push rest).toPush = 2 * rest.length := by
  unfold Phase.push
  split
  · rename_i hnil
    rw [hnil]
    rfl
  · rfl

/-- The loop thread reads the pipe to its end and then the queue. -/
theorem poll_lt {s : LoopState} {socket : Bool} (hpc : s.pc = .polling) (hwake : 0 < s.wake) :
    Less { s with pc := .draining socket }.work s.work := by
  refine .of_read rfl ?_
  simp only [LoopState.toRead, hpc, Pc.toRead]
  rw [if_neg (by omega)]
  omega

/-- Finding the wake pipe empty is progress. -/
theorem drained_lt {s : LoopState} {socket : Bool} (hpc : s.pc = .draining socket)
    (hwake : s.wake = 0) : Less { s with pc := .popping socket }.work s.work := by
  refine .of_read rfl ?_
  simp only [LoopState.toRead, hpc, Pc.toRead, hwake, if_true]
  omega

/-- Emptying the wake pipe is progress. -/
theorem drain_lt {s : LoopState} {socket : Bool} (hpc : s.pc = .draining socket)
    (hwake : s.wake ≠ 0) : Less { s with wake := s.wake - min 64 s.wake }.work s.work := by
  refine .of_read rfl ?_
  simp only [LoopState.toRead, hpc, Pc.toRead]
  rw [if_neg hwake]
  split <;> omega

/-- Finding the queue empty is progress. -/
theorem popped_lt {s : LoopState} {socket : Bool} (hpc : s.pc = .popping socket) :
    Less { s with pc := if socket then .receiving false else .polling }.work s.work := by
  refine .of_read rfl ?_
  simp only [LoopState.toRead, hpc]
  cases socket <;> simp [Pc.toRead]

/-- Sending a queued reply is progress. -/
theorem pop_lt {s : LoopState} {k : Nat} {env : Envelope} {queue : List (Nat × Envelope)}
    (hqueue : s.queue = (k, env) :: queue) (outbox : List (Option Nat × Envelope)) :
    Less { s with queue := queue, outbox := outbox }.work s.work := by
  refine .of_read rfl ?_
  simp only [LoopState.toRead, hqueue, List.length_cons]
  omega

/-- Joining the workers is progress. -/
theorem join_lt {s : LoopState} (hpc : s.pc = .joining) :
    Less { s with pc := .returned }.work s.work := by
  refine .of_read rfl ?_
  simp only [LoopState.toRead, hpc, Pc.toRead]
  omega

/-- The loop thread decides about the request it has just received. -/
theorem deciding_lt {s s' : LoopState} {k : Nat} {r r' : Request} (hinv : LoopInv s)
    (hpc : s.pc = .deciding k) (hr : s.requests[k]? = some r)
    (hset : s'.requests = s.setRequest k r') (hlt : r'.phase.toDecide < 3) :
    Less s'.work s.work := by
  obtain ⟨r₀, hr₀, hphase⟩ := hinv.deciding k hpc
  obtain rfl : r₀ = r := Option.some.inj (hr₀.symm.trans hr)
  refine decide_lt hr hset ?_
  rw [hphase]
  exact hlt

/-- **Every step of its own takes the work down.** -/
theorem step_work {capacity : Nat} {s s' : LoopState} {e : LoopEvent} (hinv : LoopInv s)
    (hown : e.Own) (h : step capacity s e = some s') : Less s'.work s.work := by
  cases e with
  | poll r =>
      rcases r with _ | _ | _ | _
      · cases hown
      · cases hown
      · rw [step] at h
        split at h
        · rename_i hpc
          split at h
          · cases h
            exact poll_lt hpc (by assumption)
          · cases h
        · cases h
      · cases hown
  | drain =>
      rw [step] at h
      split at h
      · rename_i socket hpc
        split at h
        · cases h
          exact drained_lt hpc (by assumption)
        · cases h
          exact drain_lt hpc (by assumption)
      · cases h
  | pop =>
      rw [step] at h
      split at h
      · rename_i socket hpc
        split at h
        · cases h
          exact popped_lt hpc
        · cases h
          exact pop_lt (by assumption) _
      · cases h
  | recv r => cases hown
  | accept =>
      rw [step] at h
      split at h
      · rename_i k hpc
        split at h
        · cases h
          exact deciding_lt hinv hpc (by assumption) rfl (by simp [Phase.toDecide])
        · cases h
      · cases h
  | reject what =>
      rw [step] at h
      split at h
      · rename_i k hpc
        split at h
        · cases h
          exact deciding_lt hinv hpc (by assumption) rfl (by rw [push_toDecide]; decide)
        · cases h
      · cases h
  | begin k =>
      rw [step] at h
      split at h
      · rename_i r hr
        split at h
        · rename_i hphase
          cases h
          exact decide_lt hr rfl (by simp [hphase, Phase.toDecide])
        · cases h
      · cases h
  | finish k outcome =>
      rw [step] at h
      split at h
      · rename_i r hr
        split at h
        · rename_i hphase
          cases h
          exact decide_lt hr rfl (by rw [hphase, push_toDecide]; decide)
        · cases h
      · cases h
  | enqueue k =>
      rw [step] at h
      split at h
      · rename_i r hr
        split at h
        · rename_i env rest hphase
          cases h
          refine push_lt hr rfl (by rw [hphase]; rfl) ?_
          rw [hphase, Phase.toPush, Phase.toPush, List.length_cons]
          omega
        · cases h
      · cases h
  | signal k =>
      rw [step] at h
      split at h
      · rename_i r hr
        split at h
        · rename_i rest hphase
          cases h
          refine push_lt hr rfl (by rw [hphase, push_toDecide]; rfl) ?_
          rw [hphase, push_toPush, Phase.toPush]
          omega
        · cases h
      · cases h
  | join =>
      rw [step] at h
      split at h
      · rename_i hjoin
        cases h
        exact join_lt hjoin.1
      · cases h

/-! ### What can always move -/

/-- Where the threads are: nobody stands before an empty list, and the loop
thread sees to the request it has received. -/
structure Placed (s : LoopState) : Prop where
  pushes : ∀ (k : Nat) (r : Request), s.requests[k]? = some r → r.phase ≠ .pushing []
  accepting : ∀ (k : Nat) (r : Request), s.requests[k]? = some r → r.phase = .accepting →
    s.pc = .deciding k
  rejecting : ∀ k, s.pc = .rejecting k → ∃ (r : Request) (rest : List Envelope),
    s.requests[k]? = some r ∧ (r.phase = .pushing rest ∨ r.phase = .writing rest)

/-- The loop starts in place. -/
theorem Placed.initial : Placed {} := by
  refine ⟨?_, ?_, ?_⟩ <;> simp

/-- A worker's next phase: finished when no reply is left, else pushing. -/
theorem push_cases (rest : List Envelope) :
    (Phase.push rest = .finished ∧ rest = []) ∨
      (Phase.push rest = .pushing rest ∧ rest ≠ []) := by
  grind [Phase.push]

/-- Every step keeps the loop in place. -/
theorem Placed.step {capacity : Nat} {s s' : LoopState} {e : LoopEvent} (h : Placed s)
    (hinv : LoopInv s) (hstep : ConcurrentLoop.step capacity s e = some s') : Placed s' := by
  obtain ⟨hpushes, haccepting, hrejecting⟩ := h
  have hdeciding := hinv.deciding
  revert hstep
  fun_cases ConcurrentLoop.step capacity s e <;> intro hstep <;> cases hstep <;>
    refine ⟨?_, ?_, ?_⟩ <;>
    grind [LoopState.setRequest, LoopState.handle, push_cases, Verdict.envelopes]

/-- The loop is in place after every run. -/
theorem run_placed {capacity : Nat} :
    ∀ events s, run (step capacity) {} events = some s → Placed s := by
  refine run_induction .initial ?_
  intro events s e s' hrun h hstep
  exact h.step (run_inv events s hrun) hstep

/-- A handler thread, or the loop thread with a rejection, can move until it
has finished. -/
theorem finished_of_stuck {capacity : Nat} {s : LoopState} (hplaced : Placed s)
    (hstuck : Stuck (step capacity) LoopEvent.Own s) : ∀ r ∈ s.requests, r.phase = .finished := by
  intro r hmem
  obtain ⟨k, hr⟩ := List.getElem?_of_mem hmem
  cases hphase : r.phase with
  | accepting =>
      have hpc := hplaced.accepting k r hr hphase
      have hnone := hstuck .accept trivial
      simp [step, hpc, hr] at hnone
  | spawned =>
      have hnone := hstuck (.begin k) trivial
      simp [step, hr, hphase] at hnone
  | running =>
      have hnone := hstuck (.finish k (.ok [])) trivial
      simp [step, hr, hphase] at hnone
  | pushing rest =>
      cases rest with
      | nil => exact absurd hphase (hplaced.pushes k r hr)
      | cons env rest =>
          have hnone := hstuck (.enqueue k) trivial
          simp [step, hr, hphase] at hnone
  | writing rest =>
      have hnone := hstuck (.signal k) trivial
      simp [step, hr, hphase] at hnone
  | finished => rfl

/-- Where the loop thread stands when nothing moves. -/
theorem pc_of_stuck {capacity : Nat} {s : LoopState} (hinv : LoopInv s) (hplaced : Placed s)
    (hstuck : Stuck (step capacity) LoopEvent.Own s) :
    s.pc = .returned ∨ (∃ again, s.pc = .receiving again) ∨ (s.pc = .polling ∧ s.wake = 0) := by
  have hfinished := finished_of_stuck hplaced hstuck
  cases hpc : s.pc with
  | polling =>
      refine Or.inr (Or.inr ⟨rfl, ?_⟩)
      have hnone := hstuck (.poll (.ready false)) trivial
      by_contra hwake
      simp [step, hpc, Nat.pos_of_ne_zero hwake] at hnone
  | draining socket =>
      have hnone := hstuck .drain trivial
      by_cases hwake : s.wake = 0 <;> simp [step, hpc, hwake] at hnone
  | popping socket =>
      have hnone := hstuck .pop trivial
      rcases hqueue : s.queue with _ | ⟨⟨k, env⟩, queue⟩ <;> simp [step, hpc, hqueue] at hnone
  | receiving again => exact Or.inr (Or.inl ⟨again, rfl⟩)
  | deciding k =>
      obtain ⟨r, hr, -⟩ := hinv.deciding k hpc
      have hnone := hstuck .accept trivial
      simp [step, hpc, hr] at hnone
  | rejecting k =>
      obtain ⟨r, rest, hr, hphase⟩ := hplaced.rejecting k hpc
      rw [hfinished r (List.mem_of_getElem? hr)] at hphase
      rcases hphase with hphase | hphase <;> cases hphase
  | joining =>
      have hnone := hstuck .join trivial
      rw [step, if_pos ⟨hpc, hfinished⟩] at hnone
      cases hnone
  | returned => exact Or.inl rfl

/-! ### Runs -/

/-- The loop does not come back once it has left. -/
theorem Moves.exited {s s' : LoopState} {e : LoopEvent} (hmove : Moves s e s') (hinv : LoopInv s)
    (h : s.pc.Exited) : s'.pc.Exited :=
  (After.step ⟨h, rfl, rfl, .refl s⟩ hinv hmove).exited

/-- The events that end the loop are not among its own moves. -/
theorem Leaves.not_own {e : LoopEvent} (h : Leaves e) : ¬ e.Own := by
  cases h <;> exact id

/-- What holds of a state and of all that its own steps lead to. -/
structure Tended (left : Prop) (s : LoopState) : Prop where
  inv : LoopInv s
  placed : Placed s
  attended : Attended s
  exited_iff : s.pc.Exited ↔ left

/-- The loop's own moves keep it tended. -/
theorem Tended.step {capacity : Nat} (hcapacity : 1 ≤ capacity) {left : Prop} {s s' : LoopState}
    {e : LoopEvent} (h : Tended left s) (hown : e.Own)
    (hstep : ConcurrentLoop.step capacity s e = some s') : Tended left s' where
  inv := h.inv.step (.of_step hstep)
  placed := h.placed.step h.inv hstep
  attended := h.attended.step hcapacity h.inv hstep
  exited_iff := by
    rw [← h.exited_iff]
    constructor
    · intro hout
      by_contra hin
      exact ((Moves.of_step hstep).leaves hin hout).not_own hown
    · exact (Moves.of_step hstep).exited h.inv

/-- A run of own moves keeps the loop tended. -/
theorem Tended.run {capacity : Nat} (hcapacity : 1 ≤ capacity) {left : Prop} :
    ∀ (events : List LoopEvent) (s s' : LoopState), Tended left s → (∀ e ∈ events, e.Own) →
      StepMachine.run (ConcurrentLoop.step capacity) s events = some s' → Tended left s' := by
  intro events
  induction events with
  | nil =>
      intro s s' h _ hrun
      cases hrun
      exact h
  | cons e events ih =>
      intro s s' h hown hrun
      rw [run_cons, Option.bind_eq_some_iff] at hrun
      obtain ⟨s₁, hstep, hrun⟩ := hrun
      obtain ⟨he, hown⟩ := List.forall_mem_cons.mp hown
      exact ih s₁ s' (h.step hcapacity he hstep) hown hrun

/-- Own moves cannot go on for ever from a tended state. -/
theorem Tended.acc {capacity : Nat} (hcapacity : 1 ≤ capacity) {left : Prop} {s : LoopState}
    (h : Tended left s) : Acc (Behind (ConcurrentLoop.step capacity) LoopEvent.Own) s :=
  acc_of_measure less_wf LoopState.work
    (fun _ _ _ h hown hstep => ⟨h.step hcapacity hown hstep, step_work h.inv hown hstep⟩) s h

/-- Where the loop and its handlers come to rest, from a state where the loop
has been left or not. -/
structure Rests (left : Prop) (s : LoopState) : Prop where
  /-- Every handler has returned and pushed all of its reply. -/
  finished : ∀ r ∈ s.requests, r.phase = .finished
  /-- Left, the call returns. -/
  returned : left → s.pc = .returned
  /-- Not left, it waits for the peer: in `recv()`, or at a poll with every
  reply sent. -/
  waits : ¬ left → (∃ again, s.pc = .receiving again) ∨
    (s.pc = .polling ∧ s.wake = 0 ∧ s.queue = [] ∧ AllSent s)

/-- Where a tended loop has no own move left, it is at rest. -/
theorem Tended.rests {capacity : Nat} {left : Prop} {s : LoopState} (h : Tended left s)
    (hstuck : Stuck (ConcurrentLoop.step capacity) LoopEvent.Own s) : Rests left s := by
  have hfinished := finished_of_stuck h.placed hstuck
  have hpc := pc_of_stuck h.inv h.placed hstuck
  refine ⟨hfinished, ?_, ?_⟩
  · intro hleft
    have hexited := h.exited_iff.mpr hleft
    rcases hpc with hpc | ⟨again, hpc⟩ | ⟨hpc, -⟩
    · exact hpc
    · simp [Pc.Exited, hpc] at hexited
    · simp [Pc.Exited, hpc] at hexited
  · intro hin
    rcases hpc with hpc | hpc | ⟨hpc, hwake⟩
    · exact absurd (h.exited_iff.mp (Or.inr hpc)) hin
    · exact Or.inl hpc
    · have hqueue : s.queue = [] := by
        rcases h.attended with hqueue | hpos | ⟨socket, hemptying⟩ | ⟨k, r, hr, rest, hphase⟩
        · exact hqueue
        · omega
        · simp [hpc] at hemptying
        · rw [hfinished r (List.mem_of_getElem? hr)] at hphase
          cases hphase
      refine Or.inr ⟨hpc, hwake, hqueue, ?_⟩
      intro k r hr
      rw [h.inv.sent_iff hr, hqueue, Request.rest, hfinished r (List.mem_of_getElem? hr)]
      exact ⟨rfl, rfl⟩

end ConcurrentLoop

open ConcurrentLoop in
/-- **No deadlock and no livelock.**  From every reachable state, the loop and
its handler threads cannot move for ever without an arrival on the socket; they
can go on until nothing moves by itself, and wherever that is, every handler has
finished, a loop that was left has returned, and one that was not waits for the
peer, at its poll with every reply sent or in `recv()`. -/
theorem loop_comes_to_rest (capacity : Nat) (hcapacity : 1 ≤ capacity) (events : List LoopEvent)
    (s : LoopState) (hrun : run (step capacity) {} events = some s) :
    (¬ ∃ f : Nat → LoopState, f 0 = s ∧
        ∀ n, ∃ e, LoopEvent.Own e ∧ step capacity (f n) e = some (f (n + 1))) ∧
      (∃ more s', (∀ e ∈ more, LoopEvent.Own e) ∧ run (step capacity) s more = some s' ∧
        Stuck (step capacity) LoopEvent.Own s') ∧
      ∀ more s', (∀ e ∈ more, LoopEvent.Own e) → run (step capacity) s more = some s' →
        Stuck (step capacity) LoopEvent.Own s' → Rests s.pc.Exited s' := by
  have hstart : Tended s.pc.Exited s :=
    ⟨run_inv events s hrun, run_placed events s hrun, run_attended hcapacity events s hrun, .rfl⟩
  have hacc := hstart.acc hcapacity
  refine ⟨no_endless_run hacc, runs_to_stuck hacc, ?_⟩
  intro more s' hown hmore hstuck
  exact (hstart.run hcapacity more s s' hown hmore).rests hstuck

namespace ConcurrentLoop

/-- A shutdown behind a request whose handler has only begun. -/
def shutdownWhileRunning : List LoopEvent :=
  [.poll (.ready true), .recv (.envelope (pingRequest "a1") {}), .accept, .begin 0,
    .poll (.ready true), .recv (.envelope shutdownEnvelope {})]

end ConcurrentLoop

open ConcurrentLoop in
/-- The handler ends and the call returns. -/
theorem loop_comes_to_rest_joined :
    ∃ s more s', run (step 1) {} shutdownWhileRunning = some s ∧ s.pc = .joining ∧
      run (step 1) s more = some s' ∧ s'.pc = .returned ∧
      ∀ r ∈ s'.requests, r.phase = .finished := by
  have hran : (run (step 1) {} shutdownWhileRunning).map (·.pc) = some .joining := by decide
  obtain ⟨s, hrun, hpc⟩ := Option.map_eq_some_iff.mp hran
  obtain ⟨-, ⟨more, s', hown, hmore, hstuck⟩, hrests⟩ :=
    loop_comes_to_rest 1 (by decide) shutdownWhileRunning s hrun
  have hrest := hrests more s' hown hmore hstuck
  exact ⟨s, more, s', hrun, hpc, hmore, hrest.returned (Or.inl hpc), hrest.finished⟩

end Vynkor
