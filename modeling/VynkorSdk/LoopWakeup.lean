import VynkorSdk.LoopReplies

/-!
# The wake pipe of the concurrent loop

A push enqueues first and writes to the wake pipe second; the loop empties the
pipe first and the queue second.  So a queued reply always has somebody to
answer for it: a byte in the pipe, a pusher on its way to write one, or the
loop itself, on its way to the queue (`Attended`).
-/

namespace Vynkor

open ByteCodec StepMachine

namespace ConcurrentLoop

/-- The loop thread is between finding the wake pipe readable and finding the
queue empty. -/
def Pc.Emptying (pc : Pc) : Prop := ∃ socket, pc = .draining socket ∨ pc = .popping socket

/-- The pusher stands between its enqueue and its write. -/
def Request.Signalling (r : Request) : Prop := ∃ rest, r.phase = .writing rest

/-- Somebody will see to the queue. -/
def Attended (s : LoopState) : Prop :=
  s.queue = [] ∨ 0 < s.wake ∨ s.pc.Emptying ∨
    ∃ (k : Nat) (r : Request), s.requests[k]? = some r ∧ r.Signalling

/-- Only the loop thread takes bytes out of the pipe, and it goes on to the
queue; a signal leaves a byte there, whether or not its own went in. -/
theorem step_wake {capacity : Nat} (hcapacity : 1 ≤ capacity) {s s' : LoopState} {e : LoopEvent}
    (h : step capacity s e = some s') :
    s'.wake = s.wake ∨ s'.pc.Emptying ∨ 0 < s'.wake := by
  revert h hcapacity
  fun_cases step capacity s e <;> grind [LoopState.handle, Pc.Emptying]

/-- A signal leaves the wake pipe readable. -/
theorem step_signal {capacity : Nat} (hcapacity : 1 ≤ capacity) {s s' : LoopState} {k : Nat}
    (h : step capacity s (.signal k) = some s') : 0 < s'.wake := by
  grind [step]

/-- The loop thread leaves the queue alone only once it has found it empty. -/
theorem step_emptying {capacity : Nat} {s s' : LoopState} {e : LoopEvent}
    (h : step capacity s e = some s') (hpc : s.pc.Emptying) :
    s'.pc.Emptying ∨ s'.queue = [] := by
  revert h
  fun_cases step capacity s e <;> grind [LoopState.handle, Pc.Emptying]

/-- Only its own signal takes a pusher past its write. -/
theorem Moves.signalling {s s' : LoopState} {e : LoopEvent} (hmove : Moves s e s')
    (hinv : LoopInv s) {k : Nat} {r : Request} (hr : s.requests[k]? = some r)
    (hsignal : r.Signalling) : e = .signal k ∨ s'.requests[k]? = some r := by
  obtain ⟨rest, hphase⟩ := hsignal
  cases hmove with
  | quiet hquiet => exact Or.inr (by rw [hquiet.requests_eq, hr])
  | pop _ _ => exact Or.inr hr
  | receive _ _ _ => grind
  | accept hpc hj => grind [LoopInv.deciding, LoopState.setRequest]
  | reject what hpc hj => grind [LoopInv.deciding, LoopState.setRequest]
  | begin hj hj' => grind [LoopState.setRequest]
  | finish outcome hj hj' => grind [LoopState.setRequest]
  | enqueue hj hj' => grind [LoopState.setRequest]
  | signal wake hj hj' => grind [LoopState.setRequest]

/-- What enters an empty queue has its pusher behind it. -/
theorem Moves.queue_empty {s s' : LoopState} {e : LoopEvent} (hmove : Moves s e s')
    (hqueue : s.queue = []) :
    s'.queue = [] ∨ ∃ (k : Nat) (r : Request), s'.requests[k]? = some r ∧ r.Signalling := by
  cases hmove with
  | quiet hquiet => exact Or.inl (by rw [hquiet.queue_eq, hqueue])
  | pop _ hcons => grind
  | @enqueue k r env rest hr hphase =>
      have hk := (List.getElem?_eq_some_iff.mp hr).1
      exact Or.inr ⟨k, _, List.getElem?_set_self hk, rest, rfl⟩
  | receive _ _ _ => exact Or.inl hqueue
  | accept _ _ => exact Or.inl hqueue
  | reject _ _ _ => exact Or.inl hqueue
  | begin _ _ => exact Or.inl hqueue
  | finish _ _ _ => exact Or.inl hqueue
  | signal _ _ _ => exact Or.inl hqueue

/-- **One step** keeps the queue attended. -/
theorem Attended.step {capacity : Nat} (hcapacity : 1 ≤ capacity) {s s' : LoopState}
    {e : LoopEvent} (h : Attended s) (hinv : LoopInv s)
    (hstep : ConcurrentLoop.step capacity s e = some s') : Attended s' := by
  have hmove : Moves s e s' := .of_step hstep
  rcases h with hqueue | hwake | hpc | ⟨k, r, hr, hsignal⟩
  · rcases hmove.queue_empty hqueue with hqueue' | hsignal
    · exact Or.inl hqueue'
    · exact Or.inr (Or.inr (Or.inr hsignal))
  · rcases step_wake hcapacity hstep with hsame | hpc' | hwake'
    · exact Or.inr (Or.inl (hsame ▸ hwake))
    · exact Or.inr (Or.inr (Or.inl hpc'))
    · exact Or.inr (Or.inl hwake')
  · rcases step_emptying hstep hpc with hpc' | hqueue'
    · exact Or.inr (Or.inr (Or.inl hpc'))
    · exact Or.inl hqueue'
  · rcases hmove.signalling hinv hr hsignal with rfl | hr'
    · exact Or.inr (Or.inl (step_signal hcapacity hstep))
    · exact Or.inr (Or.inr (Or.inr ⟨k, r, hr', hsignal⟩))

/-- What is queued is attended to after every run. -/
theorem run_attended {capacity : Nat} (hcapacity : 1 ≤ capacity) :
    ∀ events s, run (step capacity) {} events = some s → Attended s := by
  refine run_induction (Or.inl rfl) ?_
  intro events s e s' hrun h hstep
  exact h.step hcapacity (run_inv events s hrun) hstep

end ConcurrentLoop

open ConcurrentLoop in
/-- **No lost wake-up.**  In every reachable state in which the loop is at its
poll and no pusher is about to write, a queued reply has a byte in the wake
pipe, and the poll returns with it whatever the socket does. -/
theorem queued_reply_wakes_poll (capacity : Nat) (hcapacity : 1 ≤ capacity)
    (events : List LoopEvent) (s : LoopState) (hrun : run (step capacity) {} events = some s)
    (hpoll : s.pc = .polling) (hnone : ∀ r ∈ s.requests, ¬ r.Signalling) (hqueue : s.queue ≠ []) :
    0 < s.wake ∧
      ∀ socket, step capacity s (.poll (.ready socket)) =
        some { s with pc := .draining socket } := by
  have hwake : 0 < s.wake := by
    rcases run_attended hcapacity events s hrun with h | h | ⟨socket, h⟩ | ⟨k, r, hr, h⟩
    · exact absurd h hqueue
    · exact h
    · rcases h with h | h <;> simp [hpoll] at h
    · exact absurd h (hnone r (List.mem_of_getElem? hr))
  refine ⟨hwake, ?_⟩
  intro socket
  rw [step, if_pos hpoll, if_pos hwake]

namespace ConcurrentLoop

/-- Two handlers share a pipe of one byte: the second write finds it full. -/
def fullPipeRun : List LoopEvent :=
  [.poll (.ready true), .recv (.envelope (pingRequest "a1") {}), .accept, .poll (.ready true),
    .recv (.envelope (pingRequest "a2") {}), .accept, .begin 0, .begin 1,
    .finish 0 (.ok [responseEnvelope (ascii "a1") (.Ok [])]),
    .finish 1 (.ok [responseEnvelope (ascii "a2") (.Ok [])]),
    .enqueue 0, .enqueue 1, .signal 0, .signal 1]

end ConcurrentLoop

open ConcurrentLoop in
/-- Both replies are queued, and one byte is in the pipe. -/
theorem queued_reply_wakes_poll_full :
    ∃ s, run (step 1) {} fullPipeRun = some s ∧ s.queue.length = 2 ∧ 0 < s.wake ∧
      ∀ socket, step 1 s (.poll (.ready socket)) = some { s with pc := .draining socket } := by
  have hran : (run (step 1) {} fullPipeRun).map
      (fun s => (s.pc, s.queue.length, s.requests.map (·.phase))) =
      some (.polling, 2, [.finished, .finished]) := by decide
  obtain ⟨s, hrun, hs⟩ := Option.map_eq_some_iff.mp hran
  simp only [Prod.mk.injEq] at hs
  obtain ⟨hpc, hlength, hphases⟩ := hs
  have hnone : ∀ r ∈ s.requests, ¬ r.Signalling := by
    rintro r hr ⟨rest, hphase⟩
    have hmem : r.phase ∈ s.requests.map (·.phase) := List.mem_map_of_mem hr
    rw [hphases, hphase] at hmem
    simp at hmem
  have hqueue : s.queue ≠ [] := List.ne_nil_of_length_eq_add_one hlength
  exact ⟨s, hrun, hlength,
    queued_reply_wakes_poll 1 (by decide) fullPipeRun s hrun hpc hnone hqueue⟩

end Vynkor
