import VynkorSdk.LoopEndings
import VynkorSdk.LoopWakeup

/-!
# Where the concurrent loop sleeps

The loop means to sleep in its poll only, which also watches the wake pipe.  But
a readable socket says that a frame has begun, not that `recv()` will return
after it: behind a fragment that leaves its set incomplete `recv()` goes on to
the first byte of the next frame, and waits for it where no reply can wake it.

`wireStep` puts the loop together with the client's reassembly table and the
socket: what has begun to arrive decides what `poll` says, and what `recv()`
makes of a frame is up to the table.
-/

namespace Vynkor

open ByteCodec StepMachine

namespace ConcurrentLoop

/-! ### The loop on its socket -/

/-- What begins to arrive.  `broken` makes the read fail: an end of stream, or
bytes that are no valid frame.  `skipped` is a message that a transport passes
over, as the WebSocket does with pings; none comes to this loop, which throws at
`native_handle` on a WebSocket, and what is proved here does not rest on that. -/
inductive Arrival
  | frame (wire : FrameResult)
  | skipped
  | broken

structure WireState where
  loop : LoopState := {}
  reassembly : ReassemblyTable := ∅
  /-- What has begun to arrive and has not been read. -/
  begun : List Arrival := []

inductive WireEvent
  /-- The first byte of a frame arrives. -/
  | arrive (arrival : Arrival)
  /-- `recv()` reads what has begun to arrive; the clock readings are those of
  `absorb_fragment`. -/
  | receive (now seen : Int) (reaction : Reaction)
  /-- Any other step of the loop or of a handler thread. -/
  | move (e : LoopEvent)

/-- What `recv()` makes of what it reads; it goes on behind a skipped message as
behind a fragment. -/
def Arrival.received (proto : ProtoLib) (now seen : Int) (reaction : Reaction)
    (t : ReassemblyTable) : Arrival → Received × ReassemblyTable
  | .broken => (.fails, t)
  | .skipped => (.fragment, t)
  | .frame wire =>
      (receivedOf (Client.outcome proto ⟨now, seen, wire⟩ t, reaction),
        (Client.accept ⟨now, seen, wire⟩ t).2)

/-- The socket is readable only if something has begun to arrive, and need not be
reported so then.  Frames are read by `receive` alone. -/
def WireState.admits (s : WireState) : LoopEvent → Bool
  | .recv _ => false
  | .poll (.ready socket) => !socket || !s.begun.isEmpty
  | _ => true

def wireStep (proto : ProtoLib) (capacity : Nat) (s : WireState) : WireEvent → Option WireState
  | .arrive arrival => some { s with begun := s.begun ++ [arrival] }
  | .receive now seen reaction =>
      match s.begun with
      | [] => none
      | arrival :: begun =>
          let out := arrival.received proto now seen reaction s.reassembly
          (step capacity s.loop (.recv out.1)).map (fun loop => ⟨loop, out.2, begun⟩)
  | .move e =>
      if s.admits e then
        (step capacity s.loop e).map (fun loop => { s with loop := loop })
      else
        none

/-! ### Sleeping -/

/-- The loop thread waits for the first byte of a frame, in its poll or in
`recv()`. -/
def WireState.AwaitsFirstByte (s : WireState) : Prop :=
  s.begun = [] ∧ (s.loop.pc = .polling ∨ ∃ again, s.loop.pc = .receiving again)

/-- With a reply queued, the loop thread sleeps in its poll only. -/
def WireState.Wakeable (s : WireState) : Prop :=
  s.AwaitsFirstByte → s.loop.queue ≠ [] → s.loop.pc = .polling

/-- The thread of the request has something to push, or may come to have it. -/
def Phase.MayPush : Phase → Prop
  | .spawned => True
  | .running => True
  | .pushing rest => rest ≠ []
  | .writing rest => rest ≠ []
  | _ => False

/-- No reply is queued and none can come without another request. -/
def LoopState.Silent (s : LoopState) : Prop :=
  s.queue = [] ∧ ∀ r ∈ s.requests, ¬ r.phase.MayPush

/-- `recv()` goes on behind what it reads: a skipped message, or a fragment that
leaves its set incomplete. -/
def Arrival.GoesOn (proto : ProtoLib) (now seen : Int) (t : ReassemblyTable) : Arrival → Prop
  | .broken => False
  | .skipped => True
  | .frame wire => Client.outcome proto ⟨now, seen, wire⟩ t = .ok none

/-- What `recv()` goes on behind is not the last that has begun to arrive, unless
no reply is to come. -/
def WireState.Safe (proto : ProtoLib) (s : WireState) : WireEvent → Prop
  | .receive now seen _ => ∀ arrival, s.begun = [arrival] →
      arrival.GoesOn proto now seen s.reassembly → s.loop.Silent
  | _ => True

/-- The loop reads only where there is something to read, or no reply to come. -/
structure ParkInv (s : WireState) : Prop where
  readable : s.loop.pc = .draining true ∨ s.loop.pc = .popping true → s.begun ≠ []
  receiving : ∀ again, s.loop.pc = .receiving again → s.begun ≠ [] ∨ s.loop.Silent

/-- The invariant gives what a reply needs to wake the loop. -/
theorem ParkInv.wakeable {s : WireState} (h : ParkInv s) : s.Wakeable := by
  intro hawaits hqueue
  obtain ⟨hempty, hpc | ⟨again, hpc⟩⟩ := hawaits
  · exact hpc
  · rcases h.receiving again hpc with hbegun | hsilent
    · exact absurd hempty hbegun
    · exact absurd hsilent.1 hqueue

/-! ### One step -/

/-- How the loop thread comes to read. -/
theorem step_towards {capacity : Nat} {s s' : LoopState} {e : LoopEvent}
    (h : step capacity s e = some s') (he : ∀ r, e ≠ .recv r) :
    (s'.pc = .draining true ∨ s'.pc = .popping true →
      s.pc = .draining true ∨ s.pc = .popping true ∨ e = .poll (.ready true)) ∧
    ∀ again, s'.pc = .receiving again →
      s.pc = .receiving again ∨ s.pc = .popping true ∨ e = .poll (.ready true) := by
  revert h
  fun_cases step capacity s e <;> grind

/-- In `recv()`, a silent loop stays silent. -/
theorem LoopState.Silent.step {capacity : Nat} {s s' : LoopState} {e : LoopEvent}
    (h : s.Silent) {again : Bool} (hpc : s.pc = .receiving again)
    (hstep : ConcurrentLoop.step capacity s e = some s') (he : ∀ r, e ≠ .recv r) : s'.Silent := by
  obtain ⟨hqueue, hquiet⟩ := h
  have hphase : ∀ {k : Nat} {r : Request}, s.requests[k]? = some r → ¬ r.phase.MayPush :=
    fun hr => hquiet _ (List.mem_of_getElem? hr)
  cases Moves.of_step hstep with
  | quiet hmove => exact ⟨by rw [hmove.queue_eq, hqueue], by rw [hmove.requests_eq]; exact hquiet⟩
  | pop hpopping _ => grind
  | receive reaction _ _ => exact absurd rfl (he _)
  | accept hdeciding _ => grind
  | reject _ hdeciding _ => grind
  | begin hr hspawned => exact absurd (by rw [hspawned]; trivial) (hphase hr)
  | finish _ hr hrunning => exact absurd (by rw [hrunning]; trivial) (hphase hr)
  | enqueue hr hpushing => exact absurd (by rw [hpushing]; exact List.cons_ne_nil _ _) (hphase hr)
  | @signal k r rest wake hr hwriting =>
      -- The last envelope has been enqueued: the thread is done.
      have hrest : rest = [] := by
        by_contra hmore
        exact hphase hr (by rw [hwriting]; exact hmore)
      refine ⟨hqueue, ?_⟩
      intro r' hr'
      rcases List.mem_or_eq_of_mem_set hr' with hold | rfl
      · exact hquiet r' hold
      · rw [hrest]
        exact id

/-- What `recv()` makes of a frame takes the loop out of it, or leaves it there
with a fragment. -/
theorem step_recv {capacity : Nat} {s s' : LoopState} {r : Received}
    (h : step capacity s (.recv r) = some s') :
    (s'.pc ≠ .draining true ∧ s'.pc ≠ .popping true) ∧
      ∀ again, s'.pc = .receiving again → r = .fragment ∧ s'.queue = s.queue ∧
        s'.requests = s.requests := by
  simp only [step] at h
  split at h
  · cases r with
    | fragment =>
        cases h
        exact ⟨by simp, fun _ _ => ⟨rfl, rfl, rfl⟩⟩
    | fails =>
        cases h
        exact ⟨by simp, fun _ hpc => by cases hpc⟩
    | envelope env reaction =>
        cases h
        unfold LoopState.handle
        split <;> exact ⟨by simp, fun _ hpc => by cases hpc⟩
  · cases h

/-- A receive goes on to the next frame exactly when the arrival is a fragment
of a set still open. -/
theorem Arrival.received_eq_fragment_iff (proto : ProtoLib) (now seen : Int) (reaction : Reaction)
    (t : ReassemblyTable) (arrival : Arrival) :
    (arrival.received proto now seen reaction t).1 = .fragment ↔
      arrival.GoesOn proto now seen t := by
  cases arrival with
  | broken => simp [received, GoesOn]
  | skipped => simp [received, GoesOn]
  | frame wire =>
      simp only [received, receivedOf, GoesOn]
      split <;> simp_all

/-- **One safe step** keeps the loop where it can be woken. -/
theorem ParkInv.step {proto : ProtoLib} {capacity : Nat} {s s' : WireState} {e : WireEvent}
    (h : ParkInv s) (hsafe : s.Safe proto e) (hstep : wireStep proto capacity s e = some s') :
    ParkInv s' := by
  cases e with
  | arrive arrival =>
      cases hstep
      have hbegun : s.begun ++ [arrival] ≠ [] := by simp
      exact ⟨fun _ => hbegun, fun _ _ => Or.inl hbegun⟩
  | receive now seen reaction =>
      cases hbegun : s.begun with
      | nil => simp [wireStep, hbegun] at hstep
      | cons arrival begun =>
          simp only [wireStep, hbegun, Option.map_eq_some_iff] at hstep
          obtain ⟨loop, hrecv, rfl⟩ := hstep
          obtain ⟨⟨hdraining, hpopping⟩, hreceiving⟩ := step_recv hrecv
          refine ⟨fun hpc => absurd hpc (not_or.mpr ⟨hdraining, hpopping⟩), ?_⟩
          intro again hpc
          obtain ⟨hfragment, hqueue, hrequests⟩ := hreceiving again hpc
          by_cases hlast : begun = []
          · -- Nothing else has begun to arrive, so the step is safe by its second half.
            subst hlast
            have hgoes := (arrival.received_eq_fragment_iff ..).mp hfragment
            have hsilent := hsafe arrival hbegun hgoes
            exact Or.inr ⟨hqueue.trans hsilent.1, by rw [hrequests]; exact hsilent.2⟩
          · exact Or.inl hlast
  | move e =>
      simp only [wireStep] at hstep
      split at hstep
      · rename_i hadmits
        obtain ⟨loop, hloop, rfl⟩ := Option.map_eq_some_iff.mp hstep
        have hrecv : ∀ r, e ≠ .recv r := by
          intro r he
          rw [he] at hadmits
          cases hadmits
        have hpoll : e = .poll (.ready true) → s.begun ≠ [] := by
          intro he
          rw [he] at hadmits
          simpa [WireState.admits] using hadmits
        obtain ⟨hreadable, hreceiving⟩ := step_towards hloop hrecv
        refine ⟨?_, ?_⟩
        · intro hpc
          rcases hreadable hpc with hbefore | hbefore | he
          · exact h.readable (Or.inl hbefore)
          · exact h.readable (Or.inr hbefore)
          · exact hpoll he
        · intro again hpc
          rcases hreceiving again hpc with hbefore | hbefore | he
          · rcases h.receiving again hbefore with hbegun | hsilent
            · exact Or.inl hbegun
            · exact Or.inr (hsilent.step hbefore hloop hrecv)
          · exact Or.inl (h.readable (Or.inr hbefore))
          · exact Or.inl (hpoll he)
      · cases hstep

/-! ### Whole runs -/

/-- Every step of the run is safe in the state it starts from. -/
def SafeRun (proto : ProtoLib) (capacity : Nat) (start : WireState) (events : List WireEvent) :
    Prop :=
  ∀ early e late s, events = early ++ e :: late →
    run (wireStep proto capacity) start early = some s → s.Safe proto e

/-- The front of a safe run is safe. -/
theorem SafeRun.of_snoc {proto : ProtoLib} {capacity : Nat} {start : WireState}
    {events : List WireEvent} {e : WireEvent} (h : SafeRun proto capacity start (events ++ [e])) :
    SafeRun proto capacity start events := by
  intro early e' late s hsplit hrun
  exact h early e' (late ++ [e]) s (by simp [hsplit]) hrun

/-- A safe step in front of a safe run. -/
theorem SafeRun.cons {proto : ProtoLib} {capacity : Nat} {start s' : WireState} {e : WireEvent}
    {events : List WireEvent} (hstep : wireStep proto capacity start e = some s')
    (hsafe : start.Safe proto e) (h : SafeRun proto capacity s' events) :
    SafeRun proto capacity start (e :: events) := by
  intro early e' late s hsplit hrun
  cases early with
  | nil =>
      cases hsplit
      cases hrun
      exact hsafe
  | cons first early =>
      cases hsplit
      rw [run_cons, hstep] at hrun
      exact h early e' late s rfl hrun

/-- The empty run is safe. -/
theorem SafeRun.nil {proto : ProtoLib} {capacity : Nat} {start : WireState} :
    SafeRun proto capacity start [] := by
  intro early e late s hsplit hrun
  simp at hsplit

/-- The invariant holds after every safe run. -/
theorem run_parkInv {proto : ProtoLib} {capacity : Nat} {start : WireState}
    (hstart : ParkInv start) : ∀ events s, run (wireStep proto capacity) start events = some s →
      SafeRun proto capacity start events → ParkInv s := by
  refine run_induction (fun _ => hstart) ?_
  intro events s e s' hrun h hstep hsafe
  exact (h hsafe.of_snoc).step (hsafe events e [] s rfl hrun) hstep

/-- The loop before its first poll, with whatever the client has buffered. -/
def atStart (reassembly : ReassemblyTable) : WireState := { reassembly := reassembly }

/-- The loop starts within the invariant. -/
theorem parkInv_atStart (reassembly : ReassemblyTable) : ParkInv (atStart reassembly) where
  readable h := by rcases h with h | h <;> cases h
  receiving _ h := by cases h

/-- The loop's part of a run is a run of the loop. -/
theorem run_loop {proto : ProtoLib} {capacity : Nat} {reassembly : ReassemblyTable} :
    ∀ events s, run (wireStep proto capacity) (atStart reassembly) events = some s →
      ∃ moves, run (step capacity) {} moves = some s.loop := by
  refine run_induction ⟨[], rfl⟩ ?_
  intro events s e s' _ hloop hstep
  obtain ⟨moves, hmoves⟩ := hloop
  have hmove : ∀ e' loop, step capacity s.loop e' = some loop →
      ∃ moves, run (step capacity) {} moves = some loop :=
    fun e' loop he' => ⟨moves ++ [e'], by rw [run_snoc, hmoves]; exact he'⟩
  cases e with
  | arrive arrival =>
      cases hstep
      exact ⟨moves, hmoves⟩
  | receive now seen reaction =>
      cases hbegun : s.begun with
      | nil => simp [wireStep, hbegun] at hstep
      | cons arrival begun =>
          simp only [wireStep, hbegun, Option.map_eq_some_iff] at hstep
          obtain ⟨loop, hrecv, rfl⟩ := hstep
          exact hmove _ loop hrecv
  | move e =>
      simp only [wireStep] at hstep
      split at hstep
      · obtain ⟨loop, hloop, rfl⟩ := Option.map_eq_some_iff.mp hstep
        exact hmove e loop hloop
      · cases hstep

/-- Where every step was safe, the poll the loop sleeps in has a byte in its wake
pipe, or gets one. -/
theorem SafeRun.woken {proto : ProtoLib} {capacity : Nat} (hcapacity : 1 ≤ capacity)
    {reassembly : ReassemblyTable} {events : List WireEvent} {s : WireState}
    (hsafe : SafeRun proto capacity (atStart reassembly) events)
    (hrun : run (wireStep proto capacity) (atStart reassembly) events = some s)
    (hawaits : s.AwaitsFirstByte) (hqueue : s.loop.queue ≠ []) :
    0 < s.loop.wake ∨ ∃ (k : Nat) (r : Request), s.loop.requests[k]? = some r ∧ r.Signalling := by
  have hpoll := (run_parkInv (parkInv_atStart reassembly) events s hrun hsafe).wakeable hawaits
    hqueue
  obtain ⟨moves, hmoves⟩ := run_loop events s hrun
  rcases run_attended hcapacity moves s.loop hmoves with h | h | ⟨socket, h⟩ | h
  · exact absurd h hqueue
  · exact Or.inl h
  · rcases h with h | h <;> simp [hpoll] at h
  · exact Or.inr h

/-! ### What an unsafe step leads to -/

/-- The step is one of a handler thread. -/
def LoopEvent.OfHandler : LoopEvent → Prop
  | .begin _ => True
  | .finish _ _ => True
  | .enqueue _ => True
  | .signal _ => True
  | _ => False

/-- Handler threads alone can bring a reply into the queue. -/
def LoopState.CanPush (capacity : Nat) (s : LoopState) : Prop :=
  ∃ events s', (∀ e ∈ events, e.OfHandler) ∧ run (step capacity) s events = some s' ∧
    s'.pc = s.pc ∧ s'.queue ≠ []

/-- If a handler can push after another handler's step, one can push before it. -/
theorem LoopState.CanPush.of_step {capacity : Nat} {s s' : LoopState} {e : LoopEvent}
    (h : s'.CanPush capacity) (hstep : step capacity s e = some s') (he : e.OfHandler)
    (hpc : s'.pc = s.pc) : s.CanPush capacity := by
  obtain ⟨events, s'', hevents, hrun, hpc', hqueue⟩ := h
  refine ⟨e :: events, s'', List.forall_mem_cons.mpr ⟨he, hevents⟩, ?_, hpc'.trans hpc, hqueue⟩
  rw [run_cons, hstep]
  exact hrun

/-- A thread about to enqueue does so. -/
theorem canPush_of_pushing {capacity : Nat} {s : LoopState} {k : Nat} {r : Request} {env : Envelope}
    {rest : List Envelope} (hr : s.requests[k]? = some r)
    (hphase : r.phase = .pushing (env :: rest)) :
    s.CanPush capacity := by
  refine ⟨[.enqueue k], { s with
    queue := s.queue ++ [(k, env)]
    requests := s.setRequest k { r with phase := .writing rest } }, ?_, ?_, rfl, by simp⟩
  · simp [LoopEvent.OfHandler]
  · simp [step, hr, hphase]

/-- The request that was set is found. -/
theorem getElem?_setRequest {s : LoopState} {k : Nat} {r : Request} (hr : s.requests[k]? = some r)
    (r' : Request) : (s.setRequest k r')[k]? = some r' := by
  obtain ⟨hk, -⟩ := List.getElem?_eq_some_iff.mp hr
  simp [LoopState.setRequest, hk]

/-- A running handler may return one envelope. -/
theorem canPush_of_running {capacity : Nat} {s : LoopState} {k : Nat} {r : Request}
    (hr : s.requests[k]? = some r) (hphase : r.phase = .running) : s.CanPush capacity := by
  have hstep : step capacity s (.finish k (.ok [{}])) = some { s with
      requests := s.setRequest k { r with
        phase := .pushing [{}]
        verdict := .answered [{}] } } := by
    simp [step, hr, hphase, verdictOf, Verdict.envelopes, Phase.push]
  exact (canPush_of_pushing (getElem?_setRequest hr _) rfl).of_step hstep trivial rfl

/-- In `recv()`, whatever may still be pushed can be pushed. -/
theorem canPush_of_not_silent {capacity : Nat} {s : LoopState} {again : Bool}
    (hpc : s.pc = .receiving again) (h : ¬ s.Silent) : s.CanPush capacity := by
  by_cases hqueue : s.queue = []
  · obtain ⟨r, hmem, hmay⟩ : ∃ r ∈ s.requests, r.phase.MayPush := by
      by_contra hnone
      exact h ⟨hqueue, fun r hr hmay => hnone ⟨r, hr, hmay⟩⟩
    obtain ⟨k, hr⟩ := List.getElem?_of_mem hmem
    cases hphase : r.phase with
    | accepting => simp [hphase, Phase.MayPush] at hmay
    | finished => simp [hphase, Phase.MayPush] at hmay
    | spawned =>
        have hstep : step capacity s (.begin k) = some { s with
            requests := s.setRequest k { r with phase := .running }
            called := s.called ++ [k] } := by
          simp [step, hr, hphase]
        exact (canPush_of_running (getElem?_setRequest hr _) rfl).of_step hstep trivial rfl
    | running => exact canPush_of_running hr hphase
    | pushing rest =>
        cases rest with
        | nil => simp [hphase, Phase.MayPush] at hmay
        | cons env rest => exact canPush_of_pushing hr hphase
    | writing rest =>
        cases rest with
        | nil => simp [hphase, Phase.MayPush] at hmay
        | cons env rest =>
            have hstep : step capacity s (.signal k) = some { s with
                wake := if s.wake < capacity then s.wake + 1 else s.wake
                requests := s.setRequest k { r with phase := .pushing (env :: rest) } } := by
              simp [step, hr, hphase, hpc, Phase.push]
            exact (canPush_of_pushing (getElem?_setRequest hr _) rfl).of_step hstep trivial rfl
  · exact ⟨[], s, by simp, rfl, rfl, hqueue⟩

/-- Handler threads move whatever stands on the socket. -/
theorem run_moves {proto : ProtoLib} {capacity : Nat} (events : List LoopEvent) :
    ∀ (s : WireState) {loop : LoopState}, (∀ e ∈ events, e.OfHandler) →
      run (step capacity) s.loop events = some loop →
      run (wireStep proto capacity) s (events.map .move) = some { s with loop := loop } := by
  induction events with
  | nil =>
      intro s loop _ hrun
      cases hrun
      rfl
  | cons e events ih =>
      intro s loop hevents hrun
      obtain ⟨he, hevents⟩ := List.forall_mem_cons.mp hevents
      rw [run_cons, Option.bind_eq_some_iff] at hrun
      obtain ⟨loop', hstep, hrun⟩ := hrun
      have hadmits : s.admits e = true := by
        cases e <;> first | rfl | exact absurd he id
      have hmove : wireStep proto capacity s (.move e) = some { s with loop := loop' } := by
        simp [wireStep, hadmits, hstep]
      rw [List.map_cons, run_cons, hmove]
      exact ih { s with loop := loop' } hevents hrun

/-- **One unsafe step** leaves the loop in `recv()` with nothing to read and a
reply on its way. -/
theorem parks_of_not_safe {proto : ProtoLib} {capacity : Nat} {s s' : WireState} {e : WireEvent}
    (hstep : wireStep proto capacity s e = some s') (hloose : ¬ s.Safe proto e) :
    ∃ later s'', run (wireStep proto capacity) s' later = some s'' ∧ ¬ s''.Wakeable := by
  cases e with
  | arrive arrival => exact absurd trivial hloose
  | move e => exact absurd trivial hloose
  | receive now seen reaction =>
      simp only [WireState.Safe, not_forall] at hloose
      obtain ⟨arrival, hbegun, hgoes, hnoisy⟩ := hloose
      have hfragment := (arrival.received_eq_fragment_iff proto now seen reaction _).mpr hgoes
      simp only [wireStep, hbegun, hfragment, Option.map_eq_some_iff] at hstep
      obtain ⟨loop, hrecv, rfl⟩ := hstep
      have hloop : loop = { s.loop with pc := .receiving true } := by
        simp only [step] at hrecv
        split at hrecv
        · exact (Option.some.inj hrecv).symm
        · cases hrecv
      have hpc : loop.pc = .receiving true := by rw [hloop]
      have hsilent : ¬ loop.Silent := by
        rw [hloop]
        exact hnoisy
      obtain ⟨events, loop', hevents, hrun, hpc', hqueue⟩ :=
        canPush_of_not_silent hpc hsilent
      refine ⟨events.map .move, _, run_moves events _ hevents hrun, ?_⟩
      intro hwakeable
      have hpoll := hwakeable ⟨rfl, Or.inr ⟨true, hpc'.trans hpc⟩⟩ hqueue
      rw [hpc', hpc] at hpoll
      cases hpoll

end ConcurrentLoop

open ConcurrentLoop in
/-- **Where the loop sleeps.**  In every run in which `recv()` goes on only where
the next frame has begun to arrive, or where no reply is to come, a queued reply
finds the loop in its poll.  After any other step of `recv()` the handler
threads can leave a reply where nothing wakes the loop. -/
theorem sleeps_in_poll_of_safe (proto : ProtoLib) (capacity : Nat) (reassembly : ReassemblyTable)
    (events : List WireEvent) (s : WireState)
    (hrun : run (wireStep proto capacity) (atStart reassembly) events = some s) :
    (SafeRun proto capacity (atStart reassembly) events → s.Wakeable) ∧
      ∀ e s', wireStep proto capacity s e = some s' → ¬ s.Safe proto e →
        ∃ later s'', run (wireStep proto capacity) s' later = some s'' ∧ ¬ s''.Wakeable := by
  refine ⟨?_, fun e s' hstep hloose => parks_of_not_safe hstep hloose⟩
  intro hsafe
  exact (run_parkInv (parkInv_atStart reassembly) events s hrun hsafe).wakeable

namespace ConcurrentLoop

/-- A request for action `ping` under the id `a1`, as protobuf writes it. -/
def pingBytes : Bytes := [0xA2, 0x01, 0x0A, 0x0A, 0x02] ++ ascii "a1" ++ [0x12, 0x04] ++
    ascii "ping"

def pingProto : ProtoLib where
  serialize _ := pingBytes
  parse bytes := if bytes = pingBytes then some (pingRequest "a1") else none

/-- The request arrives, its thread is started and its handler runs. -/
def requestRun : List WireEvent :=
  [.arrive (.frame { payload := pingBytes }), .move (.poll (.ready true)), .receive 0 0 {},
    .move .accept, .move (.begin 0)]

/-- The handler answers. -/
def answerRun : List WireEvent :=
  [.move (.finish 0 (.ok [responseEnvelope (ascii "a1") (.Ok [])])), .move (.enqueue 0),
    .move (.signal 0)]

/-- The request in two fragments on stream 9. -/
def pingFragment (i : Nat) : FrameResult where
  payload := fragmentHeaderBytes 9 i 2 ++ (if i = 0 then pingBytes.take 4 else pingBytes.drop 4)
  flags := flagFragmented

/-- While the handler runs, the first fragment arrives alone. -/
def partRun : List WireEvent :=
  [.arrive (.frame (pingFragment 0)), .move (.poll (.ready true)), .receive 1 1 {}]

/-- While the handler runs, both fragments arrive. -/
def wholeRun : List WireEvent :=
  [.arrive (.frame (pingFragment 0)), .arrive (.frame (pingFragment 1)),
    .move (.poll (.ready true)), .receive 1 1 {}, .receive 1 1 {}, .move .accept]

end ConcurrentLoop

open ConcurrentLoop in
/-- Both fragments are read at once, and the reply to the first request finds the
loop in its poll. -/
theorem sleeps_in_poll_of_safe_whole :
    ∃ s, run (wireStep pingProto 16) (atStart ∅) (requestRun ++ wholeRun ++ answerRun) = some s ∧
      s.AwaitsFirstByte ∧ s.loop.queue ≠ [] ∧ s.loop.requests.length = 2 ∧ s.Wakeable := by
  have hsafe : SafeRun pingProto 16 (atStart ∅) (requestRun ++ wholeRun ++ answerRun) := by
    refine .cons rfl trivial (.cons rfl trivial (.cons rfl ?_ ?_))
    · intro arrival hbegun hgoes
      cases hbegun
      cases hgoes
    refine .cons rfl trivial (.cons rfl trivial (.cons rfl trivial (.cons rfl trivial
      (.cons rfl trivial (.cons rfl ?_ (.cons rfl ?_ ?_))))))
    · intro arrival hbegun
      cases hbegun
    · intro arrival hbegun hgoes
      cases hbegun
      cases hgoes
    exact .cons rfl trivial (.cons rfl trivial (.cons rfl trivial (.cons rfl trivial .nil)))
  refine ⟨_, rfl, ⟨rfl, Or.inl rfl⟩, by decide, rfl, ?_⟩
  exact (sleeps_in_poll_of_safe pingProto 16 ∅ _ _ rfl).1 hsafe

open ConcurrentLoop in
/-- The first fragment keeps the loop in `recv()`, and the reply stands in the
queue with nothing to read and nobody left to write. -/
theorem reply_behind_fragment_sleeps :
    (∃ s, run (wireStep pingProto 16) (atStart ∅) (requestRun ++ partRun ++ answerRun) = some s ∧
      s.AwaitsFirstByte ∧ s.loop.queue ≠ [] ∧ s.loop.pc = .receiving true ∧
      ∀ r ∈ s.loop.requests, r.phase = .finished) ∧
    ¬ ∀ (proto : ProtoLib) (capacity : Nat) (reassembly : ReassemblyTable)
      (events : List WireEvent) (s : WireState),
      run (wireStep proto capacity) (atStart reassembly) events = some s → s.Wakeable := by
  have hrun : ∃ s, run (wireStep pingProto 16) (atStart ∅) (requestRun ++ partRun ++ answerRun) =
      some s ∧ s.AwaitsFirstByte ∧ s.loop.queue ≠ [] ∧ s.loop.pc = .receiving true ∧
      ∀ r ∈ s.loop.requests, r.phase = .finished :=
    ⟨_, rfl, ⟨rfl, Or.inr ⟨true, rfl⟩⟩, by decide, rfl, by decide⟩
  refine ⟨hrun, ?_⟩
  intro hall
  obtain ⟨s, hrun, hawaits, hqueue, hpc, -⟩ := hrun
  have hpoll := hall pingProto 16 ∅ _ s hrun hawaits hqueue
  rw [hpc] at hpoll
  cases hpoll

end Vynkor
