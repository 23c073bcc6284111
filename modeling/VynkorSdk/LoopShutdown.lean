import VynkorSdk.LoopReplies

/-!
# Shutting the concurrent loop down

On a `PluginShutdown` the loop thread leaves its loop, joins the handler
threads and returns.  Nobody sends after that, while handlers still push: what
they push stays on the channel.  So the replies of a run are all out at its end
exactly if none was outstanding when the shutdown arrived.
-/

namespace Vynkor

open ByteCodec StepMachine

namespace ConcurrentLoop

/-- The connection stays up: no poll and no receive fails. -/
def ConnectionUp (events : List LoopEvent) : Prop :=
  ∀ e ∈ events, e ≠ .poll .failed ∧ e ≠ .recv .fails

/-- Every request has its whole reply sent. -/
def AllSent (s : LoopState) : Prop :=
  ∀ k r, s.requests[k]? = some r → sentFor k s.outbox = r.replies

/-- Nothing is on the channel, and no pusher holds an envelope. -/
def NothingOutstanding (s : LoopState) : Prop :=
  s.queue = [] ∧ ∀ r ∈ s.requests, r.rest = []

/-- The requests that were not decided in `sh` have, in the end, no envelopes
for a reply. -/
def LateSilent (sh s : LoopState) : Prop :=
  ∀ (k : Nat) (r : Request), sh.requests[k]? = some r → r.verdict = .undecided →
    ∃ r' : Request, s.requests[k]? = some r' ∧ r'.replies = []

/-! ### Behind the loop -/

/-- What can still change once the loop thread has left its loop in state
`sh`. -/
structure After (sh s : LoopState) : Prop where
  exited : s.pc.Exited
  outbox_eq : s.outbox = sh.outbox
  length_eq : s.requests.length = sh.requests.length
  settled : Settled sh s

/-- Nothing unsettles itself. -/
theorem Settled.refl (s : LoopState) : Settled s s := fun _ r hr => ⟨r, hr, rfl, fun _ => rfl⟩

/-- What is settled stays settled over two stretches. -/
theorem Settled.trans {s₁ s₂ s₃ : LoopState} (h : Settled s₁ s₂) (h' : Settled s₂ s₃) :
    Settled s₁ s₃ := by
  intro k r hr
  obtain ⟨r₂, hr₂, hreq₂, hverdict₂⟩ := h k r hr
  obtain ⟨r₃, hr₃, hreq₃, hverdict₃⟩ := h' k r₂ hr₂
  refine ⟨r₃, hr₃, hreq₃.trans hreq₂, ?_⟩
  intro hne
  have heq := hverdict₂ hne
  rw [hverdict₃ (by rwa [heq]), heq]

/-- The handler threads go on and nothing is sent. -/
theorem After.step {sh s s' : LoopState} {e : LoopEvent} (h : After sh s) (hinv : LoopInv s)
    (hmove : Moves s e s') : After sh s' := by
  have hsettled := h.settled.trans (hinv.settled hmove)
  have hpc := h.exited
  have hset : ∀ k r, (s.setRequest k r).length = s.requests.length := fun _ _ => List.length_set
  cases hmove with
  | quiet hquiet =>
      obtain ⟨hexited, houtbox⟩ := hquiet.frozen hpc
      exact ⟨hexited, houtbox.trans h.outbox_eq, by rw [hquiet.requests_eq, h.length_eq], hsettled⟩
  | pop hpopping _ => rcases hpc with hpc | hpc <;> simp [hpc] at hpopping
  | receive _ hreceiving _ => rcases hpc with hpc | hpc <;> simp [hpc] at hreceiving
  | accept hdeciding _ => rcases hpc with hpc | hpc <;> simp [hpc] at hdeciding
  | reject _ hdeciding _ => rcases hpc with hpc | hpc <;> simp [hpc] at hdeciding
  | begin _ _ => exact ⟨hpc, h.outbox_eq, (hset _ _).trans h.length_eq, hsettled⟩
  | finish _ _ _ => exact ⟨hpc, h.outbox_eq, (hset _ _).trans h.length_eq, hsettled⟩
  | enqueue _ _ => exact ⟨hpc, h.outbox_eq, (hset _ _).trans h.length_eq, hsettled⟩
  | @signal k r rest wake hr hphase =>
      refine ⟨?_, h.outbox_eq, (hset _ _).trans h.length_eq, hsettled⟩
      have hne : s.pc ≠ .rejecting k := by
        rcases hpc with hpc | hpc <;> simp [hpc]
      dsimp only
      rw [if_neg hne]
      exact hpc

/-- A shutdown only moves the loop thread. -/
theorem step_shutdown {capacity : Nat} {s s' : LoopState} {env : Envelope} {reaction : Reaction}
    (hstep : step capacity s (.recv (.envelope env reaction)) = some s') (henv : IsShutdown env) :
    s' = { s with pc := .joining } := by
  obtain ⟨reason, grace, hpayload⟩ := henv
  unfold step at hstep
  dsimp only at hstep
  split at hstep
  · rw [LoopState.handle, hpayload] at hstep
    exact (Option.some.inj hstep).symm
  · cases hstep

/-- The loop thread leaves by an event that takes it out. -/
theorem Moves.leaves {s s' : LoopState} {e : LoopEvent} (hmove : Moves s e s')
    (hin : ¬ s.pc.Exited) (hout : s'.pc.Exited) : Leaves e := by
  cases hmove with
  | quiet hquiet => exact (hquiet.leaves hout).resolve_left hin
  | pop _ _ => exact absurd hout hin
  | receive _ _ _ => simp [Pc.Exited] at hout
  | accept _ _ => simp [Pc.Exited] at hout
  | reject _ _ _ => simp [Pc.Exited] at hout
  | begin _ _ => exact absurd hout hin
  | finish _ _ _ => exact absurd hout hin
  | enqueue _ _ => exact absurd hout hin
  | signal _ _ _ =>
      dsimp only at hout
      split at hout
      · simp [Pc.Exited] at hout
      · exact absurd hout hin

/-- **Whole runs.**  On a connection that stays up, a loop that has ended was
ended by a shutdown, and from there on nothing was sent. -/
theorem left_by_shutdown {capacity : Nat} : ∀ events s, run (step capacity) {} events = some s →
    ConnectionUp events → s.pc.Exited → ∃ before env reaction after sh,
      events = before ++ .recv (.envelope env reaction) :: after ∧ IsShutdown env ∧
      run (step capacity) {} before = some sh ∧ After sh s := by
  apply run_induction
  · intro _ hexited
    simp [Pc.Exited] at hexited
  · intro events s e s' hrun hind hstep hup hexited
    have hupBefore : ConnectionUp events := fun e he => hup e (List.mem_append_left _ he)
    have hupLast := hup e (List.mem_append_right _ (List.mem_singleton_self e))
    have hmove := Moves.of_step hstep
    by_cases hin : s.pc.Exited
    · obtain ⟨before, env, reaction, after, sh, rfl, henv, hbefore, hafter⟩ := hind hupBefore hin
      exact ⟨before, env, reaction, after ++ [e], sh, by simp, henv, hbefore,
        hafter.step (run_inv _ s hrun) hmove⟩
    · cases hmove.leaves hin hexited with
      | pollFails => exact absurd rfl hupLast.1
      | recvFails => exact absurd rfl hupLast.2
      | @shutdown env henv reaction =>
          obtain rfl := step_shutdown hstep henv
          exact ⟨events, env, reaction, [], s, rfl, henv, hrun, hexited, rfl, rfl,
            .refl s⟩

/-! ### What went out -/

/-- All of a reply is out exactly if nothing of it is on the way. -/
theorem LoopInv.sent_iff {s : LoopState} (h : LoopInv s) {k : Nat} {r : Request}
    (hr : s.requests[k]? = some r) :
    sentFor k s.outbox = r.replies ↔ queuedFor k s.queue = [] ∧ r.rest = [] := by
  rw [← h.accounts k r hr, List.append_assoc]
  constructor
  · intro heq
    have hnil := List.self_eq_append_right.mp heq
    exact List.append_eq_nil_iff.mp hnil
  · intro hnil
    rw [hnil.1, hnil.2]
    simp

/-- A queue that holds nothing for any request is empty. -/
theorem queue_eq_nil_of_queuedFor {s : LoopState} (h : LoopInv s)
    (hnil : ∀ k r, s.requests[k]? = some r → queuedFor k s.queue = []) : s.queue = [] := by
  apply List.eq_nil_iff_forall_not_mem.mpr
  intro entry hmem
  obtain ⟨k, env⟩ := entry
  have hlt := h.queued_lt k env hmem
  have hqueued : env ∈ queuedFor k s.queue :=
    List.mem_filterMap.mpr ⟨(k, env), hmem, by simp⟩
  rw [hnil k _ (List.getElem?_eq_getElem hlt)] at hqueued
  cases hqueued

/-- Behind the shutdown all replies are sent exactly when none was outstanding
and none comes late. -/
theorem After.allSent_iff {sh s : LoopState} (hinv : LoopInv sh) (h : After sh s) :
    AllSent s ↔ NothingOutstanding sh ∧ LateSilent sh s := by
  -- A verdict given before the shutdown still stands, so the reply is the same.
  have hreplies : ∀ {r r' : Request}, r'.req = r.req → r'.verdict = r.verdict →
      r'.replies = r.replies := by
    intro r r' hreq hverdict
    rw [Request.replies, Request.replies, hreq, hverdict]
  constructor
  · intro hall
    have hout : ∀ k r, sh.requests[k]? = some r → queuedFor k sh.queue = [] ∧ r.rest = [] := by
      intro k r hr
      obtain ⟨r', hr', hreq, hverdict⟩ := h.settled k r hr
      have hsent := hall k r' hr'
      rw [h.outbox_eq] at hsent
      apply (hinv.sent_iff hr).mp
      by_cases hundecided : r.verdict = .undecided
      · rw [(hinv.undecided hr hundecided).1, Request.replies, hundecided]
        rfl
      · rw [hsent, hreplies hreq (hverdict hundecided)]
    refine ⟨⟨queue_eq_nil_of_queuedFor hinv (fun k r hr => (hout k r hr).1), ?_⟩, ?_⟩
    · intro r hr
      obtain ⟨k, hk⟩ := List.mem_iff_getElem?.mp hr
      exact (hout k r hk).2
    · intro k r hr hundecided
      obtain ⟨r', hr', _⟩ := h.settled k r hr
      have hsent := hall k r' hr'
      rw [h.outbox_eq, (hinv.undecided hr hundecided).1] at hsent
      exact ⟨r', hr', hsent.symm⟩
  · intro hcond k r' hr'
    obtain ⟨⟨hqueue, hrest⟩, hlate⟩ := hcond
    have hlt : k < sh.requests.length := by
      rw [← h.length_eq]
      exact (List.getElem?_eq_some_iff.mp hr').1
    have hr := List.getElem?_eq_getElem hlt
    obtain ⟨r'', hr'', hreq, hverdict⟩ := h.settled k _ hr
    rw [hr'] at hr''
    cases hr''
    rw [h.outbox_eq]
    by_cases hundecided : sh.requests[k].verdict = .undecided
    · obtain ⟨r'', hr'', hsilent⟩ := hlate k _ hr hundecided
      rw [hr'] at hr''
      cases hr''
      rw [hsilent]
      exact (hinv.undecided hr hundecided).1
    · rw [hreplies hreq (hverdict hundecided)]
      apply (hinv.sent_iff hr).mpr
      exact ⟨by rw [hqueue]; rfl, hrest _ (List.getElem_mem hlt)⟩

end ConcurrentLoop

open ConcurrentLoop in
/-- **Replies at the end.**  On a connection that stays up, when the loop has
returned: a shutdown ended it, and every reply has been sent exactly if at that
moment nothing was on the channel or in a handler's hands and every handler
still to finish returned no envelopes. -/
theorem replies_sent_iff_none_outstanding (capacity : Nat) (events : List LoopEvent)
    (s : LoopState) (hrun : run (step capacity) {} events = some s) (hup : ConnectionUp events)
    (hreturned : s.pc = .returned) :
    ∃ before env reaction after sh, events = before ++ .recv (.envelope env reaction) :: after ∧
      IsShutdown env ∧ run (step capacity) {} before = some sh ∧
      (AllSent s ↔ NothingOutstanding sh ∧ LateSilent sh s) := by
  obtain ⟨before, env, reaction, after, sh, hsplit, henv, hbefore, hafter⟩ :=
    left_by_shutdown events s hrun hup (Or.inr hreturned)
  exact ⟨before, env, reaction, after, sh, hsplit, henv, hbefore,
    hafter.allSent_iff (run_inv before sh hbefore)⟩

namespace ConcurrentLoop

def shutdownEnvelope : Envelope := { payload := some (.pluginShutdown [] 5) }

/-- A request whose reply is out before the shutdown. -/
def promptRun : List LoopEvent :=
  [.poll (.ready true), .recv (.envelope (pingRequest "a1") {}), .accept, .begin 0,
    .finish 0 (.ok [responseEnvelope (ascii "a1") (.Ok [])]), .enqueue 0, .signal 0,
    .poll (.ready true), .drain, .drain, .pop, .pop, .recv (.envelope shutdownEnvelope {}), .join]

/-- The same request, with the shutdown right behind it. -/
def lateRun : List LoopEvent :=
  [.poll (.ready true), .recv (.envelope (pingRequest "a1") {}), .accept, .poll (.ready true),
    .recv (.envelope shutdownEnvelope {}), .begin 0,
    .finish 0 (.ok [responseEnvelope (ascii "a1") (.Ok [])]), .enqueue 0, .signal 0, .join]

end ConcurrentLoop

open ConcurrentLoop in
/-- A run in which the handler has answered before the shutdown. -/
theorem replies_sent_iff_none_outstanding_prompt :
    ∃ s, run (step 16) {} promptRun = some s ∧ s.pc = .returned ∧
      ∃ before env reaction after sh,
        promptRun = before ++ .recv (.envelope env reaction) :: after ∧ IsShutdown env ∧
        run (step 16) {} before = some sh ∧
        (AllSent s ↔ NothingOutstanding sh ∧ LateSilent sh s) := by
  have hran : (run (step 16) {} promptRun).map (·.pc) = some .returned := by decide
  obtain ⟨s, hrun, hpc⟩ := Option.map_eq_some_iff.mp hran
  have hup : ConnectionUp promptRun := by
    unfold ConnectionUp
    decide
  exact ⟨s, hrun, hpc, replies_sent_iff_none_outstanding 16 promptRun s hrun hup hpc⟩

open ConcurrentLoop in
/-- A handler that finishes behind the shutdown: the loop returns and its reply
was never sent. -/
theorem late_reply_not_sent :
    ¬ ∀ (capacity : Nat) (events : List LoopEvent) (s : LoopState),
      run (step capacity) {} events = some s → ConnectionUp events → s.pc = .returned →
      AllSent s := by
  intro hclaim
  have hran : (run (step 16) {} lateRun).map (fun s =>
      (s.pc, s.outbox, s.requests.map (·.replies))) =
      some (.returned, [], [[responseEnvelope (ascii "a1") (.Ok [])]]) := by decide
  obtain ⟨s, hrun, hs⟩ := Option.map_eq_some_iff.mp hran
  simp only [Prod.mk.injEq] at hs
  obtain ⟨hpc, houtbox, hreplies⟩ := hs
  have hup : ConnectionUp lateRun := by
    unfold ConnectionUp
    decide
  have hall := hclaim 16 lateRun s hrun hup hpc
  have hfirst : (s.requests.map (·.replies))[0]? =
      some [responseEnvelope (ascii "a1") (.Ok [])] := by
    rw [hreplies]
    rfl
  rw [List.getElem?_map, Option.map_eq_some_iff] at hfirst
  obtain ⟨r, hr, hreply⟩ := hfirst
  have hsent := hall 0 r hr
  rw [houtbox, hreply] at hsent
  cases hsent

end Vynkor
