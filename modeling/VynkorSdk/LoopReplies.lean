import VynkorSdk.ConcurrentLoop

/-!
# Replies of the concurrent loop

What the loop sends for a request, what is queued for it and what its pusher
still holds are together its reply, in order (`LoopInv.accounts`).  From this
follow the discipline of the channel and, for a run that has ended, which
replies went out: the loop sends nothing once it has seen a `PluginShutdown`,
so a reply that is not out by then is lost.
-/

namespace Vynkor

open ByteCodec StepMachine

namespace ConcurrentLoop

/-! ### What one step can do -/

/-- The loop thread has left its loop. -/
def Pc.Exited (pc : Pc) : Prop := pc = .joining ∨ pc = .returned

/-- The envelope ends the loop. -/
def IsShutdown (env : Envelope) : Prop :=
  ∃ reason grace, env.payload = some (.pluginShutdown reason grace)

/-- The event takes the loop thread out of the loop. -/
inductive Leaves : LoopEvent → Prop
  | pollFails : Leaves (.poll .failed)
  | recvFails : Leaves (.recv .fails)
  | shutdown {env : Envelope} (h : IsShutdown env) (reaction : Reaction) :
      Leaves (.recv (.envelope env reaction))

/-- The request received by the event. -/
def LoopEvent.request? : LoopEvent → Option ActionRequest
  | .recv (.envelope env _) =>
      match env.payload with
      | some (.actionRequest req) => some req
      | _ => none
  | _ => none

/-- How `accept` goes in it: it returns, or throws. -/
def LoopEvent.decision? : LoopEvent → Option (Except (Option Bytes) Unit)
  | .accept => some (.ok ())
  | .reject what => some (.error what)
  | _ => none

/-- The request `on_action` is called for. -/
def LoopEvent.called? : LoopEvent → Option Nat
  | .begin k => some k
  | _ => none

/-- The request whose `on_action` ends, and how. -/
def LoopEvent.finished? : LoopEvent → Option (Nat × Except (Option Bytes) (List Envelope))
  | .finish k outcome => some (k, outcome)
  | _ => none

/-- An event that is none of these. -/
structure Unnoted (e : LoopEvent) : Prop where
  request : e.request? = none
  decision : e.decision? = none
  called : e.called? = none
  finished : e.finished? = none

/-- The steps that touch no request: only the loop thread moves, and it sends
nothing off the channel. -/
structure Quiet (s : LoopState) (e : LoopEvent) (s' : LoopState) : Prop where
  unnoted : Unnoted e
  queue_eq : s'.queue = s.queue
  requests_eq : s'.requests = s.requests
  called_eq : s'.called = s.called
  outbox_eq : ∃ direct : List Envelope,
    s'.outbox = s.outbox ++ direct.map (fun env => (none, env))
  leaves : s'.pc.Exited → s.pc.Exited ∨ Leaves e
  frozen : s.pc.Exited → s'.pc.Exited ∧ s'.outbox = s.outbox
  deciding_eq : ∀ k, s'.pc ≠ .deciding k ∧ s'.pc ≠ .rejecting k
  decided : ∀ k, s.pc ≠ .deciding k

/-- **What one step can do.** -/
inductive Moves (s : LoopState) : LoopEvent → LoopState → Prop
  | quiet {e : LoopEvent} {s' : LoopState} (h : Quiet s e s') : Moves s e s'
  | pop {socket : Bool} {k : Nat} {env : Envelope} {queue : List (Nat × Envelope)}
      (hpc : s.pc = .popping socket) (hqueue : s.queue = (k, env) :: queue) :
      Moves s .pop { s with queue := queue, outbox := s.outbox ++ [(some k, env)] }
  | receive {again : Bool} {env : Envelope} {req : ActionRequest} (reaction : Reaction)
      (hpc : s.pc = .receiving again) (henv : env.payload = some (.actionRequest req)) :
      Moves s (.recv (.envelope env reaction))
        { s with pc := .deciding s.requests.length, requests := s.requests ++ [{ req := req }] }
  | accept {k : Nat} {r : Request} (hpc : s.pc = .deciding k) (hr : s.requests[k]? = some r) :
      Moves s .accept
        { s with pc := .polling, requests := s.setRequest k { r with phase := .spawned } }
  | reject {k : Nat} {r : Request} (what : Option Bytes) (hpc : s.pc = .deciding k)
      (hr : s.requests[k]? = some r) :
      Moves s (.reject what) { s with
        pc := .rejecting k
        requests := s.setRequest k { r with
          phase := .push ((Verdict.rejected what).envelopes r.req.actionId)
          verdict := .rejected what } }
  | begin {k : Nat} {r : Request} (hr : s.requests[k]? = some r) (hphase : r.phase = .spawned) :
      Moves s (.begin k) { s with
        requests := s.setRequest k { r with phase := .running }
        called := s.called ++ [k] }
  | finish {k : Nat} {r : Request} (outcome : Except (Option Bytes) (List Envelope))
      (hr : s.requests[k]? = some r) (hphase : r.phase = .running) :
      Moves s (.finish k outcome) { s with
        requests := s.setRequest k { r with
          phase := .push ((verdictOf outcome).envelopes r.req.actionId)
          verdict := verdictOf outcome } }
  | enqueue {k : Nat} {r : Request} {env : Envelope} {rest : List Envelope}
      (hr : s.requests[k]? = some r) (hphase : r.phase = .pushing (env :: rest)) :
      Moves s (.enqueue k) { s with
        queue := s.queue ++ [(k, env)]
        requests := s.setRequest k { r with phase := .writing rest } }
  | signal {k : Nat} {r : Request} {rest : List Envelope} (wake : Nat)
      (hr : s.requests[k]? = some r) (hphase : r.phase = .writing rest) :
      Moves s (.signal k) { s with
        pc := if s.pc = .rejecting k then .polling else s.pc
        wake := wake
        requests := s.setRequest k { r with phase := .push rest } }

/-- The loop thread moves inside the loop, or leaves it. -/
theorem Quiet.of_pc {s : LoopState} {e : LoopEvent} {pc : Pc} (he : Unnoted e)
    (hstay : ¬ s.pc.Exited ∧ ∀ k, s.pc ≠ .deciding k) (hleaves : pc.Exited → Leaves e)
    (hdeciding : ∀ k, pc ≠ .deciding k ∧ pc ≠ .rejecting k) (wake : Nat) :
    Quiet s e { s with pc := pc, wake := wake } where
  unnoted := he
  queue_eq := rfl
  requests_eq := rfl
  called_eq := rfl
  outbox_eq := ⟨[], by simp⟩
  leaves := fun h => Or.inr (hleaves h)
  frozen := fun h => absurd h hstay.1
  deciding_eq := hdeciding
  decided := hstay.2

/-- The reaction to an envelope that is no `ActionRequest`. -/
theorem Quiet.of_handle {s : LoopState} {again : Bool} (hpc : s.pc = .receiving again)
    {env : Envelope} (reaction : Reaction)
    (henv : ∀ req, env.payload ≠ some (.actionRequest req)) :
    Quiet s (.recv (.envelope env reaction)) (s.handle env reaction) := by
  have hstay : ¬ s.pc.Exited ∧ ∀ k, s.pc ≠ .deciding k := by simp [hpc, Pc.Exited]
  have hunnoted : Unnoted (.recv (.envelope env reaction)) := by
    refine ⟨?_, rfl, rfl, rfl⟩
    simp only [LoopEvent.request?]
  unfold LoopState.handle
  split
  · rename_i reason grace hshutdown
    exact .of_pc hunnoted hstay (fun _ => .shutdown ⟨reason, grace, hshutdown⟩ reaction) (by simp)
      s.wake
  · rename_i req hreq
    exact absurd hreq (henv req)
  · exact ⟨hunnoted, rfl, rfl, rfl, ⟨_, rfl⟩, by simp [Pc.Exited], fun h => absurd h hstay.1,
      by simp, hstay.2⟩

/-- What a poll of the loop can do. -/
theorem Moves.of_poll {capacity : Nat} {s s' : LoopState} {r : Polled}
    (h : step capacity s (.poll r) = some s') : Moves s (.poll r) s' := by
  unfold step at h
  dsimp only at h
  split at h
  · rename_i hpc
    have hstay : ¬ s.pc.Exited ∧ ∀ k, s.pc ≠ .deciding k := by simp [hpc, Pc.Exited]
    cases r with
    | interrupted =>
        cases h
        refine .quiet ⟨⟨rfl, rfl, rfl, rfl⟩, rfl, rfl, rfl, ⟨[], by simp⟩, fun h => Or.inl h,
          fun h => ⟨h, rfl⟩, ?_, hstay.2⟩
        simp [hpc]
    | failed =>
        cases h
        exact .quiet (.of_pc ⟨rfl, rfl, rfl, rfl⟩ hstay (fun _ => .pollFails) (by simp) s.wake)
    | ready socket =>
        dsimp only at h
        split at h
        · cases h
          exact .quiet (.of_pc ⟨rfl, rfl, rfl, rfl⟩ hstay (by simp [Pc.Exited]) (by simp) s.wake)
        · split at h
          · cases h
            exact .quiet (.of_pc ⟨rfl, rfl, rfl, rfl⟩ hstay (by simp [Pc.Exited]) (by simp) s.wake)
          · cases h
  · cases h

/-- What a receive of the loop can do. -/
theorem Moves.of_recv {capacity : Nat} {s s' : LoopState} {r : Received}
    (h : step capacity s (.recv r) = some s') : Moves s (.recv r) s' := by
  unfold step at h
  dsimp only at h
  split at h
  · rename_i again hpc
    have hstay : ¬ s.pc.Exited ∧ ∀ k, s.pc ≠ .deciding k := by simp [hpc, Pc.Exited]
    cases r with
    | fragment =>
        cases h
        exact .quiet (.of_pc ⟨rfl, rfl, rfl, rfl⟩ hstay (by simp [Pc.Exited]) (by simp) s.wake)
    | fails =>
        cases h
        exact .quiet (.of_pc ⟨rfl, rfl, rfl, rfl⟩ hstay (fun _ => .recvFails) (by simp) s.wake)
    | envelope env reaction =>
        have hs' := Option.some.inj h
        by_cases hreq : ∃ req, env.payload = some (.actionRequest req)
        · obtain ⟨req, hreq⟩ := hreq
          have hmove := Moves.receive reaction hpc hreq
          rw [LoopState.handle, hreq] at hs'
          exact hs' ▸ hmove
        · rw [← hs']
          exact .quiet (.of_handle hpc reaction (fun req hreq' => hreq ⟨req, hreq'⟩))
  · cases h

/-- Every step of the machine is one of the moves. -/
theorem Moves.of_step {capacity : Nat} {s s' : LoopState} {e : LoopEvent}
    (h : step capacity s e = some s') : Moves s e s' := by
  cases e with
  | poll r => exact .of_poll h
  | drain =>
      rw [step] at h
      split at h
      · rename_i socket hpc
        have hstay : ¬ s.pc.Exited ∧ ∀ k, s.pc ≠ .deciding k := by simp [hpc, Pc.Exited]
        split at h
        · cases h
          exact .quiet (.of_pc ⟨rfl, rfl, rfl, rfl⟩ hstay (by simp [Pc.Exited]) (by simp) s.wake)
        · cases h
          exact .quiet (.of_pc ⟨rfl, rfl, rfl, rfl⟩ hstay (fun h =>
            absurd h hstay.1) (by simp [hpc]) _)
      · cases h
  | pop =>
      rw [step] at h
      split at h
      · rename_i socket hpc
        have hstay : ¬ s.pc.Exited ∧ ∀ k, s.pc ≠ .deciding k := by simp [hpc, Pc.Exited]
        split at h
        · cases h
          refine .quiet (.of_pc ⟨rfl, rfl, rfl, rfl⟩ hstay ?_ ?_ s.wake)
          · cases socket <;> simp [Pc.Exited]
          · cases socket <;> simp
        · rename_i k env queue hqueue
          cases h
          exact .pop hpc hqueue
      · cases h
  | recv r => exact .of_recv h
  | accept =>
      rw [step] at h
      split at h
      · rename_i k hpc
        split at h
        · rename_i r hr
          cases h
          exact .accept hpc hr
        · cases h
      · cases h
  | reject what =>
      rw [step] at h
      split at h
      · rename_i k hpc
        split at h
        · rename_i r hr
          cases h
          exact .reject what hpc hr
        · cases h
      · cases h
  | begin k =>
      rw [step] at h
      split at h
      · rename_i r hr
        split at h
        · rename_i hphase
          cases h
          exact .begin hr hphase
        · cases h
      · cases h
  | finish k outcome =>
      rw [step] at h
      split at h
      · rename_i r hr
        split at h
        · rename_i hphase
          cases h
          exact .finish outcome hr hphase
        · cases h
      · cases h
  | enqueue k =>
      rw [step] at h
      split at h
      · rename_i r hr
        split at h
        · rename_i env rest hphase
          cases h
          exact .enqueue hr hphase
        · cases h
      · cases h
  | signal k =>
      rw [step] at h
      split at h
      · rename_i r hr
        split at h
        · rename_i rest hphase
          cases h
          exact .signal _ hr hphase
        · cases h
      · cases h
  | join =>
      rw [step] at h
      split at h
      · rename_i hjoin
        cases h
        refine .quiet ⟨⟨rfl, rfl, rfl, rfl⟩, rfl, rfl, rfl, ⟨[], by simp⟩,
          fun _ => Or.inl (Or.inl hjoin.1), fun _ => ⟨Or.inr rfl, rfl⟩, by simp, by simp [hjoin.1]⟩
      · cases h

/-- Only a request opens one. -/
theorem handle_without_request (s : LoopState) {env : Envelope} (reaction : Reaction)
    (hnone : ∀ req, env.payload ≠ some (.actionRequest req)) :
    (s.handle env reaction).requests = s.requests ∧ (s.handle env reaction).queue = s.queue := by
  grind [LoopState.handle]

/-- Without requests only the loop thread moves, and only an envelope makes it
send. -/
theorem step_without_requests {capacity : Nat} {s s' : LoopState} {e : LoopEvent}
    (hstep : step capacity s e = some s') (hrequests : s.requests = []) (hqueue : s.queue = [])
    (henv : ∀ env reaction, e ≠ .recv (.envelope env reaction)) :
    s'.requests = [] ∧ s'.queue = [] ∧ s'.outbox = s.outbox ∧
      (s'.pc.Exited ↔ s.pc.Exited ∨ e = .poll .failed ∨ e = .recv .fails) := by
  revert hstep
  fun_cases step capacity s e <;> grind [Pc.Exited]

/-! ### The account of a reply -/

/-- The envelopes sent off the channel for request `k`. -/
def sentFor (k : Nat) (outbox : List (Option Nat × Envelope)) : List Envelope :=
  outbox.filterMap (fun (origin, env) => if origin = some k then some env else none)

def queuedFor (k : Nat) (queue : List (Nat × Envelope)) : List Envelope :=
  queue.filterMap (fun (j, env) => if j = k then some env else none)

/-- What the pusher has not enqueued yet. -/
def Request.rest (r : Request) : List Envelope :=
  match r.phase with
  | .pushing rest => rest
  | .writing rest => rest
  | _ => []

/-- What is known of request `k` in each phase. -/
def PhaseOk (called : List Nat) (k : Nat) (r : Request) : Prop :=
  match r.phase with
  | .accepting => r.verdict = .undecided ∧ k ∉ called
  | .spawned => r.verdict = .undecided ∧ k ∉ called
  | .running => r.verdict = .undecided
  | _ => r.verdict ≠ .undecided ∧ ∀ what, r.verdict = .rejected what → k ∉ called

/-- A request's phase stays right while its handler is not called again. -/
theorem PhaseOk.mono {called called' : List Nat} {k : Nat} {r : Request} (h : PhaseOk called k r)
    (hnot : k ∉ called → k ∉ called') : PhaseOk called' k r := by
  obtain ⟨req, phase, verdict⟩ := r
  cases phase with
  | accepting => exact ⟨h.1, hnot h.2⟩
  | spawned => exact ⟨h.1, hnot h.2⟩
  | running => exact h
  | pushing rest => exact ⟨h.1, fun what hwhat => hnot (h.2 what hwhat)⟩
  | writing rest => exact ⟨h.1, fun what hwhat => hnot (h.2 what hwhat)⟩
  | finished => exact ⟨h.1, fun what hwhat => hnot (h.2 what hwhat)⟩

structure LoopInv (s : LoopState) : Prop where
  accounts : ∀ k r, s.requests[k]? = some r →
    sentFor k s.outbox ++ queuedFor k s.queue ++ r.rest = r.replies
  sent_lt : ∀ k env, (some k, env) ∈ s.outbox → k < s.requests.length
  queued_lt : ∀ k env, (k, env) ∈ s.queue → k < s.requests.length
  phases : ∀ k r, s.requests[k]? = some r → PhaseOk s.called k r
  called_lt : ∀ k ∈ s.called, k < s.requests.length
  called_nodup : s.called.Nodup
  deciding : ∀ k, s.pc = .deciding k → ∃ r, s.requests[k]? = some r ∧ r.phase = .accepting

/-- The loop that has read nothing satisfies the invariant. -/
theorem LoopInv.initial : LoopInv {} := by
  refine ⟨?_, ?_, ?_, ?_, ?_, ?_, ?_⟩ <;> simp

/-- What the loop sends itself answers no request. -/
theorem sentFor_direct (k : Nat) (outbox : List (Option Nat × Envelope)) (direct : List Envelope) :
    sentFor k (outbox ++ direct.map (fun env => (none, env))) = sentFor k outbox := by
  simp [sentFor]

/-- One more envelope on the outbox is the answer to its own request only. -/
theorem sentFor_snoc (k j : Nat) (outbox : List (Option Nat × Envelope)) (env : Envelope) :
    sentFor k (outbox ++ [(some j, env)]) =
      sentFor k outbox ++ if j = k then [env] else [] := by
  by_cases hj : j = k <;> simp [sentFor, hj]

/-- The front of the queue waits for its own request only. -/
theorem queuedFor_cons (k j : Nat) (env : Envelope) (queue : List (Nat × Envelope)) :
    queuedFor k ((j, env) :: queue) = (if j = k then [env] else []) ++ queuedFor k queue := by
  by_cases hj : j = k <;> simp [queuedFor, hj]

/-- One more envelope in the queue waits for its own request only. -/
theorem queuedFor_snoc (k j : Nat) (env : Envelope) (queue : List (Nat × Envelope)) :
    queuedFor k (queue ++ [(j, env)]) = queuedFor k queue ++ if j = k then [env] else [] := by
  by_cases hj : j = k <;> simp [queuedFor, hj]

/-- Nothing is out or queued for a number that is not in use. -/
theorem LoopInv.unused {s : LoopState} (h : LoopInv s) {k : Nat} (hk : s.requests.length ≤ k) :
    sentFor k s.outbox = [] ∧ queuedFor k s.queue = [] := by
  constructor
  · apply List.filterMap_eq_nil_iff.mpr
    intro a ha
    obtain ⟨origin, env⟩ := a
    by_cases horigin : origin = some k
    · rw [horigin] at ha
      exact absurd (h.sent_lt k env ha) (Nat.not_lt.mpr hk)
    · simp [horigin]
  · apply List.filterMap_eq_nil_iff.mpr
    intro a ha
    obtain ⟨j, env⟩ := a
    by_cases hj : j = k
    · rw [hj] at ha
      exact absurd (h.queued_lt k env ha) (Nat.not_lt.mpr hk)
    · simp [hj]

/-- Nothing is out or queued for a request that is not decided. -/
theorem LoopInv.undecided {s : LoopState} (h : LoopInv s) {k : Nat} {r : Request}
    (hr : s.requests[k]? = some r) (hverdict : r.verdict = .undecided) :
    sentFor k s.outbox = [] ∧ queuedFor k s.queue = [] := by
  have haccount := h.accounts k r hr
  rw [Request.replies, hverdict, Verdict.envelopes, List.append_eq_nil_iff,
    List.append_eq_nil_iff] at haccount
  exact haccount.1

/-- A worker with replies in hand has still to push them all. -/
theorem rest_push (req : ActionRequest) (rest : List Envelope) (verdict : Verdict) :
    (Request.mk req (.push rest) verdict).rest = rest := by
  unfold Phase.push
  split
  · rename_i hnil
    exact hnil.symm
  · rfl

/-- What stays true of the other requests when request `k` moves on. -/
theorem LoopInv.set {s : LoopState} (h : LoopInv s) {k : Nat} {r r' : Request}
    (hr : s.requests[k]? = some r) {pc : Pc} {wake : Nat} {queue : List (Nat × Envelope)}
    {called : List Nat}
    (hqueue : queue = s.queue ∨ ∃ env, queue = s.queue ++ [(k, env)])
    (hcalled : called = s.called ∨ (called = s.called ++ [k] ∧ k ∉ s.called))
    (haccount : sentFor k s.outbox ++ queuedFor k queue ++ r'.rest = r'.replies)
    (hphase : PhaseOk called k r')
    (hpc : ∀ j, pc = .deciding j → s.pc = .deciding j ∧ j ≠ k) :
    LoopInv ⟨pc, queue, wake, s.setRequest k r', s.outbox, called⟩ := by
  have hlength : (s.setRequest k r').length = s.requests.length := List.length_set
  have hk : k < s.requests.length := (List.getElem?_eq_some_iff.mp hr).1
  have hself : (s.setRequest k r')[k]? = some r' := List.getElem?_set_self hk
  have hother : ∀ j, j ≠ k → (s.setRequest k r')[j]? = s.requests[j]? :=
    fun j hj => List.getElem?_set_ne (Ne.symm hj)
  have hqueued : ∀ j, j ≠ k → queuedFor j queue = queuedFor j s.queue := by
    intro j hj
    rcases hqueue with rfl | ⟨env, rfl⟩
    · rfl
    · rw [queuedFor_snoc, if_neg (Ne.symm hj), List.append_nil]
  have hnot : ∀ j, j ≠ k → j ∉ s.called → j ∉ called := by
    intro j hj hmem
    rcases hcalled with rfl | ⟨rfl, _⟩
    · exact hmem
    · simp [hmem, hj]
  refine ⟨?_, ?_, ?_, ?_, ?_, ?_, ?_⟩
  · intro j q hq
    by_cases hj : j = k
    · subst hj
      rw [hself] at hq
      cases hq
      exact haccount
    · rw [hother j hj] at hq
      rw [hqueued j hj]
      exact h.accounts j q hq
  · intro j env hmem
    show j < (s.setRequest k r').length
    rw [hlength]
    exact h.sent_lt j env hmem
  · intro j env hmem
    show j < (s.setRequest k r').length
    rw [hlength]
    rcases hqueue with rfl | ⟨env', rfl⟩
    · exact h.queued_lt j env hmem
    · rcases List.mem_append.mp hmem with hmem | hmem
      · exact h.queued_lt j env hmem
      · cases List.mem_singleton.mp hmem
        exact hk
  · intro j q hq
    by_cases hj : j = k
    · subst hj
      rw [hself] at hq
      cases hq
      exact hphase
    · rw [hother j hj] at hq
      exact (h.phases j q hq).mono (hnot j hj)
  · intro j hj
    show j < (s.setRequest k r').length
    rw [hlength]
    rcases hcalled with rfl | ⟨rfl, _⟩
    · exact h.called_lt j hj
    · rcases List.mem_append.mp hj with hj | hj
      · exact h.called_lt j hj
      · rw [List.mem_singleton.mp hj]
        exact hk
  · rcases hcalled with rfl | ⟨rfl, hnew⟩
    · exact h.called_nodup
    · rw [← List.concat_eq_append]
      exact h.called_nodup.concat hnew
  · intro j hj
    obtain ⟨hold, hne⟩ := hpc j hj
    obtain ⟨q, hq, hq'⟩ := h.deciding j hold
    exact ⟨q, by rw [hother j hne]; exact hq, hq'⟩

/-- A request that has moved on is not the one being decided. -/
theorem LoopInv.deciding_ne {s : LoopState} (h : LoopInv s) {k : Nat} {r : Request}
    (hr : s.requests[k]? = some r) (hphase : r.phase ≠ .accepting) :
    ∀ j, s.pc = .deciding j → s.pc = .deciding j ∧ j ≠ k := by
  intro j hj
  refine ⟨hj, ?_⟩
  intro hjk
  subst hjk
  obtain ⟨r', hr', hphase'⟩ := h.deciding j hj
  rw [hr] at hr'
  cases hr'
  exact hphase hphase'

/-- Nobody was called for a rejected request. -/
theorem PhaseOk.not_called {called : List Nat} {k : Nat} {r : Request} (h : PhaseOk called k r)
    {what : Option Bytes} (hwhat : r.verdict = .rejected what) : k ∉ called := by
  obtain ⟨req, phase, verdict⟩ := r
  cases hwhat
  cases phase with
  | accepting => cases h.1
  | spawned => cases h.1
  | running => cases h
  | pushing rest => exact h.2 what rfl
  | writing rest => exact h.2 what rfl
  | finished => exact h.2 what rfl

/-- A decided request, whatever its pusher still holds. -/
theorem PhaseOk.push {called : List Nat} {k : Nat} {req : ActionRequest} {rest : List Envelope}
    {verdict : Verdict} (hverdict : verdict ≠ .undecided)
    (hcalled : ∀ what, verdict = .rejected what → k ∉ called) :
    PhaseOk called k ⟨req, .push rest, verdict⟩ := by
  unfold Phase.push
  split
  · exact ⟨hverdict, hcalled⟩
  · exact ⟨hverdict, hcalled⟩

/-- What a handler comes back with is a decision, and no rejection. -/
theorem verdictOf_ne (outcome : Except (Option Bytes) (List Envelope)) :
    verdictOf outcome ≠ .undecided ∧ ∀ what, verdictOf outcome ≠ .rejected what := by
  cases outcome <;> simp [verdictOf]

/-- Steps that touch no request. -/
theorem LoopInv.quiet {s s' : LoopState} {e : LoopEvent} (h : LoopInv s) (hquiet : Quiet s e s') :
    LoopInv s' := by
  obtain ⟨direct, hdirect⟩ := hquiet.outbox_eq
  refine ⟨?_, ?_, ?_, ?_, ?_, ?_, ?_⟩
  · rw [hquiet.requests_eq, hquiet.queue_eq, hdirect]
    intro k r hr
    rw [sentFor_direct]
    exact h.accounts k r hr
  · rw [hquiet.requests_eq, hdirect]
    intro k env hmem
    exact h.sent_lt k env (by simpa using hmem)
  · rw [hquiet.requests_eq, hquiet.queue_eq]
    exact h.queued_lt
  · rw [hquiet.requests_eq, hquiet.called_eq]
    exact h.phases
  · rw [hquiet.requests_eq, hquiet.called_eq]
    exact h.called_lt
  · rw [hquiet.called_eq]
    exact h.called_nodup
  · intro k hk
    exact absurd hk (hquiet.deciding_eq k).1

/-- What leaves the queue is sent. -/
theorem LoopInv.pop {s : LoopState} (h : LoopInv s) {k : Nat} {env : Envelope}
    {queue : List (Nat × Envelope)} (hqueue : s.queue = (k, env) :: queue) :
    LoopInv { s with queue := queue, outbox := s.outbox ++ [(some k, env)] } := by
  have hmem : (k, env) ∈ s.queue := by
    rw [hqueue]
    exact List.mem_cons_self
  refine { h with accounts := ?_, sent_lt := ?_, queued_lt := ?_ }
  · intro j r hr
    have haccount := h.accounts j r hr
    rw [hqueue, queuedFor_cons] at haccount
    rw [sentFor_snoc, List.append_assoc _ _ (queuedFor j queue)]
    exact haccount
  · intro j env' hmem'
    rcases List.mem_append.mp hmem' with hmem' | hmem'
    · exact h.sent_lt j env' hmem'
    · cases List.mem_singleton.mp hmem'
      exact h.queued_lt k env hmem
  · intro j env' hmem'
    exact h.queued_lt j env' (by rw [hqueue]; exact List.mem_cons_of_mem _ hmem')

/-- A request takes the next number. -/
theorem LoopInv.receive {s : LoopState} (h : LoopInv s) (req : ActionRequest) :
    LoopInv { s with
      pc := .deciding s.requests.length
      requests := s.requests ++ [{ req := req }] } := by
  have hlength : s.requests.length ≤ (s.requests ++ [({ req := req } : Request)]).length := by
    simp
  refine ⟨?_, ?_, ?_, ?_, ?_, h.called_nodup, ?_⟩
  · intro k r hr
    rcases getElem?_snoc_cases hr with hr | ⟨rfl, rfl⟩
    · exact h.accounts k r hr
    · obtain ⟨hsent, hqueued⟩ := h.unused (Nat.le_refl _)
      rw [hsent, hqueued]
      rfl
  · intro k env hmem
    exact (h.sent_lt k env hmem).trans_le hlength
  · intro k env hmem
    exact (h.queued_lt k env hmem).trans_le hlength
  · intro k r hr
    rcases getElem?_snoc_cases hr with hr | ⟨rfl, rfl⟩
    · exact h.phases k r hr
    · exact ⟨rfl, fun hmem => Nat.lt_irrefl _ (h.called_lt _ hmem)⟩
  · intro k hk
    exact (h.called_lt k hk).trans_le hlength
  · intro k hk
    cases hk
    exact ⟨{ req := req }, by simp, rfl⟩

/-- The request being decided has no verdict, and nobody was called for it. -/
theorem LoopInv.accepting {s : LoopState} (h : LoopInv s) {k : Nat} {r : Request}
    (hpc : s.pc = .deciding k) (hr : s.requests[k]? = some r) :
    r.verdict = .undecided ∧ k ∉ s.called := by
  obtain ⟨r', hr', hphase⟩ := h.deciding k hpc
  rw [hr] at hr'
  cases hr'
  have hok := h.phases k r hr
  rw [PhaseOk, hphase] at hok
  exact hok

/-- **One step** keeps the accounts. -/
theorem LoopInv.step {s s' : LoopState} {e : LoopEvent} (h : LoopInv s) (hmove : Moves s e s') :
    LoopInv s' := by
  cases hmove with
  | quiet hquiet => exact h.quiet hquiet
  | pop _ hqueue => exact h.pop hqueue
  | receive _ _ _ => exact h.receive _
  | @accept k r hpc hr =>
      have hok := h.accepting hpc hr
      obtain ⟨hsent, hqueued⟩ := h.undecided hr hok.1
      refine h.set hr (Or.inl rfl) (Or.inl rfl) ?_ hok (by simp)
      rw [hsent, hqueued, Request.replies, hok.1]
      rfl
  | @reject k r what hpc hr =>
      have hok := h.accepting hpc hr
      obtain ⟨hsent, hqueued⟩ := h.undecided hr hok.1
      refine h.set hr (Or.inl rfl) (Or.inl rfl) ?_ (.push (by simp) (fun _ _ => hok.2)) (by simp)
      rw [hsent, hqueued, rest_push]
      rfl
  | @begin k r hr hphase =>
      have hok := h.phases k r hr
      rw [PhaseOk, hphase] at hok
      obtain ⟨hsent, hqueued⟩ := h.undecided hr hok.1
      refine h.set hr (Or.inl rfl) (Or.inr ⟨rfl, hok.2⟩) ?_ hok.1 ?_
      · rw [hsent, hqueued, Request.replies, hok.1]
        rfl
      · exact h.deciding_ne hr (by simp [hphase])
  | @finish k r outcome hr hphase =>
      have hok := h.phases k r hr
      rw [PhaseOk, hphase] at hok
      obtain ⟨hsent, hqueued⟩ := h.undecided hr hok
      obtain ⟨hdecided, hrejected⟩ := verdictOf_ne outcome
      refine h.set hr (Or.inl rfl) (Or.inl rfl) ?_
        (.push hdecided (fun what hwhat => absurd hwhat (hrejected what))) ?_
      · rw [hsent, hqueued, rest_push]
        rfl
      · exact h.deciding_ne hr (by simp [hphase])
  | @enqueue k r env rest hr hphase =>
      have hok := h.phases k r hr
      rw [PhaseOk, hphase] at hok
      have haccount := h.accounts k r hr
      rw [Request.rest, hphase] at haccount
      refine h.set hr (Or.inr ⟨env, rfl⟩) (Or.inl rfl) ?_ hok ?_
      · rw [queuedFor_snoc, if_pos rfl]
        show _ ++ rest = r.replies
        rw [← haccount]
        simp
      · exact h.deciding_ne hr (by simp [hphase])
  | @signal k r rest wake hr hphase =>
      have hok := h.phases k r hr
      rw [PhaseOk, hphase] at hok
      have haccount := h.accounts k r hr
      rw [Request.rest, hphase] at haccount
      refine h.set hr (Or.inl rfl) (Or.inl rfl) ?_ (.push hok.1 hok.2) ?_
      · rw [rest_push]
        exact haccount
      · intro j hj
        split at hj
        · cases hj
        · exact h.deciding_ne hr (by simp [hphase]) j hj

/-- **Whole runs** keep them. -/
theorem run_inv {capacity : Nat} :
    ∀ events s, run (step capacity) {} events = some s → LoopInv s := by
  refine run_induction LoopInv.initial ?_
  intro events s e s' _ hinv hstep
  exact hinv.step (.of_step hstep)

/-! ### The events of a run -/

/-- The requests of a run, as they were received. -/
def receivedRequests (events : List LoopEvent) : List ActionRequest :=
  events.filterMap LoopEvent.request?

/-- How `accept` went for each of them; it is called before the next is received. -/
def decisions (events : List LoopEvent) : List (Except (Option Bytes) Unit) :=
  events.filterMap LoopEvent.decision?

/-- The requests `on_action` was called for. -/
def handlerCalls (events : List LoopEvent) : List Nat := events.filterMap LoopEvent.called?

/-- How the calls of `on_action` ended, with their requests. -/
def handlerOutcomes (events : List LoopEvent) :
    List (Nat × Except (Option Bytes) (List Envelope)) :=
  events.filterMap LoopEvent.finished?

/-- The state agrees with the events that led to it. -/
structure Ledger (events : List LoopEvent) (s : LoopState) : Prop where
  received_eq : s.requests.map Request.req = receivedRequests events
  called_eq : s.called = handlerCalls events
  deciding_last : ∀ k, s.pc = .deciding k →
    s.requests.length = k + 1 ∧ (decisions events).length = k
  all_decided : (∀ k, s.pc ≠ .deciding k) → (decisions events).length = s.requests.length
  rejected_iff : ∀ (k : Nat) (r : Request) what, s.requests[k]? = some r →
    (r.verdict = .rejected what ↔ (decisions events)[k]? = some (.error what))
  finished_iff : ∀ (k : Nat) (r : Request) outcome, s.requests[k]? = some r →
    (r.verdict = verdictOf outcome ↔ (k, outcome) ∈ handlerOutcomes events)
  finished_lt : ∀ k outcome, (k, outcome) ∈ handlerOutcomes events → k < s.requests.length

/-- Nothing has happened and nothing is on record. -/
theorem Ledger.initial : Ledger [] {} := by
  refine ⟨rfl, rfl, ?_, ?_, ?_, ?_, ?_⟩ <;> simp [decisions, handlerOutcomes]

/-- One more event adds the request it brings, if any. -/
theorem receivedRequests_snoc (events : List LoopEvent) (e : LoopEvent) :
    receivedRequests (events ++ [e]) = receivedRequests events ++ e.request?.toList := by
  cases he : e.request? <;> simp [receivedRequests, he]

/-- One more event adds the decision it makes, if any. -/
theorem decisions_snoc (events : List LoopEvent) (e : LoopEvent) :
    decisions (events ++ [e]) = decisions events ++ e.decision?.toList := by
  cases he : e.decision? <;> simp [decisions, he]

/-- One more event adds the handler call it makes, if any. -/
theorem handlerCalls_snoc (events : List LoopEvent) (e : LoopEvent) :
    handlerCalls (events ++ [e]) = handlerCalls events ++ e.called?.toList := by
  cases he : e.called? <;> simp [handlerCalls, he]

/-- One more event adds the handler outcome it brings, if any. -/
theorem handlerOutcomes_snoc (events : List LoopEvent) (e : LoopEvent) :
    handlerOutcomes (events ++ [e]) = handlerOutcomes events ++ e.finished?.toList := by
  cases he : e.finished? <;> simp [handlerOutcomes, he]

/-- The verdict on a request tells what its handler came back with. -/
theorem verdictOf_injective {a b : Except (Option Bytes) (List Envelope)}
    (h : verdictOf a = verdictOf b) : a = b := by
  cases a <;> cases b <;> simp_all [verdictOf]

/-- A request whose verdict stands: only its thread moves. -/
theorem Ledger.move {events : List LoopEvent} {s s' : LoopState} {e : LoopEvent}
    (h : Ledger events s) (hrequest : e.request? = none) (hdecision : e.decision? = none)
    (hfinished : e.finished? = none) (hcalled : s'.called = s.called ++ e.called?.toList)
    (hpc : ∀ k, s'.pc = .deciding k ↔ s.pc = .deciding k)
    (hsame : s'.requests.map (fun r => (r.req, r.verdict)) =
      s.requests.map (fun r => (r.req, r.verdict))) : Ledger (events ++ [e]) s' := by
  have hlength : s'.requests.length = s.requests.length := by
    simpa using congrArg List.length hsame
  have hold : ∀ (k : Nat) (r' : Request), s'.requests[k]? = some r' →
      ∃ r : Request, s.requests[k]? = some r ∧ r.verdict = r'.verdict := by
    intro k r' hr'
    have hget := congrArg (fun l => l[k]?) hsame
    simp only [List.getElem?_map, hr', Option.map_some] at hget
    obtain ⟨r, hr, heq⟩ := Option.map_eq_some_iff.mp hget.symm
    exact ⟨r, hr, congrArg Prod.snd heq⟩
  have hmap : s'.requests.map Request.req = s.requests.map Request.req := by
    simpa [Function.comp_def] using congrArg (List.map Prod.fst) hsame
  constructor
  · rw [receivedRequests_snoc, hrequest, hmap, h.received_eq]
    simp
  · rw [handlerCalls_snoc, hcalled, h.called_eq]
  · intro k hk
    rw [decisions_snoc, hdecision, hlength]
    simpa using h.deciding_last k ((hpc k).mp hk)
  · intro hnone
    rw [decisions_snoc, hdecision, hlength]
    simpa using h.all_decided (fun k hk => hnone k ((hpc k).mpr hk))
  · intro k r' what hr'
    obtain ⟨r, hr, hverdict⟩ := hold k r' hr'
    rw [decisions_snoc, hdecision, ← hverdict]
    simpa using h.rejected_iff k r what hr
  · intro k r' outcome hr'
    obtain ⟨r, hr, hverdict⟩ := hold k r' hr'
    rw [handlerOutcomes_snoc, hfinished, ← hverdict]
    simpa using h.finished_iff k r outcome hr
  · intro k outcome hmem
    rw [handlerOutcomes_snoc, hfinished] at hmem
    rw [hlength]
    exact h.finished_lt k outcome (by simpa using hmem)

/-- What a request keeps when it is set is kept by all. -/
theorem map_setRequest {β : Type} {s : LoopState} {k : Nat} {r r' : Request} (f : Request → β)
    (hr : s.requests[k]? = some r) (hsame : f r' = f r) :
    (s.setRequest k r').map f = s.requests.map f := by
  obtain ⟨hk, rfl⟩ := List.getElem?_eq_some_iff.mp hr
  rw [LoopState.setRequest, List.map_set, hsame, ← List.map_set, List.set_getElem_self]

/-! ### The discipline of the channel -/

/-- A single `ACTION_ERROR` for the action. -/
def errorReply (actionId text : Bytes) : List Envelope :=
  [{ payload := some (.actionResponse { actionId := actionId, status := .error, error := text }) }]

/-- The reply to request `k`, by what its callbacks did in the run: one error if
`accept` threw, one error if `on_action` threw, else what `on_action` returned. -/
inductive ReplyTo (events : List LoopEvent) (k : Nat) (req : ActionRequest) : List Envelope → Prop
  | acceptThrew {what : Option Bytes} (h : (decisions events)[k]? = some (.error what)) :
      ReplyTo events k req (errorReply req.actionId (rejectText what))
  | handlerThrew {what : Option Bytes} (h : (k, .error what) ∈ handlerOutcomes events) :
      ReplyTo events k req (errorReply req.actionId (panicText what))
  | returned {envelopes : List Envelope} (h : (k, .ok envelopes) ∈ handlerOutcomes events) :
      ReplyTo events k req envelopes

/-- What the loop has sent off the channel, and whom it has called, in terms of
what happened in the run. -/
structure ReplyDiscipline (events : List LoopEvent) (s : LoopState) : Prop where
  /-- For each request nothing, or a front of its reply. -/
  sent_front : ∀ k req, (receivedRequests events)[k]? = some req → sentFor k s.outbox = [] ∨
    ∃ reply, ReplyTo events k req reply ∧ sentFor k s.outbox <+: reply
  /-- And it has one only. -/
  one_reply : ∀ k req reply reply', (receivedRequests events)[k]? = some req →
    ReplyTo events k req reply → ReplyTo events k req reply' → reply = reply'
  /-- Nothing else is sent. -/
  sent_received : ∀ k env, (some k, env) ∈ s.outbox → k < (receivedRequests events).length
  called_once : (handlerCalls events).Nodup
  called_received : ∀ k ∈ handlerCalls events, k < (receivedRequests events).length
  rejected_not_called : ∀ k what, (decisions events)[k]? = some (.error what) →
    k ∉ handlerCalls events

/-- Requests stay, and so do verdicts. -/
def Settled (s s' : LoopState) : Prop :=
  ∀ (k : Nat) (r : Request), s.requests[k]? = some r →
    ∃ r' : Request, s'.requests[k]? = some r' ∧ r'.req = r.req ∧
      (r.verdict ≠ .undecided → r'.verdict = r.verdict)

/-- A request is received. -/
theorem Ledger.receive {events : List LoopEvent} {s : LoopState} (h : Ledger events s)
    {e : LoopEvent} {req : ActionRequest} (hpc : ∀ k, s.pc ≠ .deciding k)
    (hrequest : e.request? = some req) (hdecision : e.decision? = none) (hcalled : e.called? = none)
    (hfinished : e.finished? = none) : Ledger (events ++ [e])
      { s with pc := .deciding s.requests.length, requests := s.requests ++ [{ req := req }] } := by
  have hdecisions : decisions (events ++ [e]) = decisions events := by
    simp [decisions_snoc, hdecision]
  have houtcomes : handlerOutcomes (events ++ [e]) = handlerOutcomes events := by
    simp [handlerOutcomes_snoc, hfinished]
  have hall := h.all_decided hpc
  constructor
  · rw [receivedRequests_snoc, hrequest, ← h.received_eq]
    simp
  · rw [handlerCalls_snoc, hcalled, ← h.called_eq]
    simp
  · intro k hk
    cases hk
    rw [hdecisions]
    exact ⟨by simp, hall⟩
  · intro hnone
    exact absurd rfl (hnone s.requests.length)
  · intro k r what hr
    rw [hdecisions]
    rcases getElem?_snoc_cases hr with hr | ⟨rfl, rfl⟩
    · exact h.rejected_iff k r what hr
    · rw [← hall, List.getElem?_eq_none (Nat.le_refl _)]
      exact iff_of_false nofun nofun
  · intro k r outcome hr
    rw [houtcomes]
    rcases getElem?_snoc_cases hr with hr | ⟨rfl, rfl⟩
    · exact h.finished_iff k r outcome hr
    · refine iff_of_false (fun heq => (verdictOf_ne outcome).1 heq.symm) ?_
      intro hmem
      exact Nat.lt_irrefl _ (h.finished_lt _ _ hmem)
  · intro k outcome hmem
    rw [houtcomes] at hmem
    exact (h.finished_lt k outcome hmem).trans_le (by simp)

/-- `accept` returns or throws: the request being decided is the last. -/
theorem Ledger.decide {events : List LoopEvent} {s : LoopState} (h : Ledger events s)
    {e : LoopEvent} {k : Nat} {r r' : Request} {pc : Pc} {decision : Except (Option Bytes) Unit}
    (hpc : s.pc = .deciding k) (hr : s.requests[k]? = some r) (hundecided : r.verdict = .undecided)
    (hpc' : ∀ j, pc ≠ .deciding j) (hreq : r'.req = r.req)
    (hrejected : ∀ what, r'.verdict = .rejected what ↔ decision = .error what)
    (hanswered : ∀ outcome, r'.verdict ≠ verdictOf outcome)
    (hrequest : e.request? = none) (hdecision : e.decision? = some decision)
    (hcalled : e.called? = none) (hfinished : e.finished? = none) :
    Ledger (events ++ [e]) { s with pc := pc, requests := s.setRequest k r' } := by
  obtain ⟨hlast, hcount⟩ := h.deciding_last k hpc
  have hlength : (s.setRequest k r').length = s.requests.length := List.length_set
  have hdecisions : decisions (events ++ [e]) = decisions events ++ [decision] := by
    simp [decisions_snoc, hdecision]
  have houtcomes : handlerOutcomes (events ++ [e]) = handlerOutcomes events := by
    simp [handlerOutcomes_snoc, hfinished]
  have hunfinished : ∀ outcome, (k, outcome) ∉ handlerOutcomes events := by
    intro outcome hmem
    have hverdict := (h.finished_iff k r outcome hr).mpr hmem
    exact (verdictOf_ne outcome).1 (hverdict.symm.trans hundecided)
  constructor
  · rw [receivedRequests_snoc, hrequest, ← h.received_eq]
    simpa using map_setRequest Request.req hr hreq
  · rw [handlerCalls_snoc, hcalled, ← h.called_eq]
    simp
  · intro j hj
    exact absurd hj (hpc' j)
  · intro _
    rw [hdecisions, hlength]
    simp [hlast, hcount]
  · intro j q what hq
    rw [hdecisions]
    by_cases hj : j = k
    · subst hj
      obtain rfl : r' = q := by
        simpa [LoopState.setRequest, (List.getElem?_eq_some_iff.mp hr).1] using hq
      rw [hrejected, ← hcount, List.getElem?_concat_length]
      exact Option.some_inj.symm
    · have hq : s.requests[j]? = some q := by
        rwa [LoopState.setRequest, List.getElem?_set_ne (Ne.symm hj)] at hq
      have hlt : j < (decisions events).length := by
        have := (List.getElem?_eq_some_iff.mp hq).1
        omega
      rw [List.getElem?_append_left hlt]
      exact h.rejected_iff j q what hq
  · intro j q outcome hq
    rw [houtcomes]
    by_cases hj : j = k
    · subst hj
      obtain rfl : r' = q := by
        simpa [LoopState.setRequest, (List.getElem?_eq_some_iff.mp hr).1] using hq
      exact iff_of_false (hanswered outcome) (hunfinished outcome)
    · have hq : s.requests[j]? = some q := by
        rwa [LoopState.setRequest, List.getElem?_set_ne (Ne.symm hj)] at hq
      exact h.finished_iff j q outcome hq
  · intro j outcome hmem
    rw [houtcomes] at hmem
    exact (h.finished_lt j outcome hmem).trans_eq hlength.symm

/-- `on_action` returns or throws. -/
theorem Ledger.finish {events : List LoopEvent} {s : LoopState} (h : Ledger events s) {k : Nat}
    {r : Request} {phase : Phase} {outcome : Except (Option Bytes) (List Envelope)}
    (hr : s.requests[k]? = some r) (hundecided : r.verdict = .undecided) :
    Ledger (events ++ [.finish k outcome]) { s with
      requests := s.setRequest k { r with phase := phase, verdict := verdictOf outcome } } := by
  have hlength : (s.setRequest k { r with phase := phase, verdict := verdictOf outcome }).length =
      s.requests.length := List.length_set
  have hdecisions : decisions (events ++ [.finish k outcome]) = decisions events := by
    simp [decisions_snoc, LoopEvent.decision?]
  have houtcomes : handlerOutcomes (events ++ [.finish k outcome]) =
      handlerOutcomes events ++ [(k, outcome)] := by
    simp [handlerOutcomes_snoc, LoopEvent.finished?]
  constructor
  · rw [receivedRequests_snoc, ← h.received_eq]
    exact (@map_setRequest _ s k r ⟨r.req, phase, verdictOf outcome⟩ Request.req hr rfl).trans
      (List.append_nil _).symm
  · rw [handlerCalls_snoc, ← h.called_eq]
    simp [LoopEvent.called?]
  · intro j hj
    rw [hdecisions, hlength]
    exact h.deciding_last j hj
  · intro hnone
    rw [hdecisions, hlength]
    exact h.all_decided hnone
  · intro j q what hq
    rw [hdecisions]
    by_cases hj : j = k
    · subst hj
      obtain rfl : ({ r with phase := phase, verdict := verdictOf outcome } : Request) = q := by
        simpa [LoopState.setRequest, (List.getElem?_eq_some_iff.mp hr).1] using hq
      rw [← h.rejected_iff j r what hr, hundecided]
      exact iff_of_false ((verdictOf_ne outcome).2 what) nofun
    · have hq : s.requests[j]? = some q := by
        rwa [LoopState.setRequest, List.getElem?_set_ne (Ne.symm hj)] at hq
      exact h.rejected_iff j q what hq
  · intro j q other hq
    rw [houtcomes, List.mem_append, List.mem_singleton]
    by_cases hj : j = k
    · subst hj
      obtain rfl : ({ r with phase := phase, verdict := verdictOf outcome } : Request) = q := by
        simpa [LoopState.setRequest, (List.getElem?_eq_some_iff.mp hr).1] using hq
      rw [← h.finished_iff j r other hr, hundecided]
      constructor
      · intro heq
        exact Or.inr (by rw [verdictOf_injective heq])
      · intro hcase
        rcases hcase with heq | heq
        · exact absurd heq.symm (verdictOf_ne other).1
        · cases heq
          rfl
    · have hq : s.requests[j]? = some q := by
        rwa [LoopState.setRequest, List.getElem?_set_ne (Ne.symm hj)] at hq
      rw [h.finished_iff j q other hq]
      simp [hj]
  · intro j other hmem
    rw [houtcomes, List.mem_append, List.mem_singleton] at hmem
    rw [hlength]
    rcases hmem with hmem | heq
    · exact h.finished_lt j other hmem
    · cases heq
      exact (List.getElem?_eq_some_iff.mp hr).1

/-- **One step** keeps the ledger. -/
theorem Ledger.step {events : List LoopEvent} {s s' : LoopState} {e : LoopEvent}
    (h : Ledger events s) (hinv : LoopInv s) (hmove : Moves s e s') :
      Ledger (events ++ [e]) s' := by
  cases hmove with
  | quiet hquiet =>
      refine h.move hquiet.unnoted.request hquiet.unnoted.decision hquiet.unnoted.finished ?_ ?_ ?_
      · rw [hquiet.called_eq, hquiet.unnoted.called]
        simp
      · intro k
        exact iff_of_false (hquiet.deciding_eq k).1 (hquiet.decided k)
      · rw [hquiet.requests_eq]
  | pop _ _ => exact h.move rfl rfl rfl (by simp [LoopEvent.called?]) (fun _ => Iff.rfl) rfl
  | @receive again env req reaction hpc henv =>
      have hevent : LoopEvent.request? (.recv (.envelope env reaction)) = some req := by
        simp only [LoopEvent.request?, henv]
      exact h.receive (by simp [hpc]) hevent rfl rfl rfl
  | @accept k r hpc hr =>
      have hverdict := (hinv.accepting hpc hr).1
      exact h.decide hpc hr hverdict (by simp) rfl (by simp [hverdict])
        (fun outcome heq => (verdictOf_ne outcome).1 (heq.symm.trans hverdict)) rfl rfl rfl rfl
  | @reject k r what hpc hr =>
      exact h.decide hpc hr (hinv.accepting hpc hr).1 (by simp) rfl (by simp)
        (fun outcome heq => (verdictOf_ne outcome).2 what heq.symm) rfl rfl rfl rfl
  | @begin k r hr hphase =>
      exact h.move rfl rfl rfl rfl (fun _ => Iff.rfl) (map_setRequest _ hr rfl)
  | @finish k r outcome hr hphase =>
      have hok := hinv.phases k r hr
      rw [PhaseOk, hphase] at hok
      exact h.finish hr hok
  | @enqueue k r env rest hr hphase =>
      exact h.move rfl rfl rfl (by simp [LoopEvent.called?]) (fun _ => Iff.rfl)
        (map_setRequest _ hr rfl)
  | @signal k r rest wake hr hphase =>
      refine h.move rfl rfl rfl (by simp [LoopEvent.called?]) ?_ (map_setRequest _ hr rfl)
      intro j
      dsimp only
      split
      · rename_i hpc
        simp [hpc]
      · exact Iff.rfl

/-- **Whole runs** keep the accounts and the ledger. -/
theorem run_ledger {capacity : Nat} : ∀ events s, run (ConcurrentLoop.step capacity) {} events =
    some s → LoopInv s ∧ Ledger events s := by
  refine run_induction ⟨.initial, .initial⟩ ?_
  intro events s e s' _ hinv hstep
  exact ⟨hinv.1.step (.of_step hstep), hinv.2.step hinv.1 (.of_step hstep)⟩

/-- The verdict of a request is what its reply goes by. -/
theorem Ledger.replyTo {events : List LoopEvent} {s : LoopState} (h : Ledger events s) {k : Nat}
    {r : Request} (hr : s.requests[k]? = some r) (hdecided : r.verdict ≠ .undecided) :
    ReplyTo events k r.req r.replies := by
  have hrejected := fun what => (h.rejected_iff k r what hr).mp
  have hfinished := fun outcome => (h.finished_iff k r outcome hr).mp
  obtain ⟨req, phase, verdict⟩ := r
  cases verdict with
  | undecided => exact absurd rfl hdecided
  | rejected what => exact .acceptThrew (hrejected what rfl)
  | panicked what => exact .handlerThrew (hfinished (.error what) rfl)
  | answered envelopes => exact .returned (hfinished (.ok envelopes) rfl)

/-- Nothing else is its reply. -/
theorem Ledger.replyTo_unique {events : List LoopEvent} {s : LoopState} (h : Ledger events s)
    {k : Nat} {r : Request} (hr : s.requests[k]? = some r) {reply : List Envelope}
    (hreply : ReplyTo events k r.req reply) : reply = r.replies := by
  cases hreply with
  | acceptThrew hthrew =>
      rw [Request.replies, (h.rejected_iff k r _ hr).mpr hthrew]
      rfl
  | handlerThrew hthrew =>
      rw [Request.replies, (h.finished_iff k r _ hr).mpr hthrew]
      rfl
  | returned hreturned =>
      rw [Request.replies, (h.finished_iff k r _ hr).mpr hreturned]
      rfl

/-- **The reply discipline.**  The invariant and the ledger of the events together give it. -/
theorem LoopInv.discipline {events : List LoopEvent} {s : LoopState} (h : LoopInv s)
    (hledger : Ledger events s) : ReplyDiscipline events s := by
  have hrequest : ∀ (k : Nat) (req : ActionRequest), (receivedRequests events)[k]? = some req →
      ∃ r : Request, s.requests[k]? = some r ∧ r.req = req := by
    intro k req hreq
    rw [← hledger.received_eq, List.getElem?_map] at hreq
    exact Option.map_eq_some_iff.mp hreq
  have hlength : (receivedRequests events).length = s.requests.length := by
    rw [← hledger.received_eq, List.length_map]
  constructor
  · intro k req hreq
    obtain ⟨r, hr, rfl⟩ := hrequest k req hreq
    by_cases hverdict : r.verdict = .undecided
    · exact Or.inl (h.undecided hr hverdict).1
    · refine Or.inr ⟨r.replies, hledger.replyTo hr hverdict, queuedFor k s.queue ++ r.rest, ?_⟩
      rw [← h.accounts k r hr, List.append_assoc]
  · intro k req reply reply' hreq hreply hreply'
    obtain ⟨r, hr, rfl⟩ := hrequest k req hreq
    exact (hledger.replyTo_unique hr hreply).trans (hledger.replyTo_unique hr hreply').symm
  · intro k env hmem
    exact hlength ▸ h.sent_lt k env hmem
  · exact hledger.called_eq ▸ h.called_nodup
  · intro k hk
    exact hlength ▸ h.called_lt k (hledger.called_eq ▸ hk)
  · intro k what hthrew
    have hk : k < s.requests.length := by
      have hlt := (List.getElem?_eq_some_iff.mp hthrew).1
      by_cases hpc : ∃ j, s.pc = .deciding j
      · obtain ⟨j, hpc⟩ := hpc
        have := hledger.deciding_last j hpc
        omega
      · exact hledger.all_decided (not_exists.mp hpc) ▸ hlt
    obtain ⟨r, hr⟩ : ∃ r, s.requests[k]? = some r := ⟨_, List.getElem?_eq_getElem hk⟩
    rw [← hledger.called_eq]
    exact (h.phases k r hr).not_called ((hledger.rejected_iff k r what hr).mpr hthrew)

/-- Changing one request, and no verdict that is decided, keeps what is settled. -/
theorem Settled.set {s s' : LoopState} {k : Nat} {r r' : Request} (hr : s.requests[k]? = some r)
    (hs' : s'.requests = s.setRequest k r') (hreq : r'.req = r.req)
    (hverdict : r.verdict ≠ .undecided → r'.verdict = r.verdict) : Settled s s' := by
  intro j q hq
  rw [hs']
  by_cases hj : j = k
  · subst hj
    rw [hr] at hq
    cases hq
    exact ⟨r', List.getElem?_set_self (List.getElem?_eq_some_iff.mp hr).1, hreq, hverdict⟩
  · exact ⟨q, by rw [LoopState.setRequest, List.getElem?_set_ne (Ne.symm hj), hq], rfl,
      fun _ => rfl⟩

/-- One move leaves every decided request's verdict as it is. -/
theorem LoopInv.settled {s s' : LoopState} {e : LoopEvent} (h : LoopInv s)
    (hmove : Moves s e s') : Settled s s' := by
  cases hmove with
  | quiet hquiet =>
      intro k r hr
      exact ⟨r, by rw [hquiet.requests_eq, hr], rfl, fun _ => rfl⟩
  | pop _ _ =>
      intro k r hr
      exact ⟨r, hr, rfl, fun _ => rfl⟩
  | receive _ _ _ =>
      intro k r hr
      exact ⟨r, by rw [List.getElem?_append_left (List.getElem?_eq_some_iff.mp hr).1, hr], rfl,
        fun _ => rfl⟩
  | accept _ hr => exact .set hr rfl rfl (fun _ => rfl)
  | @reject k r what hpc hr =>
      exact .set hr rfl rfl (fun hne => absurd (h.accepting hpc hr).1 hne)
  | begin hr _ => exact .set hr rfl rfl (fun _ => rfl)
  | @finish k r outcome hr hphase =>
      have hok := h.phases k r hr
      rw [PhaseOk, hphase] at hok
      exact .set hr rfl rfl (fun hne => absurd hok hne)
  | enqueue hr _ => exact .set hr rfl rfl (fun _ => rfl)
  | signal _ hr _ => exact .set hr rfl rfl (fun _ => rfl)

end ConcurrentLoop

open ConcurrentLoop in
/-- **Reply discipline.**  Whatever arrives and however the threads interleave,
the loop sends off its channel, for each request it received, a front of the
one reply that its callbacks decided, and calls `on_action` at most once. -/
theorem channel_reply_discipline (capacity : Nat) (events : List LoopEvent) (s : LoopState)
    (hrun : run (step capacity) {} events = some s) : ReplyDiscipline events s := by
  obtain ⟨hinv, hledger⟩ := run_ledger events s hrun
  exact hinv.discipline hledger

namespace ConcurrentLoop

def pingRequest (actionId : String) : Envelope :=
  { payload := some (.actionRequest { actionId := ascii actionId, action := ascii "ping" }) }

/-- Two requests, the second rejected before the first is answered. -/
def twoRequests : List LoopEvent :=
  [.poll (.ready true), .recv (.envelope (pingRequest "a1") {}), .accept,
    .poll (.ready true), .recv (.envelope (pingRequest "a2") {}), .reject none,
    .enqueue 1, .begin 0, .signal 1, .finish 0 (.ok [responseEnvelope (ascii "a1") (.Ok [])]),
    .enqueue 0, .signal 0, .poll (.ready false), .drain, .drain, .pop, .pop]

end ConcurrentLoop

open ConcurrentLoop in
/-- Both replies are out, in the order they were pushed. -/
theorem channel_reply_discipline_two :
    ∃ s, run (step 16) {} twoRequests = some s ∧
      s.outbox = [(some 1, responseEnvelope (ascii "a2") (.Err (ascii "rejected"))),
        (some 0, responseEnvelope (ascii "a1") (.Ok []))] ∧
      ReplyDiscipline twoRequests s := by
  have hran : (run (step 16) {} twoRequests).map (·.outbox) =
      some [(some 1, responseEnvelope (ascii "a2") (.Err (ascii "rejected"))),
        (some 0, responseEnvelope (ascii "a1") (.Ok []))] := by decide
  obtain ⟨s, hrun, houtbox⟩ := Option.map_eq_some_iff.mp hran
  exact ⟨s, hrun, houtbox, channel_reply_discipline 16 twoRequests s hrun⟩

end Vynkor
