import VynkorSdk.GateExecution

/-!
# What a denied caller learns

A caller that may not confirm is answered before the gate looks at the params
or at the pending map.  So the answers to its confirmations are a function of
the confirmations alone: two histories of gates with one configuration that
agree on them agree on the answers, whatever other callers do in between, and
none of its steps touches the pending map.

`confirmRequests` is what the two histories have in common and `responses` is
what the caller sees of a state.  `DenialInv` is the invariant between them.
-/

namespace Vynkor

open ByteCodec KeyedTable StepMachine

namespace ConfirmationGate

/-- The request is a confirmation by this caller. -/
def confirmsAs (g : ConfirmationGate) (caller : Bytes) (req : ActionRequest) : Bool :=
  req.action == confirmPrefix ++ g.op && req.callerPluginId == caller

/-- The request of a call that begins. -/
def GateEvent.request? : GateEvent → Option ActionRequest
  | .call req => some req
  | _ => none

/-- The request of the call that moves. -/
def GateEvent.mover? (s : GateState) : GateEvent → Option ActionRequest
  | .call req => some req
  | .enter i _ => s.calls[i]?.map Call.req
  | .invoke i => s.calls[i]?.map Call.req
  | .finish i _ => s.calls[i]?.map Call.req
  | .drawElsewhere => none

/-- The confirmations of a caller, in the order they arrive. -/
def confirmRequests (g : ConfirmationGate) (caller : Bytes) (events : List GateEvent) :
    List ActionRequest :=
  (events.filterMap GateEvent.request?).filter (g.confirmsAs caller)

def Call.outcome? (c : Call) : Option (Except Exn (List Envelope)) :=
  match c.phase with
  | .returned outcome => some outcome
  | _ => none

/-- What a caller sees of its confirmations: an outcome each, once there is
one. -/
def responses (g : ConfirmationGate) (caller : Bytes) (s : GateState) :
    List (Option (Except Exn (List Envelope))) :=
  (s.calls.filter (fun c => g.confirmsAs caller c.req)).map Call.outcome?

/-- No step of a confirmation by this caller changes the pending map. -/
def LeavesPending (g : ConfirmationGate) (caller : Bytes) (s₀ : GateState)
    (events : List GateEvent) : Prop :=
  ∀ (early : List GateEvent) (e : GateEvent) (late : List GateEvent) (s s' : GateState)
    (req : ActionRequest), events = early ++ e :: late → run g.step s₀ early = some s →
    g.step s e = some s' → e.mover? s = some req → g.confirmsAs caller req = true →
    s'.pending = s.pending

/-! ### One confirmation -/

variable {g : ConfirmationGate} {caller : Bytes}

/-- A request confirms as a caller when it names the gate's confirm action and
comes from the caller. -/
theorem confirmsAs_iff {req : ActionRequest} : g.confirmsAs caller req = true ↔
    req.action = confirmPrefix ++ g.op ∧ req.callerPluginId = caller := by
  rw [confirmsAs, Bool.and_eq_true, beq_iff_eq, beq_iff_eq]

/-- The permission check comes before everything that depends on the params or
the map. -/
theorem dispatch_denied {req : ActionRequest} (hreq : g.confirmsAs caller req = true)
    (hdenied : g.mayConfirm caller = false) :
    g.dispatch req = .answer (.ok (g.deniedReply req)) := by
  obtain ⟨haction, rfl⟩ := confirmsAs_iff.mp hreq
  obtain ⟨hconfirm, hop⟩ := (eq_append_op_iff (by decide)).mp haction
  unfold dispatch
  rw [confirm_not_request hconfirm, if_neg (by simp), if_pos hconfirm, if_neg (not_not.mpr hop),
    hdenied, if_pos (by simp)]

/-- A denied confirmation is answered at once. -/
theorem firstPhase_denied {req : ActionRequest} (hreq : g.confirmsAs caller req = true)
    (hdenied : g.mayConfirm caller = false) :
    g.firstPhase req = .returned (.ok (g.deniedReply req)) := by
  rw [firstPhase, dispatch_denied hreq hdenied]

/-- The text of a denial is made of the configuration and the request. -/
theorem deniedReply_congr {g' : ConfirmationGate} (hconfig : g.toGateConfig = g'.toGateConfig)
    (req : ActionRequest) : g.deniedReply req = g'.deniedReply req := by
  unfold deniedReply
  rw [hconfig]

/-! ### A history -/

/-- Calls keep their requests. -/
theorem setPhase_req {s : GateState} {i : Nat} {req : ActionRequest} {old phase : Phase}
    (hcall : s.calls[i]? = some ⟨req, old⟩) :
    (s.setPhase i req phase).map Call.req = s.calls.map Call.req := by
  obtain ⟨hlt, hget⟩ := List.getElem?_eq_some_iff.mp hcall
  have hlt' : i < (s.calls.map Call.req).length := by
    rw [List.length_map]
    exact hlt
  have hreq : (s.calls.map Call.req)[i] = req := by
    rw [List.getElem_map, hget]
  rw [GateState.setPhase, List.map_set, ← hreq]
  exact List.set_getElem_self hlt'

/-- **Denial invariant.**  The calls are those that arrived, in order, and the
confirmations of the caller have returned with a denial. -/
structure DenialInv (g : ConfirmationGate) (caller : Bytes) (events : List GateEvent)
    (s : GateState) : Prop where
  calls_req : s.calls.map Call.req = events.filterMap GateEvent.request?
  denied : ∀ c ∈ s.calls, g.confirmsAs caller c.req = true →
    c.phase = .returned (.ok (g.deniedReply c.req))

/-- With no calls there is nothing to deny. -/
theorem DenialInv.initial (start : UInt64) (clock : Int) :
    DenialInv g caller [] (initial start clock) :=
  ⟨rfl, by simp [ConfirmationGate.initial]⟩

/-- Every confirmation of the denied caller has been refused. -/
theorem DenialInv.phase_eq {events : List GateEvent} {s : GateState}
    (h : DenialInv g caller events s) {i : Nat} {req : ActionRequest} {phase : Phase}
    (hcall : s.calls[i]? = some ⟨req, phase⟩) (hreq : g.confirmsAs caller req = true) :
    phase = .returned (.ok (g.deniedReply req)) :=
  h.denied _ (List.mem_of_getElem? hcall) hreq

/-- A call that is still under way moves on; it is none of the caller's
confirmations. -/
theorem DenialInv.move {events : List GateEvent} {s s' : GateState}
    (h : DenialInv g caller events s) {e : GateEvent} {i : Nat} {req : ActionRequest}
    {old phase : Phase} (hcall : s.calls[i]? = some ⟨req, old⟩)
    (hold : ∀ outcome, old ≠ .returned outcome) (he : e.request? = none)
    (hcalls : s'.calls = s.setPhase i req phase) :
    DenialInv g caller (events ++ [e]) s' := by
  constructor
  · rw [hcalls, setPhase_req hcall, h.calls_req, List.filterMap_append]
    simp [he]
  · intro c hc hreq
    rw [hcalls, GateState.setPhase] at hc
    rcases List.mem_or_eq_of_mem_set hc with hc | rfl
    · exact h.denied c hc hreq
    · exact absurd (h.phase_eq hcall hreq) (hold _)

/-- Every step keeps the denial. -/
theorem DenialInv.step {events : List GateEvent} {s s' : GateState} {e : GateEvent}
    (h : DenialInv g caller events s) (hdenied : g.mayConfirm caller = false)
    (hmove : Moves g s e s') : DenialInv g caller (events ++ [e]) s' := by
  cases hmove with
  | call req =>
      constructor
      · rw [List.map_append, h.calls_req, List.filterMap_append]
        rfl
      · intro c hc hreq
        rcases List.mem_append.mp hc with hc | hc
        · exact h.denied c hc hreq
        · rw [List.mem_singleton.mp hc] at hreq ⊢
          exact firstPhase_denied hreq hdenied
  | drawElsewhere =>
      constructor
      · rw [List.filterMap_append, h.calls_req]
        simp [GateEvent.request?]
      · exact h.denied
  | store hcall _ => exact h.move hcall (fun _ => by simp) rfl rfl
  | miss hcall _ _ => exact h.move hcall (fun _ => by simp) rfl rfl
  | take hcall _ _ => exact h.move hcall (fun _ => by simp) rfl rfl
  | invoke hcall => exact h.move hcall (fun _ => by simp) rfl rfl
  | finish result hcall => exact h.move hcall (fun _ => by simp) rfl rfl

/-- Every run keeps the denial. -/
theorem denialInv_of_run {start : UInt64} {clock : Int} (hdenied : g.mayConfirm caller = false) :
    ∀ events s, run g.step (initial start clock) events = some s → DenialInv g caller events s :=
  run_induction (.initial start clock)
    (fun _ _ _ _ _ h hstep => h.step hdenied (Moves.of_step hstep))

/-- **What the caller sees** is made of its own confirmations. -/
theorem DenialInv.responses_eq {events : List GateEvent} {s : GateState}
    (h : DenialInv g caller events s) :
    responses g caller s =
      (confirmRequests g caller events).map (fun req => some (.ok (g.deniedReply req))) := by
  have hseen : responses g caller s = (s.calls.filter (fun c => g.confirmsAs caller c.req)).map
      (fun c => some (.ok (g.deniedReply c.req))) := by
    apply List.map_congr_left
    intro c hc
    obtain ⟨hmem, hreq⟩ := List.mem_filter.mp hc
    rw [Call.outcome?, h.denied c hmem hreq]
  have hreqs : confirmRequests g caller events =
      (s.calls.filter (fun c => g.confirmsAs caller c.req)).map Call.req := by
    rw [confirmRequests, ← h.calls_req, List.filter_map]
    rfl
  rw [hseen, hreqs, List.map_map]
  rfl

/-- A confirmation of the caller has no step but its first. -/
theorem DenialInv.pending_eq {events : List GateEvent} {s s' : GateState} {e : GateEvent}
    (h : DenialInv g caller events s) (hmove : Moves g s e s') {req : ActionRequest}
    (hmover : e.mover? s = some req) (hreq : g.confirmsAs caller req = true) :
    s'.pending = s.pending := by
  cases hmove with
  | call _ => rfl
  | drawElsewhere => rfl
  | store hcall _ =>
      rw [GateEvent.mover?, hcall] at hmover
      cases hmover
      exact nomatch h.phase_eq hcall hreq
  | miss hcall _ _ =>
      rw [GateEvent.mover?, hcall] at hmover
      cases hmover
      exact nomatch h.phase_eq hcall hreq
  | take hcall _ _ =>
      rw [GateEvent.mover?, hcall] at hmover
      cases hmover
      exact nomatch h.phase_eq hcall hreq
  | invoke _ => rfl
  | finish _ _ => rfl

/-- What a denied caller sends leaves everything pending. -/
theorem leavesPending_of_denied {start : UInt64} {clock : Int} {events : List GateEvent}
    (hdenied : g.mayConfirm caller = false) :
    LeavesPending g caller (initial start clock) events := by
  intro early e late s s' req _ hrun hstep hmover hreq
  exact (denialInv_of_run hdenied early s hrun).pending_eq (Moves.of_step hstep) hmover hreq

end ConfirmationGate

open ConfirmationGate in
/-- **Denied callers learn nothing.**  Two histories, of gates with one
configuration, that contain the same confirmations by a caller who may not
confirm: the responses to them are the same, all of them are there, and none of
them changes the pending map. -/
theorem denied_confirms_learn_nothing {g g' : ConfirmationGate} {caller : Bytes}
    {start start' : UInt64} {clock clock' : Int} {events events' : List GateEvent}
    {s s' : GateState} (hconfig : g.toGateConfig = g'.toGateConfig)
    (hdenied : g.mayConfirm caller = false)
    (hrun : run g.step (initial start clock) events = some s)
    (hrun' : run g'.step (initial start' clock') events' = some s')
    (hsame : confirmRequests g caller events = confirmRequests g' caller events') :
    responses g caller s = responses g' caller s' ∧
      (∀ response ∈ responses g caller s, response.isSome) ∧
      LeavesPending g caller (initial start clock) events ∧
      LeavesPending g' caller (initial start' clock') events' := by
  have hdenied' : g'.mayConfirm caller = false := by
    rw [mayConfirm, ← hconfig]
    exact hdenied
  have hseen := (denialInv_of_run hdenied events s hrun).responses_eq
  have hseen' := (denialInv_of_run hdenied' events' s' hrun').responses_eq
  refine ⟨?_, ?_, leavesPending_of_denied hdenied, leavesPending_of_denied hdenied'⟩
  · rw [hseen, hseen', hsame]
    apply List.map_congr_left
    intro req _
    rw [deniedReply_congr hconfig]
  · intro response hmem
    rw [hseen] at hmem
    obtain ⟨req, _, rfl⟩ := List.mem_map.mp hmem
    rfl

namespace ConfirmationGate

/-- A confirmation of the stored request by the caller that made it. -/
def ownConfirm : GateEvent :=
  .call { actionId := ascii "a2", action := ascii "confirm_wipe", callerPluginId := ascii "ai",
          paramsJson := ascii "\x7b\"pending_id\": \"pending-5-0\"\x7d" }

end ConfirmationGate

open ConfirmationGate in
/-- Once with the request pending, and once on a gate where nothing happened. -/
theorem denied_confirms_learn_nothing_wipe :
    ∃ s s', run wipeGate.step (initial 0 0) (wipeEvents.take 2 ++ [ownConfirm]) = some s ∧
      run (wipeGate.withPendingTtl 5).step (initial 7 9) [ownConfirm] = some s' ∧
      (responses wipeGate (ascii "ai") s = responses (wipeGate.withPendingTtl 5) (ascii "ai") s' ∧
        (∀ response ∈ responses wipeGate (ascii "ai") s, response.isSome) ∧
        LeavesPending wipeGate (ascii "ai") (initial 0 0) (wipeEvents.take 2 ++ [ownConfirm]) ∧
        LeavesPending (wipeGate.withPendingTtl 5) (ascii "ai") (initial 7 9) [ownConfirm]) := by
  have hran : (run wipeGate.step (initial 0 0) (wipeEvents.take 2 ++ [ownConfirm])).isSome := by
    decide +kernel
  have hran' : (run (wipeGate.withPendingTtl 5).step (initial 7 9) [ownConfirm]).isSome := by
    decide +kernel
  obtain ⟨s, hrun⟩ := Option.isSome_iff_exists.mp hran
  obtain ⟨s', hrun'⟩ := Option.isSome_iff_exists.mp hran'
  exact ⟨s, s', hrun, hrun',
    denied_confirms_learn_nothing rfl (by decide) hrun hrun' (by decide +kernel)⟩

end Vynkor
