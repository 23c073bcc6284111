import VynkorSdk.GateExecution
import VynkorSdk.JsonKeys

/-!
# Whether `route` answers

`route` is one call with no other call in between; `route_alone` says that it
is what the machine of `GateHistory` does in that case.

Apart from the executor the one thing in it that can throw is the conversion of
a `\u` escape, and a caller that may confirm reaches it with params of its own
making.
-/

namespace Vynkor

open ByteCodec KeyedTable StepMachine

namespace ConfirmationGate

/-- One call: its outcome, the pending map and the counter it leaves. -/
def route (g : ConfirmationGate) (executor : Bytes → Except Exn ActionResult) (req : ActionRequest)
    (r : Readings) (seq : UInt64) (t : PendingMap) :
    Except Exn (List Envelope) × PendingMap × UInt64 :=
  match g.dispatch req with
  | .answer outcome => (outcome, t, seq)
  | .store =>
      let (id, t) := g.storeRequest req r seq t
      (.ok (g.storedReply req id), t, seq + 1)
  | .take id =>
      let (found, t) := g.takePending r.sweptAt id t
      match found with
      | none => (.ok (g.noPendingReply req id), t, seq)
      | some pending =>
          ((executor pending.params).map (fun result => [responseEnvelope req.actionId result]),
            t, seq)

/-- Exactly one envelope, an ActionResponse to this request. -/
def Answers (req : ActionRequest) (outcome : Except Exn (List Envelope)) : Prop :=
  ∃ (env : Envelope) (response : ActionResponse), outcome = .ok [env] ∧
    env.payload = some (.actionResponse response) ∧ response.actionId = req.actionId

/-- The first `pending_id` in the params has a string that cannot be read: it
comes to a `\u` escape with no number before it ends. -/
def UnreadableId (params : Bytes) : Prop :=
  ∃ text, FirstKey (quoted (ascii "pending_id")) none params text ∧ Unreadable text

/-- The call is a confirmation, by a caller that may, with such params. -/
structure ConfirmsUnreadable (g : ConfirmationGate) (req : ActionRequest) : Prop where
  action_eq : req.action = confirmPrefix ++ g.op
  may_confirm : g.mayConfirm req.callerPluginId = true
  unreadable : UnreadableId req.paramsJson

variable {g : ConfirmationGate}

/-! ### Replies -/

/-- A response envelope answers its request. -/
theorem answers_responseEnvelope (req : ActionRequest) (result : ActionResult) :
    Answers req (.ok [responseEnvelope req.actionId result]) := by
  unfold responseEnvelope
  split
  · exact ⟨_, _, rfl, rfl, rfl⟩
  · exact ⟨_, _, rfl, rfl, rfl⟩

/-- So does the answer that nothing was found. -/
theorem answers_notFound (req : ActionRequest) : Answers req (.ok (notFound req.actionId)) :=
  ⟨_, _, rfl, rfl, rfl⟩

/-- An exception answers nothing. -/
theorem not_answers_error (req : ActionRequest) (e : Exn) : ¬ Answers req (.error e) := by
  intro h
  obtain ⟨env, response, hok, _⟩ := h
  cases hok

/-! ### Reading the id -/

/-- `dispatch` throws where the search in the params does. -/
theorem dispatch_error_iff {req : ActionRequest} :
    (∃ e, g.dispatch req = .answer (.error e)) ↔ ConfirmsUnreadable g req := by
  constructor
  · intro h
    obtain ⟨e, he⟩ := h
    unfold dispatch at he
    split at he
    · split at he <;> cases he
    split at he
    · rename_i hconfirm
      split at he
      · cases he
      rename_i hop
      split at he
      · cases he
      rename_i hmay
      split at he
      · rename_i e' hreads
        exact ⟨(eq_append_op_iff (by decide)).mpr ⟨hconfirm, not_not.mp hop⟩, by simpa using hmay,
          (jsonFindString_error_iff separate_pendingId).mp ⟨e', hreads⟩⟩
      · cases he
      · cases he
    · cases he
  · intro h
    obtain ⟨hconfirm, hop⟩ := (eq_append_op_iff (by decide)).mp h.action_eq
    obtain ⟨e, he⟩ := (jsonFindString_error_iff separate_pendingId).mpr h.unreadable
    refine ⟨e, ?_⟩
    unfold dispatch
    rw [confirm_not_request hconfirm, if_neg (by simp), if_pos hconfirm, if_neg (not_not.mpr hop),
      h.may_confirm, if_neg (by simp), he]

/-- What `dispatch` answers by itself is a reply to the request. -/
theorem answers_of_dispatch {req : ActionRequest} {envelopes : List Envelope}
    (h : g.dispatch req = .answer (.ok envelopes)) : Answers req (.ok envelopes) := by
  unfold dispatch at h
  split at h
  · split at h
    · cases h
      exact answers_notFound req
    · cases h
  split at h
  · split at h
    · cases h
      exact answers_notFound req
    split at h
    · cases h
      exact answers_responseEnvelope req _
    split at h
    · cases h
    · cases h
      exact answers_responseEnvelope req _
    · cases h
  · cases h
    exact answers_notFound req

/-! ### One call and the machine -/

/-- The steps of a call, up to its answer. -/
def soloEvents (g : ConfirmationGate) (executor : Bytes → Except Exn ActionResult)
    (req : ActionRequest) (r : Readings) (s : GateState) : List GateEvent :=
  let i := s.calls.length
  match g.dispatch req with
  | .answer _ => [.call req]
  | .store => [.call req, .enter i r]
  | .take id =>
      match (g.takePending r.sweptAt id s.pending).1 with
      | none => [.call req, .enter i r]
      | some pending => [.call req, .enter i r, .invoke i, .finish i (executor pending.params)]

/-- **`route` is the machine undisturbed.** -/
theorem route_alone (executor : Bytes → Except Exn ActionResult) (req : ActionRequest)
    (r : Readings) (s : GateState) (hclock : s.clock ≤ r.sweptAt)
    (hcreated : r.sweptAt ≤ r.createdAt) :
    ∃ s', run g.step s (soloEvents g executor req r s) = some s' ∧
      s'.calls = s.calls ++ [⟨req, .returned (g.route executor req r s.seq s.pending).1⟩] ∧
      s'.pending = (g.route executor req r s.seq s.pending).2.1 ∧
      s'.seq = (g.route executor req r s.seq s.pending).2.2 := by
  unfold soloEvents route
  cases hdispatch : g.dispatch req with
  | answer outcome => simp [step, firstPhase, hdispatch]
  | store => simp [step, firstPhase, hdispatch, hclock, hcreated, GateState.setPhase]
  | take id =>
      cases hfound : (g.takePending r.sweptAt id s.pending).1 with
      | none => simp [step, firstPhase, hdispatch, hclock, GateState.setPhase, hfound]
      | some pending => simp [step, firstPhase, hdispatch, hclock, GateState.setPhase, hfound]

end ConfirmationGate

open ConfirmationGate in
/-- **When `route` answers.**  With an executor that returns, a call of `route`
in any state gives exactly one envelope, the response to its request, unless it
is a confirmation by an approved caller whose params hold an unreadable id. -/
theorem route_answers_iff (g : ConfirmationGate) (execute : Bytes → ActionResult)
    (req : ActionRequest) (r : Readings) (seq : UInt64) (t : PendingMap) :
    Answers req (g.route (fun params => .ok (execute params)) req r seq t).1 ↔
      ¬ ConfirmsUnreadable g req := by
  rw [← dispatch_error_iff]
  unfold route
  cases hdispatch : g.dispatch req with
  | answer outcome =>
      cases outcome with
      | error e => simp [not_answers_error]
      | ok envelopes => simp [answers_of_dispatch hdispatch]
  | store =>
      have hreply : Answers req (.ok (g.storedReply req (g.storeRequest req r seq t).1)) :=
        answers_responseEnvelope req _
      simpa using hreply
  | take id =>
      cases hfound : (g.takePending r.sweptAt id t).1 with
      | none =>
          have hreply : Answers req (.ok (g.noPendingReply req id)) :=
            answers_responseEnvelope req _
          simpa [hfound] using hreply
      | some pending =>
          have hreply := answers_responseEnvelope req (execute pending.params)
          simpa [hfound, Except.map] using hreply

namespace ConfirmationGate

/-- A confirmation by the approved caller, with a `\u` escape that is none. -/
def unreadableConfirm : ActionRequest where
  actionId := ascii "a2"
  action := ascii "confirm_wipe"
  callerPluginId := ascii "phone-1.ui"
  paramsJson := ascii "\x7b\"pending_id\":\"\\uZZZZ\"\x7d"

end ConfirmationGate

open ConfirmationGate in
/-- The exception of `std::stoul` leaves `route`. -/
theorem route_throws_on_unreadable_id :
    (wipeGate.route (fun params => .ok (.Ok params)) unreadableConfirm { sweptAt := 1 } 0 ∅).1 =
        .error (.stdInvalidArgument (ascii "stoul")) ∧
      ¬ ∀ (g : ConfirmationGate) (execute : Bytes → ActionResult) (req : ActionRequest)
        (r : Readings) (seq : UInt64) (t : PendingMap),
        Answers req (g.route (fun params => .ok (execute params)) req r seq t).1 := by
  have hthrows : (wipeGate.route (fun params => .ok (.Ok params)) unreadableConfirm
      { sweptAt := 1 } 0 ∅).1 = .error (.stdInvalidArgument (ascii "stoul")) := by
    rfl
  refine ⟨hthrows, ?_⟩
  intro hall
  have hanswers := hall wipeGate .Ok unreadableConfirm { sweptAt := 1 } 0 ∅
  rw [hthrows] at hanswers
  exact not_answers_error _ _ hanswers

end Vynkor
