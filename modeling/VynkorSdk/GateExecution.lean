import VynkorSdk.GateHistory

/-!
# The execution rule of the gate

Over every history of a gate, with fewer than `2^64` calls of `route` in the
process: the executor runs exactly for those confirmations that may confirm,
name a request stored earlier, come first, and come in time; and it gets the
params of that request.

The invariant has two halves.  `LogInv` ties the pending map to the history:
an id waits in the map if it was stored, was not taken and was young at every
sweep since.  `CallInv` says what each call has left in the history by its
phase (`Script`).
-/

namespace Vynkor

open ByteCodec KeyedTable StepMachine

namespace ConfirmationGate

/-! ### Reading a history -/

namespace Action

/-- The call the action belongs to. -/
def call? : Action → Option Nat
  | .stored i _ _ _ => some i
  | .taken i _ _ _ => some i
  | .executed i _ _ => some i
  | .drawnElsewhere => none

/-- The clock reading of its sweep. -/
def reading? : Action → Option Int
  | .stored _ _ _ sweptAt => some sweptAt
  | .taken _ _ sweptAt _ => some sweptAt
  | _ => none

def storedId? : Action → Option Bytes
  | .stored _ id _ _ => some id
  | _ => none

/-- The id it took out of the map. -/
def takenId? : Action → Option Bytes
  | .taken _ id _ (some _) => some id
  | _ => none

def executedId? : Action → Option Bytes
  | .executed _ id _ => some id
  | _ => none

/-- It drew from the counter. -/
def draws : Action → Bool
  | .stored _ _ _ _ => true
  | .drawnElsewhere => true
  | _ => false

end Action

def storedIds (log : List Action) : List Bytes := log.filterMap Action.storedId?

def takenIds (log : List Action) : List Bytes := log.filterMap Action.takenId?

def executedIds (log : List Action) : List Bytes := log.filterMap Action.executedId?

def drawn (log : List Action) : Nat := log.countP Action.draws

/-- At `now` the entry is younger than what the sweep takes for the TTL. -/
def Young (g : ConfirmationGate) (now : Int) (p : PendingAction) : Prop :=
  now - p.createdAt < g.ttlNanos

/-- The request `p` was stored as `id`, and every sweep since found it young. -/
def Kept (g : ConfirmationGate) (log : List Action) (id : Bytes) (p : PendingAction) : Prop :=
  ∃ early late i sweptAt, log = early ++ .stored i id p sweptAt :: late ∧
    ∀ a ∈ late, ∀ now, a.reading? = some now → g.Young now p

/-- The request `p` was stored as `id` and may be taken at `now`. -/
def Claimable (g : ConfirmationGate) (log : List Action) (id : Bytes) (p : PendingAction)
    (now : Int) : Prop :=
  (∃ i sweptAt, .stored i id p sweptAt ∈ log) ∧ id ∉ takenIds log ∧ g.Young now p

variable {g : ConfirmationGate}

/-- What is kept was stored. -/
theorem Kept.stored {log : List Action} {id : Bytes} {p : PendingAction} (h : Kept g log id p) :
    ∃ i sweptAt, .stored i id p sweptAt ∈ log := by
  obtain ⟨early, late, i, sweptAt, rfl, _⟩ := h
  exact ⟨i, sweptAt, by simp⟩

/-- What is kept after one more action: what it stores, and what was kept before
unless it sweeps it. -/
theorem kept_snoc {log : List Action} {a : Action} {id : Bytes} {p : PendingAction} :
    Kept g (log ++ [a]) id p ↔
      (∃ i sweptAt, a = .stored i id p sweptAt) ∨
        (Kept g log id p ∧ ∀ now, a.reading? = some now → g.Young now p) := by
  constructor
  · intro h
    obtain ⟨early, late, i, sweptAt, heq, hyoung⟩ := h
    rcases snoc_eq_iff.mp heq with ⟨_, _, ha⟩ | ⟨late', rfl, hlog⟩
    · exact Or.inl ⟨i, sweptAt, ha.symm⟩
    · refine Or.inr ⟨⟨early, late', i, sweptAt, hlog, ?_⟩, hyoung a (by simp)⟩
      intro b hb
      exact hyoung b (by simp [hb])
  · intro h
    rcases h with ⟨i, sweptAt, rfl⟩ | ⟨⟨early, late, i, sweptAt, rfl, hyoung⟩, hlast⟩
    · exact ⟨log, [], i, sweptAt, rfl, by simp⟩
    · refine ⟨early, late ++ [a], i, sweptAt, by simp, ?_⟩
      intro b hb
      rcases List.mem_append.mp hb with hb | hb
      · exact hyoung b hb
      · rw [List.mem_singleton.mp hb]
        exact hlast

/-! ### The pending map and the history -/

structure LogInv (g : ConfirmationGate) (start : UInt64) (s : GateState) : Prop where
  seq_eq : s.seq = start + UInt64.ofNat (drawn s.log)
  ids_drawn : ∀ id ∈ storedIds s.log, ∃ millis k, k < drawn s.log ∧
    id = pendingId millis (start + UInt64.ofNat k)
  ids_nodup : (storedIds s.log).Nodup
  taken_stored : ∀ id ∈ takenIds s.log, id ∈ storedIds s.log
  taken_nodup : (takenIds s.log).Nodup
  readings_le : ∀ a ∈ s.log, ∀ now, a.reading? = some now → now ≤ s.clock
  pending_iff : ∀ id p, s.pending.lookup id = some p ↔ id ∉ takenIds s.log ∧ Kept g s.log id p
  claims : ∀ early i id now found late, s.log = early ++ .taken i id now found :: late →
    ∀ p, found = some p ↔ Claimable g early id p now

/-- A gate nobody has called yet satisfies the invariant of its log. -/
theorem LogInv.initial (start : UInt64) (clock : Int) : LogInv g start (initial start clock) := by
  refine ⟨by simp [ConfirmationGate.initial, drawn], by simp [ConfirmationGate.initial, storedIds],
    by simp [ConfirmationGate.initial, storedIds], by simp [ConfirmationGate.initial, takenIds],
    by simp [ConfirmationGate.initial, takenIds], by simp [ConfirmationGate.initial], ?_, ?_⟩
  · intro id p
    simp [ConfirmationGate.initial, Kept]
  · intro early i id now found late h
    simp [ConfirmationGate.initial] at h

/-- The counter has not come round: the next id is new. -/
theorem LogInv.fresh {start : UInt64} {s : GateState} (h : LogInv g start s)
    (hdrawn : drawn s.log < 2 ^ 64) (millis : UInt64) :
    pendingId millis s.seq ∉ storedIds s.log := by
  intro hmem
  obtain ⟨millis', k, hk, heq⟩ := h.ids_drawn _ hmem
  rw [h.seq_eq] at heq
  have hseq := pendingId_seq heq
  have hofNat : UInt64.ofNat (drawn s.log) = UInt64.ofNat k := by
    simpa using hseq
  have hnat := congrArg UInt64.toNat hofNat
  rw [UInt64.toNat_ofNat_of_lt' hdrawn,
    UInt64.toNat_ofNat_of_lt' (by simp only [UInt64.size]; omega)] at hnat
  omega

/-- Claims are settled by what stands before them, so only a last one is new. -/
theorem LogInv.claims_snoc {start : UInt64} {s : GateState} (h : LogInv g start s) {a : Action}
    (hlast : ∀ i id now found, a = .taken i id now found →
      ∀ p, found = some p ↔ Claimable g s.log id p now) :
    ∀ early i id now found late, s.log ++ [a] = early ++ .taken i id now found :: late →
      ∀ p, found = some p ↔ Claimable g early id p now := by
  intro early i id now found late heq
  rcases snoc_eq_iff.mp heq with ⟨_, rfl, ha⟩ | ⟨late', _, hlog⟩
  · exact hlast i id now found ha.symm
  · exact h.claims early i id now found late' hlog

/-- One more action adds the id it stores, if any. -/
theorem storedIds_snoc (log : List Action) (a : Action) :
    storedIds (log ++ [a]) = storedIds log ++ a.storedId?.toList := by
  cases hid : a.storedId? <;> simp [storedIds, hid]

/-- One more action adds the id it takes, if any. -/
theorem takenIds_snoc (log : List Action) (a : Action) :
    takenIds (log ++ [a]) = takenIds log ++ a.takenId?.toList := by
  cases hid : a.takenId? <;> simp [takenIds, hid]

/-- One more action counts when it draws from the process counter. -/
theorem drawn_snoc (log : List Action) (a : Action) :
    drawn (log ++ [a]) = drawn log + if a.draws then 1 else 0 := by
  simp [drawn, List.countP_cons]

/-- Readings stay in order when the action's own reading is at most the new clock. -/
theorem LogInv.readings_snoc {start : UInt64} {s : GateState} (h : LogInv g start s) {a : Action}
    {clock : Int} (hclock : s.clock ≤ clock) (ha : ∀ now, a.reading? = some now → now ≤ clock) :
    ∀ b ∈ s.log ++ [a], ∀ now, b.reading? = some now → now ≤ clock := by
  intro b hb now hnow
  rcases List.mem_append.mp hb with hb | hb
  · exact (h.readings_le b hb now hnow).trans hclock
  · rw [List.mem_singleton.mp hb] at hnow
    exact ha now hnow

/-- An action outside the critical sections. -/
theorem LogInv.append_quiet {start : UInt64} {s : GateState} (h : LogInv g start s) {a : Action}
    (hstored : a.storedId? = none) (hreading : a.reading? = none) {seq : UInt64}
    (hseq : seq = start + UInt64.ofNat (drawn (s.log ++ [a]))) (calls : List Call) :
    LogInv g start { s with seq := seq, calls := calls, log := s.log ++ [a] } := by
  have htaken : a.takenId? = none := by
    cases a <;> first | rfl | cases hreading
  have hkept : ∀ id p, Kept g (s.log ++ [a]) id p ↔ Kept g s.log id p := by
    intro id p
    rw [kept_snoc]
    constructor
    · intro hkept
      rcases hkept with ⟨i, sweptAt, rfl⟩ | ⟨hkept, _⟩
      · cases hstored
      · exact hkept
    · intro hkept
      exact Or.inr ⟨hkept, fun now hnow => by rw [hreading] at hnow; cases hnow⟩
  have hstoredIds : storedIds (s.log ++ [a]) = storedIds s.log := by
    rw [storedIds_snoc, hstored]
    simp
  have htakenIds : takenIds (s.log ++ [a]) = takenIds s.log := by
    rw [takenIds_snoc, htaken]
    simp
  have hdrawn : drawn s.log ≤ drawn (s.log ++ [a]) := by
    rw [drawn_snoc]
    omega
  refine ⟨hseq, ?_, ?_, ?_, ?_, ?_, ?_, ?_⟩
  · intro id hid
    rw [hstoredIds] at hid
    obtain ⟨millis, k, hk, heq⟩ := h.ids_drawn id hid
    exact ⟨millis, k, hk.trans_le hdrawn, heq⟩
  · rw [hstoredIds]
    exact h.ids_nodup
  · rw [hstoredIds, htakenIds]
    exact h.taken_stored
  · rw [htakenIds]
    exact h.taken_nodup
  · exact h.readings_snoc (Int.le_refl _) (fun now hnow => by rw [hreading] at hnow; cases hnow)
  · intro id p
    rw [htakenIds, hkept]
    exact h.pending_iff id p
  · exact h.claims_snoc (fun i id now found ha => by rw [ha] at hreading; cases hreading)

/-- The id of a kept entry was stored. -/
theorem Kept.mem_storedIds {log : List Action} {id : Bytes} {p : PendingAction}
    (h : Kept g log id p) : id ∈ storedIds log := by
  obtain ⟨i, sweptAt, hmem⟩ := h.stored
  exact List.mem_filterMap.mpr ⟨_, hmem, rfl⟩

/-- The map after a store: the new entry, and what was young of the old. -/
theorem LogInv.lookup_store {start : UInt64} {s : GateState} (h : LogInv g start s)
    (hdrawn : drawn s.log < 2 ^ 64) {req : ActionRequest} {r : Readings} {id : Bytes}
    {p : PendingAction} :
    (g.storeRequest req r s.seq s.pending).2.lookup id = some p ↔
      (id = pendingId r.millis s.seq ∧ p = storedEntry req r.createdAt) ∨
        (s.pending.lookup id = some p ∧ g.Young r.sweptAt p) := by
  have hfresh := h.fresh hdrawn r.millis
  have hnew : s.pending.lookup (pendingId r.millis s.seq) = none := by
    by_contra hsome
    obtain ⟨q, hq⟩ := Option.ne_none_iff_exists'.mp hsome
    exact hfresh ((h.pending_iff _ q).mp hq).2.mem_storedIds
  rw [lookup_storeRequest hnew, lookup_sweep]
  constructor
  · intro hcase
    rcases hcase with hcase | ⟨_, hcase⟩
    · exact Or.inl hcase
    · exact Or.inr hcase
  · intro hcase
    rcases hcase with hcase | hcase
    · exact Or.inl hcase
    · refine Or.inr ⟨?_, hcase⟩
      intro hid
      rw [hid, hnew] at hcase
      cases hcase.1

/-- The map after a take: what was young, less what was found. -/
theorem lookup_take {now : Int} {id id' : Bytes} {t : PendingMap} {p : PendingAction}
    {found : Option PendingAction} (hfound : (g.takePending now id t).1 = found) :
    (g.takePending now id t).2.lookup id' = some p ↔
      (t.lookup id' = some p ∧ g.Young now p) ∧ ¬ (found.isSome ∧ id' = id) := by
  rw [lookup_takePending, lookup_sweep, hfound]
  rfl

/-- What is young at a reading was young at every earlier one. -/
theorem LogInv.kept_of_young {start : UInt64} {s : GateState} (h : LogInv g start s) {now : Int}
    (hclock : s.clock ≤ now) {i : Nat} {id : Bytes} {p : PendingAction} {sweptAt : Int}
    (hmem : .stored i id p sweptAt ∈ s.log) (hyoung : g.Young now p) : Kept g s.log id p := by
  obtain ⟨early, late, hlog⟩ := List.append_of_mem hmem
  refine ⟨early, late, i, sweptAt, hlog, ?_⟩
  intro a ha now' hnow'
  have hle := h.readings_le a (by rw [hlog]; simp [ha]) now' hnow'
  unfold Young at hyoung ⊢
  omega

/-- The critical section of a request. -/
theorem LogInv.store {start : UInt64} {s : GateState} (h : LogInv g start s)
    (hdrawn : drawn s.log < 2 ^ 64) {i : Nat} {req : ActionRequest} {r : Readings}
    (hclock : s.clock ≤ r.sweptAt ∧ r.sweptAt ≤ r.createdAt) (calls : List Call) :
    LogInv g start { s with
      pending := (g.storeRequest req r s.seq s.pending).2
      seq := s.seq + 1
      clock := r.createdAt
      calls := calls
      log := s.log ++
        [.stored i (pendingId r.millis s.seq) (storedEntry req r.createdAt) r.sweptAt] } := by
  let a : Action := .stored i (pendingId r.millis s.seq) (storedEntry req r.createdAt) r.sweptAt
  have hfresh := h.fresh hdrawn r.millis
  have hstored : storedIds (s.log ++ [a]) = storedIds s.log ++ [pendingId r.millis s.seq] :=
    storedIds_snoc s.log a
  have htaken : takenIds (s.log ++ [a]) = takenIds s.log := by
    rw [takenIds_snoc]
    exact List.append_nil _
  have hcount : drawn (s.log ++ [a]) = drawn s.log + 1 := drawn_snoc s.log a
  refine ⟨?_, ?_, ?_, ?_, ?_, ?_, ?_, ?_⟩
  · show s.seq + 1 = start + UInt64.ofNat (drawn (s.log ++ [a]))
    rw [hcount, h.seq_eq, UInt64.ofNat_add, UInt64.add_assoc]
    rfl
  · intro id hid
    rw [hstored, List.mem_append, List.mem_singleton] at hid
    rcases hid with hid | rfl
    · obtain ⟨millis, k, hk, heq⟩ := h.ids_drawn id hid
      exact ⟨millis, k, by rw [hcount]; omega, heq⟩
    · exact ⟨r.millis, drawn s.log, by rw [hcount]; omega, by rw [h.seq_eq]⟩
  · rw [hstored]
    rw [← List.concat_eq_append]
    exact h.ids_nodup.concat hfresh
  · intro id hid
    rw [htaken] at hid
    rw [hstored]
    exact List.mem_append_left _ (h.taken_stored id hid)
  · rw [htaken]
    exact h.taken_nodup
  · apply h.readings_snoc (hclock.1.trans hclock.2)
    intro now hnow
    cases hnow
    exact hclock.2
  · intro id p
    rw [h.lookup_store hdrawn, htaken, kept_snoc, h.pending_iff]
    constructor
    · intro hcase
      rcases hcase with ⟨rfl, rfl⟩ | ⟨⟨hnot, hkept⟩, hyoung⟩
      · exact ⟨fun hmem => hfresh (h.taken_stored _ hmem), Or.inl ⟨i, r.sweptAt, rfl⟩⟩
      · exact ⟨hnot, Or.inr ⟨hkept, fun now hnow => by cases hnow; exact hyoung⟩⟩
    · intro hcase
      obtain ⟨hnot, ⟨i', sweptAt, heq⟩ | ⟨hkept, hyoung⟩⟩ := hcase
      · cases heq
        exact Or.inl ⟨rfl, rfl⟩
      · exact Or.inr ⟨⟨hnot, hkept⟩, hyoung r.sweptAt rfl⟩
  · exact h.claims_snoc (fun i id now found ha => by cases ha)

/-- A confirmation finds the entries that can be claimed. -/
theorem LogInv.takePending_iff {start : UInt64} {s : GateState} (h : LogInv g start s) {id : Bytes}
    {now : Int} {p : PendingAction} (hclock : s.clock ≤ now) :
    (g.takePending now id s.pending).1 = some p ↔ Claimable g s.log id p now := by
  rw [takePending_eq_some, h.pending_iff]
  constructor
  · intro hcase
    obtain ⟨⟨hnot, hkept⟩, hyoung⟩ := hcase
    exact ⟨hkept.stored, hnot, hyoung⟩
  · intro hcase
    obtain ⟨⟨j, sweptAt, hmem⟩, hnot, hyoung⟩ := hcase
    exact ⟨⟨hnot, h.kept_of_young hclock hmem hyoung⟩, hyoung⟩

/-- The critical section of a confirmation. -/
theorem LogInv.take {start : UInt64} {s : GateState} (h : LogInv g start s) {i : Nat} {id : Bytes}
    {r : Readings} {found : Option PendingAction} (hclock : s.clock ≤ r.sweptAt)
    (hfound : (g.takePending r.sweptAt id s.pending).1 = found) (calls : List Call) :
    LogInv g start { s with
      pending := (g.takePending r.sweptAt id s.pending).2
      clock := r.sweptAt
      calls := calls
      log := s.log ++ [.taken i id r.sweptAt found] } := by
  let a : Action := .taken i id r.sweptAt found
  have hclaim : ∀ p, found = some p ↔ Claimable g s.log id p r.sweptAt :=
    fun p => hfound ▸ h.takePending_iff hclock
  have hstored : storedIds (s.log ++ [a]) = storedIds s.log := by
    rw [storedIds_snoc]
    exact List.append_nil _
  have htaken : ∀ id', id' ∈ takenIds (s.log ++ [a]) ↔
      id' ∈ takenIds s.log ∨ (found.isSome ∧ id' = id) := by
    intro id'
    rw [takenIds_snoc]
    cases found <;> simp [a, Action.takenId?]
  have hcount : drawn (s.log ++ [a]) = drawn s.log := drawn_snoc s.log a
  refine ⟨?_, ?_, ?_, ?_, ?_, ?_, ?_, ?_⟩
  · show s.seq = start + UInt64.ofNat (drawn (s.log ++ [a]))
    rw [hcount]
    exact h.seq_eq
  · rw [hstored, hcount]
    exact h.ids_drawn
  · rw [hstored]
    exact h.ids_nodup
  · intro id' hid'
    rw [hstored]
    rcases (htaken id').mp hid' with hid' | ⟨hsome, rfl⟩
    · exact h.taken_stored id' hid'
    · obtain ⟨p, hp⟩ := Option.isSome_iff_exists.mp hsome
      obtain ⟨⟨j, sweptAt, hmem⟩, _⟩ := (hclaim p).mp hp
      exact List.mem_filterMap.mpr ⟨_, hmem, rfl⟩
  · rw [takenIds_snoc]
    cases found with
    | none =>
        show (takenIds s.log ++ []).Nodup
        rw [List.append_nil]
        exact h.taken_nodup
    | some p =>
        show (takenIds s.log ++ [id]).Nodup
        rw [← List.concat_eq_append]
        exact h.taken_nodup.concat ((hclaim p).mp rfl).2.1
  · apply h.readings_snoc hclock
    intro now hnow
    cases hnow
    exact Int.le_refl _
  · intro id' p
    rw [lookup_take hfound, htaken, kept_snoc, h.pending_iff]
    constructor
    · intro hcase
      obtain ⟨⟨⟨hnot, hkept⟩, hyoung⟩, hother⟩ := hcase
      exact ⟨not_or.mpr ⟨hnot, hother⟩, Or.inr ⟨hkept, fun now hnow => by cases hnow; exact hyoung⟩⟩
    · intro hcase
      obtain ⟨hnot, ⟨j, sweptAt, heq⟩ | ⟨hkept, hyoung⟩⟩ := hcase
      · cases heq
      · obtain ⟨hnot, hother⟩ := not_or.mp hnot
        exact ⟨⟨⟨hnot, hkept⟩, hyoung r.sweptAt rfl⟩, hother⟩
  · exact h.claims_snoc (fun i id now found ha => by cases ha; exact hclaim)

/-! ### The calls and the history -/

/-- What call `i` has left in the history when it is in a given phase. -/
inductive Script (g : ConfirmationGate) (i : Nat) (req : ActionRequest) :
    Phase → List Action → Prop
  | answered {outcome : Except Exn (List Envelope)} (h : g.dispatch req = .answer outcome) :
      Script g i req (.returned outcome) []
  | storing (h : g.dispatch req = .store) : Script g i req .storing []
  | stored (h : g.dispatch req = .store) (id : Bytes) (createdAt sweptAt : Int)
      (outcome : Except Exn (List Envelope)) :
      Script g i req (.returned outcome) [.stored i id (storedEntry req createdAt) sweptAt]
  | taking {id : Bytes} (h : g.dispatch req = .take id) : Script g i req (.taking id) []
  | missed {id : Bytes} (h : g.dispatch req = .take id) (sweptAt : Int)
      (outcome : Except Exn (List Envelope)) :
      Script g i req (.returned outcome) [.taken i id sweptAt none]
  | granted {id : Bytes} (h : g.dispatch req = .take id) (sweptAt : Int) (p : PendingAction) :
      Script g i req (.granted id p) [.taken i id sweptAt (some p)]
  | running {id : Bytes} (h : g.dispatch req = .take id) (sweptAt : Int) (p : PendingAction) :
      Script g i req .running [.taken i id sweptAt (some p), .executed i id p.params]
  | done {id : Bytes} (h : g.dispatch req = .take id) (sweptAt : Int) (p : PendingAction)
      (outcome : Except Exn (List Envelope)) :
      Script g i req (.returned outcome) [.taken i id sweptAt (some p), .executed i id p.params]

/-! A script grows with the phase. -/

/-- A storing call returns after one entry into its log. -/
theorem Script.store {i : Nat} {req : ActionRequest} {actions : List Action}
    (h : Script g i req .storing actions) (id : Bytes) (createdAt sweptAt : Int)
    (outcome : Except Exn (List Envelope)) :
    Script g i req (.returned outcome)
      (actions ++ [.stored i id (storedEntry req createdAt) sweptAt]) := by
  cases h with
  | storing hdispatch => exact .stored hdispatch id createdAt sweptAt outcome

/-- A confirmation that finds nothing returns after the look-up. -/
theorem Script.miss {i : Nat} {req : ActionRequest} {id : Bytes} {actions : List Action}
    (h : Script g i req (.taking id) actions) (sweptAt : Int)
    (outcome : Except Exn (List Envelope)) :
    Script g i req (.returned outcome) (actions ++ [.taken i id sweptAt none]) := by
  cases h with
  | taking hdispatch => exact .missed hdispatch sweptAt outcome

/-- A confirmation that finds its entry goes on to the executor with it. -/
theorem Script.take {i : Nat} {req : ActionRequest} {id : Bytes} {actions : List Action}
    (h : Script g i req (.taking id) actions) (sweptAt : Int) (p : PendingAction) :
    Script g i req (.granted id p) (actions ++ [.taken i id sweptAt (some p)]) := by
  cases h with
  | taking hdispatch => exact .granted hdispatch sweptAt p

/-- The executor is called with the params of the entry that was taken. -/
theorem Script.invoke {i : Nat} {req : ActionRequest} {id : Bytes} {p : PendingAction}
    {actions : List Action} (h : Script g i req (.granted id p) actions) :
    Script g i req .running (actions ++ [.executed i id p.params]) := by
  cases h with
  | granted hdispatch sweptAt _ => exact .running hdispatch sweptAt p

/-- A call returns when its executor does, with nothing more in its log. -/
theorem Script.finish {i : Nat} {req : ActionRequest} {actions : List Action}
    (h : Script g i req .running actions) (outcome : Except Exn (List Envelope)) :
    Script g i req (.returned outcome) actions := by
  cases h with
  | running hdispatch sweptAt p => exact .done hdispatch sweptAt p outcome

/-- A call about to run the executor has taken its entry, and done no more. -/
theorem Script.granted_actions {i : Nat} {req : ActionRequest} {id : Bytes} {p : PendingAction}
    {actions : List Action} (h : Script g i req (.granted id p) actions) :
    ∃ sweptAt, actions = [.taken i id sweptAt (some p)] := by
  cases h with
  | granted _ sweptAt _ => exact ⟨sweptAt, rfl⟩

/-- Only what was taken is executed. -/
theorem Script.taken_of_executed {i : Nat} {req : ActionRequest} {phase : Phase}
    {actions : List Action} (h : Script g i req phase actions) {id params : Bytes}
    (hmem : .executed i id params ∈ actions) :
    ∃ sweptAt p, .taken i id sweptAt (some p) ∈ actions ∧ params = p.params := by
  cases h with
  | answered _ => cases hmem
  | storing _ => cases hmem
  | stored _ _ _ _ _ => simp at hmem
  | taking _ => cases hmem
  | missed _ _ _ => simp at hmem
  | granted _ _ _ => simp at hmem
  | running _ sweptAt p =>
      obtain ⟨rfl, rfl⟩ : id = _ ∧ params = p.params := by simpa using hmem
      exact ⟨sweptAt, p, by simp, rfl⟩
  | done _ sweptAt p _ =>
      obtain ⟨rfl, rfl⟩ : id = _ ∧ params = p.params := by simpa using hmem
      exact ⟨sweptAt, p, by simp, rfl⟩

/-- Only requests store, and they store their params. -/
theorem Script.request_of_stored {i : Nat} {req : ActionRequest} {phase : Phase}
    {actions : List Action} (h : Script g i req phase actions) {id : Bytes} {p : PendingAction}
    {sweptAt : Int} (hmem : .stored i id p sweptAt ∈ actions) :
    g.dispatch req = .store ∧ p.params = req.paramsJson := by
  cases h with
  | answered _ => cases hmem
  | storing _ => cases hmem
  | stored hdispatch _ _ _ _ =>
      cases List.mem_singleton.mp hmem
      exact ⟨hdispatch, rfl⟩
  | taking _ => cases hmem
  | missed _ _ _ => simp at hmem
  | granted _ _ _ => simp at hmem
  | running _ _ _ => simp at hmem
  | done _ _ _ _ => simp at hmem

/-- The call is in the executor or has returned. -/
def Phase.Decided : Phase → Prop
  | .running => True
  | .returned _ => True
  | _ => False

instance : DecidablePred Phase.Decided
  | .running => isTrue trivial
  | .returned _ => isTrue trivial
  | .storing => isFalse id
  | .taking _ => isFalse id
  | .granted _ _ => isFalse id

/-- A decided call that found an entry has run it. -/
theorem Script.executed_of_taken {i : Nat} {req : ActionRequest} {phase : Phase}
    {actions : List Action} (h : Script g i req phase actions) (hdecided : phase.Decided)
    {id : Bytes} {now : Int} {p : PendingAction} (hmem : .taken i id now (some p) ∈ actions) :
    .executed i id p.params ∈ actions ∧ g.dispatch req = .take id := by
  cases h with
  | answered _ => cases hmem
  | storing _ => cases hmem
  | stored _ _ _ _ _ => simp at hmem
  | taking _ => cases hmem
  | missed _ _ _ => simp at hmem
  | granted _ _ _ => exact hdecided.elim
  | running hdispatch _ q =>
      obtain ⟨rfl, rfl, rfl⟩ : id = _ ∧ now = _ ∧ p = q := by simpa using hmem
      exact ⟨by simp, hdispatch⟩
  | done hdispatch _ q _ =>
      obtain ⟨rfl, rfl, rfl⟩ : id = _ ∧ now = _ ∧ p = q := by simpa using hmem
      exact ⟨by simp, hdispatch⟩

/-- A decided call that was to look an id up has done so. -/
theorem Script.looks_up {i : Nat} {req : ActionRequest} {phase : Phase} {actions : List Action}
    (h : Script g i req phase actions) (hdecided : phase.Decided) {id : Bytes}
    (hdispatch : g.dispatch req = .take id) : ∃ now found, .taken i id now found ∈ actions := by
  cases h with
  | answered hother => cases hother.symm.trans hdispatch
  | storing hother => cases hother.symm.trans hdispatch
  | stored hother _ _ _ _ => cases hother.symm.trans hdispatch
  | taking _ => exact hdecided.elim
  | missed hsame sweptAt _ =>
      cases hsame.symm.trans hdispatch
      exact ⟨sweptAt, none, by simp⟩
  | granted _ _ _ => exact hdecided.elim
  | running hsame sweptAt p =>
      cases hsame.symm.trans hdispatch
      exact ⟨sweptAt, some p, by simp⟩
  | done hsame sweptAt p _ =>
      cases hsame.symm.trans hdispatch
      exact ⟨sweptAt, some p, by simp⟩

/-- The actions of call `i`. -/
def actionsOf (i : Nat) (log : List Action) : List Action :=
  log.filter (fun a => a.call? == some i)

/-- The actions of a call are those of the log that carry its number. -/
theorem mem_actionsOf {i : Nat} {log : List Action} {a : Action} :
    a ∈ actionsOf i log ↔ a ∈ log ∧ a.call? = some i := by
  simp [actionsOf]

structure CallInv (g : ConfirmationGate) (s : GateState) : Prop where
  scripts : ∀ i call, s.calls[i]? = some call →
    Script g i call.req call.phase (actionsOf i s.log)
  owned : ∀ a ∈ s.log, ∀ i, a.call? = some i → i < s.calls.length
  executed_nodup : (executedIds s.log).Nodup

/-- With no calls there is nothing to follow. -/
theorem CallInv.initial (start : UInt64) (clock : Int) : CallInv g (initial start clock) :=
  ⟨by simp [ConfirmationGate.initial], by simp [ConfirmationGate.initial],
    by simp [ConfirmationGate.initial, executedIds]⟩

/-- A call moves on: the phases and actions of the others stay. -/
theorem CallInv.scripts_set {s : GateState} (h : CallInv g s) {i : Nat} {req : ActionRequest}
    {phase : Phase} {log : List Action}
    (hothers : ∀ j, j ≠ i → actionsOf j log = actionsOf j s.log)
    (hscript : Script g i req phase (actionsOf i log)) :
    ∀ j call, (s.setPhase i req phase)[j]? = some call →
      Script g j call.req call.phase (actionsOf j log) := by
  intro j call hj
  rw [GateState.setPhase, List.getElem?_set] at hj
  split at hj
  · rename_i hij
    subst hij
    split at hj
    · cases hj
      exact hscript
    · cases hj
  · rename_i hij
    rw [hothers j (Ne.symm hij)]
    exact h.scripts j call hj

/-- A call's own action is added to its actions. -/
theorem actionsOf_snoc_self {i : Nat} {log : List Action} {a : Action} (h : a.call? = some i) :
    actionsOf i (log ++ [a]) = actionsOf i log ++ [a] := by
  simp [actionsOf, h]

/-- Another call's action leaves a call's actions as they were. -/
theorem actionsOf_snoc_other {j : Nat} {log : List Action} {a : Action} (h : a.call? ≠ some j) :
    actionsOf j (log ++ [a]) = actionsOf j log := by
  simp [actionsOf, h]

/-- A call moves on and leaves an action behind. -/
theorem CallInv.append {s : GateState} (h : CallInv g s) {i : Nat} {req : ActionRequest}
    {old phase : Phase} (hcall : s.calls[i]? = some ⟨req, old⟩) {a : Action}
    (ha : a.call? = some i) (hscript : Script g i req phase (actionsOf i s.log ++ [a]))
    (hexecuted : (executedIds (s.log ++ [a])).Nodup) (pending : PendingMap) (seq : UInt64)
    (clock : Int) :
    CallInv g ⟨pending, seq, clock, s.setPhase i req phase, s.log ++ [a]⟩ := by
  refine ⟨?_, ?_, hexecuted⟩
  · apply h.scripts_set
    · intro j hj
      apply actionsOf_snoc_other
      rw [ha]
      simpa using hj.symm
    · rw [actionsOf_snoc_self ha]
      exact hscript
  · intro b hb j hj
    show j < (s.setPhase i req phase).length
    rw [GateState.setPhase, List.length_set]
    rcases List.mem_append.mp hb with hb | hb
    · exact h.owned b hb j hj
    · rw [List.mem_singleton.mp hb, ha] at hj
      cases hj
      exact (List.getElem?_eq_some_iff.mp hcall).1

/-- What a call has done is in the script of its phase. -/
theorem CallInv.script_of_mem {s : GateState} (h : CallInv g s) {a : Action} {i : Nat}
    (ha : a ∈ s.log) (hi : a.call? = some i) :
    ∃ call, s.calls[i]? = some call ∧ a ∈ actionsOf i s.log ∧
      Script g i call.req call.phase (actionsOf i s.log) := by
  have hlt := h.owned a ha i hi
  refine ⟨s.calls[i], List.getElem?_eq_getElem hlt, mem_actionsOf.mpr ⟨ha, hi⟩, ?_⟩
  exact h.scripts i _ (List.getElem?_eq_getElem hlt)

/-- What was executed had been taken by the same call, with the same params. -/
theorem CallInv.taken_of_executed {s : GateState} (h : CallInv g s) {i : Nat} {id params : Bytes}
    (hmem : .executed i id params ∈ s.log) :
    ∃ sweptAt p, .taken i id sweptAt (some p) ∈ s.log ∧ params = p.params := by
  obtain ⟨call, _, hown, hscript⟩ := h.script_of_mem hmem rfl
  obtain ⟨sweptAt, p, htaken, hparams⟩ := hscript.taken_of_executed hown
  exact ⟨sweptAt, p, (mem_actionsOf.mp htaken).1, hparams⟩

/-- One more action adds the id it executes, if any. -/
theorem executedIds_snoc (log : List Action) (a : Action) :
    executedIds (log ++ [a]) = executedIds log ++ a.executedId?.toList := by
  cases hid : a.executedId? <;> simp [executedIds, hid]

/-- The executor is about to run: nobody has run this request before. -/
theorem CallInv.not_executed {start : UInt64} {s : GateState} (h : CallInv g s)
    (hlog : LogInv g start s) {i : Nat} {req : ActionRequest} {id : Bytes} {p : PendingAction}
    (hcall : s.calls[i]? = some ⟨req, .granted id p⟩) : id ∉ executedIds s.log := by
  intro hmem
  obtain ⟨a, ha, hid⟩ := List.mem_filterMap.mp hmem
  cases a with
  | stored _ _ _ _ => cases hid
  | taken _ _ _ _ => cases hid
  | drawnElsewhere => cases hid
  | executed j id' params =>
      cases hid
      obtain ⟨sweptAt, q, htaken, _⟩ := h.taken_of_executed ha
      obtain ⟨sweptAt', hactions⟩ := (h.scripts i _ hcall).granted_actions
      have hmine : .taken i id sweptAt' (some p) ∈ s.log :=
        (mem_actionsOf.mp (by rw [hactions]; exact List.mem_singleton_self _)).1
      -- Two takes of one id are the same take, so the executor ran for this very call.
      have hsame := eq_of_filterMap_nodup hlog.taken_nodup htaken hmine rfl rfl
      cases hsame
      have hrun := mem_actionsOf.mpr ⟨ha, rfl⟩
      rw [hactions] at hrun
      simp at hrun

/-- **One step** keeps the scripts. -/
theorem CallInv.step {start : UInt64} {s s' : GateState} {e : GateEvent} (h : CallInv g s)
    (hlog : LogInv g start s) (hmove : Moves g s e s') : CallInv g s' := by
  have hquiet : ∀ a : Action, a.executedId? = none → (executedIds (s.log ++ [a])).Nodup := by
    intro a ha
    rw [executedIds_snoc, ha]
    simpa using h.executed_nodup
  cases hmove with
  | call req =>
      refine ⟨?_, ?_, h.executed_nodup⟩
      · intro i call hi
        rcases getElem?_snoc_cases hi with hi | ⟨hlast, rfl⟩
        · exact h.scripts i call hi
        · have hnone : actionsOf i s.log = [] := by
            apply List.filter_eq_nil_iff.mpr
            intro a ha hown
            exact Nat.ne_of_lt (h.owned a ha i (by simpa using hown)) hlast
          rw [hnone]
          dsimp only
          unfold firstPhase
          split
          · rename_i hdispatch
            exact .answered hdispatch
          · rename_i hdispatch
            exact .storing hdispatch
          · rename_i hdispatch
            exact .taking hdispatch
      · intro a ha i hi
        have hlt := h.owned a ha i hi
        simp only [List.length_append]
        omega
  | drawElsewhere =>
      refine ⟨?_, ?_, hquiet _ rfl⟩
      · intro i call hi
        rw [actionsOf_snoc_other (by simp [Action.call?])]
        exact h.scripts i call hi
      · intro a ha i hi
        rcases List.mem_append.mp ha with ha | ha
        · exact h.owned a ha i hi
        · rw [List.mem_singleton.mp ha] at hi
          cases hi
  | store hcall _ =>
      exact h.append hcall rfl ((h.scripts _ _ hcall).store _ _ _ _) (hquiet _ rfl) _ _ _
  | miss hcall _ _ =>
      exact h.append hcall rfl ((h.scripts _ _ hcall).miss _ _) (hquiet _ rfl) _ _ _
  | take hcall _ _ =>
      exact h.append hcall rfl ((h.scripts _ _ hcall).take _ _) (hquiet _ rfl) _ _ _
  | @invoke i req id pending hcall =>
      refine h.append hcall rfl (h.scripts _ _ hcall).invoke ?_ _ _ _
      rw [executedIds_snoc]
      show (executedIds s.log ++ [id]).Nodup
      rw [← List.concat_eq_append]
      exact h.executed_nodup.concat (h.not_executed hlog hcall)
  | finish result hcall =>
      refine ⟨?_, ?_, h.executed_nodup⟩
      · apply h.scripts_set
        · intro j _
          rfl
        · exact (h.scripts _ _ hcall).finish _
      · intro a ha i hi
        simp only [GateState.setPhase, List.length_set]
        exact h.owned a ha i hi

/-! ### Counting the calls -/

def Call.isStoring (c : Call) : Bool :=
  match c.phase with
  | .storing => true
  | _ => false

/-- Every draw of the counter belongs to a call of its own. -/
def DrawsCovered (events : List GateEvent) (s : GateState) : Prop :=
  drawn s.log + s.calls.countP Call.isStoring ≤ routed events

/-- One more event counts when it is a call of `route`. -/
theorem routed_snoc (events : List GateEvent) (e : GateEvent) :
    routed (events ++ [e]) = routed events + routed [e] := by
  simp [routed]

/-- Moving a call on trades its place among the storing ones. -/
theorem countP_setPhase {s : GateState} {i : Nat} {req : ActionRequest} {old : Phase}
    (hcall : s.calls[i]? = some ⟨req, old⟩) (phase : Phase) :
    (s.setPhase i req phase).countP Call.isStoring +
        (if Call.isStoring ⟨req, old⟩ then 1 else 0) =
      s.calls.countP Call.isStoring + if Call.isStoring ⟨req, phase⟩ then 1 else 0 := by
  obtain ⟨hlt, heq⟩ := List.getElem?_eq_some_iff.mp hcall
  have hpos : (if Call.isStoring s.calls[i] then 1 else 0) ≤ s.calls.countP Call.isStoring := by
    split
    · rename_i hstoring
      exact List.countP_pos_iff.mpr ⟨_, List.getElem_mem hlt, hstoring⟩
    · exact Nat.zero_le _
  rw [GateState.setPhase, List.countP_set hlt]
  rw [heq] at hpos ⊢
  omega

/-- One step keeps the draws covered by the calls made so far. -/
theorem DrawsCovered.step {events : List GateEvent} {s s' : GateState} {e : GateEvent}
    (h : DrawsCovered events s) (hmove : Moves g s e s') : DrawsCovered (events ++ [e]) s' := by
  unfold DrawsCovered at h ⊢
  rw [routed_snoc]
  cases hmove with
  | call req =>
      have hone : routed [.call req] = 1 := rfl
      have hle : [(⟨req, g.firstPhase req⟩ : Call)].countP Call.isStoring ≤ 1 :=
        List.countP_le_length
      simp only [List.countP_append]
      omega
  | drawElsewhere =>
      have hone : routed [.drawElsewhere] = 1 := rfl
      simp only [drawn_snoc, Action.draws, if_true]
      omega
  | @store i req r hcall _ =>
      have hcount := countP_setPhase hcall
        (.returned (.ok (g.storedReply req (pendingId r.millis s.seq))))
      simp only [Call.isStoring, if_true, Bool.false_eq_true, if_false] at hcount
      simp only [drawn_snoc, Action.draws, if_true]
      omega
  | @miss i req id r hcall _ _ =>
      have hcount := countP_setPhase hcall (.returned (.ok (g.noPendingReply req id)))
      simp only [Call.isStoring, Bool.false_eq_true, if_false] at hcount
      simp only [drawn_snoc, Action.draws, Bool.false_eq_true, if_false]
      omega
  | @take i req id r pending hcall _ _ =>
      have hcount := countP_setPhase hcall (.granted id pending)
      simp only [Call.isStoring, Bool.false_eq_true, if_false] at hcount
      simp only [drawn_snoc, Action.draws, Bool.false_eq_true, if_false]
      omega
  | invoke hcall =>
      have hcount := countP_setPhase hcall .running
      simp only [Call.isStoring, Bool.false_eq_true, if_false] at hcount
      simp only [drawn_snoc, Action.draws, Bool.false_eq_true, if_false]
      omega
  | @finish i req result hcall =>
      have hcount := countP_setPhase hcall
        (.returned (result.map (fun result => [responseEnvelope req.actionId result])))
      simp only [Call.isStoring, Bool.false_eq_true, if_false] at hcount
      dsimp only
      omega

/-- With fewer than 2^64 calls there is still a number left for a call that is about to draw. -/
theorem DrawsCovered.drawn_lt {events : List GateEvent} {s : GateState} (h : DrawsCovered events s)
    (hcount : routed events < 2 ^ 64) {i : Nat} {req : ActionRequest}
    (hcall : s.calls[i]? = some ⟨req, .storing⟩) : drawn s.log < 2 ^ 64 := by
  have hpos : 0 < s.calls.countP Call.isStoring :=
    List.countP_pos_iff.mpr ⟨_, List.mem_of_getElem? hcall, rfl⟩
  unfold DrawsCovered at h
  omega

/-- **One step** keeps the map in line with the history. -/
theorem LogInv.step {start : UInt64} {s s' : GateState} {e : GateEvent} (h : LogInv g start s)
    (hdrawn : ∀ (i : Nat) (req : ActionRequest), s.calls[i]? = some ⟨req, .storing⟩ →
      drawn s.log < 2 ^ 64)
    (hmove : Moves g s e s') : LogInv g start s' := by
  cases hmove with
  | call req => exact { h with }
  | drawElsewhere =>
      refine h.append_quiet rfl rfl ?_ _
      rw [drawn_snoc, h.seq_eq, show Action.draws .drawnElsewhere = true from rfl, if_pos rfl,
        UInt64.ofNat_add, UInt64.add_assoc]
      rfl
  | store hcall hclock => exact h.store (hdrawn _ _ hcall) hclock _
  | miss hcall hclock hfound => exact h.take hclock hfound _
  | take hcall hclock hfound => exact h.take hclock hfound _
  | invoke hcall =>
      refine h.append_quiet rfl rfl ?_ _
      rw [drawn_snoc]
      exact h.seq_eq
  | finish result hcall => exact { h with }

/-- **Whole runs** keep both halves, as long as the counter has not come
round. -/
theorem run_inv {start : UInt64} {clock : Int} : ∀ events s,
    run g.step (initial start clock) events = some s →
      DrawsCovered events s ∧ (routed events < 2 ^ 64 → LogInv g start s ∧ CallInv g s) := by
  apply run_induction
  · exact ⟨by simp [DrawsCovered, ConfirmationGate.initial, drawn, routed],
      fun _ => ⟨.initial start clock, .initial start clock⟩⟩
  · intro events s e s' _ hinv hstep
    obtain ⟨hcovered, hinv⟩ := hinv
    have hmove := Moves.of_step hstep
    refine ⟨hcovered.step hmove, ?_⟩
    intro hcount
    rw [routed_snoc] at hcount
    have hcount : routed events < 2 ^ 64 := by omega
    obtain ⟨hlog, hcalls⟩ := hinv hcount
    exact ⟨hlog.step (fun _ _ hcall => hcovered.drawn_lt hcount hcall) hmove,
      hcalls.step hlog hmove⟩

/-! ### The rule -/

/-- When call `i` looked `id` up, a request for the operation had been stored
under it with these params, no confirmation had taken it, and its age was below
the TTL, here in nanoseconds. -/
def Entitled (g : ConfirmationGate) (ttl : Int) (s : GateState) (i : Nat) (id params : Bytes) :
    Prop :=
  ∃ early now found late j p sweptAt requester,
    s.log = early ++ .taken i id now found :: late ∧ .stored j id p sweptAt ∈ early ∧
    s.calls[j]? = some requester ∧ requester.req.action = requestPrefix ++ g.op ∧
    params = requester.req.paramsJson ∧ id ∉ takenIds early ∧ now - p.createdAt < ttl

/-- The rule for the executor, over the history of a gate with this TTL. -/
structure ExactExecution (g : ConfirmationGate) (ttl : Int) (s : GateState) : Prop where
  /-- A call runs the executor exactly if it is entitled to. -/
  executes_iff : ∀ i call, s.calls[i]? = some call → call.phase.Decided → ∀ params,
    (∃ id, .executed i id params ∈ s.log) ↔
      ∃ id, Asks g call.req id ∧ Entitled g ttl s i id params
  /-- A call that may confirm has looked its id up. -/
  looks_up : ∀ i call, s.calls[i]? = some call → call.phase.Decided → ∀ id,
    Asks g call.req id → ∃ now found, .taken i id now found ∈ s.log
  /-- Every stored request is executed at most once. -/
  executed_once : (executedIds s.log).Nodup
  /-- A call that did not run the executor has taken nothing out. -/
  others_take_nothing : ∀ i call, s.calls[i]? = some call → call.phase.Decided →
    (∀ id params, .executed i id params ∉ s.log) → ∀ id now p, .taken i id now (some p) ∉ s.log
  ids_distinct : (storedIds s.log).Nodup

/-- What a step does to the map.  A critical section first removes exactly what
has reached the TTL at its reading; then it adds the entry it stored, or
removes the one it found.  The other steps leave the map alone. -/
def SectionLaw (ttl : Int) (s : GateState) (e : GateEvent) (s' : GateState) : Prop :=
  match e with
  | .enter _ r => ∃ a, s'.log = s.log ++ [a] ∧ ∀ id p, s'.pending.lookup id = some p ↔
      (∃ i sweptAt, a = .stored i id p sweptAt) ∨
        (s.pending.lookup id = some p ∧ r.sweptAt - p.createdAt < ttl ∧ a.takenId? ≠ some id)
  | _ => s'.pending = s.pending

/-- Whoever stored an entry asked for the operation with its params. -/
theorem CallInv.requester {s : GateState} (h : CallInv g s) {j : Nat} {id : Bytes}
    {p : PendingAction} {sweptAt : Int} (hmem : .stored j id p sweptAt ∈ s.log) :
    ∃ requester, s.calls[j]? = some requester ∧ requester.req.action = requestPrefix ++ g.op ∧
      p.params = requester.req.paramsJson := by
  obtain ⟨requester, hcall, hown, hscript⟩ := h.script_of_mem hmem rfl
  obtain ⟨hdispatch, hparams⟩ := hscript.request_of_stored hown
  exact ⟨requester, hcall, dispatch_eq_store.mp hdispatch, hparams⟩

/-- A decided call that found an entry ran it, and had asked for it. -/
theorem CallInv.executed_of_taken {s : GateState} (h : CallInv g s) {i : Nat} {call : Call}
    (hcall : s.calls[i]? = some call) (hdecided : call.phase.Decided) {id : Bytes} {now : Int}
    {p : PendingAction} (hmem : .taken i id now (some p) ∈ s.log) :
    .executed i id p.params ∈ s.log ∧ Asks g call.req id := by
  obtain ⟨hexecuted, hdispatch⟩ :=
    (h.scripts i call hcall).executed_of_taken hdecided (mem_actionsOf.mpr ⟨hmem, rfl⟩)
  exact ⟨(mem_actionsOf.mp hexecuted).1, dispatch_eq_take.mp hdispatch⟩

/-- A confirmation that is decided has looked its id up. -/
theorem CallInv.looks_up {s : GateState} (h : CallInv g s) {i : Nat} {call : Call}
    (hcall : s.calls[i]? = some call) (hdecided : call.phase.Decided) {id : Bytes}
    (hasks : Asks g call.req id) : ∃ now found, .taken i id now found ∈ s.log := by
  obtain ⟨now, found, hmem⟩ :=
    (h.scripts i call hcall).looks_up hdecided (dispatch_eq_take.mpr hasks)
  exact ⟨now, found, (mem_actionsOf.mp hmem).1⟩

/-- A found entry is one the call was entitled to. -/
theorem LogInv.entitled {start : UInt64} {s : GateState} (h : LogInv g start s)
    (hcalls : CallInv g s) {i : Nat} {id : Bytes} {now : Int} {p : PendingAction}
    (hmem : .taken i id now (some p) ∈ s.log) : Entitled g g.ttlNanos s i id p.params := by
  obtain ⟨early, late, hlog⟩ := List.append_of_mem hmem
  obtain ⟨⟨j, sweptAt, hstored⟩, hnot, hyoung⟩ := (h.claims early i id now _ late hlog p).mp rfl
  obtain ⟨requester, hj, haction, hparams⟩ :=
    hcalls.requester (by rw [hlog]; exact List.mem_append_left _ hstored)
  exact ⟨early, now, _, late, j, p, sweptAt, requester, hlog, hstored, hj, haction, hparams, hnot,
    hyoung⟩

/-- A decided call has executed these params exactly when it asks for an id it
is entitled to with them. -/
theorem LogInv.executes_iff {start : UInt64} {s : GateState} (h : LogInv g start s)
    (hcalls : CallInv g s) {i : Nat} {call : Call} (hcall : s.calls[i]? = some call)
    (hdecided : call.phase.Decided) (params : Bytes) :
    (∃ id, .executed i id params ∈ s.log) ↔
      ∃ id, Asks g call.req id ∧ Entitled g g.ttlNanos s i id params := by
  constructor
  · intro hexecuted
    obtain ⟨id, hexecuted⟩ := hexecuted
    obtain ⟨now, p, htaken, rfl⟩ := hcalls.taken_of_executed hexecuted
    exact ⟨id, (hcalls.executed_of_taken hcall hdecided htaken).2, h.entitled hcalls htaken⟩
  · intro hentitled
    obtain ⟨id, _, early, now, found, late, j, p, sweptAt, requester, hlog, hstored, hj, _, rfl,
      hnot, hyoung⟩ := hentitled
    have hfound : found = some p :=
      (h.claims early i id now found late hlog p).mpr ⟨⟨j, sweptAt, hstored⟩, hnot, hyoung⟩
    have htaken : .taken i id now (some p) ∈ s.log := by
      rw [hlog, hfound]
      simp
    obtain ⟨requester', hj', _, hparams⟩ :=
      hcalls.requester (by rw [hlog]; exact List.mem_append_left _ hstored)
    rw [hj] at hj'
    cases hj'
    rw [← hparams]
    exact ⟨id, (hcalls.executed_of_taken hcall hdecided htaken).1⟩

/-- Each event of a gate obeys the law of its critical section. -/
theorem LogInv.sectionLaw {start : UInt64} {s s' : GateState} {e : GateEvent} (h : LogInv g start s)
    (hdrawn : ∀ (i : Nat) (req : ActionRequest), s.calls[i]? = some ⟨req, .storing⟩ →
      drawn s.log < 2 ^ 64)
    (hmove : Moves g s e s') : SectionLaw g.ttlNanos s e s' := by
  cases hmove with
  | call req => exact rfl
  | drawElsewhere => exact rfl
  | invoke hcall => exact rfl
  | finish result hcall => exact rfl
  | store hcall hclock =>
      refine ⟨_, rfl, ?_⟩
      intro id p
      rw [h.lookup_store (hdrawn _ _ hcall)]
      simp [Young, Action.takenId?, and_comm, eq_comm]
  | miss hcall hclock hfound =>
      refine ⟨_, rfl, ?_⟩
      intro id p
      rw [lookup_take hfound]
      simp [Young, Action.takenId?]
  | take hcall hclock hfound =>
      refine ⟨_, rfl, ?_⟩
      intro id p
      rw [lookup_take hfound]
      simp [Young, Action.takenId?, and_assoc, eq_comm]

/-- Both halves of the invariant give the rule for the executor, with the TTL the
sweep compares. -/
theorem LogInv.exactExecution {start : UInt64} {s : GateState} (h : LogInv g start s)
    (hcalls : CallInv g s) : ExactExecution g g.ttlNanos s where
  executes_iff := fun _ _ hcall hdecided params => h.executes_iff hcalls hcall hdecided params
  looks_up := fun _ _ hcall hdecided _ hasks => hcalls.looks_up hcall hdecided hasks
  executed_once := hcalls.executed_nodup
  others_take_nothing := fun _ _ hcall hdecided hnone id _ p htaken =>
    hnone id p.params (hcalls.executed_of_taken hcall hdecided htaken).1
  ids_distinct := h.ids_nodup

end ConfirmationGate

open ConfirmationGate in
/-- **The execution rule of the gate**, over every run with fewer than `2^64`
calls of `route`, by any callers, in any interleaving, for a TTL that fits the
clock's unit. -/
theorem gate_executes_exactly_confirmed (g : ConfirmationGate) (hfits : TtlFits g) (start : UInt64)
    (clock : Int) (events : List GateEvent) (s : GateState)
    (hrun : run g.step (initial start clock) events = some s) (hcount : routed events < 2 ^ 64) :
    ExactExecution g (g.pendingTtl * millisecond) s ∧
      ∀ e s', g.step s e = some s' → SectionLaw (g.pendingTtl * millisecond) s e s' := by
  obtain ⟨hcovered, hinv⟩ := run_inv events s hrun
  obtain ⟨hlog, hcalls⟩ := hinv hcount
  rw [← hfits.ttlNanos_eq]
  refine ⟨hlog.exactExecution hcalls, ?_⟩
  intro e s' hstep
  exact hlog.sectionLaw (fun _ _ hcall => hcovered.drawn_lt hcount hcall) (Moves.of_step hstep)

namespace ConfirmationGate

def wipeGate : ConfirmationGate where
  op := ascii "wipe"
  description := ascii "Wipe a device"
  paramsSchema := ascii "\x7b\x7d"
  risk := .critical
  confirmCallers := [ascii "phone-1.*"]
  accepted := by decide

def wipeRequest : ActionRequest where
  action := ascii "request_wipe"
  paramsJson := ascii "params"
  callerPluginId := ascii "ai"

def wipeConfirmation : ActionRequest where
  action := ascii "confirm_wipe"
  paramsJson := ascii "\x7b\"pending_id\": \"pending-5-0\"\x7d"
  callerPluginId := ascii "phone-1.ui"

/-- A request, and its confirmation by an approved caller one tick later. -/
def wipeEvents : List GateEvent :=
  [.call wipeRequest, .enter 0 { sweptAt := 1, millis := 5, createdAt := 2 },
    .call wipeConfirmation, .enter 1 { sweptAt := 3 }, .invoke 1, .finish 1 (.ok (.Ok []))]

end ConfirmationGate

open ConfirmationGate in
/-- The default TTL of five minutes fits. -/
theorem gate_executes_exactly_confirmed_wipe :
    ∃ s, run wipeGate.step (initial 0 0) wipeEvents = some s ∧
      .executed 1 (ascii "pending-5-0") (ascii "params") ∈ s.log ∧
      ExactExecution wipeGate (300000 * millisecond) s ∧
      ∀ e s', wipeGate.step s e = some s' → SectionLaw (300000 * millisecond) s e s' := by
  have hran : (run wipeGate.step (initial 0 0) wipeEvents).map (fun s =>
      decide (.executed 1 (ascii "pending-5-0") (ascii "params") ∈ s.log)) = some true := by
    decide +kernel
  obtain ⟨s, hrun, hmem⟩ := Option.map_eq_some_iff.mp hran
  exact ⟨s, hrun, of_decide_eq_true hmem,
    gate_executes_exactly_confirmed wipeGate ⟨by decide, by decide⟩ 0 0 wipeEvents s hrun
      (by decide)⟩

namespace ConfirmationGate

/-- The gate whose requests are to wait for ever: `milliseconds::max()`, which the
sweep takes for one millisecond below zero. -/
def patientGate : ConfirmationGate := wipeGate.withPendingTtl 9223372036854775807

example : patientGate.ttlNanos = -1000000 := by decide

/-- What is stored of the request. -/
def wipeEntry : PendingAction where
  action := ascii "request_wipe"
  params := ascii "params"
  callerPluginId := ascii "ai"
  createdAt := 2

end ConfirmationGate

open ConfirmationGate in
/-- Of the same calls on the patient gate, the confirmation finds nothing: the
sweep before it has removed the request, which is one tick old. -/
theorem endless_ttl_expires_at_once :
    ∃ s, run patientGate.step (initial 0 0) (wipeEvents.take 4) = some s ∧
      s.log = [.stored 0 (ascii "pending-5-0") wipeEntry 1, .taken 1 (ascii "pending-5-0") 3 none] ∧
      ¬ ExactExecution patientGate (patientGate.pendingTtl * millisecond) s := by
  have hran : (run patientGate.step (initial 0 0) (wipeEvents.take 4)).map (fun s =>
      decide (s.log =
        [.stored 0 (ascii "pending-5-0") wipeEntry 1, .taken 1 (ascii "pending-5-0") 3 none]) &&
      decide (s.calls.map (fun call => (call.req, decide call.phase.Decided)) =
        [(wipeRequest, true), (wipeConfirmation, true)])) = some true := by
    decide +kernel
  obtain ⟨s, hrun, hchecks⟩ := Option.map_eq_some_iff.mp hran
  obtain ⟨hlog, hcalls⟩ := Bool.and_eq_true_iff.mp hchecks
  have hlog := of_decide_eq_true hlog
  refine ⟨s, hrun, hlog, ?_⟩
  intro hexact
  obtain ⟨requester, confirmer, hboth, hreq, hconf⟩ :
      ∃ requester confirmer, s.calls = [requester, confirmer] ∧ requester.req = wipeRequest ∧
        (confirmer.req, decide confirmer.phase.Decided) = (wipeConfirmation, true) := by
    obtain ⟨requester, rest, hcons, hreq, hrest⟩ :=
      List.map_eq_cons_iff.mp (of_decide_eq_true hcalls)
    obtain ⟨confirmer, rest', rfl, hconf, hnil⟩ := List.map_eq_cons_iff.mp hrest
    rw [List.map_eq_nil_iff.mp hnil] at hcons
    exact ⟨requester, confirmer, hcons, congrArg Prod.fst hreq, hconf⟩
  have hasks : Asks patientGate confirmer.req (ascii "pending-5-0") := by
    rw [(Prod.mk.inj hconf).1]
    exact dispatch_eq_take.mp (by decide +kernel)
  have hentitled : Entitled patientGate (patientGate.pendingTtl * millisecond) s 1
      (ascii "pending-5-0") (ascii "params") := by
    refine ⟨[.stored 0 (ascii "pending-5-0") wipeEntry 1], 3, none, [], 0, wipeEntry, 1, requester,
      hlog, List.mem_singleton_self _, by rw [hboth]; rfl, ?_, ?_, by decide, by decide⟩
    · rw [hreq]
      rfl
    · rw [hreq]
      rfl
  obtain ⟨id, hexecuted⟩ := (hexact.executes_iff 1 confirmer (by rw [hboth]; rfl)
    (of_decide_eq_true (Prod.mk.inj hconf).2) _).mpr ⟨_, hasks, hentitled⟩
  rw [hlog] at hexecuted
  simp at hexecuted

end Vynkor
