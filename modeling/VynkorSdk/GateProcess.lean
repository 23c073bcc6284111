import Mathlib.Algebra.BigOperators.Group.Finset.Basic
import VynkorSdk.GateExecution

/-!
# The gates of one process

A plugin may hold several gates.  Each has its own mutex, pending map and clock
readings; the counter behind the pending ids is one for the whole process.

`step` is the step of one gate, on its own part and the shared counter.  What
the process does looks to each gate like a run of its own machine in which the
others' draws of the counter come from elsewhere (`GateView.step`), so every law
of a single gate holds of each.  In addition the gates do not mix: an id issued by
one of them opens nothing at another.
-/

namespace Vynkor

open ByteCodec KeyedTable StepMachine

namespace ConfirmationGate

/-- What one gate owns. -/
structure GatePart where
  pending : PendingMap := ∅
  clock : Int
  calls : List Call := []
  /-- History.  No step reads it. -/
  log : List Action := []

/-- The process: `next_seq()` and its gates. -/
structure ProcessState (ι : Type) where
  seq : UInt64
  parts : ι → GatePart

namespace ProcessState

variable {ι : Type}

/-- One gate with the counter it draws from. -/
def view (s : ProcessState ι) (i : ι) : GateState where
  pending := (s.parts i).pending
  seq := s.seq
  clock := (s.parts i).clock
  calls := (s.parts i).calls
  log := (s.parts i).log

end ProcessState

def GateState.part (s : GateState) : GatePart := ⟨s.pending, s.clock, s.calls, s.log⟩

/-- The draw goes on record at the gates that did not make it. -/
def GatePart.drawnElsewhere (p : GatePart) : GatePart :=
  { p with log := p.log ++ [.drawnElsewhere] }

namespace Process

variable {ι : Type} [DecidableEq ι] (gates : ι → ConfirmationGate)

/-- The process after gate `i` has moved to `t`. -/
def moved (s : ProcessState ι) (i : ι) (t : GateState) : ProcessState ι where
  seq := t.seq
  parts := fun j =>
    if j = i then t.part
    else if t.seq = s.seq then s.parts j
    else (s.parts j).drawnElsewhere

/-- One step of one gate.  All draws of the counter are made by the gates. -/
def step (s : ProcessState ι) : ι × GateEvent → Option (ProcessState ι)
  | (_, .drawElsewhere) => none
  | (i, e) => ((gates i).step (s.view i) e).map (moved s i)

/-- New gates, in a process whose counter stands at `start`. -/
def initial (start : UInt64) (clock : ι → Int) : ProcessState ι where
  seq := start
  parts := fun i => { clock := clock i }

/-- Number of `route` calls in a run, on all gates. -/
def routed (events : List (ι × GateEvent)) : Nat :=
  ConfirmationGate.routed (events.map Prod.snd)

/-! ### One gate of the process -/

/-- **What one step does to the counter**: nothing, or one draw on record. -/
theorem Moves.draw {g : ConfirmationGate} {s s' : GateState} {e : GateEvent} (h : Moves g s e s') :
    (s'.seq = s.seq ∧ drawn s'.log = drawn s.log) ∨
      (s'.seq = s.seq + 1 ∧ drawn s'.log = drawn s.log + 1) := by
  cases h with
  | call req => exact Or.inl ⟨rfl, rfl⟩
  | drawElsewhere => exact Or.inr ⟨rfl, by rw [drawn_snoc]; rfl⟩
  | store _ _ => exact Or.inr ⟨rfl, by rw [drawn_snoc]; rfl⟩
  | miss _ _ _ => exact Or.inl ⟨rfl, by rw [drawn_snoc]; rfl⟩
  | take _ _ _ => exact Or.inl ⟨rfl, by rw [drawn_snoc]; rfl⟩
  | invoke _ => exact Or.inl ⟨rfl, by rw [drawn_snoc]; rfl⟩
  | finish _ _ => exact Or.inl ⟨rfl, rfl⟩

/-- A draw of another gate shows in the counter only. -/
theorem Moves.of_drawElsewhere {g : ConfirmationGate} {s s' : GateState}
    (h : Moves g s .drawElsewhere s') : s'.calls = s.calls ∧ drawn s'.log = drawn s.log + 1 ∧
      storedIds s'.log = storedIds s.log := by
  cases h
  exact ⟨rfl, by rw [drawn_snoc]; rfl, by rw [storedIds_snoc]; simp [Action.storedId?]⟩

/-- The counter moves on with every draw. -/
theorem succ_ne_self (n : UInt64) : n + 1 ≠ n := by
  intro h
  simp at h

variable {gates}

/-- **A step of the process** is a step of its gate, and a draw from elsewhere
for the others if it draws. -/
theorem view_step {s s' : ProcessState ι} {i : ι} {e : GateEvent}
    (h : step gates s (i, e) = some s') :
    Moves (gates i) (s.view i) e (s'.view i) ∧ ∀ j, j ≠ i →
      (s'.seq = s.seq ∧ s'.view j = s.view j) ∨
        (s'.seq = s.seq + 1 ∧ Moves (gates j) (s.view j) .drawElsewhere (s'.view j)) := by
  have hgate : ∃ t, (gates i).step (s.view i) e = some t ∧ moved s i t = s' := by
    cases e with
    | drawElsewhere => cases h
    | call req => exact Option.map_eq_some_iff.mp h
    | enter k r => exact Option.map_eq_some_iff.mp h
    | invoke k => exact Option.map_eq_some_iff.mp h
    | finish k result => exact Option.map_eq_some_iff.mp h
  obtain ⟨t, ht, rfl⟩ := hgate
  have hmove := Moves.of_step ht
  have hself : (moved s i t).view i = t := by
    simp [moved, ProcessState.view, GateState.part]
  refine ⟨by rw [hself]; exact hmove, ?_⟩
  intro j hj
  rcases Moves.draw hmove with ⟨hseq, _⟩ | ⟨hseq, _⟩
  · refine Or.inl ⟨hseq, ?_⟩
    have hsame : t.seq = s.seq := hseq
    simp [moved, ProcessState.view, hj, hsame]
  · refine Or.inr ⟨hseq, ?_⟩
    have hother : (moved s i t).view j =
        { s.view j with
          seq := (s.view j).seq + 1, log := (s.view j).log ++ [.drawnElsewhere] } := by
      have hsucc : t.seq = s.seq + 1 := hseq
      simp [moved, ProcessState.view, GatePart.drawnElsewhere, hj, hsucc]
    rw [hother]
    exact .drawElsewhere

/-! ### The invariant of the process -/

/-- A step of one gate within the budget of the calls. -/
theorem draws_budget {g : ConfirmationGate} {s s' : GateState} {e : GateEvent}
    (h : Moves g s e s') :
    drawn s'.log + s'.calls.countP Call.isStoring ≤
      drawn s.log + s.calls.countP Call.isStoring + ConfirmationGate.routed [e] := by
  let before : List GateEvent :=
    List.replicate (drawn s.log + s.calls.countP Call.isStoring) .drawElsewhere
  have hbefore : ConfirmationGate.routed before =
      drawn s.log + s.calls.countP Call.isStoring := by
    rw [ConfirmationGate.routed, List.countP_replicate]
    exact if_pos rfl
  have hcovered : DrawsCovered before s := Nat.le_of_eq hbefore.symm
  have hafter := hcovered.step h
  rw [DrawsCovered, routed_snoc, hbefore] at hafter
  exact hafter

omit [DecidableEq ι] in
/-- One more event of a process counts when it is a call of `route`. -/
theorem routed_snoc (events : List (ι × GateEvent)) (i : ι) (e : GateEvent) :
    routed (events ++ [(i, e)]) = routed events + ConfirmationGate.routed [e] := by
  rw [routed, List.map_append, List.map_singleton, ConfirmationGate.routed_snoc]
  rfl

variable [Fintype ι]

/-- The calls that are still to draw from the counter. -/
def storing (s : ProcessState ι) : Nat := ∑ i, (s.view i).calls.countP Call.isStoring

variable (gates) in
structure ProcessInv (start : UInt64) (events : List (ι × GateEvent)) (s : ProcessState ι) :
    Prop where
  /-- Every draw is on record at every gate. -/
  even : ∀ i j, drawn (s.view i).log = drawn (s.view j).log
  covered : ∀ i, drawn (s.view i).log + storing s ≤ routed events
  each : routed events < 2 ^ 64 →
    ∀ i, LogInv (gates i) start (s.view i) ∧ CallInv (gates i) (s.view i)
  apart : routed events < 2 ^ 64 → ∀ i j, i ≠ j →
    ∀ id ∈ storedIds (s.view i).log, id ∉ storedIds (s.view j).log

omit [DecidableEq ι] in
/-- A process in which nothing has happened satisfies the invariant. -/
theorem ProcessInv.initial (start : UInt64) (clock : ι → Int) :
    ProcessInv gates start [] (initial start clock) := by
  have hview : ∀ i, (Process.initial start clock).view i =
      ConfirmationGate.initial start (clock i) := fun _ => rfl
  refine ⟨fun _ _ => rfl, ?_, ?_, ?_⟩
  · intro i
    simp [storing, hview, ConfirmationGate.initial, drawn]
  · intro _ i
    rw [hview]
    exact ⟨.initial start (clock i), .initial start (clock i)⟩
  · intro _ i j _ id hid
    rw [hview] at hid
    simp [ConfirmationGate.initial, storedIds] at hid

omit [Fintype ι] in
/-- The draw of one gate is on record at all of them. -/
theorem even_step {s s' : ProcessState ι} {i : ι} {e : GateEvent}
    (heven : ∀ j k, drawn (s.view j).log = drawn (s.view k).log)
    (hmove : Moves (gates i) (s.view i) e (s'.view i))
    (hothers : ∀ j, j ≠ i → (s'.seq = s.seq ∧ s'.view j = s.view j) ∨
      (s'.seq = s.seq + 1 ∧ Moves (gates j) (s.view j) .drawElsewhere (s'.view j))) (j : ι) :
    drawn (s'.view j).log = drawn (s'.view i).log := by
  by_cases hj : j = i
  · rw [hj]
  have hseq : (s'.view i).seq = s'.seq := rfl
  have hseq₀ : (s.view i).seq = s.seq := rfl
  rcases hothers j hj with ⟨hsame, hview⟩ | ⟨hsucc, hdraw⟩
  · rcases Moves.draw hmove with ⟨_, hlog⟩ | ⟨hother, _⟩
    · rw [hview, hlog, heven j i]
    · rw [hseq, hseq₀, hsame] at hother
      exact absurd hother.symm (succ_ne_self _)
  · have hlog := (Moves.of_drawElsewhere hdraw).2.1
    rcases Moves.draw hmove with ⟨hother, _⟩ | ⟨_, hmoved⟩
    · rw [hseq, hseq₀, hsucc] at hother
      exact absurd hother (succ_ne_self _)
    · rw [hlog, hmoved, heven j i]

omit [DecidableEq ι] [Fintype ι] in
/-- A gate that does not move keeps its calls. -/
theorem calls_other {s s' : ProcessState ι} {j : ι}
    (h : (s'.seq = s.seq ∧ s'.view j = s.view j) ∨
      (s'.seq = s.seq + 1 ∧ Moves (gates j) (s.view j) .drawElsewhere (s'.view j))) :
    (s'.view j).calls = (s.view j).calls := by
  rcases h with ⟨_, hview⟩ | ⟨_, hdraw⟩
  · rw [hview]
  · exact (Moves.of_drawElsewhere hdraw).1

/-- One step keeps the draws of every gate covered by the calls made so far. -/
theorem covered_step {events : List (ι × GateEvent)} {s s' : ProcessState ι} {i : ι}
    {e : GateEvent} (hcovered : drawn (s.view i).log + storing s ≤ routed events)
    (hmove : Moves (gates i) (s.view i) e (s'.view i))
    (hothers : ∀ j, j ≠ i → (s'.view j).calls = (s.view j).calls) :
    drawn (s'.view i).log + storing s' ≤ routed (events ++ [(i, e)]) := by
  have hbudget := draws_budget hmove
  have hrest : ∑ j ∈ Finset.univ.erase i, (s'.view j).calls.countP Call.isStoring =
      ∑ j ∈ Finset.univ.erase i, (s.view j).calls.countP Call.isStoring := by
    apply Finset.sum_congr rfl
    intro j hj
    rw [hothers j (Finset.ne_of_mem_erase hj)]
  have hsplit := Finset.add_sum_erase Finset.univ
    (fun j => (s.view j).calls.countP Call.isStoring) (Finset.mem_univ i)
  have hsplit' := Finset.add_sum_erase Finset.univ
    (fun j => (s'.view j).calls.countP Call.isStoring) (Finset.mem_univ i)
  rw [routed_snoc]
  unfold storing at hcovered ⊢
  omega

/-- A step stores nothing, or one entry under the id drawn. -/
theorem storedIds_move {g : ConfirmationGate} {s s' : GateState} {e : GateEvent}
    (h : Moves g s e s') : storedIds s'.log = storedIds s.log ∨
      ∃ millis, storedIds s'.log = storedIds s.log ++ [pendingId millis s.seq] := by
  cases h with
  | call req => exact Or.inl rfl
  | drawElsewhere => exact Or.inl (by rw [storedIds_snoc]; simp [Action.storedId?])
  | @store i req r _ _ => exact Or.inr ⟨r.millis, by rw [storedIds_snoc]; rfl⟩
  | miss _ _ _ => exact Or.inl (by rw [storedIds_snoc]; simp [Action.storedId?])
  | take _ _ _ => exact Or.inl (by rw [storedIds_snoc]; simp [Action.storedId?])
  | invoke _ => exact Or.inl (by rw [storedIds_snoc]; simp [Action.storedId?])
  | finish _ _ => exact Or.inl rfl

omit [Fintype ι] in
/-- An id of gate `j` is an old one of it, or the one drawn by this step. -/
theorem storedIds_view {s s' : ProcessState ι} {i : ι} {e : GateEvent}
    (h : step gates s (i, e) = some s') {j : ι} {id : Bytes}
    (hid : id ∈ storedIds (s'.view j).log) :
    id ∈ storedIds (s.view j).log ∨ (j = i ∧ ∃ millis, id = pendingId millis s.seq) := by
  obtain ⟨hmove, hothers⟩ := view_step h
  by_cases hj : j = i
  · subst hj
    rcases storedIds_move hmove with hsame | ⟨millis, hnew⟩
    · exact Or.inl (hsame ▸ hid)
    · rw [hnew, List.mem_append, List.mem_singleton] at hid
      rcases hid with hid | heq
      · exact Or.inl hid
      · exact Or.inr ⟨rfl, millis, heq⟩
  · refine Or.inl ?_
    rcases hothers j hj with ⟨_, hview⟩ | ⟨_, hdraw⟩
    · exact hview ▸ hid
    · exact (Moves.of_drawElsewhere hdraw).2.2 ▸ hid

/-- **One step of the process.** -/
theorem ProcessInv.step {start : UInt64} {events : List (ι × GateEvent)} {s s' : ProcessState ι}
    (h : ProcessInv gates start events s) {i : ι} {e : GateEvent}
    (hstep : Process.step gates s (i, e) = some s') :
    ProcessInv gates start (events ++ [(i, e)]) s' := by
  obtain ⟨hmove, hothers⟩ := view_step hstep
  have heven := even_step h.even hmove hothers
  have hcovered := covered_step (h.covered i) hmove (fun j hj => calls_other (hothers j hj))
  have hbefore : routed (events ++ [(i, e)]) < 2 ^ 64 → routed events < 2 ^ 64 := by
    intro hcount
    rw [routed_snoc] at hcount
    omega
  have hdrawn : ∀ j, routed events < 2 ^ 64 → drawn (s.view j).log < 2 ^ 64 := by
    intro j hcount
    have := h.covered j
    omega
  refine ⟨fun j k => (heven j).trans (heven k).symm, fun j => heven j ▸ hcovered, ?_, ?_⟩
  · intro hcount j
    obtain ⟨hlog, hcalls⟩ := h.each (hbefore hcount) j
    have hlt := hdrawn j (hbefore hcount)
    by_cases hj : j = i
    · subst hj
      exact ⟨hlog.step (fun _ _ _ => hlt) hmove, hcalls.step hlog hmove⟩
    · rcases hothers j hj with ⟨_, hview⟩ | ⟨_, hdraw⟩
      · rw [hview]
        exact ⟨hlog, hcalls⟩
      · exact ⟨hlog.step (fun _ _ _ => hlt) hdraw, hcalls.step hlog hdraw⟩
  · intro hcount j k hjk id hj hk
    have hfresh : ∀ l millis, pendingId millis s.seq ∉ storedIds (s.view l).log := by
      intro l millis
      exact (h.each (hbefore hcount) l).1.fresh (hdrawn l (hbefore hcount)) millis
    rcases storedIds_view hstep hj with hj | ⟨hji, millis, rfl⟩
    · rcases storedIds_view hstep hk with hk | ⟨_, millis, rfl⟩
      · exact h.apart (hbefore hcount) j k hjk id hj hk
      · exact hfresh j millis hj
    · rcases storedIds_view hstep hk with hk | ⟨hki, _⟩
      · exact hfresh k millis hk
      · exact hjk (hji.trans hki.symm)

/-- **Runs of the process.** -/
theorem process_run_inv {start : UInt64} {clock : ι → Int} :
    ∀ events s, run (Process.step gates) (Process.initial start clock) events = some s →
      ProcessInv gates start events s := by
  apply run_induction
  · exact .initial start clock
  · intro events s e s' _ hinv hstep
    exact hinv.step hstep

end Process

/-- What is taken out under an id was stored under it. -/
theorem LogInv.storedId_of_taken {g : ConfirmationGate} {start : UInt64} {s : GateState}
    (h : LogInv g start s) {i : Nat} {id : Bytes} {now : Int} {p : PendingAction}
    (hmem : .taken i id now (some p) ∈ s.log) : id ∈ storedIds s.log := by
  obtain ⟨early, late, hlog⟩ := List.append_of_mem hmem
  obtain ⟨⟨j, sweptAt, hstored⟩, _⟩ := (h.claims early i id now _ late hlog p).mp rfl
  rw [hlog]
  exact List.mem_filterMap.mpr ⟨_, List.mem_append_left _ hstored, rfl⟩

/-- What holds of the gates of a process: the rule of a gate at each of them, with
the TTL its sweep compares, and an id issued by one is unknown to the others. -/
structure GatesApart {ι : Type} (gates : ι → ConfirmationGate) (s : ProcessState ι) : Prop where
  each : ∀ i, ExactExecution (gates i) (gates i).ttlNanos (s.view i)
  unknown : ∀ i j, i ≠ j → ∀ call id p sweptAt, .stored call id p sweptAt ∈ (s.parts i).log →
    (∀ k now found, .taken k id now found ∈ (s.parts j).log → found = none) ∧
    ∀ k params, .executed k id params ∉ (s.parts j).log

/-! ### How many requests are pending -/

/-- `pending_count`. -/
def pendingCount (s : GateState) : Nat := size s.pending

/-- The last critical section of a history. -/
def lastSection (log : List Action) : Option Action :=
  (log.filter (fun a => a.reading?.isSome)).getLast?

/-- The ids of the requests in a history that are younger than the TTL at `now`. -/
def recentIds (ttl now : Int) (log : List Action) : List Bytes :=
  log.filterMap (fun a => match a with
    | .stored _ id p _ => if now - p.createdAt < ttl then some id else none
    | _ => none)

/-- A kept entry was stored by the last section, or was young at its reading. -/
theorem Kept.recent {g : ConfirmationGate} {log : List Action} {id : Bytes} {p : PendingAction}
    (h : Kept g log id p) : ∃ a now, lastSection log = some a ∧ a.reading? = some now ∧
      (a.storedId? = some id ∨ id ∈ recentIds g.ttlNanos now log) := by
  obtain ⟨early, late, i, sweptAt, rfl, hyoung⟩ := h
  have hsections : (early ++ .stored i id p sweptAt :: late).filter (fun a => a.reading?.isSome) =
      early.filter (fun a => a.reading?.isSome) ++
        .stored i id p sweptAt :: late.filter (fun a => a.reading?.isSome) := by
    rw [List.filter_append]
    rfl
  rcases List.eq_nil_or_concat (late.filter (fun a => a.reading?.isSome)) with hnone | ⟨init, a, ha⟩
  · refine ⟨.stored i id p sweptAt, sweptAt, ?_, rfl, Or.inl rfl⟩
    rw [lastSection, hsections, hnone]
    simp
  · rw [List.concat_eq_append] at ha
    have hmem : a ∈ late.filter (fun a => a.reading?.isSome) := by simp [ha]
    obtain ⟨hlate, hread⟩ := List.mem_filter.mp hmem
    obtain ⟨now, hnow⟩ := Option.isSome_iff_exists.mp hread
    refine ⟨a, now, ?_, hnow, Or.inr ?_⟩
    · rw [lastSection, hsections, ha, ← List.cons_append, ← List.append_assoc, List.getLast?_concat]
    · refine List.mem_filterMap.mpr ⟨.stored i id p sweptAt, by simp, ?_⟩
      exact if_pos (hyoung a hlate now hnow)

/-- What is pending was stored less than a TTL before the last critical section,
or by it. -/
def PendingBounded (ttl : Int) (s : GateState) : Prop :=
  match lastSection s.log with
  | none => pendingCount s = 0
  | some a => ∀ now, a.reading? = some now → pendingCount s ≤ (recentIds ttl now s.log).length + 1

/-- The invariant of the log bounds what is pending. -/
theorem LogInv.pendingBounded {g : ConfirmationGate} {start : UInt64} {s : GateState}
    (h : LogInv g start s) : PendingBounded g.ttlNanos s := by
  have hkept : ∀ id ∈ s.pending.keys, ∃ p, Kept g s.log id p := by
    intro id hid
    obtain ⟨p, hp⟩ := Option.isSome_iff_exists.mp (AList.lookup_isSome.mpr hid)
    exact ⟨p, ((h.pending_iff id p).mp hp).2⟩
  have hcount : pendingCount s = s.pending.keys.length := size_eq_keys_length s.pending
  have hnodup : s.pending.keys.Nodup := s.pending.nodupKeys
  unfold PendingBounded
  cases hlast : lastSection s.log with
  | none =>
      have hempty : s.pending.keys = [] := by
        rw [List.eq_nil_iff_forall_not_mem]
        intro id hid
        obtain ⟨p, hp⟩ := hkept id hid
        obtain ⟨a, _, hsome, _⟩ := hp.recent
        cases hlast.symm.trans hsome
      rw [hcount, hempty]
      rfl
  | some a =>
      intro now hnow
      have hsubset : s.pending.keys ⊆ recentIds g.ttlNanos now s.log ++ a.storedId?.toList := by
        intro id hid
        obtain ⟨p, hp⟩ := hkept id hid
        obtain ⟨b, now', hsome, hnow', hcase⟩ := hp.recent
        cases hlast.symm.trans hsome
        cases hnow.symm.trans hnow'
        rcases hcase with hstored | hrecent
        · exact List.mem_append_right _ (by simp [hstored])
        · exact List.mem_append_left _ hrecent
      have hlength := (hnodup.subperm hsubset).length_le
      have hone : a.storedId?.toList.length ≤ 1 := by cases a.storedId? <;> simp
      rw [List.length_append] at hlength
      omega

end ConfirmationGate

open ConfirmationGate in
/-- **The gates of a process do not mix**, however the calls on them interleave. -/
theorem gates_of_process_apart {ι : Type} [DecidableEq ι] [Fintype ι] (gates : ι → ConfirmationGate)
    (start : UInt64) (clock : ι → Int) (events : List (ι × GateEvent)) (s : ProcessState ι)
    (hrun : run (Process.step gates) (Process.initial start clock) events = some s)
    (hcount : Process.routed events < 2 ^ 64) : GatesApart gates s := by
  have hinv := Process.process_run_inv events s hrun
  have heach := hinv.each hcount
  refine ⟨fun i => (heach i).1.exactExecution (heach i).2, ?_⟩
  intro i j hij call id p sweptAt hstored
  have hnot : id ∉ storedIds (s.view j).log :=
    hinv.apart hcount i j hij id (List.mem_filterMap.mpr ⟨_, hstored, rfl⟩)
  have hnothing : ∀ k now p, .taken k id now (some p) ∉ (s.parts j).log :=
    fun k now p hmem => hnot ((heach j).1.storedId_of_taken hmem)
  constructor
  · intro k now found hmem
    cases found with
    | none => rfl
    | some p => exact absurd hmem (hnothing k now p)
  · intro k params hmem
    obtain ⟨now, p, htaken, _⟩ := (heach j).2.taken_of_executed hmem
    exact hnothing k now p htaken

namespace ConfirmationGate

def lockGate : ConfirmationGate where
  op := ascii "lock"
  description := ascii "Lock a device"
  paramsSchema := ascii "\x7b\x7d"
  risk := .high
  confirmCallers := [ascii "phone-1.*"]
  accepted := by decide

/-- Two gates in one plugin. -/
def deviceGates (wipe : Bool) : ConfirmationGate := if wipe then wipeGate else lockGate

/-- A request to lock, and its id presented to the other gate. -/
def crossedEvents : List (Bool × GateEvent) :=
  [(false, .call { action := ascii "request_lock", paramsJson := ascii "params",
                   callerPluginId := ascii "ai" }),
    (false, .enter 0 { sweptAt := 1, millis := 5, createdAt := 2 }),
    (true, .call { action := ascii "confirm_wipe", callerPluginId := ascii "phone-1.ui",
                   paramsJson := ascii "\x7b\"pending_id\": \"pending-5-0\"\x7d" }),
    (true, .enter 0 { sweptAt := 3, millis := 5, createdAt := 3 })]

end ConfirmationGate

open ConfirmationGate in
/-- The crossed run: the second gate does not find the first gate's id. -/
theorem gates_of_process_apart_crossed :
    ∃ s, run (Process.step deviceGates) (Process.initial 0 fun _ => 0) crossedEvents = some s ∧
      (s.parts true).log = [.drawnElsewhere, .taken 0 (ascii "pending-5-0") 3 none] ∧
      GatesApart deviceGates s := by
  have hran : (run (Process.step deviceGates) (Process.initial 0 fun _ => 0) crossedEvents).map
      (fun s => decide ((s.parts true).log =
        [.drawnElsewhere, .taken 0 (ascii "pending-5-0") 3 none])) = some true := by
    decide +kernel
  obtain ⟨s, hrun, hlog⟩ := Option.map_eq_some_iff.mp hran
  exact ⟨s, hrun, of_decide_eq_true hlog,
    gates_of_process_apart deviceGates 0 (fun _ => 0) crossedEvents s hrun (by decide)⟩

open ConfirmationGate in
/-- **Abandoned requests do not pile up** at any gate of a process whose TTL fits the
clock's unit. -/
theorem pending_requests_bounded {ι : Type} [DecidableEq ι] [Fintype ι]
    (gates : ι → ConfirmationGate) (start : UInt64) (clock : ι → Int)
    (events : List (ι × GateEvent)) (s : ProcessState ι)
    (hrun : run (Process.step gates) (Process.initial start clock) events = some s)
    (hcount : Process.routed events < 2 ^ 64) (i : ι) (hfits : TtlFits (gates i)) :
    PendingBounded ((gates i).pendingTtl * millisecond) (s.view i) := by
  rw [← hfits.ttlNanos_eq]
  exact ((Process.process_run_inv events s hrun).each hcount i).1.pendingBounded

open ConfirmationGate in
/-- The crossed run: one request pending, within the bound. -/
theorem pending_requests_bounded_crossed :
    ∃ s, run (Process.step deviceGates) (Process.initial 0 fun _ => 0) crossedEvents = some s ∧
      pendingCount (s.view false) = 1 ∧ PendingBounded (300000 * millisecond) (s.view false) := by
  have hran : (run (Process.step deviceGates) (Process.initial 0 fun _ => 0) crossedEvents).map
      (fun s => decide (pendingCount (s.view false) = 1)) = some true := by
    decide +kernel
  obtain ⟨s, hrun, hone⟩ := Option.map_eq_some_iff.mp hran
  exact ⟨s, hrun, of_decide_eq_true hone,
    pending_requests_bounded deviceGates 0 (fun _ => 0) crossedEvents s hrun (by decide) false
      ⟨by decide, by decide⟩⟩

end Vynkor
