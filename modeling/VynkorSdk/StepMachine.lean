import Mathlib.Data.List.Induction
import Mathlib.Data.List.Nodup
import Mathlib.Data.List.Pairwise
import Mathlib.Order.WellFounded

/-!
# Runs of a step function

A system of interleaved parties is a step function on a shared state: an event
says which party moves and what its environment does, and the step is `none`
where the event is not possible.  `run_induction` is the invariant rule, with
the events so far at hand; `run_reaches` takes a run apart again.

Histories are lists that steps extend at the end: `snoc_eq_iff` splits an
extended one, and `eq_of_filterMap_nodup` reads a uniqueness fact off it.

Some of the events are the system's own, the others bring it something.  Where a
measure falls at each step of its own, `no_endless_run` and `runs_to_stuck` say
that it comes to rest.
-/

namespace StepMachine

variable {σ ε : Type}

/-- The state after a sequence of events. -/
def run (step : σ → ε → Option σ) (s : σ) (events : List ε) : Option σ :=
  events.foldlM step s

/-- No event, no step. -/
@[simp] theorem run_nil (step : σ → ε → Option σ) (s : σ) : run step s [] = some s := rfl

/-- A run takes its first step first. -/
@[simp] theorem run_cons (step : σ → ε → Option σ) (s : σ) (e : ε) (events : List ε) :
    run step s (e :: events) = (step s e).bind (fun s' => run step s' events) := rfl

/-- A run takes its last step last. -/
@[simp] theorem run_snoc (step : σ → ε → Option σ) (s : σ) (events : List ε) (e : ε) :
    run step s (events ++ [e]) = (run step s events).bind (fun s' => step s' e) := by
  simp [run, List.foldlM_append]

/-- **Invariant rule.**  What holds at the start and is kept by every possible
step holds after every run. -/
theorem run_induction {step : σ → ε → Option σ} {s₀ : σ} {P : List ε → σ → Prop}
    (hinit : P [] s₀)
    (hstep : ∀ events s e s', run step s₀ events = some s → P events s → step s e = some s' →
      P (events ++ [e]) s') :
    ∀ events s, run step s₀ events = some s → P events s := by
  intro events
  induction events using List.reverseRecOn with
  | nil =>
      intro s hrun
      cases hrun
      exact hinit
  | append_singleton events e ih =>
      intro s' hrun
      rw [run_snoc, Option.bind_eq_some_iff] at hrun
      obtain ⟨s, hrun, hlast⟩ := hrun
      exact hstep events s e s' hrun (ih s hrun) hlast

/-! ### Coming to rest -/

/-- None of these events is possible. -/
def Stuck (step : σ → ε → Option σ) (own : ε → Prop) (s : σ) : Prop :=
  ∀ e, own e → step s e = none

/-- A step with one of these events leads from `s` to `s'`. -/
def Behind (step : σ → ε → Option σ) (own : ε → Prop) (s' s : σ) : Prop :=
  ∃ e, own e ∧ step s e = some s'

/-- **Measure rule.**  Where an invariant is kept and a measure falls, there is
no going on for ever. -/
theorem acc_of_measure {step : σ → ε → Option σ} {own : ε → Prop} {α : Type} {lt : α → α → Prop}
    (hwf : WellFounded lt) (measure : σ → α) {I : σ → Prop}
    (hstep : ∀ s e s', I s → own e → step s e = some s' → I s' ∧ lt (measure s') (measure s)) :
    ∀ s, I s → Acc (Behind step own) s := by
  intro s
  induction hs : measure s using hwf.induction generalizing s with
  | h a ih =>
      intro hI
      refine ⟨s, ?_⟩
      rintro s' ⟨e, he, hnext⟩
      obtain ⟨hI', hlt⟩ := hstep s e s' hI he hnext
      exact ih _ (hs ▸ hlt) s' rfl hI'

/-- From an accessible state no endless run of own events starts. -/
theorem no_endless_run {step : σ → ε → Option σ} {own : ε → Prop} {s : σ}
    (h : Acc (Behind step own) s) :
    ¬ ∃ f : Nat → σ, f 0 = s ∧ ∀ n, ∃ e, own e ∧ step (f n) e = some (f (n + 1)) :=
  fun hendless => not_acc_iff_exists_descending_chain.mpr hendless h

/-- From an accessible state some run of own events comes to rest. -/
theorem runs_to_stuck {step : σ → ε → Option σ} {own : ε → Prop} {s : σ}
    (h : Acc (Behind step own) s) :
    ∃ events s', (∀ e ∈ events, own e) ∧ run step s events = some s' ∧ Stuck step own s' := by
  induction h with
  | intro s _ ih =>
      by_cases hstuck : Stuck step own s
      · exact ⟨[], s, by simp, rfl, hstuck⟩
      · simp only [Stuck, not_forall] at hstuck
        obtain ⟨e, he, hsome⟩ := hstuck
        obtain ⟨s₁, hstep⟩ := Option.ne_none_iff_exists'.mp hsome
        obtain ⟨events, s', hown, hrun, hend⟩ := ih s₁ ⟨e, he, hstep⟩
        refine ⟨e :: events, s', List.forall_mem_cons.mpr ⟨he, hown⟩, ?_, hend⟩
        rw [run_cons, hstep]
        exact hrun

/-! ### Histories -/

/-- A member of an extended history: the last one, or one of the old. -/
theorem snoc_eq_iff {α : Type} {l early late : List α} {a b : α} :
    l ++ [a] = early ++ b :: late ↔
      (late = [] ∧ early = l ∧ b = a) ∨ ∃ late', late = late' ++ [a] ∧ l = early ++ b :: late' := by
  constructor
  · intro h
    rcases List.eq_nil_or_concat late with rfl | ⟨late', c, rfl⟩
    · have hlast := List.append_inj_right' h rfl
      have hinit := List.append_inj_left' h rfl
      simp only [List.cons.injEq, and_true] at hlast
      exact Or.inl ⟨rfl, hinit.symm, hlast.symm⟩
    · rw [List.concat_eq_append, ← List.cons_append, ← List.append_assoc] at h
      have hlast := List.append_inj_right' h rfl
      have hinit := List.append_inj_left' h rfl
      simp only [List.cons.injEq, and_true] at hlast
      exact Or.inr ⟨late', by rw [hlast, List.concat_eq_append], hinit⟩
  · intro h
    rcases h with ⟨rfl, rfl, rfl⟩ | ⟨late', rfl, rfl⟩
    · rfl
    · simp

/-- A position of an extended history: an old one, or the new one. -/
theorem getElem?_snoc_cases {α : Type} {l : List α} {a b : α} {k : Nat}
    (h : (l ++ [a])[k]? = some b) : l[k]? = some b ∨ (k = l.length ∧ b = a) := by
  rw [List.getElem?_append] at h
  split at h
  · exact Or.inl h
  · obtain ⟨hlt, heq⟩ := List.getElem?_eq_some_iff.mp h
    rw [List.length_singleton] at hlt
    exact Or.inr ⟨by omega, by simpa using heq.symm⟩

/-- Two members that a nodup projection does not tell apart are one. -/
theorem eq_of_filterMap_nodup {α β : Type} {f : α → Option β} {l : List α} {a b : α} {x : β}
    (h : (l.filterMap f).Nodup) (ha : a ∈ l) (hb : b ∈ l) (hfa : f a = some x)
    (hfb : f b = some x) : a = b := by
  by_contra hne
  have hsymm : Std.Symm (fun a a' : α => ∀ b, f a = some b → ∀ b', f a' = some b' → b ≠ b') :=
    ⟨fun _ _ h b hb b' hb' => (h b' hb' b hb).symm⟩
  exact (List.pairwise_filterMap.mp h).forall ha hb hne x hfa x hfb rfl

end StepMachine
