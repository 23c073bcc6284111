import Mathlib.Data.List.Basic
import Mathlib.Logic.Basic

/-!
# Procedures that may throw and may wait

`Proc ε σ α` is the shape of imperative code under test by its environment: it
updates a state `σ`, and it returns a value, throws, or is still waiting for an
environment event that has not come (`none`).  A thrown exception keeps the
state changes made before it.

Two ways to reason about procedures are used.  `Post p s Q` says that a run of
`p` from `s` can only finish with an outcome and a state that satisfy `Q`.
`Agree R p s t` compares two runs of `p`: from `s` and from `t` they both wait,
or they have the same outcome and end in states related by `R`.
-/

namespace Procedure

/-- Code over a state `σ` that throws `ε` or waits. -/
abbrev Proc (ε σ α : Type) := ExceptT ε (StateT σ Option) α

variable {ε σ α β : Type}

/-- Outcome and final state of a run, `none` while it waits. -/
def exec (p : Proc ε σ α) (s : σ) : Option (Except ε α × σ) := (ExceptT.run p).run s

/-- `pure` answers and leaves the state alone. -/
@[simp] theorem exec_pure (a : α) (s : σ) :
    exec (pure a : Proc ε σ α) s = some (.ok a, s) := rfl

/-- `throw` fails and leaves the state alone. -/
@[simp] theorem exec_throw (e : ε) (s : σ) :
    exec (throw e : Proc ε σ α) s = some (.error e, s) := rfl

/-- `get` answers with the state. -/
@[simp] theorem exec_get (s : σ) : exec (get : Proc ε σ σ) s = some (.ok s, s) := rfl

/-- `set` replaces the state. -/
@[simp] theorem exec_set (s s' : σ) :
    exec (set s' : Proc ε σ PUnit) s = some (.ok ⟨⟩, s') := rfl

/-- `modify` applies the function to the state. -/
@[simp] theorem exec_modify (f : σ → σ) (s : σ) :
    exec (modify f : Proc ε σ PUnit) s = some (.ok ⟨⟩, f s) := rfl

/-- The environment has nothing more to offer yet. -/
def waiting : Proc ε σ α := ExceptT.mk (fun _ => none)

/-- `waiting` has no outcome. -/
@[simp] theorem exec_waiting (s : σ) : exec (waiting : Proc ε σ α) s = none := rfl

/-- Raise the exception of a pure computation. -/
def settle (r : Except ε α) : Proc ε σ α := ExceptT.mk (fun s => some (r, s))

/-- `settle` ends with the outcome it is given and leaves the state alone. -/
@[simp] theorem exec_settle (r : Except ε α) (s : σ) :
    exec (settle r : Proc ε σ α) s = some (r, s) := rfl

/-- Sequencing: an exception or a wait ends the run. -/
theorem exec_bind (p : Proc ε σ α) (f : α → Proc ε σ β) (s : σ) :
    exec (p >>= f) s =
      match exec p s with
      | none => none
      | some (.error e, s') => some (.error e, s')
      | some (.ok a, s') => exec (f a) s' := by
  simp only [exec, ExceptT.run, bind, ExceptT.bind, ExceptT.mk, StateT.run, StateT.bind,
    Option.bind]
  cases h : p s with
  | none => rfl
  | some r =>
      obtain ⟨a | a, s'⟩ := r
      · rfl
      · rfl

/-- A sequence whose first part answers goes on with the second from the state left behind. -/
theorem exec_bind_ok {p : Proc ε σ α} {f : α → Proc ε σ β} {s s' : σ} {a : α}
    (h : exec p s = some (.ok a, s')) : exec (p >>= f) s = exec (f a) s' := by
  rw [exec_bind, h]

/-- A sequence whose first part fails fails with it: the second is not run. -/
theorem exec_bind_error {p : Proc ε σ α} {f : α → Proc ε σ β} {s s' : σ} {e : ε}
    (h : exec p s = some (.error e, s')) : exec (p >>= f) s = some (.error e, s') := by
  rw [exec_bind, h]

/-- A finished sequence: the first part threw, or it returned and the second
part finished. -/
theorem exec_bind_cases {p : Proc ε σ α} {f : α → Proc ε σ β} {s s'' : σ}
    {r : Except ε β} (h : exec (p >>= f) s = some (r, s'')) :
    (∃ e, r = .error e ∧ exec p s = some (.error e, s'')) ∨
      ∃ a s', exec p s = some (.ok a, s') ∧ exec (f a) s' = some (r, s'') := by
  rw [exec_bind] at h
  cases hp : exec p s with
  | none => rw [hp] at h; cases h
  | some o =>
      obtain ⟨e | a, s'⟩ := o
      · rw [hp] at h
        cases h
        exact Or.inl ⟨e, rfl, rfl⟩
      · rw [hp] at h
        exact Or.inr ⟨a, s', rfl, h⟩

/-- What a procedure returns, put into another shape. -/
theorem exec_bind_pure (p : Proc ε σ α) (f : α → β) (s : σ) :
    exec (p >>= fun a => pure (f a)) s = (exec p s).map (fun out => (out.1.map f, out.2)) := by
  rw [exec_bind]
  cases exec p s with
  | none => rfl
  | some out =>
      obtain ⟨e | a, s'⟩ := out
      · rfl
      · rfl

/-- A pure computation behind a procedure. -/
theorem exec_bind_settle (p : Proc ε σ α) (f : α → Except ε β) (s : σ) :
    exec (p >>= fun a => settle (f a)) s = (exec p s).map (fun out => (out.1.bind f, out.2)) := by
  rw [exec_bind]
  cases exec p s with
  | none => rfl
  | some out =>
      obtain ⟨e | a, s'⟩ := out
      · rfl
      · rfl

/-- A loop over answers of its environment that retries, in the same state, on
each of `early`, ends as it does on the rest. -/
theorem exec_retry {ω : Type} {loop : List ω → Proc ε σ α} {again : ω → Prop} {s : σ}
    (hagain : ∀ x xs, again x → exec (loop (x :: xs)) s = exec (loop xs) s) {early : List ω}
    (hearly : ∀ x ∈ early, again x) (rest : List ω) :
    exec (loop (early ++ rest)) s = exec (loop rest) s := by
  induction early with
  | nil => rfl
  | cons x early ih =>
      rw [List.cons_append, hagain x _ (hearly x List.mem_cons_self)]
      exact ih (fun y hy => hearly y (List.mem_cons_of_mem _ hy))

/-- A loop that writes a list out, answer by answer: an answer moves a non-empty
front of what is left with `put`, or the loop retries. -/
structure Drains {ω β : Type} (loop : List ω → List β → Proc ε σ PUnit) (put : List β → σ → σ)
    (moves : ω → Bool) (x : ω) : Prop where
  retry : moves x = false → ∀ answers b left s,
    exec (loop (x :: answers) (b :: left)) s = exec (loop answers (b :: left)) s
  move : moves x = true → ∃ k, ∀ answers b left s, exec (loop (x :: answers) (b :: left)) s =
    exec (loop answers ((b :: left).drop (k + 1))) (put ((b :: left).take (k + 1)) s)

/-- **Short writes** put the whole list out once enough answers move something. -/
theorem exec_drain {ω β : Type} {loop : List ω → List β → Proc ε σ PUnit} {put : List β → σ → σ}
    {moves : ω → Bool} (hdone : ∀ answers s, exec (loop answers []) s = some (.ok ⟨⟩, put [] s))
    (hput : ∀ front left s, put left (put front s) = put (front ++ left) s) {answers : List ω}
    (hdrains : ∀ x ∈ answers, Drains loop put moves x) :
    ∀ (left : List β) (s : σ), left.length ≤ answers.countP moves →
      exec (loop answers left) s = some (.ok ⟨⟩, put left s) := by
  induction answers with
  | nil =>
      intro left s henough
      obtain rfl : left = [] := List.length_eq_zero_iff.mp (Nat.le_zero.mp henough)
      exact hdone [] s
  | cons x answers ih =>
      intro left s henough
      have hrest := ih (fun y hy => hdrains y (List.mem_cons_of_mem _ hy))
      have hx := hdrains x List.mem_cons_self
      cases left with
      | nil => exact hdone _ s
      | cons b left =>
          cases hmoves : moves x with
          | false =>
              rw [List.countP_cons_of_neg (by simp [hmoves])] at henough
              rw [hx.retry hmoves, hrest _ s henough]
          | true =>
              rw [List.countP_cons_of_pos hmoves, List.length_cons] at henough
              obtain ⟨k, hmove⟩ := hx.move hmoves
              rw [hmove, hrest _ _ (by rw [List.length_drop, List.length_cons]; omega), hput,
                List.take_append_drop]

/-- A handler takes over where the procedure threw, in the state it left. -/
theorem exec_tryCatch (p : Proc ε σ α) (handler : ε → Proc ε σ α) (s : σ) :
    exec (tryCatch p handler) s =
      match exec p s with
      | none => none
      | some (.error e, s') => exec (handler e) s'
      | some (.ok a, s') => some (.ok a, s') := by
  simp only [exec, ExceptT.run, tryCatch, tryCatchThe, MonadExceptOf.tryCatch, ExceptT.tryCatch,
    ExceptT.mk, StateT.run, bind, StateT.bind, Option.bind]
  cases h : p s with
  | none => rfl
  | some r =>
      obtain ⟨a | a, s'⟩ := r
      · rfl
      · rfl

/-- A procedure on a part of the state. -/
def zoom {τ : Type} (part : σ → τ) (put : τ → σ → σ) (p : Proc ε τ α) : Proc ε σ α :=
  ExceptT.mk (fun s => (exec p (part s)).map (fun (r, t) => (r, put t s)))

/-- A procedure on a part of the state leaves its part behind, and the rest as it was. -/
@[simp] theorem exec_zoom {τ : Type} (part : σ → τ) (put : τ → σ → σ) (p : Proc ε τ α) (s : σ) :
    exec (zoom part put p) s = (exec p (part s)).map (fun (r, t) => (r, put t s)) := rfl

/-- The same procedure, its exceptions seen as others. -/
def raising {ε' : Type} (f : ε → ε') (p : Proc ε σ α) : Proc ε' σ α :=
  ExceptT.mk (fun s => (exec p s).map (fun (r, s') => (r.mapError f, s')))

/-- Translating errors changes the outcome only, never the state. -/
@[simp] theorem exec_raising {ε' : Type} (f : ε → ε') (p : Proc ε σ α) (s : σ) :
    exec (raising f p) s = (exec p s).map (fun (r, s') => (r.mapError f, s')) := rfl

/-- Code that neither waits nor looks at anything but its state. -/
def ofStep (f : σ → Except ε α × σ) : Proc ε σ α := ExceptT.mk (fun s => some (f s))

/-- A total step always has an outcome. -/
@[simp] theorem exec_ofStep (f : σ → Except ε α × σ) (s : σ) :
    exec (ofStep f) s = some (f s) := rfl

/-! ### Postconditions -/

/-- Every finished run of `p` from `s` satisfies `Q`. -/
def Post (p : Proc ε σ α) (s : σ) (Q : Except ε α → σ → Prop) : Prop :=
  ∀ r s', exec p s = some (r, s') → Q r s'

variable {Q : Except ε α → σ → Prop} {s : σ}

/-- Rule for `pure`: what holds of the answer and the state. -/
theorem Post.pure {a : α} (h : Q (.ok a) s) : Post (pure a) s Q := by
  intro r s' hrun
  cases hrun
  exact h

/-- Rule for `throw`: what holds of the error and the state. -/
theorem Post.throw {e : ε} (h : Q (.error e) s) : Post (throw e) s Q := by
  intro r s' hrun
  cases hrun
  exact h

/-- Rule for `waiting`: anything, for it has no outcome. -/
theorem Post.waiting : Post waiting s Q := by
  intro r s' hrun
  cases hrun

/-- Rule for `settle`: what holds of the given outcome. -/
theorem Post.settle {r : Except ε α} (h : Q r s) : Post (settle r) s Q := by
  intro r' s' hrun
  cases hrun
  exact h

/-- Rule for `modify`: what holds of the changed state. -/
theorem Post.modify {f : σ → σ} {Q : Except ε PUnit → σ → Prop} (h : Q (.ok ⟨⟩) (f s)) :
    Post (modify f) s Q := by
  intro r s' hrun
  cases hrun
  exact h

/-- Sequencing: the first part's postcondition is the second part's start. -/
theorem Post.bind {p : Proc ε σ α} {f : α → Proc ε σ β} {Q : Except ε β → σ → Prop}
    (hp : Post p s (fun r s' =>
      match r with
      | .ok a => Post (f a) s' Q
      | .error e => Q (.error e) s')) : Post (p >>= f) s Q := by
  intro r s'' hrun
  obtain ⟨e, rfl, he⟩ | ⟨a, s', ha, hf⟩ := exec_bind_cases hrun
  · exact hp _ _ he
  · exact hp _ _ ha _ _ hf

/-- A handler starts where the procedure threw. -/
theorem Post.tryCatch {p : Proc ε σ α} {handler : ε → Proc ε σ α} (hp : Post p s (fun r s' =>
    match r with
    | .ok a => Q (.ok a) s'
    | .error e => Post (handler e) s' Q)) : Post (tryCatch p handler) s Q := by
  intro r s' hrun
  rw [exec_tryCatch] at hrun
  cases hexec : exec p s with
  | none => rw [hexec] at hrun; cases hrun
  | some out =>
      obtain ⟨e | a, s₁⟩ := out
      · rw [hexec] at hrun
        exact hp _ _ hexec r s' hrun
      · rw [hexec] at hrun
        cases hrun
        exact hp _ _ hexec

/-- Rule for a read: what is done with the state that was read. -/
theorem Post.get_bind {f : σ → Proc ε σ β} {Q : Except ε β → σ → Prop} (h : Post (f s) s Q) :
    Post (get >>= f) s Q :=
  Post.bind (fun r s' hrun => by cases hrun; exact h)

/-- Rule for a branch: each side under its condition. -/
theorem Post.ite {b : Prop} [Decidable b] {p q : Proc ε σ α} (hp : b → Post p s Q)
    (hq : ¬ b → Post q s Q) : Post (if b then p else q) s Q := by
  split
  · rename_i h
    exact hp h
  · rename_i h
    exact hq h

/-- A postcondition may be weakened. -/
theorem Post.mono {p : Proc ε σ α} {Q' : Except ε α → σ → Prop} (h : Post p s Q)
    (himp : ∀ r s', Q r s' → Q' r s') : Post p s Q' :=
  fun r s' hrun => himp r s' (h r s' hrun)

/-- Two postconditions hold together. -/
theorem Post.and {p : Proc ε σ α} {Q' : Except ε α → σ → Prop} (h : Post p s Q)
    (h' : Post p s Q') : Post p s (fun r s' => Q r s' ∧ Q' r s') :=
  fun r s' hrun => ⟨h r s' hrun, h' r s' hrun⟩

/-- A procedure on a part changes nothing but that part. -/
theorem Post.zoom {τ : Type} {part : σ → τ} {put : τ → σ → σ} {p : Proc ε τ α}
    (h : Post p (part s) (fun r t => Q r (put t s))) : Post (zoom part put p) s Q := by
  intro r s' hrun
  rw [exec_zoom, Option.map_eq_some_iff] at hrun
  obtain ⟨⟨r₀, t⟩, hp, heq⟩ := hrun
  cases heq
  exact h r t hp

/-- Nothing is known of a run without looking into it. -/
theorem Post.trivial {p : Proc ε σ α} (h : ∀ r s', Q r s') : Post p s Q :=
  fun r s' _ => h r s'

/-- What a procedure leaves true of the state is not changed by returning
another value. -/
theorem Post.bind_return {p : Proc ε σ α} {f : α → β} {P : σ → Prop}
    (hp : Post p s (fun _ s' => P s')) :
    Post (p >>= fun a => Pure.pure (f a)) s (fun _ s' => P s') := by
  apply Post.bind
  refine hp.mono ?_
  intro r s' h
  cases r with
  | error e => exact h
  | ok a => exact Post.pure h

/-- A loop that writes a list out, answer by answer, and may break off: an
answer makes it try again, moves a non-empty front of what is left, or is the
last one. -/
inductive Transfers {ω β : Type} (loop : List ω → List β → Proc ε σ PUnit) (put : List β → σ → σ)
    (fails : ω → Prop) (x : ω) : Prop
  | again (h : ∀ answers b left s,
      exec (loop (x :: answers) (b :: left)) s = exec (loop answers (b :: left)) s)
  | on (k : Nat) (h : ∀ answers b left s, exec (loop (x :: answers) (b :: left)) s =
      exec (loop answers ((b :: left).drop (k + 1))) (put ((b :: left).take (k + 1)) s))
  | off (hfails : fails x) (h : ∀ answers b left s,
      ∃ e, exec (loop (x :: answers) (b :: left)) s = some (.error e, s))

/-- **A torn write** leaves a front of the list, all of it unless the loop threw. -/
theorem Post.transfers {ω β : Type} {loop : List ω → List β → Proc ε σ PUnit}
    {put : List β → σ → σ} {fails : ω → Prop}
    (hdone : ∀ answers s, exec (loop answers []) s = some (.ok ⟨⟩, s))
    (hwaits : ∀ b left s, exec (loop [] (b :: left)) s = none) (hnil : ∀ s, put [] s = s)
    (hput : ∀ front left s, put left (put front s) = put (front ++ left) s)
    (htransfers : ∀ x, Transfers loop put fails x) :
    ∀ (answers : List ω) (left : List β) (s : σ), Post (loop answers left) s (fun r s' =>
      ∃ k ≤ left.length, s' = put (left.take k) s ∧
        (r = .ok ⟨⟩ ∧ k = left.length ∨
          (∃ e, r = .error e) ∧ k < left.length ∧ ∃ x ∈ answers, fails x)) := by
  intro answers
  induction answers with
  | nil =>
      intro left s r s' hrun
      cases left with
      | nil =>
          rw [hdone] at hrun
          cases hrun
          exact ⟨0, Nat.le_refl _, (hnil s).symm, .inl ⟨rfl, rfl⟩⟩
      | cons b left =>
          rw [hwaits] at hrun
          cases hrun
  | cons x answers ih =>
      intro left s r s' hrun
      cases left with
      | nil =>
          rw [hdone] at hrun
          cases hrun
          exact ⟨0, Nat.le_refl _, (hnil s).symm, .inl ⟨rfl, rfl⟩⟩
      | cons b left =>
          have hlater : (∃ x ∈ answers, fails x) → ∃ y ∈ x :: answers, fails y :=
            fun ⟨y, hy, hfails⟩ => ⟨y, List.mem_cons_of_mem _ hy, hfails⟩
          cases htransfers x with
          | again h =>
              rw [h] at hrun
              obtain ⟨k, hk, hs', hr⟩ := ih _ s r s' hrun
              exact ⟨k, hk, hs', hr.imp_right (fun ⟨he, hlt, hfails⟩ => ⟨he, hlt, hlater hfails⟩)⟩
          | off hfails h =>
              obtain ⟨e, h⟩ := h answers b left s
              rw [h] at hrun
              cases hrun
              exact ⟨0, Nat.zero_le _, (hnil s).symm,
                .inr ⟨⟨e, rfl⟩, Nat.zero_lt_succ _, x, List.mem_cons_self, hfails⟩⟩
          | on n h =>
              rw [h] at hrun
              obtain ⟨k, hk, hs', hr⟩ := ih _ _ r s' hrun
              have hlength := List.length_drop (i := n + 1) (l := b :: left)
              -- An answer past the end takes what there is.
              refine ⟨min (n + 1) (b :: left).length + k, by omega, ?_, ?_⟩
              · rw [hs', hput]
                rcases Nat.le_total (n + 1) (b :: left).length with hle | hge
                · have hcut : (b :: left).take (n + 1 + k) =
                      (b :: left).take (n + 1) ++ ((b :: left).drop (n + 1)).take k := List.take_add
                  rw [Nat.min_eq_left hle, hcut]
                · obtain rfl : k = 0 := by omega
                  rw [Nat.min_eq_right hge, List.take_of_length_le hge, List.take_zero,
                    List.append_nil, Nat.add_zero, List.take_length]
              · exact hr.imp (fun ⟨hok, heq⟩ => ⟨hok, by omega⟩)
                  (fun ⟨he, hlt, hfails⟩ => ⟨he, by omega, hlater hfails⟩)

/-! ### Two runs side by side -/

/-- The runs from `s` and `t` have the same outcome and end in related states. -/
def Agree (R : σ → σ → Prop) (p : Proc ε σ α) (s t : σ) : Prop :=
  Option.Rel (fun x y => x.1 = y.1 ∧ R x.2 y.2) (exec p s) (exec p t)

variable {R : σ → σ → Prop} {t : σ}

/-- Both runs wait, or both finish alike. -/
theorem Agree.split {p : Proc ε σ α} (h : Agree R p s t) :
    (exec p s = none ∧ exec p t = none) ∨
      ∃ r s' t', exec p s = some (r, s') ∧ exec p t = some (r, t') ∧ R s' t' := by
  unfold Agree at h
  generalize exec p s = x, exec p t = y at h
  cases h with
  | none => exact Or.inl ⟨rfl, rfl⟩
  | @some x y hxy =>
      obtain ⟨r, s'⟩ := x
      obtain ⟨r', t'⟩ := y
      obtain ⟨rfl, hR⟩ := hxy
      exact Or.inr ⟨_, s', t', rfl, rfl, hR⟩

/-- Two runs of `pure` agree where their states do. -/
theorem Agree.pure {a : α} (h : R s t) : Agree R (pure a : Proc ε σ α) s t := .some ⟨rfl, h⟩

/-- Two runs of `throw` agree where their states do. -/
theorem Agree.throw {e : ε} (h : R s t) : Agree R (throw e : Proc ε σ α) s t := .some ⟨rfl, h⟩

/-- Two runs of `waiting` agree: neither has an outcome. -/
theorem Agree.waiting : Agree R (waiting : Proc ε σ α) s t := .none

/-- Two runs that settle the same outcome agree where their states do. -/
theorem Agree.settle {r : Except ε α} (h : R s t) : Agree R (settle r : Proc ε σ α) s t :=
  .some ⟨rfl, h⟩

/-- Two updates agree where the updated states do. -/
theorem Agree.modify {f : σ → σ} (h : R (f s) (f t)) :
    Agree R (modify f : Proc ε σ PUnit) s t :=
  .some ⟨rfl, h⟩

/-- Sequences agree when their first parts do and, from related states, their second parts do. -/
theorem Agree.bind {p : Proc ε σ α} {f : α → Proc ε σ β} (hp : Agree R p s t)
    (hf : ∀ a s' t', R s' t' → Agree R (f a) s' t') : Agree R (p >>= f) s t := by
  unfold Agree
  rw [exec_bind, exec_bind]
  rcases hp.split with ⟨hs, ht⟩ | ⟨r, s', t', hs, ht, hR⟩
  · rw [hs, ht]
    exact .none
  · rw [hs, ht]
    cases r with
    | error e => exact .some ⟨rfl, hR⟩
    | ok a => exact hf a s' t' hR

/-- What is returned may be put into another shape. -/
theorem Agree.bind_return {p : Proc ε σ α} {f : α → β} (hp : Agree R p s t) :
    Agree R (p >>= fun a => Pure.pure (f a)) s t :=
  Agree.bind hp (fun _ _ _ h => Agree.pure h)

/-- Reading the state, where what is done with it is the same for both. -/
theorem Agree.get_bind {f : σ → Proc ε σ β} (heq : f s = f t) (h : Agree R (f t) s t) :
    Agree R (get >>= f) s t := by
  unfold Agree at h ⊢
  rw [exec_bind_ok (exec_get s), exec_bind_ok (exec_get t), heq]
  exact h

/-- A branch on the same condition agrees when both sides do. -/
theorem Agree.ite {b : Prop} [Decidable b] {p q : Proc ε σ α} (hp : Agree R p s t)
    (hq : Agree R q s t) : Agree R (if b then p else q) s t := by
  split
  · exact hp
  · exact hq

/-- Runs on the same part of two states agree when putting the part back keeps
the states related. -/
theorem Agree.zoom {τ : Type} {part : σ → τ} {put : τ → σ → σ} {p : Proc ε τ α}
    (hpart : part s = part t) (hput : ∀ x, R (put x s) (put x t)) :
    Agree R (zoom part put p) s t := by
  unfold Agree
  rw [exec_zoom, exec_zoom, hpart]
  cases exec p (part t) with
  | none => exact .none
  | some x => exact .some ⟨rfl, hput x.2⟩

end Procedure
