import Mathlib.Data.List.Basic
import Mathlib.Data.List.Forall2

/-!
# Codes that delimit their own words

A stream of code words, cut off anywhere, can be read in one way only if the
front of a stream determines the word it starts with.  `encode` puts words one
behind the other; a torn word is a proper front of one.  What has been read of a
stream is then a front of what was written, and a stream that ends in a torn
word has one reading: its words and what was torn.
-/

namespace PrefixCode

variable {α β γ : Type}

/-- No word is empty, and no stream starts with two different words. -/
structure IsPrefixCode (word : α → List β) : Prop where
  ne_nil : ∀ a, word a ≠ []
  unique : ∀ {a b : α} {r r' : List β}, word a ++ r = word b ++ r' → a = b

/-- Words one behind the other. -/
def encode (word : α → List β) (as : List α) : List β := (as.map word).flatten

/-- What is left of a word that broke off: not all of it. -/
def Torn (word : α → List β) (t : List β) : Prop := t = [] ∨ ∃ a, t <+: word a ∧ t ≠ word a

variable {word : α → List β}

/-- No item, no text. -/
@[simp] theorem encode_nil : encode word [] = [] := rfl

/-- The first item's word comes first. -/
@[simp] theorem encode_cons (a : α) (as : List α) :
    encode word (a :: as) = word a ++ encode word as := rfl

/-- Items in a row are written in a row. -/
@[simp] theorem encode_append (as bs : List α) :
    encode word (as ++ bs) = encode word as ++ encode word bs := by
  simp [encode]

/-- Nothing at all is the front of a word. -/
theorem torn_nil : Torn word [] := Or.inl rfl

/-- A proper front of a word is torn. -/
theorem torn_take (a : α) {n : Nat} (h : n < (word a).length) : Torn word ((word a).take n) := by
  refine Or.inr ⟨a, List.take_prefix n _, ?_⟩
  intro heq
  have hlength := congrArg List.length heq
  rw [List.length_take] at hlength
  omega

/-- A torn word does not start with a word. -/
theorem IsPrefixCode.not_starts (h : IsPrefixCode word) {t : List β} (ht : Torn word t) (a : α)
    (r : List β) : t ≠ word a ++ r := by
  intro heq
  rcases ht with rfl | ⟨b, ⟨tail, hfront⟩, hproper⟩
  · exact h.ne_nil a (List.append_eq_nil_iff.mp heq.symm).1
  · -- The word the torn one comes from starts with `a`, so it is `a`.
    have hstart : word a ++ (r ++ tail) = word b ++ [] := by
      rw [← List.append_assoc, ← heq, hfront, List.append_nil]
    obtain rfl := h.unique hstart
    have hnil := List.append_cancel_left hstart
    obtain ⟨rfl, rfl⟩ := List.append_eq_nil_iff.mp hnil
    exact hproper (heq.trans (List.append_nil _))

/-- **What is read is a front of what was written**: however much of the stream
has arrived, the words found in it are the first ones. -/
theorem IsPrefixCode.reads_front (h : IsPrefixCode word) :
    ∀ {as bs : List α} {t t' : List β}, Torn word t' →
      encode word as ++ t <+: encode word bs ++ t' → as <+: bs := by
  intro as
  induction as with
  | nil =>
      intro bs t t' _ _
      exact List.nil_prefix
  | cons a as ih =>
      intro bs t t' ht' hfront
      obtain ⟨more, hmore⟩ := hfront
      rw [encode_cons, List.append_assoc, List.append_assoc] at hmore
      cases bs with
      | nil => exact absurd hmore.symm (h.not_starts ht' a _)
      | cons b bs =>
          rw [encode_cons, List.append_assoc] at hmore
          obtain rfl := h.unique hmore
          have hrest := List.append_cancel_left hmore
          exact List.prefix_cons_inj a |>.mpr
            (ih (t := t) ht' ⟨more, by rw [List.append_assoc]; exact hrest⟩)

/-- **One reading**: two ways to write a stream that ends in a torn word are the
same. -/
theorem IsPrefixCode.one_reading (h : IsPrefixCode word) {as bs : List α} {t t' : List β}
    (ht : Torn word t) (ht' : Torn word t') (heq : encode word as ++ t = encode word bs ++ t') :
    as = bs ∧ t = t' := by
  have hforth : as <+: bs := h.reads_front ht' ⟨[], by rw [List.append_nil, heq]⟩
  have hback : bs <+: as := h.reads_front ht ⟨[], by rw [List.append_nil, heq]⟩
  obtain rfl := hforth.eq_of_length_le hback.length_le
  exact ⟨rfl, List.append_cancel_left heq⟩

/-! ### Writers -/

/-- A stream has grown by words that tell a front of what was due, and by what is
left of one more; by all that was due and nothing torn where it was `whole`. -/
def Emitted (word : α → List β) (tells : α → γ → Prop) (before after : List β) (due : List γ)
    (whole : Prop) : Prop :=
  ∃ (words : List α) (torn : List β) (said : List γ),
    after = before ++ (encode word words ++ torn) ∧ Torn word torn ∧
      List.Forall₂ tells words said ∧ said <+: due ∧ (whole → said = due ∧ torn = [])

variable {tells : α → γ → Prop} {before after : List β} {due : List γ} {whole : Prop}

/-- Nothing was due. -/
theorem Emitted.nil : Emitted word tells before before [] whole :=
  ⟨[], [], [], by simp, torn_nil, .nil, List.nil_prefix, fun _ => ⟨rfl, rfl⟩⟩

/-- A writer that has not begun. -/
theorem Emitted.nothing (hbroken : ¬ whole) : Emitted word tells before before due whole :=
  ⟨[], [], [], by simp, torn_nil, .nil, List.nil_prefix, fun h => absurd h hbroken⟩

/-- One item written whole. -/
theorem Emitted.one {a : α} {x : γ} (htells : tells a x) :
    Emitted word tells before (before ++ word a) [x] whole :=
  ⟨[a], [], [x], by simp, torn_nil, .cons htells .nil, List.prefix_rfl, fun _ => ⟨rfl, rfl⟩⟩

/-- A writer that breaks off in its first word. -/
theorem Emitted.broken (a : α) {k : Nat} (hk : k < (word a).length) (hbroken : ¬ whole) :
    Emitted word tells before (before ++ (word a).take k) due whole :=
  ⟨[], (word a).take k, [], by simp, torn_take a hk, .nil, List.nil_prefix,
    fun h => absurd h hbroken⟩

/-- Less is known of when the items were whole. -/
theorem Emitted.mono {whole' : Prop} (h : Emitted word tells before after due whole)
    (himp : whole' → whole) : Emitted word tells before after due whole' := by
  obtain ⟨words, torn, said, hafter, htorn, htells, hfront, hall⟩ := h
  exact ⟨words, torn, said, hafter, htorn, htells, hfront, fun hwhole => hall (himp hwhole)⟩

/-- A writer that breaks off may as well have had more to write. -/
theorem Emitted.more {due' : List γ} (h : Emitted word tells before after due whole)
    (hfront : due <+: due') (hbroken : ¬ whole) : Emitted word tells before after due' whole := by
  obtain ⟨words, torn, said, hafter, htorn, htells, hsaid, -⟩ := h
  exact ⟨words, torn, said, hafter, htorn, htells, hsaid.trans hfront, fun hwhole =>
    absurd hwhole hbroken⟩

/-- Behind a writer that was not cut short comes the next. -/
theorem Emitted.trans {last : List β} {due' : List γ} (h : Emitted word tells before after due True)
    (h' : Emitted word tells after last due' whole) :
    Emitted word tells before last (due ++ due') whole := by
  obtain ⟨words, torn, said, rfl, -, htells, -, hall⟩ := h
  obtain ⟨rfl, rfl⟩ := hall trivial
  obtain ⟨words', torn', said', rfl, htorn', htells', hfront', hall'⟩ := h'
  refine ⟨words ++ words', torn', said ++ said', by simp, htorn', List.rel_append htells htells',
    (List.prefix_append_right_inj _).mpr hfront', ?_⟩
  intro hwhole
  obtain ⟨rfl, htorn⟩ := hall' hwhole
  exact ⟨rfl, htorn⟩

end PrefixCode
