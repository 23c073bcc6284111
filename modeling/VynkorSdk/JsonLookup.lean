import VynkorSdk.JsonTokens

/-!
# `json_find_string` on JSON

What the gate's scan finds in a JSON text.  It sees no nesting and knows one
shape of a member: the name spelled out, right behind its brace or comma, blanks
and tabs around the colon, and a string.  Of a text it returns the string of the
first member of that shape, at whatever depth (`jsonFindString_text`).
-/

namespace Vynkor

open ByteCodec JsonText

/-! ### Trees -/

/-- The string of a member, if the member has the shape the gate reads. -/
def gateString (m : Member) : Option JString :=
  if m.flush && body m.name == idKey && m.between.all isBlank && m.behind.all isBlank then
    m.value.string?
  else
    none

/-- Blanks in front of a key close the place where it is found. -/
theorem findKey_spaces (flush : Bool) (ss : List Space) (ts : List Token) :
    findKey flush (spaces ss ++ ts) = findKey (flush && ss.isEmpty) ts := by
  induction ss generalizing flush with
  | nil => simp [spaces]
  | cons s ss ih =>
      have hcons : spaces (s :: ss) ++ ts = .space s :: (spaces ss ++ ts) := rfl
      rw [hcons, findKey, ih]
      simp [isKey, opens]

/-- Behind a mark a key is found if the mark opens a member. -/
theorem findKey_mark (flush : Bool) (m : Mark) (ts : List Token) :
    findKey flush (.mark m :: ts) = findKey (opens (.mark m)) ts := by
  simp [findKey, isKey]

/-- Skipping the gate's blanks skips all of them or stops at another kind. -/
theorem dropWhile_spaces (ss : List Space) (ts : List Token) :
    (ss.all isBlank = true ∧ (spaces ss ++ ts).dropWhile isBlankToken = ts.dropWhile isBlankToken) ∨
      (ss.all isBlank = false ∧
        ∃ s ts', (spaces ss ++ ts).dropWhile isBlankToken = .space s :: ts') := by
  induction ss with
  | nil => exact Or.inl ⟨rfl, rfl⟩
  | cons s ss ih =>
      have hcons : spaces (s :: ss) ++ ts = .space s :: (spaces ss ++ ts) := rfl
      have htoken : isBlankToken (.space s) = isBlank s := rfl
      rw [hcons, List.dropWhile_cons, List.all_cons, htoken]
      by_cases hblank : isBlank s = true
      · rw [if_pos hblank, hblank, Bool.true_and]
        exact ih
      · rw [if_neg hblank, Bool.eq_false_iff.mpr hblank, Bool.false_and]
        exact Or.inr ⟨rfl, s, _, rfl⟩

/-- Behind a value there is no colon. -/
theorem behindKey_of_mark {m : Mark} (hm : m ≠ .colon) (ss : List Space) (ts : List Token) :
    behindKey (spaces ss ++ .mark m :: ts) = none := by
  unfold behindKey
  rcases dropWhile_spaces ss (.mark m :: ts) with ⟨_, hdrop⟩ | ⟨_, s, ts', hdrop⟩
  · rw [hdrop, List.dropWhile_cons, if_neg (by simp [isBlankToken])]
    cases m <;> first | rfl | exact absurd rfl hm
  · rw [hdrop]

/-- Behind a name, the string of its member. -/
theorem behindKey_of_colon (between behind : List Space) (v : Value) (ts : List Token) :
    (behindKey
      (spaces between ++ .mark .colon :: (spaces behind ++ (v.tokens ++ ts)))).map Prod.fst =
      if between.all isBlank && behind.all isBlank then v.string? else none := by
  unfold behindKey
  rcases dropWhile_spaces between (.mark .colon :: (spaces behind ++ (v.tokens ++ ts))) with
    ⟨hbetween, hdrop⟩ | ⟨hbetween, s, ts', hdrop⟩
  · rw [hdrop, List.dropWhile_cons, if_neg (by simp [isBlankToken]), hbetween, Bool.true_and]
    dsimp only
    rcases dropWhile_spaces behind (v.tokens ++ ts) with ⟨hbehind, hdrop⟩ | ⟨hbehind, s, ts', hdrop⟩
    · rw [hdrop, hbehind, if_pos rfl]
      cases v <;> simp [Value.tokens, Value.string?, isBlankToken]
    · rw [hdrop, hbehind, if_neg (by simp)]
      rfl
  · rw [hdrop, hbetween, Bool.false_and, if_neg (by simp)]
    rfl

section
variable {m : Mark} {separated : List Token}

/-- The search goes past a separator. -/
theorem findKey_separated (h : Separated separated) (flush : Bool) (m : Mark) (ts : List Token) :
    findKey flush (separated ++ .mark m :: ts) =
      findKey true (separated.tail ++ .mark m :: ts) := by
  rcases h with hnil | hcomma
  · rw [hnil]
    exact (findKey_mark flush m ts).trans (findKey_mark true m ts).symm
  · rw [hcomma, List.cons_append, findKey_mark]
    rfl

/-- Between separators no key has a value. -/
theorem behindKey_separated (h : Separated separated) (hm : m ≠ .colon) (ss : List Space)
    (ts : List Token) : behindKey (spaces ss ++ (separated ++ .mark m :: ts)) = none := by
  rcases h with hnil | hcomma
  · rw [hnil]
    exact behindKey_of_mark hm ss ts
  · rw [hcomma, List.cons_append]
    exact behindKey_of_mark (by simp) ss _

end

-- The induction is on the tree.  A value is followed by no colon, so a string
-- that is a value is never taken for a key, whatever stands in front of it.
mutual

/-- In a value the search finds the first member that the gate reads. -/
theorem findKey_value : ∀ (v : Value) (flush : Bool) (ts : List Token), behindKey ts = none →
    findKey flush (v.tokens ++ ts) = (v.all.findSome? gateString).or (findKey false ts)
  | .atom a, flush, ts, _ => by
      simp [Value.tokens, Value.all, findKey, isKey, opens]
  | .string s, flush, ts, hts => by
      simp [Value.tokens, Value.all, findKey, opens, hts]
  | .array inner elements, flush, ts, _ => by
      have htokens : (Value.array inner elements).tokens ++ ts = .mark .openBracket ::
          (spaces inner ++ (elements.tokens.tail ++ .mark .closeBracket :: ts)) := by
        simp [Value.tokens]
      rw [htokens, findKey_mark, findKey_spaces, findKey_elements elements]
      rw [Value.all]
  | .object inner members, flush, ts, _ => by
      have htokens : (Value.object inner members).tokens ++ ts = .mark .openBrace ::
          (spaces inner ++ (members.tokens.tail ++ .mark .closeBrace :: ts)) := by
        simp [Value.tokens]
      rw [htokens, findKey_mark, findKey_spaces, findKey_members members]
      rw [Value.all]
      rfl

/-- In an array it finds the first one in an element. -/
theorem findKey_elements : ∀ (elements : Elements) (flush : Bool) (ts : List Token),
    findKey flush (elements.tokens.tail ++ .mark .closeBracket :: ts) =
      (elements.all.findSome? gateString).or (findKey false ts)
  | .nil, flush, ts => by
      simp [Elements.tokens, Elements.all, findKey_mark, opens]
  | .cons before value after rest, flush, ts => by
      have htokens :
          (Elements.cons before value after rest).tokens.tail ++ .mark .closeBracket :: ts =
            spaces before ++ (value.tokens ++
            (spaces after ++ (rest.tokens ++ .mark .closeBracket :: ts))) := by
        simp [Elements.tokens]
      have hbehind := behindKey_separated (m := .closeBracket) rest.separated (by simp) after ts
      rw [htokens, findKey_spaces, findKey_value value _ _ hbehind, findKey_spaces,
        findKey_separated rest.separated, findKey_elements rest]
      rw [Elements.all, List.findSome?_append, Option.or_assoc]

/-- In an object it finds the first one among the members and in their values. -/
theorem findKey_members : ∀ (members : Members) (flush : Bool) (ts : List Token),
    findKey flush (members.tokens.tail ++ .mark .closeBrace :: ts) =
      ((members.all flush).findSome? gateString).or (findKey false ts)
  | .nil, flush, ts => by
      simp [Members.tokens, Members.all, findKey_mark, opens]
  | .cons before name between behind value after rest, flush, ts => by
      have htokens : (Members.cons before name between behind value after rest).tokens.tail ++
          .mark .closeBrace :: ts = spaces before ++ .string name :: (spaces between ++
            .mark .colon :: (spaces behind ++ (value.tokens ++
              (spaces after ++ (rest.tokens ++ .mark .closeBrace :: ts))))) := by
        simp [Members.tokens]
      have hbehind := behindKey_separated (m := .closeBrace) rest.separated (by simp) after ts
      have hmember : (if (flush && before.isEmpty && isKey (.string name)) = true then
          (behindKey (spaces between ++ .mark .colon :: (spaces behind ++ (value.tokens ++
            (spaces after ++ (rest.tokens ++ .mark .closeBrace :: ts)))))).map Prod.fst else none) =
          gateString ⟨flush && before.isEmpty, name, between, behind, value⟩ := by
        rw [behindKey_of_colon, gateString]
        dsimp only
        cases hkey : flush && before.isEmpty && isKey (.string name) with
        | false =>
            have hname : (flush && before.isEmpty && body name == idKey) = false := hkey
            simp [hname]
        | true =>
            have hname : (flush && before.isEmpty && body name == idKey) = true := hkey
            simp [hname]
      rw [htokens, findKey_spaces, findKey, hmember, findKey_spaces, findKey_mark, findKey_spaces,
        findKey_value value _ _ hbehind, findKey_spaces, findKey_separated rest.separated,
        findKey_members rest]
      rw [Members.all, List.findSome?_cons, List.findSome?_append]
      cases gateString ⟨flush && before.isEmpty, name, between, behind, value⟩ with
      | none =>
          rw [Option.none_or]
          exact Option.or_assoc.symm
      | some s => rfl

end

/-- Blanks at the end hold no key. -/
theorem findKey_trailing (ss : List Space) : findKey false (spaces ss) = none := by
  have hspaces := findKey_spaces false ss []
  rw [List.append_nil] at hspaces
  rw [hspaces]
  rfl

/-- Blanks at the end hold no value. -/
theorem behindKey_trailing (ss : List Space) : behindKey (spaces ss) = none := by
  unfold behindKey
  rcases dropWhile_spaces ss [] with ⟨_, hdrop⟩ | ⟨_, s, ts', hdrop⟩
  · rw [List.append_nil] at hdrop
    rw [hdrop]
    rfl
  · rw [List.append_nil] at hdrop
    rw [hdrop]

/-- **What the gate reads** in a JSON text: the string of the first member of its
shape, at whatever depth. -/
theorem jsonFindString_text (t : ObjectText) :
    jsonFindString t.bytes idKey = .ok ((t.all.findSome? gateString).map decoded) := by
  have hfind : findKey true (spaces t.before ++ ((Value.object t.inner t.members).tokens ++
      spaces t.after)) = t.all.findSome? gateString := by
    rw [findKey_spaces, findKey_value _ _ _ (behindKey_trailing t.after), findKey_trailing,
      Option.or_none, Value.all]
    rfl
  rw [← hfind]
  exact scanKey_textOf _ none

/-! ### Agreement with JSON -/

/-- The member is named `pending_id`, however that is spelled. -/
def namesId (m : Member) : Bool := chars m.name == "pending_id".toList

/-- The shape the gate reads: the name is spelled out right behind a brace or a
comma, with blanks and tabs around the colon. -/
structure GateShape (m : Member) : Prop where
  flush : m.flush = true
  spelled : body m.name = idKey
  between : m.between.all isBlank = true
  behind : m.behind.all isBlank = true

/-- The gate reads a member exactly when it has the gate's shape and a string value. -/
theorem gateString_eq_some {m : Member} {s : JString} :
    gateString m = some s ↔ GateShape m ∧ m.value.string? = some s := by
  unfold gateString
  split
  · rename_i h
    simp only [Bool.and_eq_true, beq_iff_eq] at h
    exact ⟨fun hs => ⟨⟨h.1.1.1, h.1.1.2, h.1.2, h.2⟩, hs⟩, fun hs => hs.2⟩
  · rename_i h
    refine ⟨fun hs => (by cases hs), fun hs => ?_⟩
    obtain ⟨hflush, hspelled, hbetween, hbehind⟩ := hs.1
    exact absurd (by simp [hflush, hspelled, hbetween, hbehind]) h

/-- A value is a string exactly when it is one. -/
theorem string?_eq_some {v : Value} {s : JString} : v.string? = some s ↔ v = .string s := by
  cases v <;> simp [Value.string?]

/-- A member of the shape is named as it is spelled. -/
theorem GateShape.names {m : Member} (h : GateShape m) : namesId m = true := by
  have hascii : ∀ c ∈ "pending_id".toList, c.toNat < 0x80 ∧ c.toNat ≠ 0x5C := by simp
  rw [namesId, beq_iff_eq]
  exact chars_of_body m.name _ hascii h.spelled

/-- A member that is not named `pending_id`, or is no string, is not read. -/
theorem gateString_of_not_id {m : Member} (h : namesId m = true → ∀ s, m.value ≠ .string s) :
    gateString m = none := by
  cases hs : gateString m with
  | none => rfl
  | some s =>
      obtain ⟨hshape, hvalue⟩ := gateString_eq_some.mp hs
      exact absurd (string?_eq_some.mp hvalue) (h hshape.names s)

/-- Members that are not read, with nothing read inside them, are passed over. -/
theorem findSome?_passed {ms : List Member} (htop : ∀ m ∈ ms, gateString m = none)
    (hinside : ∀ m ∈ ms, ∀ d ∈ m.value.all, gateString d = none) :
    (ms.flatMap (fun m => m :: m.value.all)).findSome? gateString = none := by
  rw [List.findSome?_eq_none_iff]
  intro d hd
  obtain ⟨m, hm, hd⟩ := List.mem_flatMap.mp hd
  rcases List.mem_cons.mp hd with rfl | hd
  · exact htop d hm
  · exact hinside m hm d hd

/-- **The lookup and JSON.**  Where the object has one member `pending_id` and that
is a string, the lookup returns it if it has the gate's shape and no member
inside an earlier one has it.  Where the object has no such string, the lookup
returns nothing if no nested member has the shape. -/
theorem pendingId_lookup_agrees (t : ObjectText) :
    (∀ early m late s, t.top = early ++ m :: late → (∀ n ∈ early ++ late, namesId n = false) →
      m.value = .string s → GateShape m → NoPairs s →
      (∀ n ∈ early, ∀ d ∈ n.value.all, gateString d = none) →
      jsonFindString t.bytes (ascii "pending_id") = .ok (some (utf8 (chars s)))) ∧
    ((∀ m ∈ t.top, namesId m = true → ∀ s, m.value ≠ .string s) →
      (∀ m ∈ t.top, ∀ d ∈ m.value.all, gateString d = none) →
      jsonFindString t.bytes (ascii "pending_id") = .ok none) := by
  refine ⟨?_, ?_⟩
  · intro early m late s htop hother hvalue hshape hpairs hinside
    have hearly : ∀ n ∈ early, gateString n = none := by
      intro n hn
      apply gateString_of_not_id
      intro hnames
      rw [hother n (List.mem_append_left _ hn)] at hnames
      cases hnames
    have hread : gateString m = some s :=
      gateString_eq_some.mpr ⟨hshape, string?_eq_some.mpr hvalue⟩
    have hfirst : t.all.findSome? gateString = some s := by
      rw [t.all_eq, htop, List.flatMap_append, List.findSome?_append,
        findSome?_passed hearly hinside, List.flatMap_cons, List.cons_append, List.findSome?_cons,
          hread]
      rfl
    have htext := jsonFindString_text t
    rw [hfirst, Option.map_some, decoded_eq_utf8 hpairs] at htext
    exact htext
  · intro htop hinside
    have hnothing : t.all.findSome? gateString = none := by
      rw [t.all_eq]
      exact findSome?_passed (fun m hm => gateString_of_not_id (htop m hm)) hinside
    have htext := jsonFindString_text t
    rw [hnothing] at htext
    exact htext

/-! ### Texts -/

/-- A string spelled as it stands. -/
def spelled (s : String) : JString :=
  s.toList.filterMap (fun c => if h : Unescaped c then some (.plain c h) else none)

/-- A member in front of the id, which holds the key in two strings. -/
def noteValue : Value :=
  .array [] (.cons [] (.string (.escape .quote :: spelled "pending_id")) []
    (.cons [] (.string (spelled "pending_id")) [.tab] .nil))

/-- An id with an `é` in it. -/
def idValue : JString :=
  spelled "id-" ++ [.code ⟨⟨0, false⟩, ⟨0, false⟩, ⟨14, true⟩, ⟨9, false⟩⟩ (by decide)]

def shapedText : ObjectText where
  before := [.lineFeed]
  inner := [.blank]
  members := .cons [] (spelled "note") [] [.lineFeed] noteValue []
    (.cons [] (spelled "pending_id") [.blank] [.tab] (.string idValue) [] .nil)
  after := []

/-- The sample: the key in two strings, an escape in the id and blanks of every kind. -/
theorem pendingId_lookup_agrees_shaped :
    shapedText.bytes = ascii "\n\x7b \"note\":\n[\"\\\"pending_id\",\"pending_id\"\t]," ++
        ascii "\"pending_id\" :\t\"id-\\u00E9\"\x7d" ∧
      jsonFindString shapedText.bytes (ascii "pending_id") =
        .ok (some (ascii "id-" ++ [0xC3, 0xA9])) := by
  refine ⟨by decide +kernel, ?_⟩
  exact (pendingId_lookup_agrees shapedText).1
    [⟨false, spelled "note", [], [.lineFeed], noteValue⟩]
    ⟨true, spelled "pending_id", [.blank], [.tab], .string idValue⟩ [] idValue rfl (by decide) rfl
    ⟨rfl, by decide +kernel, rfl, rfl⟩ (show ∀ i ∈ idValue, isPair i = false by decide)
    (by simp [noteValue, Value.all, Elements.all])

/-- The id behind a blank. -/
def spacedText : ObjectText where
  before := []
  inner := [.blank]
  members := .cons [] (spelled "pending_id") [] [] (.string (spelled "x")) [] .nil
  after := []

/-- The id inside another member. -/
def nestedText : ObjectText where
  before := []
  inner := []
  members := .cons [] (spelled "a") [] []
    (.object [] (.cons [] (spelled "pending_id") [] [] (.string (spelled "x")) [] .nil)) [] .nil
  after := []

/-- The id of the first text is not found, and in the second text one is found
that the object does not have. -/
theorem lookup_differs_from_json :
    spacedText.bytes = ascii "\x7b \"pending_id\":\"x\"\x7d" ∧
      jsonFindString spacedText.bytes (ascii "pending_id") = .ok none ∧
    nestedText.bytes = ascii "\x7b\"a\":\x7b\"pending_id\":\"x\"\x7d\x7d" ∧
      jsonFindString nestedText.bytes (ascii "pending_id") = .ok (some (ascii "x")) ∧
    ¬ (∀ (t : ObjectText) (m : Member) (s : JString), t.top.filter namesId = [m] →
      m.value = .string s →
      jsonFindString t.bytes (ascii "pending_id") = .ok (some (utf8 (chars s)))) ∧
    ¬ ∀ t : ObjectText, (∀ m ∈ t.top, namesId m = true → ∀ s, m.value ≠ .string s) →
      jsonFindString t.bytes (ascii "pending_id") = .ok none := by
  have hspaced : jsonFindString spacedText.bytes (ascii "pending_id") =
      .ok none := by decide +kernel
  have hnested : jsonFindString nestedText.bytes (ascii "pending_id") = .ok (some (ascii "x")) := by
    decide +kernel
  refine ⟨by decide +kernel, hspaced, by decide +kernel, hnested, ?_, ?_⟩
  · intro h
    have hfound := h spacedText ⟨false, spelled "pending_id", [], [], .string (spelled "x")⟩
      (spelled "x") rfl rfl
    rw [hspaced] at hfound
    cases hfound
  · intro h
    have htop : ∀ m ∈ nestedText.top, namesId m = false := by decide
    have hnothing := h nestedText (fun m hm hnames => by
      rw [htop m hm] at hnames
      cases hnames)
    rw [hnested] at hnothing
    cases hnothing

end Vynkor
