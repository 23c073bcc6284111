import Mathlib.Data.List.Chain
import Mathlib.Data.List.DropRight
import VynkorSdk.ByteCodec

/-!
# Heads of lines

The head of an HTTP message, as a reader takes it off a stream: lines that end
in CR LF, up to an empty one, and fields in them.  What a reader gets is a
function of the bytes, and `readLines_iff` says which.

Nothing here names the SDK.
-/

namespace HttpHead

open ByteCodec

/-- A line end. -/
def crlf : Bytes := [0x0D, 0x0A]

/-- No line end stands in the line. -/
def Unbroken (line : Bytes) : Prop := line.IsChain (fun a b => ¬ (a = 0x0D ∧ b = 0x0A))

instance (line : Bytes) : Decidable (Unbroken line) :=
  inferInstanceAs (Decidable (List.IsChain _ _))

/-- The line in front, and what is behind its end. -/
def nextLine : Bytes → Option (Bytes × Bytes)
  | a :: b :: rest =>
      if a = 0x0D ∧ b = 0x0A then
        some ([], rest)
      else
        (nextLine (b :: rest)).map (fun (line, more) => (a :: line, more))
  | _ => none

/-- The lines up to an empty one; `limit` counts that one too. -/
def readLines : Nat → Bytes → Option (List Bytes × Bytes)
  | 0, _ => none
  | limit + 1, bytes =>
      match nextLine bytes with
      | none => none
      | some ([], rest) => some ([], rest)
      | some (b :: line, rest) =>
          (readLines limit rest).map (fun (lines, more) => ((b :: line) :: lines, more))

/-- A head as it is written. -/
def text (lines : List Bytes) : Bytes := lines.flatMap (· ++ crlf) ++ crlf

/-- A head without lines is its empty line. -/
@[simp] theorem text_nil : text [] = crlf := rfl

/-- The first line comes first, with its line end. -/
theorem text_cons (line : Bytes) (lines : List Bytes) :
    text (line :: lines) = line ++ crlf ++ text lines := by
  simp [text]

/-! ### Unbroken lines -/

/-- A part of an unbroken line is unbroken. -/
theorem Unbroken.of_infix {line part : Bytes} (h : Unbroken line) (hpart : part <:+: line) :
    Unbroken part :=
  List.IsChain.infix h hpart

/-- Two unbroken texts join unbroken unless a line end arises between them. -/
theorem unbroken_append {a b : Bytes} : Unbroken (a ++ b) ↔ Unbroken a ∧ Unbroken b ∧
    ∀ x ∈ a.getLast?, ∀ y ∈ b.head?, ¬ (x = 0x0D ∧ y = 0x0A) :=
  List.isChain_append

/-- A line without CR. -/
theorem unbroken_of_no_cr {line : Bytes} (h : 0x0D ∉ line) : Unbroken line := by
  induction line with
  | nil => exact .nil
  | cons b line ih =>
      rw [List.mem_cons, not_or] at h
      exact List.isChain_cons.mpr ⟨fun _ _ hcr => h.1 hcr.1.symm, ih h.2⟩

/-- In front of an unbroken line anything without carriage returns may stand. -/
theorem unbroken_append_of_no_cr {front line : Bytes} (hfront : 0x0D ∉ front)
    (hline : Unbroken line) : Unbroken (front ++ line) := by
  refine unbroken_append.mpr ⟨unbroken_of_no_cr hfront, hline, ?_⟩
  intro b hb _ _ hcr
  exact hfront (hcr.1 ▸ List.mem_of_mem_getLast? hb)

/-- What is read as a line is unbroken and stands before a line end. -/
theorem nextLine_some {bytes line rest : Bytes} (h : nextLine bytes = some (line, rest)) :
    bytes = line ++ crlf ++ rest ∧ Unbroken line := by
  fun_induction nextLine bytes generalizing line with
  | case1 a b more hend =>
      obtain ⟨rfl, rfl⟩ := hend
      cases h
      exact ⟨rfl, .nil⟩
  | case2 a b more hinside ih =>
      obtain ⟨⟨line', rest'⟩, hnext, heq⟩ := Option.map_eq_some_iff.mp h
      obtain ⟨rfl, rfl⟩ := Prod.mk.inj heq
      obtain ⟨hbytes, hunbroken⟩ := ih hnext
      refine ⟨by rw [hbytes]; rfl, List.isChain_cons.mpr ⟨?_, hunbroken⟩⟩
      intro y hy
      cases line' with
      | nil => cases hy
      | cons c line' =>
          obtain rfl : c = y := by simpa using hy
          obtain rfl : b = c := (List.cons.inj hbytes).1
          exact hinside
  | case3 bytes hshort => cases h

/-- An unbroken line before a line end is read as it is. -/
theorem nextLine_of_unbroken (rest : Bytes) {line : Bytes} (h : Unbroken line) :
    nextLine (line ++ crlf ++ rest) = some (line, rest) := by
  induction line with
  | nil => rfl
  | cons a line ih =>
      obtain ⟨hhead, htail⟩ := List.isChain_cons.mp h
      have hnext := ih htail
      cases line with
      | nil =>
          show (if a = 0x0D ∧ (0x0D : UInt8) = 0x0A then _ else _) = _
          rw [if_neg (by simp)]
          exact congrArg (Option.map (fun (line, more) => (a :: line, more))) hnext
      | cons b line =>
          show (if a = 0x0D ∧ b = 0x0A then _ else _) = _
          rw [if_neg (hhead b rfl)]
          exact congrArg (Option.map (fun (line, more) => (a :: line, more))) hnext

/-- **The line in front** is the one that ends first. -/
theorem nextLine_iff {bytes line rest : Bytes} :
    nextLine bytes = some (line, rest) ↔ bytes = line ++ crlf ++ rest ∧ Unbroken line :=
  ⟨nextLine_some, fun ⟨hbytes, hline⟩ => hbytes ▸ nextLine_of_unbroken rest hline⟩

/-- **What a reader gets**: the lines of the head that stands in front. -/
theorem readLines_iff {limit : Nat} {bytes rest : Bytes} {lines : List Bytes} :
    readLines limit bytes = some (lines, rest) ↔
      lines.length < limit ∧ (∀ line ∈ lines, line ≠ [] ∧ Unbroken line) ∧
        bytes = text lines ++ rest := by
  induction limit generalizing bytes lines with
  | zero => simp [readLines]
  | succ limit ih =>
      rw [readLines]
      constructor
      · intro h
        split at h
        · cases h
        · rename_i hnext
          cases h
          exact ⟨Nat.succ_pos _, by simp, (nextLine_iff.mp hnext).1⟩
        · rename_i b line more hnext
          obtain ⟨⟨lines', rest'⟩, hread, heq⟩ := Option.map_eq_some_iff.mp h
          obtain ⟨rfl, rfl⟩ := Prod.mk.inj heq
          obtain ⟨hcount, hlines, rfl⟩ := ih.mp hread
          obtain ⟨rfl, hunbroken⟩ := nextLine_iff.mp hnext
          refine ⟨Nat.succ_lt_succ hcount, ?_, ?_⟩
          · exact List.forall_mem_cons.mpr ⟨⟨List.cons_ne_nil b line, hunbroken⟩, hlines⟩
          · rw [text_cons]
            exact (List.append_assoc _ _ _).symm
      · rintro ⟨hcount, hlines, rfl⟩
        cases lines with
        | nil =>
            have hnext : nextLine (text [] ++ rest) = some ([], rest) :=
              nextLine_iff.mpr ⟨rfl, .nil⟩
            rw [hnext]
        | cons line lines =>
            obtain ⟨⟨hne, hunbroken⟩, hmore⟩ := List.forall_mem_cons.mp hlines
            have hnext : nextLine (text (line :: lines) ++ rest) =
                some (line, text lines ++ rest) :=
              nextLine_iff.mpr ⟨by rw [text_cons, List.append_assoc], hunbroken⟩
            obtain ⟨b, tail, rfl⟩ := List.exists_cons_of_ne_nil hne
            rw [hnext]
            dsimp only
            rw [ih.mpr ⟨Nat.lt_of_succ_lt_succ hcount, hmore, rfl⟩]
            rfl

/-! ### Fields -/

def isBlank (b : UInt8) : Bool := b = 0x20 || b = 0x09

/-- Without the blanks around it. -/
def trim (s : Bytes) : Bytes := ((s.dropWhile isBlank).reverse.dropWhile isBlank).reverse

/-- In lower case, as ASCII has it. -/
def toLower (b : UInt8) : UInt8 := if 0x41 ≤ b ∧ b ≤ 0x5A then b + 0x20 else b

/-- The same but for the case of letters. -/
def sameWord (a b : Bytes) : Bool := a.map toLower == b.map toLower

/-- Name and value of a line with a colon. -/
def field (line : Bytes) : Option (Bytes × Bytes) :=
  match line.idxOf? 0x3A with
  | none => none
  | some colon => some (line.take colon, trim (line.drop (colon + 1)))

/-- The value of the first field of that name. -/
def value (name : Bytes) (lines : List Bytes) : Option Bytes :=
  ((lines.filterMap field).find? (fun entry => sameWord entry.1 name)).map Prod.snd

/-- Trimming only cuts at the ends. -/
theorem trim_isInfix (s : Bytes) : trim s <:+: s := by
  have hback : trim s <+: s.dropWhile isBlank := by
    rw [trim, ← List.reverse_suffix, List.reverse_reverse]
    exact List.dropWhile_suffix _
  exact hback.isInfix.trans (List.dropWhile_suffix _).isInfix

/-- A trimmed text starts with no blank. -/
theorem trim_dropWhile (s : Bytes) : (trim s).dropWhile isBlank = trim s := by
  rw [List.dropWhile_eq_self_iff]
  intro hpos hblank
  have hback : trim s <+: s.dropWhile isBlank := List.rdropWhile_prefix isBlank _
  obtain ⟨tail, htail⟩ := hback
  have hnot := List.head?_dropWhile_not isBlank s
  rw [← htail, List.head?_append, List.head?_eq_getElem?, List.getElem?_eq_getElem hpos] at hnot
  simp [hblank] at hnot

/-- Trimming twice is trimming once. -/
theorem trim_trim (s : Bytes) : trim (trim s) = trim s := by
  show List.rdropWhile isBlank ((trim s).dropWhile isBlank) = trim s
  rw [trim_dropWhile]
  exact List.rdropWhile_idempotent isBlank _

/-- Nothing is to be trimmed where both ends are no blanks. -/
theorem trim_eq_self_iff {s : Bytes} : trim s = s ↔
    (∀ hne : s ≠ [], isBlank (s.head hne) = false) ∧
      ∀ hne : s ≠ [], isBlank (s.getLast hne) = false := by
  have hfront : s.dropWhile isBlank = s ↔ ∀ hne : s ≠ [], isBlank (s.head hne) = false := by
    rw [List.dropWhile_eq_self_iff]
    simp [List.head_eq_getElem, List.length_pos_iff]
  have hback : List.rdropWhile isBlank s = s ↔ ∀ hne : s ≠ [], isBlank (s.getLast hne) = false := by
    simp [List.rdropWhile_eq_self_iff]
  rw [← hfront, ← hback]
  constructor
  · intro h
    have hdrop := trim_dropWhile s
    rw [h] at hdrop
    refine ⟨hdrop, ?_⟩
    have htrim : List.rdropWhile isBlank (s.dropWhile isBlank) = s := h
    rwa [hdrop] at htrim
  · rintro ⟨hdrop, hrdrop⟩
    show List.rdropWhile isBlank (s.dropWhile isBlank) = s
    rw [hdrop, hrdrop]

/-- A value a field can carry: no line end in it and no blank around it. -/
structure FieldText (value : Bytes) : Prop where
  unbroken : Unbroken value
  trimmed : trim value = value

/-- A field text may be led by a word that neither breaks the line nor starts with a blank. -/
theorem FieldText.append {front value : Bytes} (h : FieldText value) (hfront : 0x0D ∉ front)
    (hhead : front.head?.any (fun b => !isBlank b)) (hvalue : value ≠ []) :
    FieldText (front ++ value) := by
  refine ⟨unbroken_append_of_no_cr hfront h.unbroken, trim_eq_self_iff.mpr ⟨?_, ?_⟩⟩
  · intro hne
    obtain ⟨b, tail, rfl⟩ : ∃ b tail, front = b :: tail := by
      cases front with
      | nil => cases hhead
      | cons b tail => exact ⟨b, tail, rfl⟩
    simpa using hhead
  · intro hne
    rw [List.getLast_append_of_ne_nil _ hvalue]
    exact (trim_eq_self_iff.mp h.trimmed).2 hvalue

/-- The empty text can be a field's value. -/
theorem fieldText_nil : FieldText [] := ⟨.nil, rfl⟩

/-- The value of a field can be a value again. -/
theorem fieldText_of_field {line name value : Bytes} (hline : Unbroken line)
    (h : field line = some (name, value)) : FieldText value := by
  unfold field at h
  split at h
  · cases h
  · cases h
    refine ⟨hline.of_infix ?_, trim_trim _⟩
    exact (trim_isInfix _).trans (List.drop_suffix _ _).isInfix

/-- The value found under a name is a field text. -/
theorem fieldText_of_value {lines : List Bytes} {name v : Bytes}
    (hlines : ∀ line ∈ lines, Unbroken line) (h : value name lines = some v) : FieldText v := by
  obtain ⟨entry, hfind, rfl⟩ := Option.map_eq_some_iff.mp h
  obtain ⟨line, hmem, hfield⟩ := List.mem_filterMap.mp (List.mem_of_find?_eq_some hfind)
  exact fieldText_of_field (hlines line hmem) hfield

/-- A field as it is written. -/
def entry (name value : Bytes) : Bytes := name ++ ascii ": " ++ value

/-- The first place of a byte is behind the part that does not hold it. -/
theorem idxOf?_front {c : UInt8} (rest : Bytes) {front : Bytes} (h : c ∉ front) :
    (front ++ c :: rest).idxOf? c = some front.length := by
  induction front with
  | nil => simp [List.idxOf?_cons]
  | cons b front ih =>
      rw [List.mem_cons, not_or] at h
      simp [List.idxOf?_cons, ih h.2, Ne.symm h.1]

/-- **A field is read as it was written.** -/
theorem field_entry {name value : Bytes} (hname : 0x3A ∉ name) (hvalue : FieldText value) :
    field (entry name value) = some (name, value) := by
  have hentry : entry name value = name ++ 0x3A :: 0x20 :: value := by
    rw [entry, show ascii ": " = [0x3A, 0x20] by decide, List.append_assoc]
    rfl
  have hdrop : (name ++ 0x3A :: 0x20 :: value).drop (name.length + 1) = 0x20 :: value := by
    rw [← List.drop_drop, List.drop_left]
    rfl
  have htrim : trim (0x20 :: value) = value := hvalue.trimmed
  rw [field, hentry, idxOf?_front _ hname]
  simp only [List.take_left, hdrop, htrim]

/-- A field is one line when its name holds no carriage return and its value is unbroken. -/
theorem unbroken_entry {name value : Bytes} (hname : 0x0D ∉ name) (hvalue : Unbroken value) :
    Unbroken (entry name value) := by
  refine unbroken_append_of_no_cr ?_ hvalue
  rw [List.mem_append, not_or]
  exact ⟨hname, by decide⟩

/-- The fields of a head that is made of fields. -/
theorem filterMap_entries {fields : List (Bytes × Bytes)}
    (h : ∀ e ∈ fields, 0x3A ∉ e.1 ∧ FieldText e.2) :
    (fields.map (fun e => entry e.1 e.2)).filterMap field = fields := by
  induction fields with
  | nil => rfl
  | cons e fields ih =>
      obtain ⟨⟨hname, hvalue⟩, hfields⟩ := List.forall_mem_cons.mp h
      rw [List.map_cons, List.filterMap_cons, field_entry hname hvalue, ih hfields]

/-- Looking a name up among written fields gives the first field of that name. -/
theorem value_entries (name : Bytes) {fields : List (Bytes × Bytes)}
    (h : ∀ e ∈ fields, 0x3A ∉ e.1 ∧ FieldText e.2) :
    value name (fields.map (fun e => entry e.1 e.2)) =
      (fields.find? (fun e => sameWord e.1 name)).map Prod.snd := by
  rw [value, filterMap_entries h]

/-- A piece between commas. -/
theorem mem_splitOn {c : UInt8} {s : Bytes} :
    ∃ front more, s.splitOn c = front :: more ∧ front <+: s ∧
      ∀ piece ∈ front :: more, c ∉ piece ∧ piece <:+: s := by
  induction s with
  | nil => exact ⟨[], [], rfl, List.prefix_rfl, by simp⟩
  | cons x s ih =>
      obtain ⟨front, more, hsplit, hfront, hpieces⟩ := ih
      rw [List.splitOn_cons_eq_if_modifyHead, hsplit]
      by_cases hx : x = c
      · refine ⟨[], front :: more, by simp [hx], List.nil_prefix, ?_⟩
        rw [List.forall_mem_cons]
        exact ⟨by simp, fun piece hpiece => ⟨(hpieces piece hpiece).1,
          List.infix_cons (hpieces piece hpiece).2⟩⟩
      · refine ⟨x :: front, more, by simp [hx], (List.prefix_cons_inj x).mpr hfront, ?_⟩
        rw [List.forall_mem_cons] at hpieces ⊢
        obtain ⟨⟨hnot, -⟩, hmore⟩ := hpieces
        refine ⟨⟨?_, ((List.prefix_cons_inj x).mpr hfront).isInfix⟩, ?_⟩
        · simp only [List.mem_cons, not_or]
          exact ⟨fun h => hx h.symm, hnot⟩
        · exact fun piece hpiece => ⟨(hmore piece hpiece).1, List.infix_cons (hmore piece hpiece).2⟩

end HttpHead
