import VynkorSdk.JsonScan

/-!
# What the scan of `json_find_string` finds

Three parts.  The decoder: which strings behind a key make `std::stoul` throw
(`Unreadable`).  The search: `scanKey` goes from left to right and skips what it
has rejected, and finds the string behind the first place that counts as the
key (`FirstKey`).  Together they are `jsonFindString_eq` and
`jsonFindString_eq_none`.
-/

namespace Vynkor

open ByteCodec

/-! ### Reading a string -/

/-- The closing quote ends the string. -/
theorem readString_quote (value rest : Bytes) :
    readString value (0x22 :: rest) = .ok (some value) := by
  rw [readString.eq_def]
  simp

/-- A plain byte is taken over. -/
theorem readString_plain {c : UInt8} (hquote : c ≠ 0x22) (hslash : c ≠ 0x5C) (value rest : Bytes) :
    readString value (c :: rest) = readString (value ++ [c]) rest := by
  rw [readString.eq_def]
  simp [hquote, hslash]

/-- A simple escape adds the byte it stands for. -/
theorem readString_simple {e v : UInt8} (he : simpleEscape e = some v) (value rest : Bytes) :
    readString value (0x5C :: e :: rest) = readString (value ++ [v]) rest := by
  have hu : e ≠ 0x75 := by
    intro h
    rw [h] at he
    exact nomatch he
  rw [readString.eq_def]
  simp [hu, he]

/-- A `\u` escape adds the character's encoding, if its four bytes make a number. -/
theorem readString_code (a b c d : UInt8) (value rest : Bytes) :
    readString value (0x5C :: 0x75 :: a :: b :: c :: d :: rest) =
      (stoulHex [a, b, c, d]).bind (fun cp =>
        readString (value ++ encodeCodeUnit cp.toUInt32) rest) := by
  rw [readString.eq_def]
  cases hcode : stoulHex [a, b, c, d] with
  | error e => simp [hcode, Except.bind]
  | ok cp => simp [hcode, Except.bind]

/-! ### Numbers and strings that cannot be read -/

/-- `std::stoul` finds no number: after blanks and a sign there is no digit. -/
def NoNumber (s : Bytes) : Prop :=
  ∀ d ∈ (splitSign (s.dropWhile isSpace)).2.head?, hexDigit d = none

/-- A hexadecimal prefix does not decide whether a digit stands in front. -/
theorem dropHexPrefix_head (s : Bytes) :
    (∃ d ∈ (dropHexPrefix s).head?, (hexDigit d).isSome) ↔ ∃ d ∈ s.head?, (hexDigit d).isSome := by
  unfold dropHexPrefix
  split
  · split
    · rename_i h
      simp only [Bool.and_eq_true] at h
      simp [h.2]
      decide
    · rfl
  · rfl

/-- There are no leading digits exactly when the first byte is none. -/
theorem digits_eq_nil_iff (s : Bytes) :
    (s.takeWhile (fun c => (hexDigit c).isSome)).filterMap hexDigit = [] ↔
      ∀ d ∈ s.head?, hexDigit d = none := by
  cases s with
  | nil => simp
  | cons c rest =>
      cases hc : hexDigit c with
      | none => simp [hc]
      | some n => simp [hc]

/-- `stoul` fails exactly on a text without a number. -/
theorem stoulHex_error_iff {s : Bytes} : (∃ e, stoulHex s = .error e) ↔ NoNumber s := by
  have hhead : NoNumber s ↔
      ∀ d ∈ (dropHexPrefix (splitSign (s.dropWhile isSpace)).2).head?, hexDigit d = none := by
    have h := not_congr (dropHexPrefix_head (splitSign (s.dropWhile isSpace)).2)
    simpa [NoNumber] using h.symm
  rw [hhead, ← digits_eq_nil_iff]
  unfold stoulHex
  dsimp only
  split
  · rename_i hnil
    exact ⟨fun _ => hnil, fun _ => ⟨_, rfl⟩⟩
  · rename_i hdigits
    exact ⟨fun ⟨e, he⟩ => (nomatch he), fun h => absurd h hdigits⟩

/-- Behind its opening quote the string comes, before its closing one, to a
`\u` escape whose four bytes are no number. -/
inductive Unreadable : Bytes → Prop
  | number {a b c d : UInt8} {rest : Bytes} (hnone : NoNumber [a, b, c, d]) :
      Unreadable (0x5C :: 0x75 :: a :: b :: c :: d :: rest)
  | code {a b c d : UInt8} {rest : Bytes} (tail : Unreadable rest) :
      Unreadable (0x5C :: 0x75 :: a :: b :: c :: d :: rest)
  | simple {e v : UInt8} {rest : Bytes} (he : simpleEscape e = some v) (tail : Unreadable rest) :
      Unreadable (0x5C :: e :: rest)
  | plain {c : UInt8} {rest : Bytes} (hquote : c ≠ 0x22) (hslash : c ≠ 0x5C)
      (tail : Unreadable rest) : Unreadable (c :: rest)

/-- Where reading a string fails, the text is unreadable. -/
theorem unreadable_of_error {value text : Bytes} {e : Exn} (h : readString value text = .error e) :
    Unreadable text := by
  fun_induction readString value text with
  | case1 => cases h
  | case2 value a b c d rest e' hcode => exact .number (stoulHex_error_iff.mp ⟨e', hcode⟩)
  | case3 value a b c d rest cp hcode ih => exact .code (ih h)
  | case4 => cases h
  | case5 value e' rest _ v hsimple ih => exact .simple hsimple (ih h)
  | case6 => cases h
  | case7 => cases h
  | case8 value c rest _ hpair hlast hquote ih =>
      refine .plain hquote ?_ (ih h)
      intro hslash
      cases rest with
      | nil => exact hlast hslash rfl
      | cons e' rest => exact hpair e' rest hslash rfl

/-- Reading an unreadable text fails, whatever was read before. -/
theorem Unreadable.error {text : Bytes} (h : Unreadable text) :
    ∀ value, ∃ e, readString value text = .error e := by
  induction h with
  | number hnone =>
      intro value
      obtain ⟨e, he⟩ := stoulHex_error_iff.mpr hnone
      exact ⟨e, by rw [readString_code, he]; rfl⟩
  | @code a b c d rest _ ih =>
      intro value
      rw [readString_code]
      cases stoulHex [a, b, c, d] with
      | error e => exact ⟨e, rfl⟩
      | ok cp => exact ih _
  | simple he _ ih =>
      intro value
      rw [readString_simple he]
      exact ih _
  | plain hquote hslash _ ih =>
      intro value
      rw [readString_plain hquote hslash]
      exact ih _

/-! ### Where the key is -/

/-- At the end of `early` stands the key, where a key may stand, with a string
behind it; `text` is that string from behind its opening quote.  `before` is the
byte in front of the whole. -/
def KeyAt (needle : Bytes) (before : Option UInt8) (json early text : Bytes) : Prop :=
  ∃ late, json = early ++ (needle ++ late) ∧ keyStartOk (before.toList ++ early).getLast? = true ∧
    stringBehindKey late = some text

/-- `text` follows the first such place. -/
def FirstKey (needle : Bytes) (before : Option UInt8) (json text : Bytes) : Prop :=
  ∃ early, KeyAt needle before json early text ∧
    ∀ early' text', KeyAt needle before json early' text' → early.length ≤ early'.length

/-- No second key begins inside an occurrence of the first. -/
def Separate (needle : Bytes) : Prop :=
  needle ≠ [] ∧ ∀ k, k + 1 < needle.length → keyStartOk needle[k]? = true →
    needle[k + 1]? ≠ needle[0]?

variable {needle : Bytes}

/-- Moving the first byte to what stands before changes no last byte. -/
theorem getLast?_before (before : Option UInt8) (c : UInt8) (chunk : Bytes) :
    (before.toList ++ c :: chunk).getLast? = ((some c).toList ++ chunk).getLast? := by
  rw [List.getLast?_append, List.getLast?_eq_some_getLast (List.cons_ne_nil c chunk)]
  rfl

/-- A key further on is found behind the first byte too. -/
theorem keyAt_cons {before : Option UInt8} {c : UInt8} {rest early text : Bytes} :
    KeyAt needle before (c :: rest) (c :: early) text ↔ KeyAt needle (some c) rest early text := by
  unfold KeyAt
  rw [getLast?_before]
  simp only [List.cons_append, List.cons.injEq, true_and]

/-- A key stands at the first byte or behind it. -/
theorem KeyAt.cases_cons {before : Option UInt8} {c : UInt8} {rest early text : Bytes}
    (h : KeyAt needle before (c :: rest) early text) :
    early = [] ∨ ∃ early', early = c :: early' ∧ KeyAt needle (some c) rest early' text := by
  cases early with
  | nil => exact Or.inl rfl
  | cons d early' =>
      obtain ⟨late, hjson, _⟩ := id h
      obtain ⟨rfl, _⟩ := List.cons.inj hjson
      exact Or.inr ⟨early', rfl, keyAt_cons.mp h⟩

/-- A key stands right here: its quoted name, where a name can start, with a string behind it. -/
theorem keyAt_nil_iff {before : Option UInt8} {json text : Bytes} :
    KeyAt needle before json [] text ↔ needle.isPrefixOf json = true ∧ keyStartOk before = true ∧
      stringBehindKey (json.drop needle.length) = some text := by
  have hlast : (before.toList ++ []).getLast? = before := by
    cases before <;> rfl
  unfold KeyAt
  rw [hlast, List.isPrefixOf_iff_prefix]
  constructor
  · intro h
    obtain ⟨late, rfl, hstart, htext⟩ := h
    exact ⟨List.prefix_append _ _, hstart, by simpa using htext⟩
  · intro h
    obtain ⟨⟨late, rfl⟩, hstart, htext⟩ := h
    exact ⟨late, rfl, hstart, by simpa using htext⟩

/-- Where the key does not begin, the first key of the rest is the first. -/
theorem firstKey_cons {before : Option UInt8} {c : UInt8} {rest text : Bytes}
    (hnone : ∀ text, ¬ KeyAt needle before (c :: rest) [] text) :
    FirstKey needle before (c :: rest) text ↔ FirstKey needle (some c) rest text := by
  constructor
  · intro h
    obtain ⟨early, hkey, hfirst⟩ := h
    rcases hkey.cases_cons with rfl | ⟨early, rfl, hkey'⟩
    · exact absurd hkey (hnone text)
    · refine ⟨early, hkey', ?_⟩
      intro early' text' hother
      simpa using hfirst _ _ (keyAt_cons.mpr hother)
  · intro h
    obtain ⟨early, hkey, hfirst⟩ := h
    refine ⟨c :: early, keyAt_cons.mpr hkey, ?_⟩
    intro early' text' hother
    rcases hother.cases_cons with rfl | ⟨early', rfl, hother'⟩
    · exact absurd hother (hnone text')
    · simpa using hfirst _ _ hother'

/-- Keys begin only behind the bytes the scan skips. -/
def Skipped (needle : Bytes) (before : Option UInt8) (skip : Nat) (json : Bytes) : Prop :=
  ∀ early text, KeyAt needle before json early text → skip ≤ early.length

/-- Nothing has been skipped yet. -/
theorem skipped_zero {before : Option UInt8} {json : Bytes} : Skipped needle before 0 json :=
  fun _ _ _ => Nat.zero_le _

/-- What is skipped holds no key behind its first byte either. -/
theorem Skipped.tail {before : Option UInt8} {skip : Nat} {c : UInt8} {rest : Bytes}
    (h : Skipped needle before (skip + 1) (c :: rest)) : Skipped needle (some c) skip rest := by
  intro early text hkey
  simpa using h _ _ (keyAt_cons.mpr hkey)

/-- One more byte may be skipped where no key stands. -/
theorem skipped_cons {before : Option UInt8} {skip : Nat} {c : UInt8} {rest : Bytes}
    (hnone : ∀ text, ¬ KeyAt needle before (c :: rest) [] text)
    (h : Skipped needle (some c) skip rest) : Skipped needle before (skip + 1) (c :: rest) := by
  intro early text hkey
  rcases hkey.cases_cons with rfl | ⟨early, rfl, hlater⟩
  · exact absurd hkey (hnone text)
  · simpa using h early text hlater

/-- Behind the first byte of an occurrence, the rest of it can be skipped. -/
theorem skipped_of_isPrefixOf (hsep : Separate needle) {c : UInt8} {rest : Bytes}
    (hoccurs : needle.isPrefixOf (c :: rest) = true) :
    Skipped needle (some c) (needle.length - 1) rest := by
  intro early text hkey
  by_contra hshort
  obtain ⟨late, hrest, hstart, _⟩ := hkey
  obtain ⟨late', hwhole⟩ := List.isPrefixOf_iff_prefix.mp hoccurs
  have hlt : early.length + 1 < needle.length := by omega
  have hat : ∀ k, k < needle.length → needle[k]? = (c :: rest)[k]? := by
    intro k hk
    rw [← hwhole, List.getElem?_append_left hk]
  have hbefore : ((some c).toList ++ early).getLast? = needle[early.length]? := by
    rw [hat _ (by omega), hrest, ← List.cons_append, List.getElem?_append_left (by simp),
      List.getLast?_eq_getElem?]
    simp
  refine hsep.2 early.length hlt ?_ ?_
  · rw [← hbefore]
    exact hstart
  · rw [hat _ hlt, hrest, List.getElem?_cons_succ, List.getElem?_append_right (Nat.le_refl _),
      Nat.sub_self, List.getElem?_append_left (by omega)]

/-- The scan reads the string behind the key it stands on. -/
theorem scanKey_of_keyAt (hneedle : needle ≠ []) {before : Option UInt8} {json text : Bytes}
    (hkey : KeyAt needle before json [] text) :
    scanKey needle before 0 json = readString [] text := by
  obtain ⟨hoccurs, hstart, htext⟩ := keyAt_nil_iff.mp hkey
  cases json with
  | nil => exact absurd (List.prefix_nil.mp (List.isPrefixOf_iff_prefix.mp hoccurs)) hneedle
  | cons c rest => rw [scanKey, if_pos hoccurs, if_pos hstart, htext]

/-- The scan moves on over a byte where no key begins. -/
theorem scanKey_cons_of_not_keyAt (hsep : Separate needle) {before : Option UInt8} {skip : Nat}
    {c : UInt8} {rest : Bytes} (hskip : Skipped needle before skip (c :: rest))
    (hnone : ∀ text, ¬ KeyAt needle before (c :: rest) [] text) :
    ∃ skip', Skipped needle (some c) skip' rest ∧
      scanKey needle before skip (c :: rest) = scanKey needle (some c) skip' rest := by
  cases skip with
  | succ skip => exact ⟨skip, hskip.tail, by rw [scanKey]⟩
  | zero =>
      by_cases hoccurs : needle.isPrefixOf (c :: rest) = true
      · refine ⟨needle.length - 1, skipped_of_isPrefixOf hsep hoccurs, ?_⟩
        rw [scanKey, if_pos hoccurs]
        by_cases hstart : keyStartOk before = true
        · rw [if_pos hstart]
          cases htext : stringBehindKey ((c :: rest).drop needle.length) with
          | none => rfl
          | some text => exact absurd (keyAt_nil_iff.mpr ⟨hoccurs, hstart, htext⟩) (hnone text)
        · rw [if_neg hstart]
      · exact ⟨0, skipped_zero, by rw [scanKey, if_neg hoccurs]⟩

/-- **What the scan finds**: the string behind the first key, and nothing where
there is none. -/
theorem scanKey_spec (hsep : Separate needle) (json : Bytes) :
    ∀ before skip, Skipped needle before skip json →
      (∀ text, FirstKey needle before json text →
        scanKey needle before skip json = readString [] text) ∧
      ((∀ early text, ¬ KeyAt needle before json early text) →
        scanKey needle before skip json = .ok none) := by
  induction json with
  | nil =>
      intro before skip _
      refine ⟨?_, fun _ => by rw [scanKey]⟩
      intro text hfirst
      obtain ⟨early, ⟨late, hjson, _⟩, _⟩ := hfirst
      rw [List.nil_eq, List.append_eq_nil_iff, List.append_eq_nil_iff] at hjson
      exact absurd hjson.2.1 hsep.1
  | cons c rest ih =>
      intro before skip hskip
      by_cases hkey : ∃ text, KeyAt needle before (c :: rest) [] text
      · obtain ⟨text, hkey⟩ := hkey
        have hzero : skip = 0 := by
          simpa using hskip _ _ hkey
        refine ⟨?_, fun hnone => absurd hkey (hnone _ _)⟩
        intro text' hfirst
        obtain ⟨early, hkey', hleast⟩ := hfirst
        obtain rfl : early = [] := by
          simpa using hleast _ _ hkey
        rw [hzero]
        exact scanKey_of_keyAt hsep.1 hkey'
      · have hnone : ∀ text, ¬ KeyAt needle before (c :: rest) [] text :=
          fun text h => hkey ⟨text, h⟩
        obtain ⟨skip', hskip', hscan⟩ := scanKey_cons_of_not_keyAt hsep hskip hnone
        obtain ⟨hfound, hmissed⟩ := ih (some c) skip' hskip'
        refine ⟨?_, ?_⟩
        · intro text hfirst
          rw [hscan]
          exact hfound text ((firstKey_cons hnone).mp hfirst)
        · intro hno
          rw [hscan]
          exact hmissed (fun early text h => hno _ _ (keyAt_cons.mpr h))

/-- Where there is a key, there is a first one. -/
theorem exists_firstKey {before : Option UInt8} {json early text : Bytes}
    (hkey : KeyAt needle before json early text) : ∃ text, FirstKey needle before json text := by
  classical
  have hex : ∃ n, ∃ early text, KeyAt needle before json early text ∧ early.length = n :=
    ⟨_, early, text, hkey, rfl⟩
  obtain ⟨early', text', hkey', hlen⟩ := Nat.find_spec hex
  refine ⟨text', early', hkey', ?_⟩
  intro early'' text'' hother
  rw [hlen]
  exact Nat.find_min' hex ⟨early'', text'', hother, rfl⟩

/-- What is skipped does not matter. -/
theorem scanKey_skip (hsep : Separate needle) {before : Option UInt8} {skip : Nat} {json : Bytes}
    (hskip : Skipped needle before skip json) :
    scanKey needle before skip json = scanKey needle before 0 json := by
  obtain ⟨hfound, hmissed⟩ := scanKey_spec hsep json before skip hskip
  obtain ⟨hfound', hmissed'⟩ := scanKey_spec hsep json before 0 skipped_zero
  by_cases hkey : ∃ early text, KeyAt needle before json early text
  · obtain ⟨early, text, hkey⟩ := hkey
    obtain ⟨text, hfirst⟩ := exists_firstKey hkey
    rw [hfound text hfirst, hfound' text hfirst]
  · have hnone : ∀ early text, ¬ KeyAt needle before json early text :=
      fun early text h => hkey ⟨early, text, h⟩
    rw [hmissed hnone, hmissed' hnone]

/-- The scan moves on over a chunk in which no key begins. -/
theorem scanKey_append (hsep : Separate needle) {rest : Bytes} :
    ∀ (chunk : Bytes) (before : Option UInt8), Skipped needle before chunk.length (chunk ++ rest) →
      scanKey needle before 0 (chunk ++ rest) =
        scanKey needle (before.toList ++ chunk).getLast? 0 rest := by
  intro chunk
  induction chunk with
  | nil =>
      intro before _
      cases before <;> rfl
  | cons c chunk ih =>
      intro before hskip
      have hnone : ∀ text, ¬ KeyAt needle before (c :: (chunk ++ rest)) [] text := by
        intro text hkey
        simpa using hskip _ _ hkey
      obtain ⟨skip', hskip', hscan⟩ := scanKey_cons_of_not_keyAt hsep skipped_zero hnone
      rw [List.cons_append, hscan, scanKey_skip hsep hskip', ih (some c) hskip.tail,
        getLast?_before]

/-- A key as it is searched for. -/
def quoted (key : Bytes) : Bytes := [0x22] ++ key ++ [0x22]

/-- `json_find_string` reads the string behind the first place of the key. -/
theorem jsonFindString_eq {key json text : Bytes} (hsep : Separate (quoted key))
    (hfirst : FirstKey (quoted key) none json text) :
    jsonFindString json key = readString [] text :=
  (scanKey_spec hsep json none 0 skipped_zero).1 text hfirst

/-- Without a place of the key there is nothing to find. -/
theorem jsonFindString_eq_none {key json : Bytes} (hsep : Separate (quoted key))
    (hnone : ∀ early text, ¬ KeyAt (quoted key) none json early text) :
    jsonFindString json key = .ok none :=
  (scanKey_spec hsep json none 0 skipped_zero).2 hnone

/-- **When the search throws**: the string behind the first key cannot be
read. -/
theorem jsonFindString_error_iff {key json : Bytes} (hsep : Separate (quoted key)) :
    (∃ e, jsonFindString json key = .error e) ↔
      ∃ text, FirstKey (quoted key) none json text ∧ Unreadable text := by
  constructor
  · intro h
    obtain ⟨e, he⟩ := h
    by_cases hkey : ∃ early text, KeyAt (quoted key) none json early text
    · obtain ⟨early, text, hkey⟩ := hkey
      obtain ⟨first, hfirst⟩ := exists_firstKey hkey
      rw [jsonFindString_eq hsep hfirst] at he
      exact ⟨first, hfirst, unreadable_of_error he⟩
    · rw [jsonFindString_eq_none hsep (fun early text h => hkey ⟨early, text, h⟩)] at he
      cases he
  · intro h
    obtain ⟨text, hfirst, hbad⟩ := h
    rw [jsonFindString_eq hsep hfirst]
    exact hbad.error []

/-- No second `"pending_id"` begins in the middle of one. -/
theorem separate_pendingId : Separate (quoted (ascii "pending_id")) := by
  have hinner : ∀ k < 11, keyStartOk (quoted (ascii "pending_id"))[k]? = true →
      (quoted (ascii "pending_id"))[k + 1]? ≠ (quoted (ascii "pending_id"))[0]? := by
    decide
  have hlen : (quoted (ascii "pending_id")).length = 12 := rfl
  refine ⟨by decide, ?_⟩
  intro k hk
  rw [hlen] at hk
  exact hinner k (by omega)

end Vynkor
