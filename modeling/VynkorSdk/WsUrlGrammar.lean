import VynkorSdk.WsUrl

/-!
# The grammar of WebSocket URLs

The grammar `parse_ws_url` is for: a scheme, a host, a port of digits and a path.
What counts as an IPv6 literal is left open (`Literal`); the results use only that
a literal is not empty and has neither a closing bracket nor a slash in it.
-/

namespace Vynkor

open ByteCodec WsImpl

/-! ### The grammar -/

/-- Decimal digits with a value from 1 to 65535. -/
def PortText (text : Bytes) (port : UInt16) : Prop :=
  text ≠ [] ∧ (∀ c ∈ text, isDigit c) ∧ digitsValue text = port.toNat ∧ port ≠ 0

variable (Literal : Bytes → Prop)

/-- How a host is written: as it is, or as a literal in brackets. -/
inductive HostText : Bytes → Bytes → Prop
  | plain {host : Bytes} (nonempty : host ≠ []) (no_colon : colon ∉ host) (no_slash : slash ∉ host)
      (no_bracket : host.head? ≠ some openBracket) : HostText host host
  | bracketed {literal : Bytes} (h : Literal literal) :
      HostText (openBracket :: (literal ++ [closeBracket])) literal

/-- A host, and a port behind a colon or none. -/
inductive AuthorityText : Bytes → Bytes → Option UInt16 → Prop
  | alone {text host : Bytes} (h : HostText Literal text host) : AuthorityText text host none
  | withPort {text host digits : Bytes} {port : UInt16} (h : HostText Literal text host)
      (hport : PortText digits port) : AuthorityText (text ++ colon :: digits) host (some port)

/-- The path, `/` if there is none. -/
def PathText (text path : Bytes) : Prop :=
  (text = [] ∧ path = ascii "/") ∨ (text.head? = some slash ∧ path = text)

/-- The URL is written as the grammar says, and `out` is what it says. -/
def UrlText (url : Bytes) (out : WsUrl) : Prop :=
  ∃ authority path port, url = schemeText out.tls ++ (authority ++ path) ∧
    AuthorityText Literal authority out.host port ∧ PathText path out.path ∧
    out.port = port.getD (defaultPort out.tls)

/-- The parser on one string: it throws `VynkorInternal` or returns what the
grammar says, and it accepts the string if the grammar has it. -/
def AcceptsGrammar (url : Bytes) : Prop :=
  ((∃ message, parseWsUrl url = .error (.internal message)) ∨
    ∃ out, parseWsUrl url = .ok out ∧ UrlText Literal url out) ∧
  ∀ out, UrlText Literal url out → parseWsUrl url = .ok out

/-! ### Ports -/

/-- A port as the grammar has it is read as it is. -/
theorem stoi_portText {text : Bytes} {port : UInt16} (h : PortText text port) :
    stoi text = .ok port.toNat := by
  obtain ⟨hne, hdigits, hvalue, _⟩ := h
  have hall : text.takeWhile isDigit = text := List.takeWhile_eq_self_iff.mpr hdigits
  have hsign : splitSign (text.dropWhile isSpace) = (false, text) := by
    cases text with
    | nil => exact absurd rfl hne
    | cons c text =>
        have hc := hdigits c List.mem_cons_self
        rw [List.dropWhile_cons_of_neg (by simp [isDigit_not_space hc])]
        unfold splitSign
        split
        · rename_i heq
          exact absurd (List.head_eq_of_cons_eq heq) (isDigit_ne hc (by decide))
        · rename_i heq
          exact absurd (List.head_eq_of_cons_eq heq) (isDigit_ne hc (by decide))
        · rfl
  have hlt := port.toNat_lt
  unfold stoi
  rw [hsign]
  dsimp only
  rw [hall, if_neg hne, hvalue]
  simp only [Bool.false_eq_true, if_false]
  rw [if_neg (by omega)]

/-- A port text is read as its port. -/
theorem portOf_portText {text : Bytes} {port : UInt16} (h : PortText text port) :
    portOf text = .ok port := by
  have hback : UInt16.ofInt (port.toNat : Int) = port := by
    have hlt := port.toNat_lt
    apply UInt16.toNat_inj.mp
    rw [UInt16.ofInt, UInt16.toNat_ofNat', Int.emod_eq_of_lt (by omega) (by omega),
      Int.toNat_natCast]
    omega
  rw [portOf, stoi_portText h]
  exact congrArg Except.ok hback

/-! ### The grammar's authorities -/

section Authority

variable {Literal} (hliteral : ∀ literal, Literal literal →
  literal ≠ [] ∧ closeBracket ∉ literal ∧ slash ∉ literal)

/-- A port text is made of digits. -/
theorem PortText.not_mem {text : Bytes} {port : UInt16} (h : PortText text port) {c : UInt8}
    (hc : isDigit c = false) : c ∉ text := by
  intro hmem
  rw [h.2.1 c hmem] at hc
  cases hc

/-- An authority that starts with a bracket. -/
theorem AuthorityText.of_bracket {authority host : Bytes} {port : Option UInt16}
    (h : AuthorityText Literal authority host port) (hhead : authority.head? = some openBracket) :
    Literal host ∧ ((port = none ∧ authority = openBracket :: (host ++ [closeBracket])) ∨
      ∃ digits p, port = some p ∧ PortText digits p ∧
        authority = openBracket :: (host ++ closeBracket :: colon :: digits)) := by
  cases h with
  | alone htext =>
      cases htext with
      | plain _ _ _ hbracket => exact absurd hhead hbracket
      | bracketed hlit => exact ⟨hlit, Or.inl ⟨rfl, rfl⟩⟩
  | withPort htext hport =>
      rename_i text digits p
      cases htext with
      | plain hne _ _ hbracket =>
          rw [List.head?_append_of_ne_nil _ hne] at hhead
          exact absurd hhead hbracket
      | bracketed hlit => exact ⟨hlit, Or.inr ⟨digits, p, rfl, hport, by simp⟩⟩

/-- An authority that does not. -/
theorem AuthorityText.of_plain {authority host : Bytes} {port : Option UInt16}
    (h : AuthorityText Literal authority host port) (hhead : authority.head? ≠ some openBracket) :
    (host ≠ [] ∧ colon ∉ host ∧ slash ∉ host) ∧ ((port = none ∧ authority = host) ∨
      ∃ digits p, port = some p ∧ PortText digits p ∧ authority = host ++ colon :: digits) := by
  cases h with
  | alone htext =>
      cases htext with
      | plain hne hcolon hslash _ => exact ⟨⟨hne, hcolon, hslash⟩, Or.inl ⟨rfl, rfl⟩⟩
      | bracketed hlit => exact absurd rfl hhead
  | withPort htext hport =>
      rename_i text digits p
      cases htext with
      | plain hne hcolon hslash _ =>
          exact ⟨⟨hne, hcolon, hslash⟩, Or.inr ⟨digits, p, rfl, hport, rfl⟩⟩
      | bracketed hlit => exact absurd rfl hhead

include hliteral

/-- **What the grammar has is read as it is.** -/
theorem AuthorityText.hostPort_eq {authority host : Bytes} {port : Option UInt16}
    (h : AuthorityText Literal authority host port) :
    hostPort authority = .ok (host, port.getD 0) ∧ host ≠ [] ∧ slash ∉ authority := by
  by_cases hhead : authority.head? = some openBracket
  · obtain ⟨hlit, hcases⟩ := h.of_bracket hhead
    obtain ⟨hne, hclose, hslash⟩ := hliteral host hlit
    rw [hostPort, if_pos hhead]
    rcases hcases with ⟨rfl, rfl⟩ | ⟨digits, p, rfl, hport, rfl⟩
    · refine ⟨bracketedHost_alone hclose, hne, ?_⟩
      simp [hslash]
    · have hdigits : slash ∉ digits := hport.not_mem (by decide)
      refine ⟨?_, hne, ?_⟩
      · rw [bracketedHost_port hclose, portOf_portText hport]
        rfl
      · simp [hslash, hdigits]
  · obtain ⟨⟨hne, hcolon, hslash⟩, hcases⟩ := h.of_plain hhead
    rw [hostPort, if_neg hhead]
    rcases hcases with ⟨rfl, rfl⟩ | ⟨digits, p, rfl, hport, rfl⟩
    · exact ⟨plainHost_alone hcolon, hne, hslash⟩
    · have hdigits : slash ∉ digits := hport.not_mem (by decide)
      refine ⟨?_, hne, ?_⟩
      · rw [plainHost_port hne (hport.not_mem (by decide)), portOf_portText hport]
        rfl
      · simp [hslash, hdigits]

/-! ### Where the parser keeps to the grammar -/

/-- The authorities on which the parser does what the grammar says.  Without a
bracket: no colon, or a host without one, a colon and a port.  Behind a bracket:
the text in the brackets is a literal, and a colon behind them starts a port;
empty brackets are refused, but only once the port has been converted. -/
def CleanAuthority (Literal : Bytes → Prop) (authority : Bytes) : Prop :=
  if authority.head? = some openBracket then
    ∀ literal after, authority = openBracket :: (literal ++ closeBracket :: after) →
      closeBracket ∉ literal →
      (after = [] → literal = [] ∨ Literal literal) ∧
      ∀ text, after = colon :: text →
        if literal = [] then ∃ n, stoi text = .ok n
        else Literal literal ∧ ∃ port, PortText text port
  else
    colon ∈ authority → ∃ host text port, authority = host ++ colon :: text ∧ host ≠ [] ∧
      colon ∉ host ∧ PortText text port

/-- The parser refuses the authority, or the grammar has it. -/
def SoundAuthority (Literal : Bytes → Prop) (authority : Bytes) : Prop :=
  (∃ message, hostPort authority = .error (.internal message)) ∨
    (∃ port, hostPort authority = .ok ([], port)) ∨
    ∃ host port, AuthorityText Literal authority host port

/-- The parts of a bracketed authority are found in one way only. -/
theorem AuthorityText.bracket_parts {literal after host : Bytes} {port : Option UInt16}
    (h : AuthorityText Literal (openBracket :: (literal ++ closeBracket :: after)) host port)
    (hclose : closeBracket ∉ literal) :
    Literal literal ∧ (after = [] ∨ ∃ digits p, after = colon :: digits ∧ PortText digits p) := by
  obtain ⟨hlit, hcases⟩ := h.of_bracket rfl
  obtain ⟨_, hclose', _⟩ := hliteral host hlit
  rcases hcases with ⟨_, heq⟩ | ⟨digits, p, _, hport, heq⟩
  · obtain ⟨rfl, rfl⟩ := cut_unique hclose hclose' (List.tail_eq_of_cons_eq heq)
    exact ⟨hlit, Or.inl rfl⟩
  · obtain ⟨rfl, rfl⟩ := cut_unique hclose hclose' (List.tail_eq_of_cons_eq heq)
    exact ⟨hlit, Or.inr ⟨digits, p, rfl, hport⟩⟩

/-- A sound bracketed authority is clean. -/
theorem clean_of_sound_bracketed {literal after : Bytes} (hclose : closeBracket ∉ literal)
    (h : SoundAuthority Literal (openBracket :: (literal ++ closeBracket :: after))) :
    (after = [] → literal = [] ∨ Literal literal) ∧
      ∀ text, after = colon :: text →
        if literal = [] then ∃ n, stoi text = .ok n
        else Literal literal ∧ ∃ port, PortText text port := by
  have hhost : hostPort (openBracket :: (literal ++ closeBracket :: after)) =
      bracketedHost (openBracket :: (literal ++ closeBracket :: after)) := if_pos rfl
  rw [SoundAuthority, hhost] at h
  constructor
  · rintro rfl
    rw [bracketedHost_alone hclose] at h
    rcases h with ⟨message, h⟩ | ⟨port, h⟩ | ⟨host, port, h⟩
    · cases h
    · cases h
      exact Or.inl rfl
    · exact Or.inr (h.bracket_parts hliteral hclose).1
  · rintro text rfl
    rw [bracketedHost_port hclose] at h
    rcases h with ⟨message, h⟩ | ⟨port, h⟩ | ⟨host, port, h⟩
    · obtain ⟨n, _, hr⟩ | ⟨e, hr, hinternal⟩ := portOf_map_cases text literal
      · cases hr.symm.trans h
      · exact absurd (Except.error.inj (hr.symm.trans h)) (hinternal message)
    · obtain ⟨n, hstoi, hr⟩ | ⟨e, hr, _⟩ := portOf_map_cases text literal
      · cases hr.symm.trans h
        rw [if_pos rfl]
        exact ⟨n, hstoi⟩
      · cases hr.symm.trans h
    · obtain ⟨hlit, hnil | ⟨digits, p, heq, hport⟩⟩ := h.bracket_parts hliteral hclose
      · cases hnil
      · cases heq
        rw [if_neg (hliteral literal hlit).1]
        exact ⟨hlit, p, hport⟩

omit hliteral in
/-- A clean bracketed authority is sound. -/
theorem sound_of_clean_bracketed {authority : Bytes} (hhead : authority.head? = some openBracket)
    (h : CleanAuthority Literal authority) : SoundAuthority Literal authority := by
  rw [CleanAuthority, if_pos hhead] at h
  rw [SoundAuthority, hostPort, if_pos hhead]
  obtain ⟨rest, rfl⟩ : ∃ rest, authority = openBracket :: rest := by
    cases authority with
    | nil => cases hhead
    | cons c rest => exact ⟨rest, by rw [Option.some.inj hhead]⟩
  by_cases hclosed : closeBracket ∈ rest
  · obtain ⟨literal, after, rfl, hclose⟩ := List.eq_append_cons_of_mem hclosed
    obtain ⟨halone, hport⟩ := h literal after rfl hclose
    cases after with
    | nil =>
        rcases halone rfl with rfl | hlit
        · exact Or.inr (Or.inl ⟨0, bracketedHost_alone hclose⟩)
        · exact Or.inr (Or.inr ⟨literal, none, .alone (.bracketed hlit)⟩)
    | cons c text =>
        by_cases hc : c = colon
        · subst hc
          have htext := hport text rfl
          split at htext
          · rename_i hnil
            subst hnil
            obtain ⟨n, hstoi⟩ := htext
            refine Or.inr (Or.inl ⟨UInt16.ofInt n, ?_⟩)
            rw [bracketedHost_port hclose, portOf, hstoi]
            rfl
          · obtain ⟨hlit, p, hp⟩ := htext
            have hform := AuthorityText.withPort (.bracketed hlit) hp
            rw [List.cons_append, List.append_assoc] at hform
            exact Or.inr (Or.inr ⟨literal, some p, hform⟩)
        · exact Or.inl ⟨_, bracketedHost_bad hclose hc text⟩
  · have hnot : closeBracket ∉ openBracket :: rest := by
      intro hmem
      rcases List.mem_cons.mp hmem with heq | hin
      · exact absurd heq (by decide)
      · exact hclosed hin
    refine Or.inl ⟨ascii "invalid ws url: unterminated IPv6 literal", ?_⟩
    rw [bracketedHost, List.idxOf?_eq_none_iff.mpr hnot]

omit hliteral in
/-- Without brackets, sound and clean are the same. -/
theorem sound_iff_clean_plain {authority : Bytes} (hhead : authority.head? ≠ some openBracket)
    (hslash : slash ∉ authority) :
    SoundAuthority Literal authority ↔ CleanAuthority Literal authority := by
  rw [SoundAuthority, CleanAuthority, if_neg hhead, hostPort, if_neg hhead]
  constructor
  · intro hsound hcolon
    have hrefused : ∀ message port, plainHost authority ≠ .error (.internal message) ∧
        plainHost authority ≠ .ok ([], port) := by
      intro message port
      obtain ⟨host, text, rfl, htext⟩ := exists_last_cut hcolon
      by_cases hhost : host = []
      · subst hhost
        rw [List.nil_append, plainHost_front htext]
        simp
      · rw [plainHost_port hhost htext]
        obtain ⟨n, _, hr⟩ | ⟨e, hr, hinternal⟩ := portOf_map_cases text host
        · rw [hr]
          simp [hhost]
        · rw [hr]
          simp [hinternal message]
    rcases hsound with ⟨message, h⟩ | ⟨port, h⟩ | ⟨host, port, h⟩
    · exact absurd h (hrefused message 0).1
    · exact absurd h (hrefused [] port).2
    · obtain ⟨⟨hne, hno, _⟩, ⟨_, heq⟩ | ⟨digits, p, _, hport, heq⟩⟩ := h.of_plain hhead
      · exact absurd (heq ▸ hcolon) hno
      · exact ⟨host, digits, p, heq, hne, hno, hport⟩
  · intro hclean
    by_cases hcolon : colon ∈ authority
    · obtain ⟨host, text, port, rfl, hne, hno, hport⟩ := hclean hcolon
      have hhost : HostText Literal host host := by
        refine .plain hne hno (fun hmem => hslash (List.mem_append_left _ hmem)) ?_
        rwa [List.head?_append_of_ne_nil _ hne] at hhead
      exact Or.inr (Or.inr ⟨host, some port, .withPort hhost hport⟩)
    · by_cases hne : authority = []
      · subst hne
        exact Or.inr (Or.inl ⟨0, rfl⟩)
      · exact Or.inr (Or.inr ⟨authority, none, .alone (.plain hne hcolon hslash hhead)⟩)

/-- Sound and clean are the same for every authority. -/
theorem sound_iff_clean {authority : Bytes} (hslash : slash ∉ authority) :
    SoundAuthority Literal authority ↔ CleanAuthority Literal authority := by
  by_cases hhead : authority.head? = some openBracket
  · constructor
    · intro hsound
      rw [CleanAuthority, if_pos hhead]
      intro literal after heq hclose
      exact clean_of_sound_bracketed hliteral hclose (heq ▸ hsound)
    · exact sound_of_clean_bracketed hhead
  · exact sound_iff_clean_plain hhead hslash

/-! ### From the authority to the URL -/

omit hliteral in
/-- A path is empty or starts with a slash. -/
theorem PathText.nil_or_slash {text path : Bytes} (h : PathText text path) :
    text = [] ∨ text.head? = some slash := by
  rcases h with ⟨hnil, _⟩ | ⟨hhead, _⟩
  · exact Or.inl hnil
  · exact Or.inr hhead

/-- The grammar finds the same authority and path in a URL as the parser. -/
theorem UrlText.parts {tls : Bool} {authority path : Bytes} {out : WsUrl}
    (h : UrlText Literal (schemeText tls ++ (authority ++ path)) out) (hslash : slash ∉ authority)
    (hpath : path = [] ∨ path.head? = some slash) :
    out.tls = tls ∧ ∃ port, AuthorityText Literal authority out.host port ∧
      PathText path out.path ∧ out.port = port.getD (defaultPort tls) := by
  obtain ⟨authority', path', port, heq, hauthority, hpathText, hport⟩ := h
  obtain ⟨rfl, hrest⟩ := schemeText_inj heq
  obtain ⟨_, _, hslash'⟩ := hauthority.hostPort_eq hliteral
  have hsame : authority = authority' := by
    rw [← takeWhile_authority hslash hpath, hrest,
      takeWhile_authority hslash' hpathText.nil_or_slash]
  subst hsame
  obtain rfl := List.append_cancel_left hrest
  exact ⟨rfl, port, hauthority, hpathText, hport⟩

/-- **Every string of the grammar is accepted**, as what it says. -/
theorem parseWsUrl_of_urlText {url : Bytes} {out : WsUrl} (h : UrlText Literal url out) :
    parseWsUrl url = .ok out := by
  obtain ⟨authority, path, port, rfl, hauthority, hpathText, hport⟩ := h
  obtain ⟨hhost, hne, hslash⟩ := hauthority.hostPort_eq hliteral
  have hportValue : (if port.getD 0 = 0 then defaultPort out.tls else port.getD 0) = out.port := by
    cases hauthority with
    | alone _ => exact hport.symm
    | withPort _ hdigits =>
        rw [hport, Option.getD_some, Option.getD_some, if_neg hdigits.2.2.2]
  have hpathValue : (if (if path = [] then ascii "/" else path) = [] then ascii "/"
      else (if path = [] then ascii "/" else path)) = out.path := by
    rcases hpathText with ⟨rfl, hout⟩ | ⟨hhead, hout⟩
    · rw [hout]
      rfl
    · have hpath : path ≠ [] := by
        rintro rfl
        cases hhead
      rw [if_neg hpath, if_neg hpath, hout]
  rw [parseWsUrl_scheme, parseBehindScheme_eq _ hslash hpathText.nil_or_slash, hhost]
  show finishUrl _ _ _ _ = _
  rw [finishUrl, if_neg hne, hportValue, hpathValue]

/-- The parser keeps to the grammar on a URL as it does on the authority. -/
theorem acceptsGrammar_iff_sound (tls : Bool) {authority path : Bytes} (hslash : slash ∉ authority)
    (hpath : path = [] ∨ path.head? = some slash) :
    AcceptsGrammar Literal (schemeText tls ++ (authority ++ path)) ↔
      SoundAuthority Literal authority := by
  have hparse := parseBehindScheme_eq tls hslash hpath
  rw [← parseWsUrl_scheme] at hparse
  constructor
  · rintro ⟨⟨message, herror⟩ | ⟨out, _, htext⟩, _⟩
    · rw [hparse] at herror
      cases hhost : hostPort authority with
      | error e =>
          rw [hhost] at herror
          cases herror
          exact Or.inl ⟨message, hhost⟩
      | ok found =>
          obtain ⟨host, port⟩ := found
          rw [hhost] at herror
          by_cases hnil : host = []
          · exact Or.inr (Or.inl ⟨port, by rw [hhost, hnil]⟩)
          · have hok : finishUrl tls (if path = [] then ascii "/" else path) host port =
                .error (.internal message) := herror
            rw [finishUrl, if_neg hnil] at hok
            cases hok
    · obtain ⟨_, port, hauthority, _⟩ := htext.parts hliteral hslash hpath
      exact Or.inr (Or.inr ⟨out.host, port, hauthority⟩)
  · intro hsound
    refine ⟨?_, fun out htext => parseWsUrl_of_urlText hliteral htext⟩
    rcases hsound with ⟨message, hhost⟩ | ⟨port, hhost⟩ | ⟨host, port, hauthority⟩
    · exact Or.inl ⟨message, by rw [hparse, hhost]; rfl⟩
    · exact Or.inl ⟨_, by rw [hparse, hhost]; rfl⟩
    · let out : WsUrl := ⟨tls, host, port.getD (defaultPort tls),
        if path = [] then ascii "/" else path⟩
      have hpathText : PathText path out.path := by
        rcases hpath with hnil | hhead
        · exact Or.inl ⟨hnil, if_pos hnil⟩
        · have hne : path ≠ [] := by
            rintro rfl
            cases hhead
          exact Or.inr ⟨hhead, if_neg hne⟩
      have htext : UrlText Literal (schemeText tls ++ (authority ++ path)) out :=
        ⟨authority, path, port, rfl, hauthority, hpathText, rfl⟩
      exact Or.inr ⟨out, parseWsUrl_of_urlText hliteral htext, htext⟩

end Authority

/-- The strings on which `parse_ws_url` does what the grammar says: those without
a scheme, and those with a clean authority behind it. -/
def CleanUrl (Literal : Bytes → Prop) (url : Bytes) : Prop :=
  ∀ tls rest, url = schemeText tls ++ rest →
    CleanAuthority Literal (rest.takeWhile (fun c => c ≠ slash))

/-- **Where `parse_ws_url` accepts exactly its grammar.** -/
theorem parse_ws_url_grammar_iff {Literal : Bytes → Prop} (hliteral : ∀ literal, Literal literal →
    literal ≠ [] ∧ closeBracket ∉ literal ∧ slash ∉ literal) (url : Bytes) :
    AcceptsGrammar Literal url ↔ CleanUrl Literal url := by
  by_cases hscheme : ∃ tls rest, url = schemeText tls ++ rest
  · obtain ⟨tls, rest, rfl⟩ := hscheme
    let authority := rest.takeWhile (fun c => c ≠ slash)
    let path := rest.dropWhile (fun c => c ≠ slash)
    have hsplit : rest = authority ++ path := List.takeWhile_append_dropWhile.symm
    have hslash : slash ∉ authority := by
      intro hmem
      have := List.mem_takeWhile_imp hmem
      simp at this
    have hpath : path = [] ∨ path.head? = some slash := by
      cases hcons : path with
      | nil => exact Or.inl rfl
      | cons c tail =>
          have hhead := List.head?_dropWhile_not (fun c => decide (c ≠ slash)) rest
          rw [show rest.dropWhile (fun c => decide (c ≠ slash)) = c :: tail from hcons] at hhead
          have hc : c = slash := by simpa using hhead
          exact Or.inr (by rw [hc]; rfl)
    have hclean : CleanUrl Literal (schemeText tls ++ rest) ↔ CleanAuthority Literal authority := by
      constructor
      · intro h
        exact h tls rest rfl
      · intro h tls' rest' heq
        obtain ⟨_, rfl⟩ := schemeText_inj heq
        exact h
    rw [hclean, ← sound_iff_clean hliteral hslash,
      ← acceptsGrammar_iff_sound hliteral tls hslash hpath, ← hsplit]
  · have hnone : ∀ tls rest, url ≠ schemeText tls ++ rest := by
      intro tls rest heq
      exact hscheme ⟨tls, rest, heq⟩
    constructor
    · intro _ tls rest heq
      exact absurd heq (hnone tls rest)
    · intro _
      refine ⟨Or.inl ⟨_, parseWsUrl_no_scheme hnone⟩, ?_⟩
      rintro out ⟨authority, path, port, heq, _⟩
      exact absurd heq (hnone out.tls _)

/-- Any text that can stand between brackets. -/
def anyLiteral (literal : Bytes) : Prop :=
  literal ≠ [] ∧ closeBracket ∉ literal ∧ slash ∉ literal

/-- The sample grammar of literals keeps the brackets and slashes out. -/
theorem anyLiteral_spec : ∀ literal, anyLiteral literal →
    literal ≠ [] ∧ closeBracket ∉ literal ∧ slash ∉ literal :=
  fun _ h => h

/-- The URL of the parser's first test. -/
theorem parse_ws_url_grammar_iff_localhost :
    AcceptsGrammar anyLiteral (ascii "ws://localhost:9000/ws") := by
  apply (parse_ws_url_grammar_iff anyLiteral_spec _).mpr
  intro tls rest heq
  have hurl : ascii "ws://localhost:9000/ws" = schemeText false ++ ascii "localhost:9000/ws" := by
    decide
  obtain ⟨_, rfl⟩ := schemeText_inj (hurl.symm.trans heq)
  have hauthority : (ascii "localhost:9000/ws").takeWhile (fun c => c ≠ slash) =
      ascii "localhost" ++ colon :: ascii "9000" := by decide
  rw [hauthority, CleanAuthority, if_neg (by decide)]
  intro _
  have hdigits : (ascii "9000").all isDigit = true := by decide
  exact ⟨ascii "localhost", ascii "9000", 9000, rfl, by decide, by decide, by decide,
    List.all_eq_true.mp hdigits, by decide, by decide⟩

/-- A port beyond 16 bits is cut to them, and a port that is no number escapes as
an exception of the standard library. -/
theorem parse_ws_url_leaves_grammar :
    parseWsUrl (ascii "ws://host:99999/x") =
        .ok { host := ascii "host", port := 34463, path := ascii "/x" } ∧
      ¬ AcceptsGrammar anyLiteral (ascii "ws://host:99999/x") ∧
      parseWsUrl (ascii "ws://host:/x") = .error (.stdInvalidArgument (ascii "stoi")) ∧
      ¬ AcceptsGrammar anyLiteral (ascii "ws://host:/x") := by
  have hescapes : parseWsUrl (ascii "ws://host:/x") =
      .error (.stdInvalidArgument (ascii "stoi")) := by decide +kernel
  refine ⟨by decide +kernel, ?_, hescapes, ?_⟩
  · intro haccepts
    have hurl : ascii "ws://host:99999/x" =
        schemeText false ++ (ascii "host:99999" ++ ascii "/x") := by decide
    have hslash : slash ∉ ascii "host:99999" := by decide
    have hpath : ascii "/x" = [] ∨ (ascii "/x").head? = some slash := by decide
    rw [hurl, acceptsGrammar_iff_sound anyLiteral_spec false hslash hpath,
      sound_iff_clean anyLiteral_spec hslash, CleanAuthority, if_neg (by decide)] at haccepts
    obtain ⟨host, text, port, heq, _, hcolon, hport⟩ := haccepts (by decide)
    have hcut : ascii "host" ++ colon :: ascii "99999" = host ++ colon :: text := heq
    obtain ⟨_, rfl⟩ := cut_unique (by decide) hcolon hcut
    have hvalue : digitsValue (ascii "99999") = 99999 := by decide
    have := port.toNat_lt
    have := hport.2.2.1
    omega
  · rintro ⟨⟨message, h⟩ | ⟨out, h, _⟩, _⟩
    · cases hescapes.symm.trans h
    · cases hescapes.symm.trans h

end Vynkor
