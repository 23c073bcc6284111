import Mathlib.Data.List.TakeWhile
import Mathlib.Tactic.SplitIfs
import VynkorSdk.JsonScan
import VynkorSdk.WsConnection

/-!
# WebSocket URLs

`parse_ws_url`: a scheme, an authority up to the first slash, and a path.  The port
goes through `std::stoi`, which skips blanks, takes a sign, stops at the first byte
that is not a digit, and throws exceptions of its own.
-/

namespace Vynkor

open ByteCodec WsImpl

def slash : UInt8 := 0x2F
def colon : UInt8 := 0x3A
def openBracket : UInt8 := 0x5B
def closeBracket : UInt8 := 0x5D

/-- Three separators, three different bytes. -/
@[simp] theorem slash_ne_colon : slash ≠ colon := by decide

/-- A slash opens no IPv6 literal. -/
@[simp] theorem slash_ne_openBracket : slash ≠ openBracket := by decide

/-- A slash closes no IPv6 literal. -/
@[simp] theorem slash_ne_closeBracket : slash ≠ closeBracket := by decide

/-! ### `std::stoi` in base 10 -/

def isDigit (c : UInt8) : Bool := 0x30 ≤ c && c ≤ 0x39

/-- The number a string of digits spells. -/
def digitsValue (digits : Bytes) : Nat :=
  digits.foldl (fun n d => 10 * n + (d.toNat - 0x30)) 0

def stoi (s : Bytes) : Except Exn Int :=
  let (negative, s) := splitSign (s.dropWhile isSpace)
  let digits := s.takeWhile isDigit
  if digits = [] then
    .error (.stdInvalidArgument (ascii "stoi"))
  else
    let n : Int := digitsValue digits
    let value := if negative then -n else n
    if value < -2 ^ 31 ∨ 2 ^ 31 ≤ value then
      .error (.stdOutOfRange (ascii "stoi"))
    else
      .ok value

/-! ### `parse_ws_url` -/

/-- `std::string::rfind` of a byte: where it stands last. -/
def rfind (c : UInt8) (s : Bytes) : Option Nat :=
  (s.reverse.idxOf? c).map (fun i => s.length - 1 - i)

/-- A port, cut to 16 bits. -/
def portOf (text : Bytes) : Except Exn UInt16 :=
  (stoi text).map UInt16.ofInt

/-- `[ipv6-literal]:port`. -/
def bracketedHost (hostport : Bytes) : Except Exn (Bytes × UInt16) :=
  match hostport.idxOf? closeBracket with
  | none => .error (.internal (ascii "invalid ws url: unterminated IPv6 literal"))
  | some close =>
      let host := slice hostport 1 (close - 1)
      if close + 1 < hostport.length then
        if hostport.getD (close + 1) 0 ≠ colon then
          .error (.internal (ascii "invalid ws url: bad text after IPv6 literal"))
        else
          (portOf (hostport.drop (close + 2))).map (fun port => (host, port))
      else
        .ok (host, 0)

/-- `host:port`; a colon in front is part of the host. -/
def plainHost (hostport : Bytes) : Except Exn (Bytes × UInt16) :=
  match rfind colon hostport with
  | none => .ok (hostport, 0)
  | some at_ =>
      if at_ ≠ 0 then
        (portOf (hostport.drop (at_ + 1))).map (fun port => (hostport.take at_, port))
      else
        .ok (hostport, 0)

/-- Host and port of an authority, port zero if there is none. -/
def hostPort (authority : Bytes) : Except Exn (Bytes × UInt16) :=
  if authority.head? = some openBracket then bracketedHost authority else plainHost authority

def defaultPort (tls : Bool) : UInt16 := if tls then 443 else 80

/-- The checks and defaults at the end of `parse_ws_url`. -/
def finishUrl (tls : Bool) (path host : Bytes) (port : UInt16) : Except Exn WsUrl :=
  if host = [] then
    .error (.internal (ascii "invalid ws url: missing host"))
  else
    .ok { tls := tls
          host := host
          port := if port = 0 then defaultPort tls else port
          path := if path = [] then ascii "/" else path }

/-- The part of `parse_ws_url` behind the scheme. -/
def parseBehindScheme (tls : Bool) (rest : Bytes) : Except Exn WsUrl := do
  let found := rest.idxOf? slash
  let authority := match found with
    | none => rest
    | some i => rest.take i
  let path := match found with
    | none => ascii "/"
    | some i => rest.drop i
  let (host, port) ← hostPort authority
  finishUrl tls path host port

def parseWsUrl (url : Bytes) : Except Exn WsUrl :=
  if ascii "ws://" <+: url then
    parseBehindScheme false (url.drop (ascii "ws://").length)
  else if ascii "wss://" <+: url then
    parseBehindScheme true (url.drop (ascii "wss://").length)
  else
    .error (.internal (ascii "invalid ws url: scheme must be ws:// or wss://"))

/-! ### Cutting at a byte -/

/-- The first place of a byte is behind the part that does not hold it. -/
theorem idxOf?_cut {c : UInt8} {a b : Bytes} (h : c ∉ a) :
    (a ++ c :: b).idxOf? c = some a.length := by
  induction a with
  | nil => simp [List.idxOf?_cons]
  | cons x a ih =>
      have hne : ¬ x = c := fun heq => h (heq ▸ List.mem_cons_self)
      rw [List.cons_append, List.idxOf?_cons, ih (fun hmem => h (List.mem_cons_of_mem _ hmem))]
      simp [hne]

/-- The last place of a byte is before the part that does not hold it. -/
theorem rfind_cut {c : UInt8} {a b : Bytes} (h : c ∉ b) :
    rfind c (a ++ c :: b) = some a.length := by
  have hreverse : (a ++ c :: b).reverse = b.reverse ++ c :: a.reverse := by simp
  rw [rfind, hreverse, idxOf?_cut (by simpa using h), Option.map_some, List.length_append,
    List.length_cons, List.length_reverse]
  congr 1
  omega

/-- A byte that is not there has no last place. -/
theorem rfind_none {c : UInt8} {s : Bytes} (h : c ∉ s) : rfind c s = none := by
  rw [rfind, List.idxOf?_eq_none_iff.mpr (by simpa using h), Option.map_none]

/-- The first cut is the only one. -/
theorem cut_unique {c : UInt8} {a b a' b' : Bytes} (ha : c ∉ a) (ha' : c ∉ a')
    (h : a ++ c :: b = a' ++ c :: b') : a = a' ∧ b = b' := by
  have hlen : a.length = a'.length := by
    apply Option.some.inj
    rw [← idxOf?_cut ha, h, idxOf?_cut ha']
  obtain ⟨hfront, hback⟩ := List.append_inj h hlen
  exact ⟨hfront, List.tail_eq_of_cons_eq hback⟩

/-- A text that holds a byte can be cut at its last place. -/
theorem exists_last_cut {c : UInt8} {s : Bytes} (h : c ∈ s) : ∃ a b, s = a ++ c :: b ∧ c ∉ b := by
  obtain ⟨b, a, heq, hnot⟩ := List.eq_append_cons_of_mem (List.mem_reverse.mpr h)
  refine ⟨a.reverse, b.reverse, ?_, by simpa using hnot⟩
  rw [← List.reverse_reverse s, heq]
  simp

/-! ### Ports -/

/-- The digits are the bytes from `0` to `9`. -/
theorem isDigit_bounds {c : UInt8} (h : isDigit c) : 0x30 ≤ c ∧ c ≤ 0x39 := by
  simpa [isDigit] using h

/-- A digit is none of the bytes that are not. -/
theorem isDigit_ne {c d : UInt8} (h : isDigit c) (hd : isDigit d = false) : c ≠ d := by
  intro heq
  rw [heq, hd] at h
  cases h

/-- A digit is no blank. -/
theorem isDigit_not_space {c : UInt8} (h : isDigit c) : isSpace c = false := by
  obtain ⟨hge, _⟩ := isDigit_bounds h
  have hlarge : ¬ c ≤ 0x0D := fun hle => absurd (UInt8.le_trans hge hle) (by decide)
  have hblank : c ≠ 0x20 := isDigit_ne h (by decide)
  simp [isSpace, hlarge, hblank]

/-- `std::stoi` throws exceptions of the standard library only. -/
theorem stoi_not_internal (text message : Bytes) : stoi text ≠ .error (.internal message) := by
  unfold stoi
  dsimp only
  split_ifs <;> simp

/-- A conversion of the port that succeeds or throws. -/
theorem portOf_map_cases (text host : Bytes) :
    (∃ n, stoi text = .ok n ∧
      (portOf text).map (fun port => (host, port)) = .ok (host, UInt16.ofInt n)) ∨
    ∃ e, (portOf text).map (fun port => (host, port)) = .error e ∧
      ∀ message, e ≠ .internal message := by
  unfold portOf
  cases hstoi : stoi text with
  | error e =>
      refine Or.inr ⟨e, rfl, ?_⟩
      rintro message rfl
      exact stoi_not_internal text message hstoi
  | ok n => exact Or.inl ⟨n, rfl, rfl⟩

/-! ### Hosts -/

/-- The literal ends at its first closing bracket. -/
theorem closeBracket_cut {literal : Bytes} (h : closeBracket ∉ literal) (after : Bytes) :
    (openBracket :: (literal ++ closeBracket :: after)).idxOf? closeBracket =
      some (literal.length + 1) := by
  have hnot : closeBracket ∉ openBracket :: literal := by
    intro hmem
    rcases List.mem_cons.mp hmem with heq | hin
    · exact absurd heq (by decide)
    · exact h hin
  exact idxOf?_cut hnot

/-- A bracketed literal on its own has no port. -/
theorem bracketedHost_alone {literal : Bytes} (h : closeBracket ∉ literal) :
    bracketedHost (openBracket :: (literal ++ [closeBracket])) = .ok (literal, 0) := by
  rw [bracketedHost, closeBracket_cut h]
  dsimp only
  rw [if_neg (by simp), slice]
  simp

/-- Behind a bracketed literal and a colon stands the port. -/
theorem bracketedHost_port {literal : Bytes} (h : closeBracket ∉ literal) (text : Bytes) :
    bracketedHost (openBracket :: (literal ++ closeBracket :: colon :: text)) =
      (portOf text).map (fun port => (literal, port)) := by
  have hat : (openBracket :: (literal ++ closeBracket :: colon :: text)).getD
      (literal.length + 1 + 1) 0 = colon := by
    simp [List.getD]
  have hdrop : (openBracket :: (literal ++ closeBracket :: colon :: text)).drop
      (literal.length + 1 + 2) = text := by
    simp [List.drop_append]
  have hhost : slice (openBracket :: (literal ++ closeBracket :: colon :: text)) 1
      (literal.length + 1 - 1) = literal := by
    simp [slice]
  rw [bracketedHost, closeBracket_cut h]
  dsimp only
  rw [if_pos (by simp), hat, if_neg (by simp), hdrop, hhost]

/-- Anything but a colon behind the bracket is refused. -/
theorem bracketedHost_bad {literal : Bytes} (h : closeBracket ∉ literal) {c : UInt8}
    (hc : c ≠ colon) (text : Bytes) :
    bracketedHost (openBracket :: (literal ++ closeBracket :: c :: text)) =
      .error (.internal (ascii "invalid ws url: bad text after IPv6 literal")) := by
  have hat : (openBracket :: (literal ++ closeBracket :: c :: text)).getD
      (literal.length + 1 + 1) 0 = c := by
    simp [List.getD]
  rw [bracketedHost, closeBracket_cut h]
  dsimp only
  rw [if_pos (by simp), hat, if_pos hc]

/-- A host without a colon has no port. -/
theorem plainHost_alone {host : Bytes} (h : colon ∉ host) : plainHost host = .ok (host, 0) := by
  rw [plainHost, rfind_none h]

/-- The port stands behind the last colon. -/
theorem plainHost_port {host text : Bytes} (hhost : host ≠ []) (h : colon ∉ text) :
    plainHost (host ++ colon :: text) = (portOf text).map (fun port => (host, port)) := by
  have hlen : host.length ≠ 0 := fun hzero => hhost (List.length_eq_zero_iff.mp hzero)
  have hdrop : (host ++ colon :: text).drop (host.length + 1) = text := by
    simp [List.drop_append]
  rw [plainHost, rfind_cut h]
  dsimp only
  rw [if_pos hlen, hdrop, List.take_left']
  rfl

/-- A colon in front ends no host: it stays in it. -/
theorem plainHost_front {text : Bytes} (h : colon ∉ text) :
    plainHost (colon :: text) = .ok (colon :: text, 0) := by
  have hcut : rfind colon ([] ++ colon :: text) = some 0 := rfind_cut h
  rw [List.nil_append] at hcut
  rw [plainHost, hcut]
  rfl

/-! ### The scheme and the path -/

def schemeText (tls : Bool) : Bytes := if tls then ascii "wss://" else ascii "ws://"

/-- The plain scheme, byte by byte. -/
theorem schemeText_false : schemeText false = [0x77, 0x73, 0x3A, 0x2F, 0x2F] := by decide

/-- The secure scheme, byte by byte. -/
theorem schemeText_true : schemeText true = [0x77, 0x73, 0x73, 0x3A, 0x2F, 0x2F] := by decide

/-- A url starts with at most one of the two schemes. -/
theorem schemeText_inj {tls tls' : Bool} {rest rest' : Bytes}
    (h : schemeText tls ++ rest = schemeText tls' ++ rest') : tls = tls' ∧ rest = rest' := by
  cases tls <;> cases tls' <;> simp_all [schemeText_false, schemeText_true]

/-- Behind a scheme the rest is parsed as authority and path. -/
theorem parseWsUrl_scheme (tls : Bool) (rest : Bytes) :
    parseWsUrl (schemeText tls ++ rest) = parseBehindScheme tls rest := by
  have hfalse : ascii "ws://" = schemeText false := rfl
  have htrue : ascii "wss://" = schemeText true := rfl
  unfold parseWsUrl
  rw [hfalse, htrue]
  cases tls with
  | false => rw [if_pos (List.prefix_append _ _), List.drop_left]
  | true =>
      have hnot : ¬ schemeText false <+: schemeText true ++ rest := by
        simp [schemeText_false, schemeText_true]
      rw [if_neg hnot, if_pos (List.prefix_append _ _), List.drop_left]

/-- Without one of the two schemes the url is refused. -/
theorem parseWsUrl_no_scheme {url : Bytes} (h : ∀ tls rest, url ≠ schemeText tls ++ rest) :
    parseWsUrl url = .error
      (.internal (ascii "invalid ws url: scheme must be ws:// or wss://")) := by
  have hnot : ∀ tls, ¬ schemeText tls <+: url := by
    rintro tls ⟨rest, heq⟩
    exact h tls rest heq.symm
  have hws : ¬ ascii "ws://" <+: url := hnot false
  have hwss : ¬ ascii "wss://" <+: url := hnot true
  rw [parseWsUrl, if_neg hws, if_neg hwss]

/-- The authority ends at the first slash. -/
theorem parseBehindScheme_eq (tls : Bool) {authority path : Bytes} (hslash : slash ∉ authority)
    (hpath : path = [] ∨ path.head? = some slash) :
    parseBehindScheme tls (authority ++ path) = (hostPort authority).bind
      (fun found => finishUrl tls (if path = [] then ascii "/" else path) found.1 found.2) := by
  unfold parseBehindScheme
  rcases hpath with rfl | hhead
  · rw [List.append_nil, List.idxOf?_eq_none_iff.mpr hslash]
    rfl
  · obtain ⟨tail, rfl⟩ : ∃ tail, path = slash :: tail := by
      cases path with
      | nil => cases hhead
      | cons c tail => exact ⟨tail, by rw [Option.some.inj hhead]⟩
    rw [idxOf?_cut hslash]
    dsimp only
    rw [List.take_left, List.drop_left]
    rfl

/-- The authority ends where the path begins. -/
theorem takeWhile_authority {authority path : Bytes} (hslash : slash ∉ authority)
    (hpath : path = [] ∨ path.head? = some slash) :
    (authority ++ path).takeWhile (fun c => c ≠ slash) = authority := by
  have hall : ∀ c ∈ authority, decide (c ≠ slash) = true := by
    intro c hc
    exact decide_eq_true (fun heq => hslash (heq ▸ hc))
  rw [List.takeWhile_append_of_pos hall]
  cases path with
  | nil => simp
  | cons c tail =>
      have hc : c = slash := by simpa using hpath
      simp [hc]

end Vynkor
