import VynkorSdk.HttpHead
import VynkorSdk.WsAssembly
import VynkorSdk.WsUrl

/-!
# The opening handshake

`connect_ws` against the server it talks to.  The client writes one request and
reads one response head; a server reads lines and fields, as it would from any
other client, and answers for the key it has found.  The two agree on what was
asked for exactly where no part of the request can be taken for something else,
and then on whether there is a connection, and on where its frames begin.
-/

namespace Vynkor

open ByteCodec Procedure HttpHead

namespace WsImpl

/-! ### `connect_ws` -/

/-- The subprotocol of `connect_ws`: a token rides along in it. -/
def wsProtocol (jwtToken : Bytes) : Bytes :=
  if jwtToken = [] then ascii "vynkor" else ascii "vynkor, " ++ jwtToken

/-- `VynkorClient::connect_ws`, as far as the connection goes. -/
def connectWs (sha1Base64 : Bytes → Bytes) (url jwtToken key : Bytes) (writes : List WsWrite)
    (fills : List (Int × List FillRound)) : Proc Exn WsImpl Unit := do
  let parsed ← settle (parseWsUrl url)
  connect sha1Base64 parsed (wsProtocol jwtToken) key writes fills

/-! ### The server's side -/

/-- What a server takes from an upgrade request. -/
structure UpgradeRequest where
  path : Bytes
  authority : Bytes
  key : Bytes
  protocols : List Bytes
  deriving DecidableEq

/-- What stands between `GET` and the version, if it is one word. -/
def requestTarget (line : Bytes) : Option Bytes :=
  let target := (line.drop 4).take (line.length - 13)
  if line = ascii "GET " ++ target ++ ascii " HTTP/1.1" ∧ target ≠ [] ∧ 0x20 ∉ target then
    some target
  else
    none

/-- A server that takes an upgrade request off its stream. -/
def readUpgrade (limit : Nat) (bytes : Bytes) : Option (UpgradeRequest × Bytes) := do
  let (lines, rest) ← readLines limit bytes
  let path ← requestTarget (lines.headD [])
  let authority ← value (ascii "host") lines.tail
  let upgrade ← value (ascii "upgrade") lines.tail
  let connection ← value (ascii "connection") lines.tail
  let key ← value (ascii "sec-websocket-key") lines.tail
  let version ← value (ascii "sec-websocket-version") lines.tail
  let protocols ← value (ascii "sec-websocket-protocol") lines.tail
  if sameWord upgrade (ascii "websocket") ∧ sameWord connection (ascii "upgrade") ∧
      version = ascii "13" then
    some (⟨path, authority, key, (protocols.splitOn 0x2C).map trim⟩, rest)
  else
    none

/-! ### The request -/

def authorityText (url : WsUrl) : Bytes := url.host ++ ascii ":" ++ decimal url.port.toNat

/-- What a client that sends this request means. -/
def asked (url : WsUrl) (jwtToken key : Bytes) : UpgradeRequest where
  path := url.path
  authority := authorityText url
  key := key
  protocols := ascii "vynkor" :: if jwtToken = [] then [] else [jwtToken]

/-- No part of the request can be taken for something else. -/
structure Plain (url : WsUrl) (jwtToken key : Bytes) : Prop where
  path_ne_nil : url.path ≠ []
  path_one_word : 0x20 ∉ url.path
  path_unbroken : Unbroken url.path
  authority : FieldText (authorityText url)
  key : FieldText key
  token : FieldText jwtToken
  token_alone : 0x2C ∉ jwtToken

/-- The fields of the request. -/
def requestFields (url : WsUrl) (protocol key : Bytes) : List (Bytes × Bytes) :=
  [(ascii "Host", authorityText url), (ascii "Upgrade", ascii "websocket"),
    (ascii "Connection", ascii "Upgrade"), (ascii "Sec-WebSocket-Key", key),
    (ascii "Sec-WebSocket-Version", ascii "13"), (ascii "Sec-WebSocket-Protocol", protocol)]

def requestLine (path : Bytes) : Bytes := ascii "GET " ++ path ++ ascii " HTTP/1.1"

def requestLines (url : WsUrl) (protocol key : Bytes) : List Bytes :=
  requestLine url.path :: (requestFields url protocol key).map (fun e => entry e.1 e.2)

/-- **The request is a head.** -/
theorem handshakeRequest_eq {url : WsUrl} {protocol key : Bytes} (hprotocol : protocol ≠ []) :
    handshakeRequest url protocol key = text (requestLines url protocol key) := by
  have hversion : ascii " HTTP/1.1\r\n" = ascii " HTTP/1.1" ++ crlf := by decide
  have hhost : ascii "Host: " = ascii "Host" ++ ascii ": " := by decide
  have hupgrade : ascii "Upgrade: websocket\r\n" =
      ascii "Upgrade" ++ (ascii ": " ++ (ascii "websocket" ++ crlf)) := by decide
  have hconnection : ascii "Connection: Upgrade\r\n" =
      ascii "Connection" ++ (ascii ": " ++ (ascii "Upgrade" ++ crlf)) := by decide
  have hkey : ascii "Sec-WebSocket-Key: " = ascii "Sec-WebSocket-Key" ++ ascii ": " := by decide
  have hthirteen : ascii "Sec-WebSocket-Version: 13\r\n" =
      ascii "Sec-WebSocket-Version" ++ (ascii ": " ++ (ascii "13" ++ crlf)) := by decide
  have hname : ascii "Sec-WebSocket-Protocol: " = ascii "Sec-WebSocket-Protocol" ++ ascii ": " := by
    decide
  have hend : ascii "\r\n" = crlf := by decide
  rw [handshakeRequest, if_neg hprotocol]
  simp only [hversion, hhost, hupgrade, hconnection, hkey, hthirteen, hname, hend, requestLines,
    requestFields, requestLine, authorityText, entry, List.map_cons, List.map_nil, text_cons,
    text_nil, List.append_assoc]

/-- A request line has a target exactly when it is the request line of that target. -/
theorem requestTarget_iff {line path : Bytes} :
    requestTarget line = some path ↔ line = requestLine path ∧ path ≠ [] ∧ 0x20 ∉ path := by
  unfold requestTarget
  dsimp only
  constructor
  · intro h
    split at h
    · rename_i hline
      cases h
      exact hline
    · cases h
  · rintro ⟨rfl, hne, hword⟩
    have hget : (ascii "GET ").length = 4 := by decide
    have hversion : (ascii " HTTP/1.1").length = 9 := by decide
    have htarget : ((requestLine path).drop 4).take ((requestLine path).length - 13) = path := by
      rw [requestLine, List.append_assoc, List.drop_left' hget]
      apply List.take_left'
      simp only [List.length_append, hget, hversion]
      omega
    rw [htarget, if_pos ⟨rfl, hne, hword⟩]

/-- Every field of the request can be read back. -/
theorem requestFields_read {url : WsUrl} {protocol key : Bytes}
    (hauthority : FieldText (authorityText url)) (hkey : FieldText key)
    (hprotocol : FieldText protocol) :
    ∀ e ∈ requestFields url protocol key, 0x3A ∉ e.1 ∧ 0x0D ∉ e.1 ∧ FieldText e.2 := by
  have hfixed : ∀ text ∈ [ascii "websocket", ascii "Upgrade", ascii "13"], FieldText text := by
    intro text htext
    refine ⟨?_, ?_⟩ <;> revert text <;> decide
  simp only [requestFields, List.forall_mem_cons, List.not_mem_nil, false_imp_iff, implies_true,
    and_true]
  refine ⟨⟨by decide, by decide, hauthority⟩, ⟨by decide, by decide, hfixed _ (by simp)⟩,
    ⟨by decide, by decide, hfixed _ (by simp)⟩, ⟨by decide, by decide, hkey⟩,
    ⟨by decide, by decide, hfixed _ (by simp)⟩, ⟨by decide, by decide, hprotocol⟩⟩

/-- The protocol field is a field text when the token is. -/
theorem fieldText_wsProtocol {jwtToken : Bytes} (h : FieldText jwtToken) :
    FieldText (wsProtocol jwtToken) := by
  rw [wsProtocol]
  split
  · exact ⟨by decide, by decide⟩
  · rename_i hne
    exact h.append (by decide) (by decide) hne

/-- The protocol field is never empty. -/
theorem wsProtocol_ne_nil (jwtToken : Bytes) : wsProtocol jwtToken ≠ [] := by
  rw [wsProtocol]
  split <;> simp [ascii]

/-- The server finds the token where the client has put it. -/
theorem splitOn_wsProtocol {jwtToken : Bytes} (h : FieldText jwtToken) (hcomma : 0x2C ∉ jwtToken) :
    ((wsProtocol jwtToken).splitOn 0x2C).map trim =
      ascii "vynkor" :: if jwtToken = [] then [] else [jwtToken] := by
  by_cases hnil : jwtToken = []
  · rw [wsProtocol, if_pos hnil, if_pos hnil, List.splitOn_eq_singleton (by decide)]
    decide
  · have hsplit : ascii "vynkor, " ++ jwtToken = ascii "vynkor" ++ 0x2C :: 0x20 :: jwtToken := by
      rw [show ascii "vynkor, " = ascii "vynkor" ++ [0x2C, 0x20] by decide, List.append_assoc]
      rfl
    have hblank : 0x2C ∉ (0x20 : UInt8) :: jwtToken := by simpa using hcomma
    have htrim : trim (0x20 :: jwtToken) = jwtToken := h.trimmed
    rw [wsProtocol, if_neg hnil, if_neg hnil, hsplit, List.splitOn_append_cons_self,
      List.splitOn_eq_singleton (by decide), List.splitOn_eq_singleton hblank]
    rw [List.singleton_append, List.map_cons, List.map_cons, List.map_nil, htrim,
      show trim (ascii "vynkor") = ascii "vynkor" by decide]

/-- Every line of a plain request is one line. -/
theorem requestLines_unbroken {url : WsUrl} {jwtToken key : Bytes} (h : Plain url jwtToken key) :
    ∀ line ∈ requestLines url (wsProtocol jwtToken) key, line ≠ [] ∧ Unbroken line := by
  refine List.forall_mem_cons.mpr ⟨⟨by simp [requestLine, ascii], ?_⟩, ?_⟩
  · rw [requestLine, List.append_assoc]
    refine unbroken_append_of_no_cr (by decide) (unbroken_append.mpr ⟨h.path_unbroken, by decide,
      ?_⟩)
    intro b _ c hc hend
    obtain rfl : 0x20 = c := by simpa [ascii] using hc
    exact absurd hend.2 (by decide)
  · intro line hline
    obtain ⟨e, he, rfl⟩ := List.mem_map.mp hline
    obtain ⟨-, hname, hvalue⟩ :=
      requestFields_read h.authority h.key (fieldText_wsProtocol h.token) e he
    exact ⟨by simp [entry, ascii], unbroken_entry hname hvalue.unbroken⟩

/-- **A plain request is read as it is meant.** -/
theorem readUpgrade_of_plain {url : WsUrl} {jwtToken key : Bytes} (h : Plain url jwtToken key)
    (rest : Bytes) {limit : Nat} (hlimit : 7 < limit) :
    readUpgrade limit (handshakeRequest url (wsProtocol jwtToken) key ++ rest) =
      some (asked url jwtToken key, rest) := by
  have hlines : readLines limit (handshakeRequest url (wsProtocol jwtToken) key ++ rest) =
      some (requestLines url (wsProtocol jwtToken) key, rest) := by
    rw [handshakeRequest_eq (wsProtocol_ne_nil jwtToken), readLines_iff]
    exact ⟨hlimit, requestLines_unbroken h, rfl⟩
  have htarget : requestTarget (requestLine url.path) = some url.path :=
    requestTarget_iff.mpr ⟨rfl, h.path_ne_nil, h.path_one_word⟩
  have hvalue := fun name => value_entries name (fun e he =>
    have hread := requestFields_read h.authority h.key (fieldText_wsProtocol h.token) e he
    ⟨hread.1, hread.2.2⟩)
  have hhost : value (ascii "host") (requestLines url (wsProtocol jwtToken) key).tail =
      some (authorityText url) := (hvalue _).trans rfl
  have hupgrade : value (ascii "upgrade") (requestLines url (wsProtocol jwtToken) key).tail =
      some (ascii "websocket") := (hvalue _).trans rfl
  have hconnection : value (ascii "connection") (requestLines url (wsProtocol jwtToken) key).tail =
      some (ascii "Upgrade") := (hvalue _).trans rfl
  have hkey : value (ascii "sec-websocket-key") (requestLines url (wsProtocol jwtToken) key).tail =
      some key := (hvalue _).trans rfl
  have hversion : value (ascii "sec-websocket-version")
      (requestLines url (wsProtocol jwtToken) key).tail = some (ascii "13") := (hvalue _).trans rfl
  have hprotocol : value (ascii "sec-websocket-protocol")
      (requestLines url (wsProtocol jwtToken) key).tail = some (wsProtocol jwtToken) :=
    (hvalue _).trans rfl
  unfold readUpgrade
  rw [hlines]
  simp only [Option.bind_eq_bind, Option.bind_some, hhost, hupgrade, hconnection, hkey, hversion,
    hprotocol]
  rw [requestLines, List.headD_cons, htarget]
  simp only [Option.bind_some]
  rw [if_pos (by decide), splitOn_wsProtocol h.token h.token_alone]
  rfl

/-- What a server reads comes out of whole lines. -/
theorem plain_of_readUpgrade {url : WsUrl} {jwtToken key bytes rest : Bytes} {limit : Nat}
    (h : readUpgrade limit bytes = some (asked url jwtToken key, rest)) :
      Plain url jwtToken key := by
  simp only [readUpgrade, Option.bind_eq_bind, Option.bind_eq_some_iff, Prod.exists] at h
  obtain ⟨lines, left, hread, path, hpath, authority, hauthority, upgrade, -, connection, -, key',
    hkey, version, -, protocols, hprotocols, h⟩ := h
  obtain ⟨-, hout⟩ := Option.ite_none_right_eq_some.mp h
  obtain ⟨hasked, -⟩ := Prod.mk.inj (Option.some.inj hout)
  obtain ⟨rfl, rfl, rfl, hsplit⟩ := UpgradeRequest.mk.inj hasked
  obtain ⟨-, hlines, -⟩ := readLines_iff.mp hread
  have hrest : ∀ line ∈ lines.tail, Unbroken line :=
    fun line hline => (hlines line (List.mem_of_mem_tail hline)).2
  obtain ⟨hfirst, hne, hword⟩ := requestTarget_iff.mp hpath
  have hunbroken : Unbroken (requestLine url.path) := by
    cases lines with
    | nil => simp [requestLine, ascii] at hfirst
    | cons line lines =>
        obtain rfl : line = requestLine url.path := hfirst
        exact (hlines _ List.mem_cons_self).2
  have htoken : FieldText jwtToken ∧ 0x2C ∉ jwtToken := by
    by_cases hnil : jwtToken = []
    · subst hnil
      exact ⟨fieldText_nil, List.not_mem_nil⟩
    · rw [if_neg hnil] at hsplit
      have hmem : jwtToken ∈ (protocols.splitOn 0x2C).map trim := by
        rw [hsplit]
        simp
      obtain ⟨piece, hpiece, rfl⟩ := List.mem_map.mp hmem
      obtain ⟨front, more, hpieces, -, hparts⟩ := mem_splitOn (c := 0x2C) (s := protocols)
      rw [hpieces] at hpiece
      obtain ⟨hcomma, hinfix⟩ := hparts piece hpiece
      have hwhole := (fieldText_of_value hrest hprotocols).unbroken
      exact ⟨⟨hwhole.of_infix ((trim_isInfix piece).trans hinfix), trim_trim piece⟩,
        fun h => hcomma ((trim_isInfix piece).subset h)⟩
  exact ⟨hne, hword, hunbroken.of_infix ⟨ascii "GET ", ascii " HTTP/1.1", rfl⟩,
    fieldText_of_value hrest hauthority, fieldText_of_value hrest hkey, htoken.1, htoken.2⟩

/-- **The request is read as it is meant, or it was not plain.**  A server that
reads a request of `connect_ws` finds the path, the host, the key and the token
the client was given, and its stream right behind the request, exactly if there
is no line end in any of them, no blank around them, no blank in the path and no
comma in the token. -/
theorem upgrade_request_read_iff (url : WsUrl) (jwtToken key rest : Bytes) (limit : Nat)
    (hlimit : 7 < limit) :
    readUpgrade limit (handshakeRequest url (wsProtocol jwtToken) key ++ rest) =
      some (asked url jwtToken key, rest) ↔ Plain url jwtToken key :=
  ⟨plain_of_readUpgrade, fun h => readUpgrade_of_plain h rest hlimit⟩

/-- A path with a header line of its own. -/
def smuggledUrl : WsUrl := { host := ascii "gw", port := 80, path := ascii "/ws\r\nX-Admin: 1" }

/-- `parse_ws_url` lets it through, and the server reads another request. -/
theorem upgrade_request_read_iff_smuggled :
    parseWsUrl (ascii "ws://gw/ws\r\nX-Admin: 1") = .ok smuggledUrl ∧
      readUpgrade 8 (handshakeRequest smuggledUrl (wsProtocol []) (ascii "key") ++ []) ≠
        some (asked smuggledUrl [] (ascii "key"), []) := by
  refine ⟨by decide +kernel, fun hread => ?_⟩
  have hplain := (upgrade_request_read_iff smuggledUrl [] (ascii "key") [] 8 (by decide)).mp hread
  exact absurd hplain.path_unbroken (by decide)

/-! ### The response head -/

/-- A line as a server writes it. -/
structure HeadLine (line : Bytes) : Prop where
  ne_nil : line ≠ []
  no_cr : 0x0D ∉ line
  no_lf : 0x0A ∉ line

/-- The bytes of the head in front of the empty line. -/
def headBytes (response : List Bytes) : Bytes := crlf.intercalate response

/-- The first line of a head, and the head behind it. -/
theorem headBytes_cons {response : List Bytes} (line : Bytes) (hne : response ≠ []) :
    headBytes (line :: response) = line ++ crlf ++ headBytes response := by
  rw [headBytes, List.intercalate_cons_of_ne_nil hne]
  rfl

/-- A head with its closing empty line. -/
theorem text_eq_headBytes {response : List Bytes} (hne : response ≠ []) :
    text response = headBytes response ++ headMarker := by
  induction response with
  | nil => exact absurd rfl hne
  | cons line response ih =>
      cases response with
      | nil => simp [text_cons, headBytes, headMarker, crlf]
      | cons next response =>
          rw [text_cons, ih (List.cons_ne_nil _ _), headBytes_cons line (List.cons_ne_nil _ _)]
          simp only [List.append_assoc]

/-- A search goes on behind a byte at which the pattern does not stand. -/
theorem search_cons_skip {pat s : Bytes} {b : UInt8} (h : ¬ pat <+: b :: s) :
    search pat (b :: s) = (search pat s).map (· + 1) := by
  rw [search, if_neg h]

/-- Behind a line without CR the search begins anew. -/
theorem search_headMarker_skip (s : Bytes) {line : Bytes} (h : 0x0D ∉ line) :
    search headMarker (line ++ s) = (search headMarker s).map (· + line.length) := by
  induction line with
  | nil => simp
  | cons b line ih =>
      rw [List.mem_cons, not_or] at h
      have hskip : ¬ headMarker <+: b :: (line ++ s) :=
        fun hpre => h.1 (List.cons_prefix_cons.mp hpre).1
      rw [List.cons_append, search_cons_skip hskip, ih h.2, Option.map_map]
      congr 1

/-- **The head ends where the server has ended it.** -/
theorem search_headBytes {response : List Bytes} (hne : response ≠ [])
    (hlines : ∀ line ∈ response, HeadLine line) :
    search headMarker (headBytes response ++ headMarker) = some (headBytes response).length := by
  induction response with
  | nil => exact absurd rfl hne
  | cons line response ih =>
      obtain ⟨hline, hlines⟩ := List.forall_mem_cons.mp hlines
      cases response with
      | nil =>
          have hself : search headMarker headMarker = some 0 := by decide
          simp [headBytes, search_headMarker_skip _ hline.no_cr, hself]
      | cons next response =>
          have hrest := ih (List.cons_ne_nil _ _) hlines
          obtain ⟨b, tail, htail, hb⟩ : ∃ b tail,
              headBytes (next :: response) ++ headMarker = b :: tail ∧ b ≠ 0x0D := by
            obtain ⟨hnext, -⟩ := List.forall_mem_cons.mp hlines
            obtain ⟨b, tail, rfl⟩ := List.exists_cons_of_ne_nil hnext.ne_nil
            have hb : b ≠ 0x0D := fun h => hnext.no_cr (h ▸ List.mem_cons_self)
            cases response with
            | nil => exact ⟨b, _, rfl, hb⟩
            | cons => exact ⟨b, _, by rw [headBytes_cons _ (List.cons_ne_nil _ _)]; rfl, hb⟩
          have hfirst : ¬ headMarker <+: 0x0D :: 0x0A :: b :: tail := by
            intro hpre
            obtain ⟨-, hpre⟩ := List.cons_prefix_cons.mp hpre
            obtain ⟨-, hpre⟩ := List.cons_prefix_cons.mp hpre
            exact hb (List.cons_prefix_cons.mp hpre).1.symm
          have hsecond : ¬ headMarker <+: 0x0A :: b :: tail :=
            fun hpre => absurd (List.cons_prefix_cons.mp hpre).1 (by decide)
          rw [htail] at hrest
          rw [headBytes_cons line (List.cons_ne_nil _ _), List.append_assoc, List.append_assoc,
            htail, search_headMarker_skip _ hline.no_cr]
          show (search headMarker (0x0D :: 0x0A :: b :: tail)).map _ = _
          rw [search_cons_skip hfirst, search_cons_skip hsecond, hrest]
          simp only [Option.map_some, List.length_append, Option.some.injEq]
          have hcrlf : crlf.length = 2 := rfl
          omega

/-- The first line ends at the first line feed. -/
theorem lines_cons (rest : Bytes) {line : Bytes} (h : 0x0A ∉ line) :
    lines (line ++ 0x0A :: rest) = line :: lines rest := by
  have hne := List.splitOn_ne_nil (0x0A : UInt8) rest
  unfold lines
  rw [List.splitOn_append_cons_self, List.splitOn_eq_singleton h, List.singleton_append]
  dsimp only
  rw [List.getLast?_cons_of_ne_nil hne]
  split
  · rw [List.dropLast_cons_of_ne_nil hne]
  · rfl

/-- A text without a line feed is one line. -/
theorem lines_single {line : Bytes} (hne : line ≠ []) (h : 0x0A ∉ line) : lines line = [line] := by
  unfold lines
  rw [List.splitOn_eq_singleton h]
  simp [hne]

/-- **The client's lines** are the server's, with the CR left on all but the
last. -/
theorem lines_headBytes {response : List Bytes} (hne : response ≠ [])
    (hlines : ∀ line ∈ response, HeadLine line) :
    List.Forall₂ (fun read line => read = line ∨ read = line ++ [0x0D])
      (lines (headBytes response)) response := by
  induction response with
  | nil => exact absurd rfl hne
  | cons line response ih =>
      obtain ⟨hline, hlines⟩ := List.forall_mem_cons.mp hlines
      cases response with
      | nil =>
          rw [show headBytes [line] = line by simp [headBytes],
            lines_single hline.ne_nil hline.no_lf]
          exact .cons (.inl rfl) .nil
      | cons next response =>
          have hlf : (0x0A : UInt8) ∉ line ++ [0x0D] := by simpa using hline.no_lf
          have hbytes : headBytes (line :: next :: response) =
              (line ++ [0x0D]) ++ 0x0A :: headBytes (next :: response) := by
            simp [headBytes_cons line (List.cons_ne_nil next response), crlf]
          rw [hbytes, lines_cons _ hlf]
          exact .cons (.inr rfl) (ih (List.cons_ne_nil _ _) hlines)

/-- The CR is not part of the field. -/
theorem headerField_read {read line : Bytes} (hline : 0x0D ∉ line)
    (h : read = line ∨ read = line ++ [0x0D]) :
    headerField read = (field line).map (fun e => (trim e.1, e.2)) := by
  have hlast : line.getLast? ≠ some 0x0D := fun hcr => hline (List.mem_of_getLast? hcr)
  have hstripped : (if read.getLast? = some 0x0D then read.dropLast else read) = line := by
    rcases h with rfl | rfl
    · rw [if_neg hlast]
    · rw [if_pos (by simp), List.dropLast_concat]
  unfold headerField field
  dsimp only
  rw [hstripped]
  cases line.idxOf? 0x3A <;> rfl

/-- Reading the fields line by line gives those of the response, trimmed. -/
theorem filterMap_headerField {reads response : List Bytes}
    (h : List.Forall₂ (fun read line => read = line ∨ read = line ++ [0x0D]) reads response)
    (hlines : ∀ line ∈ response, HeadLine line) :
    reads.filterMap headerField =
      (response.filterMap field).map (fun e => (trim e.1, e.2)) := by
  induction h with
  | nil => rfl
  | cons hread _ ih =>
      obtain ⟨hline, hlines⟩ := List.forall_mem_cons.mp hlines
      rw [List.filterMap_cons, List.filterMap_cons, headerField_read hline.no_cr hread, ih hlines]
      cases field _ <;> rfl

/-- A field of that name with such a value. -/
def Says (fields : List Bytes) (name : Bytes) (ok : Bytes → Prop) : Prop :=
  ∃ e ∈ fields.filterMap field, sameWord (trim e.1) name ∧ ok e.2

/-- The status line switches protocols. -/
def Switches (status : Bytes) : Prop :=
  ascii " 101 " <:+: status ∨ ascii "HTTP/1.1 101" <+: status

/-- A search finds the pattern exactly when the buffer holds it. -/
theorem search_isSome_iff {pat : Bytes} (hpat : pat ≠ []) (buf : Bytes) :
    (search pat buf).isSome ↔ pat <:+: buf := by
  induction buf with
  | nil => simp [search, hpat]
  | cons b buf ih =>
      rw [search, List.infix_cons_iff, ← ih]
      split
      · simp [*]
      · simp [*]

/-- A CR behind the status line makes no difference. -/
theorem switches_read {read status : Bytes} (h : read = status ∨ read = status ++ [0x0D]) :
    ascii " 101 " <:+: read ∨ ascii "HTTP/1.1 101" <+: read ↔ Switches status := by
  rcases h with rfl | rfl
  · rfl
  · have hsuffix : ¬ ascii " 101 " <:+ status ++ [0x0D] := by
      intro h
      have hlast := h.getLast (by decide)
      simp [ascii] at hlast
    have hwhole : ascii "HTTP/1.1 101" ≠ status ++ [0x0D] := by
      intro h
      have hlast := congrArg List.getLast? h
      rw [List.getLast?_concat] at hlast
      exact absurd hlast (by decide)
    rw [List.infix_concat_iff, List.prefix_concat_iff]
    simp [Switches, hsuffix, hwhole]

/-- The client finds a field with an accepted value exactly when the response says so. -/
theorem any_headerField {fields : List Bytes} {name : Bytes} {matched : Bytes → Bool}
    {ok : Bytes → Prop} (hok : ∀ v, matched v = true ↔ ok v) :
    ((fields.filterMap field).map (fun e => (trim e.1, e.2))).any
      (fun e => iequal e.1 name && matched e.2) = true ↔ Says fields name ok := by
  have hword : ∀ a b, iequal a b = sameWord a b := fun _ _ => rfl
  rw [List.any_map, List.any_eq_true, Says]
  simp only [Function.comp_apply, hword, Bool.and_eq_true, hok]

/-- Three checks, one behind the other. -/
theorem checks_ok_iff {a b c : Prop} [Decidable a] [Decidable b] [Decidable c] {e₁ e₂ e₃ : Exn} :
    (if a then .error e₁ else if ¬ b then .error e₂ else if ¬ c then .error e₃ else
      (.ok () : Except Exn Unit)) = .ok () ↔ ¬ a ∧ b ∧ c := by
  by_cases ha : a
  · simp [ha]
  · by_cases hb : b
    · by_cases hc : c <;> simp [ha, hb, hc]
    · simp [ha, hb]

/-- **When the client takes a response.** -/
theorem checkHead_iff (sha1Base64 : Bytes → Bytes) (key : Bytes) {status : Bytes}
    {fields : List Bytes} (hlines : ∀ line ∈ status :: fields, HeadLine line) :
    checkHead sha1Base64 key (headBytes (status :: fields)) = .ok () ↔ Switches status ∧
      Says fields (ascii "upgrade") (fun v => sameWord v (ascii "websocket")) ∧
      Says fields (ascii "sec-websocket-accept") (· = sha1Base64 (key ++ wsGuid)) := by
  have hread := lines_headBytes (List.cons_ne_nil status fields) hlines
  obtain ⟨hstatus, hfields⟩ := List.forall_mem_cons.mp hlines
  cases hhead : lines (headBytes (status :: fields)) with
  | nil =>
      rw [hhead] at hread
      cases hread
  | cons read reads =>
      rw [hhead] at hread
      obtain ⟨hfirst, hrest⟩ := List.forall₂_cons.mp hread
      have hswitches : ¬ ((search (ascii " 101 ") read).isNone = true ∧
          ¬ ascii "HTTP/1.1 101" <+: read) ↔ Switches status := by
        rw [← switches_read hfirst, ← search_isSome_iff (by decide), ← Option.not_isSome]
        simp only [Bool.not_eq_true', not_and_or, not_not, Bool.not_eq_false]
      have hupgrade : ∀ v, iequal v (ascii "websocket") = true ↔ sameWord v (ascii "websocket") =
          true := fun _ => Iff.rfl
      have haccept : ∀ v, (v == sha1Base64 (key ++ wsGuid)) = true ↔
          v = sha1Base64 (key ++ wsGuid) := fun _ => beq_iff_eq
      unfold checkHead
      dsimp only
      rw [hhead, List.headD_cons, List.tail_cons, filterMap_headerField hrest hfields]
      exact checks_ok_iff.trans (and_congr hswitches
        (and_congr (any_headerField hupgrade) (any_headerField haccept)))

/-! ### Both sides -/

/-- The head is found in the buffer as soon as it is there. -/
theorem search_readBuf {response : List Bytes} {more : Bytes} {s : WsImpl} (hne : response ≠ [])
    (hlines : ∀ line ∈ response, HeadLine line) (hahead : s.ahead = text response ++ more) :
    search headMarker s.readBuf =
      if (text response).length ≤ s.readBuf.length then some (headBytes response).length
      else none := by
  have hfront : s.readBuf <+: text response ++ more := hahead ▸ List.prefix_append _ _
  have hhead := search_headBytes hne hlines
  rw [← text_eq_headBytes hne] at hhead
  split
  · rename_i hwhole
    obtain ⟨tail, htail⟩ :=
      List.prefix_of_prefix_length_le (List.prefix_append _ _) hfront hwhole
    rw [← htail]
    exact search_append tail hhead
  · rename_i hpart
    cases hfound : search headMarker s.readBuf with
    | none => rfl
    | some n =>
        have hlong := search_append s.inbound hfound
        rw [show s.readBuf ++ s.inbound = _ from hahead, search_append more hhead] at hlong
        have hfits := search_le hfound
        rw [← Option.some.inj hlong, ← List.length_append, ← text_eq_headBytes hne] at hfits
        exact absurd hfits hpart

/-- **The head is read**, however it arrives. -/
theorem readHead_steady {response : List Bytes} {more : Bytes} (hne : response ≠ [])
    (hlines : ∀ line ∈ response, HeadLine line) (hsize : (text response).length ≤ maxHead) :
    ∀ (fills : List (Int × List FillRound)) (s : WsImpl), s.ahead = text response ++ more →
      (∀ fill ∈ fills, SteadyFill (some (fill.1 + 30000 * millisecond)) fill.2) →
      (text response).length ≤ s.readBuf.length + fills.length →
      ∃ s', exec (readHead fills) s = some (.ok (headBytes response).length, s') ∧
        s'.ahead = text response ++ more ∧ s'.outbound = s.outbound ∧
        (text response).length ≤ s'.readBuf.length := by
  intro fills
  induction fills with
  | nil =>
      intro s hahead _ henough
      have hwhole : (text response).length ≤ s.readBuf.length := henough
      refine ⟨s, ?_, hahead, rfl, hwhole⟩
      rw [readHead, exec_bind_ok (exec_get _), search_readBuf hne hlines hahead, if_pos hwhole]
      rfl
  | cons fill fills ih =>
      intro s hahead hfills henough
      rw [readHead, exec_bind_ok (exec_get _), search_readBuf hne hlines hahead]
      by_cases hwhole : (text response).length ≤ s.readBuf.length
      · rw [if_pos hwhole]
        exact ⟨s, rfl, hahead, rfl, hwhole⟩
      · rw [if_neg hwhole]
        have hinbound : s.inbound ≠ [] := by
          intro hnil
          have hlen := congrArg List.length hahead
          rw [ahead, hnil] at hlen
          simp only [List.append_nil, List.length_append] at hlen
          omega
        obtain ⟨hfill, hfills⟩ := List.forall_mem_cons.mp hfills
        obtain ⟨s₁, hrun, hahead₁, hgrown, hout₁, -⟩ := streamFill_steady hinbound fill.2 hfill
        obtain ⟨s', hread, hahead', hout', hwhole'⟩ := ih s₁ (hahead₁.trans hahead) hfills
          (by simp only [List.length_cons] at henough; omega)
        refine ⟨s', ?_, hahead', hout'.trans hout₁, hwhole'⟩
        dsimp only
        rw [if_neg (by omega), exec_bind_ok hrun]
        exact hread

/-- **The handshake.**  `connect_ws` with plain arguments, over a stream that
moves.  It has written one request, and a server that reads it finds what the
client meant and is at the end of it.  Whatever head comes back, the client
stands right behind it; and it takes the connection exactly if the head
switches protocols, upgrades to `websocket` and answers for the key the server
has read. -/
theorem handshake_agrees (sha1Base64 : Bytes → Bytes) (urlText jwtToken key status more : Bytes)
    (url : WsUrl) (fields : List Bytes) (writes : List WsWrite)
    (fills : List (Int × List FillRound)) (s₀ : WsImpl) (limit : Nat)
    (hurl : parseWsUrl urlText = .ok url) (hplain : Plain url jwtToken key) (hlimit : 7 < limit)
    (hlines : ∀ line ∈ status :: fields, HeadLine line)
    (hsize : (text (status :: fields)).length ≤ maxHead)
    (hstream : s₀.ahead = text (status :: fields) ++ more)
    (hwrites : ∀ write ∈ writes, write = .again ∨ write.progress = true)
    (hwritten : (handshakeRequest url (wsProtocol jwtToken) key).length ≤
      writes.countP WsWrite.progress)
    (hfills : ∀ fill ∈ fills, SteadyFill (some (fill.1 + 30000 * millisecond)) fill.2)
    (henough : (text (status :: fields)).length ≤ fills.length) :
    ∃ request req r s₁,
      exec (connectWs sha1Base64 urlText jwtToken key writes fills) s₀ = some (r, s₁) ∧
      s₁.outbound = s₀.outbound ++ request ∧ s₁.ahead = more ∧
      readUpgrade limit request = some (req, []) ∧
      req.path = url.path ∧ req.authority = authorityText url ∧
      req.protocols = ascii "vynkor" :: (if jwtToken = [] then [] else [jwtToken]) ∧
      (r = .ok () ↔ Switches status ∧
        Says fields (ascii "upgrade") (fun v => sameWord v (ascii "websocket")) ∧
        Says fields (ascii "sec-websocket-accept") (· = sha1Base64 (req.key ++ wsGuid))) := by
  let request := handshakeRequest url (wsProtocol jwtToken) key
  let response := status :: fields
  have hne : response ≠ [] := List.cons_ne_nil _ _
  have hread : readUpgrade limit request = some (asked url jwtToken key, []) := by
    have hwhole := readUpgrade_of_plain hplain [] hlimit
    rwa [List.append_nil] at hwhole
  have hwrite := streamWriteAll_steady request s₀ hwrites hwritten
  obtain ⟨s₂, hhead, hahead, hout, hwhole⟩ := readHead_steady hne hlines hsize fills
    { s₀ with outbound := s₀.outbound ++ request } hstream hfills
    (henough.trans (Nat.le_add_left _ _))
  have hfront : s₂.readBuf <+: text response ++ more := hahead ▸ List.prefix_append _ _
  obtain ⟨tail, htail⟩ := List.prefix_of_prefix_length_le (List.prefix_append _ _) hfront hwhole
  have htake : s₂.readBuf.take (headBytes response).length = headBytes response := by
    rw [← htail, text_eq_headBytes hne, List.append_assoc, List.take_left]
  have hdrop : s₂.readBuf.drop ((headBytes response).length + headMarker.length) ++ s₂.inbound =
      more := by
    rw [← List.length_append, ← text_eq_headBytes hne, ← List.drop_append_of_le_length hwhole,
      show s₂.readBuf ++ s₂.inbound = _ from hahead, List.drop_left]
  have hrun : exec (connectWs sha1Base64 urlText jwtToken key writes fills) s₀ =
      some (checkHead sha1Base64 key (headBytes response), { s₂ with
        readBuf := s₂.readBuf.drop ((headBytes response).length + headMarker.length) }) := by
    rw [connectWs, hurl, exec_bind_ok (exec_settle _ _), connect, exec_bind_ok hwrite,
      exec_bind_ok hhead, exec_bind_ok (exec_get _)]
    dsimp only
    rw [exec_bind_ok (exec_set _ _), htake, exec_settle]
  exact ⟨request, asked url jwtToken key, _, _, hrun, hout, hdrop, hread, rfl, rfl, rfl,
    checkHead_iff sha1Base64 key hlines⟩

/-- A connection to a gateway, with the nonce and the answer of RFC 6455. -/
def gatewayUrl : WsUrl := { host := ascii "gw", port := 9000, path := ascii "/ws" }

def sampleKey : Bytes := ascii "dGhlIHNhbXBsZSBub25jZQ=="

def sampleAccept : Bytes := ascii "s3pPLMBiTxaQ9kYGzzhZRbK+xOo="

def sampleFields : List Bytes :=
  [ascii "upgrade:WebSocket", ascii "Connection: Upgrade",
    ascii "Sec-WebSocket-Accept: " ++ sampleAccept]

def switching : Bytes := ascii "HTTP/1.1 101 Switching Protocols"

/-- Whatever is there, up to sixteen bytes. -/
def gatewayFill : Int × List FillRound := (0, [{ waits := [⟨0, .ready⟩], read := .data 15 }])

/-- The sample gateway answers in time. -/
theorem gatewayFill_steady :
    SteadyFill (some (gatewayFill.1 + 30000 * millisecond)) gatewayFill.2 where
  polls := by
    intro round hround
    obtain rfl := List.mem_singleton.mp hround
    exact ⟨[], ⟨0, .ready⟩, [], rfl, by simp, by decide, rfl⟩
  reads := by
    intro round hround
    obtain rfl := List.mem_singleton.mp hround
    exact .inr ⟨15, rfl⟩
  enough := ⟨_, List.mem_singleton_self _, 15, rfl⟩

/-- The gateway takes the token, the client takes the connection, and the first
frame comes next. -/
theorem handshake_agrees_gateway :
    ∃ request req s₁,
      exec (connectWs (fun _ => sampleAccept) (ascii "ws://gw:9000/ws") (ascii "jwt") sampleKey
        (List.replicate 300 (.wrote 0)) (List.replicate 200 gatewayFill))
        { inbound := text (switching :: sampleFields) ++ [0x89, 0] } = some (.ok (), s₁) ∧
      s₁.outbound = request ∧ s₁.ahead = [0x89, 0] ∧ readUpgrade 8 request = some (req, []) ∧
      req.protocols = [ascii "vynkor", ascii "jwt"] := by
  obtain ⟨request, req, r, s₁, hrun, hout, hahead, hread, -, -, hprotocols, htaken⟩ :=
    handshake_agrees (fun _ => sampleAccept) (ascii "ws://gw:9000/ws") (ascii "jwt") sampleKey
      switching [0x89, 0] gatewayUrl sampleFields (List.replicate 300 (.wrote 0))
      (List.replicate 200 gatewayFill)
      { inbound := text (switching :: sampleFields) ++ [0x89, 0] } 8
      (by decide +kernel)
      ⟨by decide, by decide, by decide, ⟨by decide, by decide⟩, ⟨by decide, by decide⟩,
        ⟨by decide, by decide⟩, by decide⟩
      (by decide)
      (by
        intro line hline
        refine ⟨?_, ?_, ?_⟩ <;> revert line <;> decide)
      (by decide +kernel) rfl
      (fun write hwrite => .inr (by rw [List.eq_of_mem_replicate hwrite]; rfl))
      (by
        rw [List.countP_replicate, if_pos (by rfl)]
        decide +kernel)
      (fun fill hfill => by rw [List.eq_of_mem_replicate hfill]; exact gatewayFill_steady)
      (by
        rw [List.length_replicate]
        decide +kernel)
  have hok : r = .ok () := htaken.mpr ⟨.inr (by decide),
    ⟨(ascii "upgrade", ascii "WebSocket"), by decide, by decide, by decide⟩,
    ⟨(ascii "Sec-WebSocket-Accept", sampleAccept), by decide, by decide, rfl⟩⟩
  rw [hok] at hrun
  exact ⟨request, req, s₁, hrun, hout, hahead, hread, hprotocols⟩

end WsImpl

end Vynkor
