import VynkorSdk.ClientOutbound
import VynkorSdk.FrameWait
import VynkorSdk.GateExecution
import VynkorSdk.JsonKeys

/-!
# The other side of the gate

`send_confirmation_request` takes the pending id out of the gate's reply and
`send_confirmation` puts it into params for the gate.  The id goes through
`json_escape` and `json_find_string` twice on its way.

The scan decodes byte by byte what the escaper writes (`readString_escapeByte`),
so it gives every string back.  What a request puts on the connection is one
message, which reads as the request (`sendAction_sentWhole`).
-/

namespace Vynkor

open ByteCodec Procedure

/-! ### Decoding what was escaped -/

/-- The scan finds the key right behind an opening brace. -/
theorem jsonFindString_member (key text : Bytes) :
    jsonFindString (0x7B :: (quoted key ++ 0x3A :: 0x22 :: text)) key = readString [] text := by
  have hkey : KeyAt (quoted key) (some 0x7B) (quoted key ++ 0x3A :: 0x22 :: text) [] text :=
    ⟨0x3A :: 0x22 :: text, rfl, rfl, rfl⟩
  have hneedle : quoted key ≠ [] := List.cons_ne_nil _ _
  have hbrace : (quoted key).isPrefixOf (0x7B :: (quoted key ++ 0x3A :: 0x22 :: text)) =
      false := rfl
  unfold jsonFindString
  rw [← quoted, scanKey, hbrace, if_neg (by simp)]
  exact scanKey_of_keyAt hneedle hkey

/-- A control byte as a `\u` escape. -/
theorem readString_hex4 {c : UInt8} (hc : c < 0x20) (value rest : Bytes) :
    readString value (0x5C :: 0x75 :: (hex4 c ++ rest)) = readString (value ++ [c]) rest := by
  have hcodes : ∀ n < 32, (stoulHex (hex4 (UInt8.ofNat n))).map
      (fun cp => encodeCodeUnit cp.toUInt32) = .ok [UInt8.ofNat n] := by
    decide
  have hcode := hcodes c.toNat (UInt8.lt_iff_toNat_lt.mp hc)
  rw [UInt8.ofNat_toNat] at hcode
  show readString value (0x5C :: 0x75 :: 0x30 :: 0x30 :: _ :: _ :: rest) = _
  rw [readString_code]
  cases hnumber : stoulHex (hex4 c) with
  | error e =>
      rw [hnumber] at hcode
      cases hcode
  | ok cp =>
      rw [hnumber] at hcode
      have henc : encodeCodeUnit cp.toUInt32 = [c] := by simpa [Except.map] using hcode
      rw [← henc]
      exact congrArg (fun code : Except Exn UInt64 => code.bind
        (fun cp => readString (value ++ encodeCodeUnit cp.toUInt32) rest)) hnumber

/-- The three ways a byte is written. -/
theorem escapeByte_cases (c : UInt8) :
    (∃ e, simpleEscape e = some c ∧ escapeByte c = [0x5C, e]) ∨
      (c < 0x20 ∧ escapeByte c = 0x5C :: 0x75 :: hex4 c) ∨
      (c ≠ 0x22 ∧ c ≠ 0x5C ∧ escapeByte c = [c]) := by
  unfold escapeByte
  split_ifs with hquote hslash hb hf hn hr ht hcontrol
  · exact Or.inl ⟨0x22, by rw [hquote]; rfl, rfl⟩
  · exact Or.inl ⟨0x5C, by rw [hslash]; rfl, rfl⟩
  · exact Or.inl ⟨0x62, by rw [hb]; rfl, rfl⟩
  · exact Or.inl ⟨0x66, by rw [hf]; rfl, rfl⟩
  · exact Or.inl ⟨0x6E, by rw [hn]; rfl, rfl⟩
  · exact Or.inl ⟨0x72, by rw [hr]; rfl, rfl⟩
  · exact Or.inl ⟨0x74, by rw [ht]; rfl, rfl⟩
  · exact Or.inr (Or.inl ⟨hcontrol, rfl⟩)
  · exact Or.inr (Or.inr ⟨hquote, hslash, rfl⟩)

/-- The gate reads an escaped byte as the byte. -/
theorem readString_escapeByte (c : UInt8) (value rest : Bytes) :
    readString value (escapeByte c ++ rest) = readString (value ++ [c]) rest := by
  rcases escapeByte_cases c with ⟨e, he, hbytes⟩ | ⟨hcontrol, hbytes⟩ | ⟨hquote, hslash, hbytes⟩
  · rw [hbytes]
    exact readString_simple he value rest
  · rw [hbytes]
    exact readString_hex4 hcontrol value rest
  · rw [hbytes]
    exact readString_plain hquote hslash value rest

/-- The gate reads an escaped text as the text. -/
theorem readString_jsonEscape (s : Bytes) : ∀ value rest,
    readString value (jsonEscape s ++ rest) = readString (value ++ s) rest := by
  induction s with
  | nil =>
      intro value rest
      rw [List.append_nil]
      rfl
  | cons c s ih =>
      intro value rest
      have hcons : jsonEscape (c :: s) = escapeByte c ++ jsonEscape s := rfl
      rw [hcons, List.append_assoc, readString_escapeByte, ih, List.append_assoc]
      rfl

/-- **Round trip**: what the escaper writes behind a key, the search reads. -/
theorem jsonFindString_escaped (key s rest : Bytes) :
    jsonFindString (0x7B :: (quoted key ++ 0x3A :: 0x22 :: (jsonEscape s ++ 0x22 :: rest))) key =
      .ok (some s) := by
  rw [jsonFindString_member, readString_jsonEscape, readString_quote]
  rfl

/-! ### The two callers -/

/-- The params `send_confirmation` builds. -/
def confirmationParams (pendingId : Bytes) : Bytes :=
  ascii "\x7b\"pending_id\":\"" ++ jsonEscape pendingId ++ ascii "\"\x7d"

/-- What `send_confirmation_request` makes of a response. -/
def pendingIdOf (op : Bytes) (resp : ActionResponse) : Except Exn Bytes :=
  if resp.status ≠ .ok then
    .error (.internal (ascii "request_" ++ op ++ ascii " failed: " ++ resp.error))
  else
    match jsonFindString resp.dataJson (ascii "pending_id") with
    | .error e => .error e
    | .ok none => .error (.internal (ascii "pending response missing pending_id"))
    | .ok (some id) => .ok id

namespace Client

variable (lib : WireLibs) (proto : ProtoLib)

def sendConfirmationRequest (op paramsJson : Bytes) (renv : RequestEnv) :
    Proc Exn Process Bytes := do
  let resp ← sendAction lib proto (requestPrefix ++ op) paramsJson 0 renv
  settle (pendingIdOf op resp)

def sendConfirmation (op pendingId : Bytes) (renv : RequestEnv) :
    Proc Exn Process ActionResponse :=
  sendAction lib proto (confirmPrefix ++ op) (confirmationParams pendingId) 0 renv

end Client

/-- The gate finds the id in the params of a confirmation. -/
theorem jsonFindString_confirmationParams (id : Bytes) :
    jsonFindString (confirmationParams id) (ascii "pending_id") = .ok (some id) := by
  have htext : confirmationParams id =
      0x7B :: (quoted (ascii "pending_id") ++ 0x3A :: 0x22 ::
        (jsonEscape id ++ 0x22 :: [0x7D])) := by
    rw [confirmationParams, List.append_assoc]
    rfl
  rw [htext]
  exact jsonFindString_escaped _ _ _

/-- The caller finds the id in the reply to a stored request. -/
theorem jsonFindString_storedText (g : ConfirmationGate) (req : ActionRequest) (id : Bytes) :
    jsonFindString (g.storedText req id) (ascii "pending_id") = .ok (some id) := by
  have htext : g.storedText req id =
      0x7B :: (quoted (ascii "pending_id") ++ 0x3A :: 0x22 :: (jsonEscape id ++ 0x22 ::
        (ascii ",\"action\":\"" ++ (jsonEscape req.action ++ (ascii "\",\"ttl_secs\":" ++
          (ConfirmationGate.decimalInt (g.pendingTtl.tdiv 1000) ++ ascii "\x7d")))))) := by
    simp only [ConfirmationGate.storedText, List.append_assoc]
    rfl
  rw [htext]
  exact jsonFindString_escaped _ _ _

/-! ### What a request puts on the connection -/

namespace Client

/-- One of the transports is open. -/
def Connected (c : Client) : Prop := c.ws.isSome ∨ c.OnSocket

/-- Neither transport fails to take the message. -/
structure TakesMessage (senv : SendEnv) : Prop where
  socket : senv.GoesOn
  webSocket : senv.wsSend = .ok ()

/-- From `c` to `c'` one message has gone out whole, a wire frame or a message of
the WebSocket, and whoever reads it with the session key finds the payload. -/
inductive SentWhole (lib : WireLibs) (payload : Bytes) (c c' : Client) : Prop
  | socket (frame : Bytes) (r : FrameResult) (hws : c.ws = none)
      (hsent : c'.outbound = c.outbound ++ frame)
      (hread : parseFrameBytes lib frame c.sessionKey = .ok (r, frame.length))
      (hpayload : r.payload = payload)
  | webSocket (ws : WsConnection) (message : Bytes) (r : FrameResult) (hws : c.ws = some ws)
      (hsent : c'.ws = some { ws with sent := ws.sent ++ [message] })
      (hread : parseFrameFromBuffer lib message c.sessionKey = .ok (r, message.length))
      (hpayload : r.payload = payload)

variable {lib : WireLibs} {proto : ProtoLib} {c : Client}

/-- What receives behind it leave alone. -/
theorem SentWhole.of_view {payload : Bytes} {c' c'' : Client} (h : SentWhole lib payload c c')
    (hsame : (c''.outbound, c''.ws) = (c'.outbound, c'.ws)) : SentWhole lib payload c c'' := by
  obtain ⟨hout, hws⟩ := Prod.mk.inj hsame
  cases h with
  | socket frame r hnone hsent hread hpayload =>
      exact .socket frame r hnone (hout.trans hsent) hread hpayload
  | webSocket ws message r hsome hsent hread hpayload =>
      exact .webSocket ws message r hsome (hws.trans hsent) hread hpayload

/-- A send on the socket whose writes go on is whole. -/
theorem send_sentWhole_socket (hz : lib.ZstdRoundTrip) (hc : c.OnSocket) {env : Envelope}
    (hfits : (proto.serialize env).length ≤ maxPayloadSize) {senv : SendEnv} (hgoes : senv.GoesOn) :
    Post (send lib proto (ascii "kernel") env senv) c
      (fun r c' => r = .ok () ∧ SentWhole lib (proto.serialize env) c c') := by
  have hfit : ∀ m ∈ [Envelope.to proto (ascii "kernel") env], m.fits = true := by
    intro m hm
    rw [List.mem_singleton.mp hm]
    exact decide_eq_true hfits
  refine (send_sends hz hc (ascii "kernel") env senv).mono ?_
  intro r c' h
  cases r with
  | error e => exact absurd (h.error e rfl) (not_or.mpr ⟨not_not.mpr hgoes, not_not.mpr hfit⟩)
  | ok =>
      obtain ⟨_, hwrote⟩ := h.ok () rfl
      obtain ⟨frames, torn, said, hout, _, hseals, _, hall⟩ := hwrote.emitted
      obtain ⟨rfl, rfl⟩ := hall trivial
      have hone : sendable c.sessionKey [Envelope.to proto (ascii "kernel") env] =
          [(c.sessionKey, Envelope.to proto (ascii "kernel") env)] := by
        rw [sendable, List.takeWhile_eq_self_iff.mpr hfit]
        rfl
      rw [hone] at hseals
      obtain ⟨f, frames, hseal, hnil, rfl⟩ := List.forall₂_cons_right_iff.mp hseals
      obtain rfl := List.forall₂_nil_right_iff.mp hnil
      obtain ⟨result, hparse, hpayload, _⟩ := hseal.carries.parses
      refine ⟨rfl, .socket f.val result hc.1 ?_ hparse hpayload⟩
      rw [hout]
      simp [PrefixCode.encode, WireImage.bytes]

/-- A send on the WebSocket that succeeds is whole. -/
theorem send_sentWhole_webSocket {ws : WsConnection} (hws : c.ws = some ws) {env : Envelope}
    (hfits : (proto.serialize env).length ≤ maxPayloadSize) {senv : SendEnv}
    (hsend : senv.wsSend = .ok ()) :
    ∃ c', exec (send lib proto (ascii "kernel") env senv) c = some (.ok (), c') ∧
      SentWhole lib (proto.serialize env) c c' := by
  obtain ⟨hplain, hmac, _⟩ := baseFlags_or c.sessionKey (show SendFlags 0 from .inl rfl)
  obtain ⟨message, hpack, hparse⟩ := packFrameWs_parses lib (ascii "kernel") hfits hplain hmac
  have hflags : (if c.sessionKey.isSome then flagMacPresent else 0) ||| 0 =
      baseFlags c.sessionKey ||| 0 := rfl
  refine ⟨{ c with ws := some { ws with sent := ws.sent ++ [message] } }, ?_,
    .webSocket ws message _ hws rfl hparse rfl⟩
  unfold send sendRaw sendRawWithFlags
  rw [exec_bind_ok (exec_get _)]
  dsimp only
  rw [hws, if_pos (show (some ws).isSome = true from rfl), if_neg (Nat.not_lt.mpr hfits), hflags,
    hpack, exec_bind_ok (exec_settle _ _)]
  unfold writeAllWs
  rw [hsend, exec_bind_ok (exec_settle _ _), exec_modify, hws]
  rfl

/-- **What a request puts out**: whatever comes back, one message that reads as
the request. -/
theorem sendAction_sentWhole (hz : lib.ZstdRoundTrip) {p : Process} (hc : Connected p.client)
    {action paramsJson : Bytes} {timeoutMs : UInt32} {renv : RequestEnv}
    (hfits : (proto.serialize (actionRequest (actionIdText renv.nowMs p.actionSeq) action paramsJson
      timeoutMs false)).length ≤ maxPayloadSize)
    (htakes : TakesMessage renv.senv) {r : Except Exn ActionResponse} {p' : Process}
    (hrun : exec (sendAction lib proto action paramsJson timeoutMs renv) p = some (r, p')) :
    SentWhole lib (proto.serialize (actionRequest (actionIdText renv.nowMs p.actionSeq) action
      paramsJson timeoutMs false)) p.client p'.client := by
  have hsend : Post (send lib proto (ascii "kernel") (actionRequest
      (actionIdText renv.nowMs p.actionSeq) action paramsJson timeoutMs false) renv.senv) p.client
      (fun r c' => r = .ok () ∧ SentWhole lib (proto.serialize (actionRequest
        (actionIdText renv.nowMs p.actionSeq) action paramsJson timeoutMs false)) p.client c') := by
    rcases hc with hws | hsocket
    · obtain ⟨ws, hws⟩ := Option.isSome_iff_exists.mp hws
      obtain ⟨c₁, hsend, hsent⟩ : ∃ c₁, exec (send lib proto (ascii "kernel") _ renv.senv)
          p.client = some (.ok (), c₁) ∧ SentWhole lib _ p.client c₁ :=
        send_sentWhole_webSocket hws hfits htakes.webSocket
      intro _ _ hrun
      rw [hsend] at hrun
      cases hrun
      exact ⟨rfl, hsent⟩
    · exact send_sentWhole_socket hz hsocket hfits htakes.socket
  have hview : ReadInvariant (fun c : Client => (c.outbound, c.ws)) := by
    refine ⟨?_, fun _ _ _ => rfl, fun _ _ => rfl⟩
    intro bytes c
    cases hfd : c.fd <;> simp [setInbound, outbound, hfd]
  have hrequest : Post (requestAction lib proto (actionIdText renv.nowMs p.actionSeq) action
      paramsJson timeoutMs renv) p.client (fun _ c' => SentWhole lib (proto.serialize (actionRequest
        (actionIdText renv.nowMs p.actionSeq) action paramsJson timeoutMs false)) p.client c') := by
    refine .bind (.bind (hsend.mono ?_))
    rintro _ c₁ ⟨rfl, hsent⟩
    refine (waitForResponse_view hview _ _ renv.frames c₁).mono ?_
    rintro (e | resp) c₂ hsame
    · exact hsent.of_view hsame
    · exact .settle (hsent.of_view hsame)
  rw [exec_sendAction] at hrun
  obtain ⟨⟨r', c'⟩, hran, heq⟩ := Option.map_eq_some_iff.mp hrun
  cases heq
  exact hrequest _ _ hran

end Client

/-- The envelope `send_confirmation` makes for an id. -/
def confirmationRequest (op pendingId actionId : Bytes) : Envelope :=
  Client.actionRequest actionId (confirmPrefix ++ op) (confirmationParams pendingId) 0 false

open ConfirmationGate in
/-- **The id survives the round.**  For every byte string as id, every gate with
any TTL, and a request with any action name: the params of `send_confirmation`
and the text of the gate's reply both give the id back.  So what
`send_confirmation_request` returns on such a reply is the id; and a call of
`send_confirmation` with it puts one message on the connection, which reads as a
request that, from an approved caller, makes the gate take exactly this id. -/
theorem pending_id_survives (lib : WireLibs) (proto : ProtoLib) (g : ConfirmationGate)
    (req : ActionRequest) (id : Bytes) :
    jsonFindString (confirmationParams id) (ascii "pending_id") = .ok (some id) ∧
    jsonFindString (g.storedText req id) (ascii "pending_id") = .ok (some id) ∧
    (∀ (op params : Bytes) (renv : Client.RequestEnv) (p p' : Process) (response : ActionResponse),
      g.storedReply req id = [{ payload := some (.actionResponse response) }] →
      exec (Client.sendAction lib proto (requestPrefix ++ op) params 0 renv) p =
        some (.ok response, p') →
      exec (Client.sendConfirmationRequest lib proto op params renv) p = some (.ok id, p')) ∧
    (∀ (renv : Client.RequestEnv) (p p' : Process) (r : Except Exn ActionResponse)
      (sent : Envelope), lib.ZstdRoundTrip → p.client.Connected → Client.TakesMessage renv.senv →
      sent = confirmationRequest g.op id (Client.actionIdText renv.nowMs p.actionSeq) →
      (proto.serialize sent).length ≤ maxPayloadSize →
      proto.parse (proto.serialize sent) = some sent →
      exec (Client.sendConfirmation lib proto g.op id renv) p = some (r, p') →
      Client.SentWhole lib (proto.serialize sent) p.client p'.client ∧
        ∃ request, (proto.parse (proto.serialize sent)).bind Envelope.payload =
            some (.actionRequest request) ∧
          ∀ caller, g.mayConfirm caller = true →
            g.dispatch { request with callerPluginId := caller } = .take id) := by
  refine ⟨jsonFindString_confirmationParams id, jsonFindString_storedText g req id, ?_, ?_⟩
  · intro op params renv p p' response hreply hsent
    have hresponse : response =
        { actionId := req.actionId, status := .ok, dataJson := g.storedText req id } := by
      simpa [storedReply, responseEnvelope, ActionResult.Ok] using hreply.symm
    have hid : pendingIdOf op response = .ok id := by
      rw [hresponse, pendingIdOf, if_neg (by simp), jsonFindString_storedText]
    rw [Client.sendConfirmationRequest, exec_bind_ok hsent, hid]
    rfl
  · intro renv p p' r sent hz hconnected htakes hsent hfits hparse hrun
    subst hsent
    refine ⟨Client.sendAction_sentWhole hz hconnected hfits htakes hrun, ?_⟩
    rw [hparse]
    refine ⟨_, rfl, ?_⟩
    intro caller hmay
    exact dispatch_eq_take.mpr ⟨rfl, hmay, jsonFindString_confirmationParams id⟩

namespace ConfirmationGate

/-- A quote, a control byte and a byte above 0x7F. -/
def awkwardId : Bytes := [0x22, 0x01, 0xE9]

/-- The gate's response to the first action of the process. -/
def wipeResponse : ActionResponse where
  actionId := ascii "act-0-0"
  status := .ok
  dataJson := wipeGate.storedText {} awkwardId

/-- The response as protobuf writes it; all its fields are short. -/
def wipeResponseBytes : Bytes :=
  let data : Bytes := [0x1A, UInt8.ofNat wipeResponse.dataJson.length] ++ wipeResponse.dataJson
  let fields : Bytes := [0x0A, 0x07] ++ ascii "act-0-0" ++ [0x10, 0x01] ++ data
  [0xAA, 0x01, UInt8.ofNat fields.length] ++ fields

/-- An action request without timeout, as protobuf writes it; its fields are short. -/
def wipeRequestBytes (action paramsJson : Bytes) : Bytes :=
  let params := if paramsJson = [] then [] else [0x1A, UInt8.ofNat paramsJson.length] ++ paramsJson
  let fields : Bytes := [0x0A, 0x07] ++ ascii "act-0-0" ++ [0x12, UInt8.ofNat action.length] ++
    action ++ params
  [0xA2, 0x01, UInt8.ofNat fields.length] ++ fields

/-- Protobuf on the requests of the first action and on that response. -/
def wipeProto : ProtoLib where
  serialize env :=
    match env.payload with
    | some (.actionRequest request) => wipeRequestBytes request.action request.paramsJson
    | _ => []
  parse bytes :=
    if bytes = wipeResponseBytes then
      some { payload := some (.actionResponse wipeResponse) }
    else if bytes = wipeRequestBytes (ascii "confirm_wipe") (confirmationParams awkwardId) then
      some (confirmationRequest (ascii "wipe") awkwardId (ascii "act-0-0"))
    else
      none

/-- The response as it comes in over the WebSocket. -/
def wipeFrame : Client.WireFrame :=
  let bytes := (serializeHeaderWs [] 0 wipeResponseBytes).val ++ wipeResponseBytes
  ⟨bytes, plainResult storingLibs [] 0 wipeResponseBytes none,
    { byteEnv with message := .ok bytes }⟩

/-- The sample reply is on its way to the client. -/
theorem wipeFrame_incoming : Client.Incoming storingLibs (some (Client.requestDeadline 0 0))
    [wipeFrame] ({ ws := some {} } : Client) := by
  obtain ⟨frame, hpack, hparse⟩ : ∃ frame,
      packFrameWs storingLibs [] 0 wipeResponseBytes none = .ok frame ∧ _ :=
    packFrameWs_parses storingLibs [] (by decide +kernel) rfl rfl
  have hbytes : frame = wipeFrame.bytes := by
    unfold packFrameWs at hpack
    rw [if_neg (by decide +kernel)] at hpack
    exact (Except.ok.inj hpack).symm
  refine .webSocket rfl ?_
  intro w hw
  rw [List.mem_singleton.mp hw]
  exact ⟨rfl, _, by rw [← hbytes]; exact hparse⟩

def wipeProcess : Process where
  client := { ws := some {} }

/-- The request is written at once and the response is there. -/
def wipeRequestEnv : Client.RequestEnv where
  start := 0
  senv := ⟨[], .ok ()⟩
  frames := [[wipeFrame.env]]

open Client in
/-- Either request of the first action gets that response. -/
theorem sendAction_wipe (action paramsJson : Bytes)
    (hfits : (wipeRequestBytes action paramsJson).length ≤ maxPayloadSize) :
    (exec (sendAction storingLibs wipeProto action paramsJson 0 wipeRequestEnv) wipeProcess).map
      Prod.fst = some (.ok wipeResponse) := by
  have hgroups : groups [wipeFrame] ∅ = [[wipeFrame.env]] := rfl
  have houtcome := @exchange_outcome storingLibs wipeProto ActionResponse
    (actionRequest (ascii "act-0-0") action paramsJson 0 false) 0
    (actionTerminal (ascii "act-0-0")) actionOutcome wipeRequestEnv [wipeFrame] { ws := some {} }
    wipeFrame_incoming
  have hsent : ∃ c, exec (send storingLibs wipeProto (ascii "kernel")
      (actionRequest (ascii "act-0-0") action paramsJson 0 false)
      wipeRequestEnv.senv) { ws := some {} } = some (.ok (), c) ∧ _ :=
    send_sentWhole_webSocket rfl hfits rfl
  obtain ⟨c, hsent, _⟩ := hsent
  rw [hgroups, hsent] at houtcome
  rw [exec_sendAction, Option.map_map]
  refine Eq.trans ?_ (houtcome.trans ?_)
  · rfl
  · dsimp only
    decide +kernel

end ConfirmationGate

open ConfirmationGate in
/-- The id of a request to wipe comes back, is sent, and is what the gate takes. -/
theorem pending_id_survives_wipe :
    jsonFindString (confirmationParams awkwardId) (ascii "pending_id") = .ok (some awkwardId) ∧
    (∃ p', exec (Client.sendConfirmationRequest storingLibs wipeProto (ascii "wipe") []
      wipeRequestEnv) wipeProcess = some (.ok awkwardId, p')) ∧
    ∃ p', exec (Client.sendConfirmation storingLibs wipeProto (ascii "wipe") awkwardId
        wipeRequestEnv) wipeProcess = some (.ok wipeResponse, p') ∧
      Client.SentWhole storingLibs (wipeRequestBytes (ascii "confirm_wipe")
        (confirmationParams awkwardId)) wipeProcess.client p'.client ∧
      ∃ request, (wipeProto.parse (wipeRequestBytes (ascii "confirm_wipe")
          (confirmationParams awkwardId))).bind Envelope.payload = some (.actionRequest request) ∧
        wipeGate.dispatch { request with callerPluginId := ascii "phone-1.ui" } =
          .take awkwardId := by
  obtain ⟨hparams, _, hreturned, htaken⟩ :=
    pending_id_survives storingLibs wipeProto wipeGate { actionId := ascii "act-0-0" } awkwardId
  obtain ⟨⟨_, p'⟩, hasked, rfl⟩ := Option.map_eq_some_iff.mp
    (sendAction_wipe (ascii "request_wipe") [] (by decide +kernel))
  obtain ⟨⟨_, p''⟩, hconfirmed, rfl⟩ := Option.map_eq_some_iff.mp
    (sendAction_wipe (ascii "confirm_wipe") (confirmationParams awkwardId) (by decide +kernel))
  obtain ⟨hsent, request, hrequest, htakes⟩ := htaken wipeRequestEnv wipeProcess p'' _ _
    storingLibs_roundTrip (Or.inl rfl) ⟨by simp [wipeRequestEnv, SendEnv.GoesOn], rfl⟩ rfl
    (by decide +kernel) (by decide +kernel) hconfirmed
  exact ⟨hparams, ⟨p', hreturned _ _ _ _ _ _ rfl hasked⟩, p'', hconfirmed, hsent, request, hrequest,
    htakes _ (by decide)⟩

end Vynkor
