import VynkorSdk.RequestRuns

/-!
# `send_action` and its answer

Action ids differ, so a call of `send_action` can tell its own answer from those
of earlier calls that come late.  In a run of requests in which no deadline
passes in the middle of a message it does: the first envelope that says
something about its action decides, whatever stands in front of it
(`send_action_answers_its_own_request`).

A deadline that passes in the middle of a message takes the next call with it:
what is left of the torn frame stands in front of that call's own answer
(`torn_response_fails_next_action`).
-/

namespace Vynkor

open ByteCodec Procedure

namespace Endpoint

open Client

section Call

variable (lib : WireLibs) (proto : ProtoLib) (actionId action paramsJson : Bytes)
  (timeoutMs : UInt32) (rlink : RequestLink) (packets : List Packet) (e : Endpoint)

/-- The call waits: in its send, or because nothing of what is on its way says
anything about the action. -/
def ActionWaits : Prop :=
  exec (send lib proto (ascii "kernel") (actionRequest actionId action paramsJson timeoutMs false)
      rlink.link) e = none ∨
    ∃ (taken : List AbsorbCall) (es : List Envelope), TookAll packets rlink.links.flatten taken ∧
      heardOn proto taken e.client.reassembly = es.map .ok ∧
      ∀ x ∈ es, decideAction actionId x = none

/-- How a call of `send_action` with this id ends on these packets: its send
throws; the first envelope that says something about the action decides; a frame
comes first that is no part of an envelope; or the deadline passes before any of
that.  The frames it took are gone, all others are still on their way. -/
inductive ActionEnds : Except Exn ActionResponse → Endpoint → Prop
  | unsent {x : Exn} {e' : Endpoint}
      (hsend : exec (send lib proto (ascii "kernel")
        (actionRequest actionId action paramsJson timeoutMs false) rlink.link) e =
          some (.error x, e'))
      (htook : Took lib packets [] e [] e') : ActionEnds (.error x) e'
  | decided {taken : List AbsorbCall} {es : List Envelope} {x : Envelope}
      {r : Except Exn ActionResponse} {e' : Endpoint}
      (htook : Took lib packets rlink.links.flatten e taken e')
      (hheard : heardOn proto taken e.client.reassembly = (es ++ [x]).map .ok)
      (hearly : ∀ x ∈ es, decideAction actionId x = none)
      (hlast : decideAction actionId x = some r) : ActionEnds r e'
  | refused {taken : List AbsorbCall} {es : List Envelope} {x : Exn} {e' : Endpoint}
      (htook : Took lib packets rlink.links.flatten e taken e')
      (hheard : heardOn proto taken e.client.reassembly = es.map .ok ++ [.error x])
      (hearly : ∀ x ∈ es, decideAction actionId x = none) : ActionEnds (.error x) e'
  | expired {taken : List AbsorbCall} {es : List Envelope} {e' : Endpoint}
      (htook : Took lib packets rlink.links.flatten e taken e')
      (hheard : heardOn proto taken e.client.reassembly = es.map .ok)
      (hearly : ∀ x ∈ es, decideAction actionId x = none) (hlate : Late timeoutMs rlink) :
      ActionEnds (.error .timeout) e'

end Call

variable {lib : WireLibs} {proto : ProtoLib}

/-- **A call that is not torn** waits or ends as `ActionEnds` says. -/
theorem requestAction_paced {actionId action paramsJson : Bytes} {timeoutMs : UInt32}
    {rlink : RequestLink} {packets : List Packet} {e : Endpoint} (hway : OnTheWay lib packets e)
    (hpaced : PacedExchange lib proto (actionRequest actionId action paramsJson timeoutMs false)
      timeoutMs (actionTerminal actionId) rlink e) :
    (exec (requestAction lib proto actionId action paramsJson timeoutMs rlink) e = none ∧
      ActionWaits lib proto actionId action paramsJson timeoutMs rlink packets e) ∨
    ∃ r e', exec (requestAction lib proto actionId action paramsJson timeoutMs rlink) e =
        some (r, e') ∧
      ActionEnds lib proto actionId action paramsJson timeoutMs rlink packets e r e' := by
  have hsilent : ∀ es : List Envelope, (∀ x ∈ es, actionTerminal actionId x = false) →
      ∀ x ∈ es, decideAction actionId x = none :=
    fun es hes x hx => decideAction_none.mpr (hes x hx)
  rw [requestAction, exec_bind_settle]
  obtain ⟨hexec, hwaits⟩ | ⟨x, e', hexec, hsend, hsame, _⟩ | ⟨taken, r, e', hexec, htook, hends⟩ :=
    exchange_paced hway hpaced
  · left
    rw [hexec]
    refine ⟨rfl, hwaits.imp_right ?_⟩
    intro h
    obtain ⟨taken, es, hall, hheard, hnot⟩ := h
    exact ⟨taken, es, hall, hheard, hsilent es hnot⟩
  · right
    rw [hexec]
    exact ⟨_, e', rfl, .unsent hsend (hsame.took hway [])⟩
  right
  rw [hexec]
  generalize exchanged lib proto _ timeoutMs (actionTerminal actionId) rlink e = reads at hends
  generalize hheard : heardOn proto taken e.client.reassembly = heard at hends
  cases hends with
  | terminal hearly hlast =>
      exact ⟨_, e', rfl, .decided htook hheard (hsilent _ hearly)
        (decideAction_some.mpr ⟨hlast, rfl⟩)⟩
  | refused hearly => exact ⟨_, e', rfl, .refused htook hheard (hsilent _ hearly)⟩
  | expired hearly hlate => exact ⟨_, e', rfl, .expired htook hheard (hsilent _ hearly) hlate⟩

end Endpoint

open Endpoint Client in
/-- **`send_action` answers its own request.**  Fewer than 2^64 calls of one
process, in the order in which they draw, have different ids, whatever the wall
clock shows.  After any run of requests in which no deadline passes in the
middle of a message, a call of `send_action` that is not torn either draws its
id and ends as `ActionEnds` says of that id, and so does the client's; or it
waits for what has not come.  A streaming call returns the id it drew. -/
theorem send_action_answers_its_own_request (lib : WireLibs) (proto : ProtoLib) :
    (∀ (calls : List ActionCall) (seq : UInt64), calls.length < 2 ^ 64 →
      ∃ ids seq', exec (calls.mapM ActionCall.draw) seq = some (.ok ids, seq') ∧
        ids.length = calls.length ∧ ids.Nodup) ∧
    (∀ (before : List RequestCall) (packets : List Packet) (p p₁ : LinkedProcess)
      (turns : List Turn), OnTheWay lib packets p.endpoint → UntornCalls lib proto before p →
      runCalls lib proto before p = some (turns, p₁) →
      ∃ earlier, Took lib packets (before.flatMap RequestCall.links) p.endpoint earlier
          p₁.endpoint ∧
        ∀ (action paramsJson : Bytes) (timeoutMs : UInt32) (rlink : RequestLink),
          (RequestCall.sendAction action paramsJson timeoutMs rlink).Untorn lib proto p₁ →
          ∃ actionId, exec (nextActionId rlink.nowMs) p₁.actionSeq =
              some (.ok actionId, p₁.actionSeq + 1) ∧
            ((exec (Endpoint.sendAction lib proto action paramsJson timeoutMs rlink) p₁ = none ∧
              ActionWaits lib proto actionId action paramsJson timeoutMs rlink
                (packets.drop earlier.length) p₁.endpoint) ∨
            ∃ r p₂, exec (Endpoint.sendAction lib proto action paramsJson timeoutMs rlink) p₁ =
                some (r, p₂) ∧ p₂.actionSeq = p₁.actionSeq + 1 ∧
              ActionEnds lib proto actionId action paramsJson timeoutMs rlink
                (packets.drop earlier.length) p₁.endpoint r p₂.endpoint ∧
              ∃ renv, exec (Client.sendAction lib proto action paramsJson timeoutMs renv)
                p₁.process = some (r, p₂.process))) ∧
    ∀ (action : Bytes) (timeoutMs : UInt32) (nowMs : Int) (senv : SendEnv) (p p' : Process)
      (r : Except Exn Bytes),
      exec (Client.sendActionStreaming lib proto action timeoutMs nowMs senv) p = some (r, p') →
        ∃ actionId, exec (nextActionId nowMs) p.actionSeq = some (.ok actionId, p'.actionSeq) ∧
          ∀ returned, r = .ok returned → returned = actionId := by
  have hdraw : ∀ (nowMs : Int) (seq : UInt64), exec (nextActionId nowMs) seq =
      some (.ok (actionIdText nowMs seq), seq + 1) := fun _ _ => rfl
  refine ⟨?_, ?_, ?_⟩
  · intro calls seq hlt
    obtain ⟨ids, seq', hrun, hlen, hnodup⟩ :=
      nextActionId_nodup (calls.map ActionCall.nowMs) seq (by simpa using hlt)
    exact ⟨ids, seq', by rw [mapM_draw, hrun], by simpa using hlen, hnodup⟩
  · intro before packets p p₁ turns hway huntorn hrun
    obtain ⟨earlier, htook, _⟩ := runCalls_took before packets p p₁ turns hway huntorn hrun
    refine ⟨earlier, htook, ?_⟩
    intro action paramsJson timeoutMs rlink hpaced
    refine ⟨_, hdraw rlink.nowMs p₁.actionSeq, ?_⟩
    obtain ⟨hexec, hwaits⟩ | ⟨r, e', hexec, hends⟩ := requestAction_paced htook.left hpaced
    · left
      rw [Endpoint.exec_sendAction, hexec]
      exact ⟨rfl, hwaits⟩
    · right
      have hcall : exec (Endpoint.sendAction lib proto action paramsJson timeoutMs rlink) p₁ =
          some (r, ⟨p₁.actionSeq + 1, e'⟩) := by
        rw [Endpoint.exec_sendAction, hexec]
        rfl
      exact ⟨r, _, hcall, rfl, hends, sendAction_client hcall⟩
  · intro action timeoutMs nowMs senv p p' r hrun
    rw [Client.exec_sendActionStreaming, Option.map_eq_some_iff] at hrun
    obtain ⟨⟨sent, c⟩, _, heq⟩ := hrun
    cases heq
    refine ⟨_, hdraw _ _, ?_⟩
    intro returned hreturned
    cases sent with
    | error e => cases hreturned
    | ok _ =>
        cases hreturned
        rfl

namespace Endpoint

open Client

/-! ### A late response -/

/-- The response to an action with a seven-byte id, as protobuf writes it. -/
def responseBytes (actionId : Bytes) : Bytes :=
  [0xAA, 0x01, 0x0B, 0x0A, 0x07] ++ actionId ++ [0x10, 0x01]

def okResponse (actionId : Bytes) : Envelope :=
  { payload := some (.actionResponse { actionId := actionId, status := .ok }) }

/-- Protobuf on the request for an action `a` and on the responses to the first
two actions of a process. -/
def actionProto : ProtoLib where
  serialize _ := [0xA2, 0x01, 0x03, 0x12, 0x01, 0x61]
  parse bytes :=
    if bytes = responseBytes (ascii "act-0-0") then
      some (okResponse (ascii "act-0-0"))
    else if bytes = responseBytes (ascii "act-0-1") then
      some (okResponse (ascii "act-0-1"))
    else
      none

/-- The responses to the first two actions, on a Unix socket. -/
def responses : List Packet :=
  [packetOf (responseBytes (ascii "act-0-0")), packetOf (responseBytes (ascii "act-0-1"))]

/-- Ten bytes of a frame come at once, the next not within 1 ms. -/
def tornAfterTen : LinkEnv :=
  ⟨⟨[⟨0, .ready⟩], 0, [.data 0], 0, [⟨0, .ready, .data 8⟩, ⟨1000000, .timeout, .eintr⟩], .ok [], 0,
    0⟩, []⟩

/-- An action is asked for at `start`, with a timeout of 1 ms. -/
def askAt (start : Int) (links : List LinkEnv) : RequestCall :=
  .sendAction (ascii "a") [] 1 (linkAt start links)

/-- The first response comes 5 ms after its call has begun, and the second behind
it. -/
def lateLinks : List LinkEnv := [comesAt 5000000, comesAt 5000000]

/-- The sample responses parse. -/
theorem responses_parse : ∀ q ∈ responses,
    parseFrameBytes storingLibs q.bytes none = .ok (q.frame, q.bytes.length) := by
  decide +kernel

/-- The first call draws an id and leaves its response on the way. -/
theorem exec_first :
    (runCalls storingLibs actionProto [askAt 0 [nothingUntil 1000000]] (processOn responses)).map
        (fun out => out.2.actionSeq) = some 1 ∧
      (runCalls storingLibs actionProto [askAt 0 [nothingUntil 1000000]]
          (processOn responses)).map (fun out => (out.2.plain, out.2.endpoint.client.inbound)) =
        some (true, (responses.map Packet.bytes).flatten) :=
  ⟨by decide +kernel, by decide +kernel⟩

/-- The second call, which finds the late response in front of its own, is not
torn. -/
theorem askAt_late_untorn {p : LinkedProcess} (hway : OnTheWay storingLibs responses p.endpoint)
    (hws : p.endpoint.client.ws = none) (hseq : p.actionSeq = 1) :
    (askAt 5000000 lateLinks).Untorn storingLibs actionProto p := by
  have hparse : actionProto.parse (packetOf (responseBytes (ascii "act-0-1"))).frame.payload =
      some (okResponse (ascii "act-0-1")) := by
    decide +kernel
  have hown : actionTerminal (actionIdText 0 p.actionSeq) (okResponse (ascii "act-0-1")) = true := by
    rw [hseq]
    decide +kernel
  have hsizes : ∀ q ∈ responses, hasFlag q.frame.flags flagFragmented = false ∧
      q.bytes.length ≤ 80 := by
    decide +kernel
  refine .whole [packetOf (responseBytes (ascii "act-0-0"))] lateLinks hway hws rfl hparse hown ?_
    rfl
  intro q hq
  refine ⟨(hsizes q hq).1, ?_⟩
  intro link hlink
  obtain rfl : link = comesAt 5000000 := by simpa [lateLinks] using hlink
  exact comesAt_inTime 5000000 (hsizes q hq).2

end Endpoint

open Endpoint

/-- The first call times out before its response comes.  The second finds it in
front of its own. -/
theorem send_action_answers_its_own_request_late :
    (∃ ids seq', exec ([.sendAction (ascii "a") [] 0 ⟨7, 0, ⟨[], .ok ()⟩, []⟩,
        .sendActionStreaming (ascii "a") 0 3 ⟨[], .ok ()⟩].mapM Client.ActionCall.draw) 0 =
      some (.ok ids, seq') ∧ ids.length = 2 ∧ ids.Nodup) ∧
    (∃ turns p₁ r p₂,
      runCalls storingLibs actionProto [askAt 0 [nothingUntil 1000000]] (processOn responses) =
        some (turns, p₁) ∧
      exec (Endpoint.sendAction storingLibs actionProto (ascii "a") [] 1
        (linkAt 5000000 lateLinks)) p₁ = some (r, p₂) ∧
      ∃ earlier, ActionEnds storingLibs actionProto (ascii "act-0-1") (ascii "a") [] 1
        (linkAt 5000000 lateLinks) (responses.drop earlier) p₁.endpoint r p₂.endpoint) ∧
    (runCalls storingLibs actionProto [askAt 0 [nothingUntil 1000000], askAt 5000000 lateLinks]
        (processOn responses)).map (fun out => out.1.map Turn.result) =
      some [.error .timeout,
        .ok (.responded { actionId := ascii "act-0-1", status := .ok })] ∧
    ∃ p', exec (Client.sendActionStreaming storingLibs actionProto (ascii "a") 0 0 sentAtOnce.senv)
        (processOn []).process = some (.ok (ascii "act-0-0"), p') ∧
      ∃ actionId, exec (Client.nextActionId 0) 0 = some (.ok actionId, p'.actionSeq) ∧
        ascii "act-0-0" = actionId := by
  obtain ⟨hids, hcalls, hstreaming⟩ :=
    send_action_answers_its_own_request storingLibs actionProto
  refine ⟨hids _ 0 (by decide), ?_, by decide +kernel, ?_⟩
  · have hstart : OnTheWay storingLibs responses (processOn responses).endpoint :=
      (onTheWay_plain responses_parse rfl rfl).1
    have hfirst : UntornCalls storingLibs actionProto [askAt 0 [nothingUntil 1000000]]
        (processOn responses) :=
      ⟨.idle hstart rfl rfl (nothingUntil_overdue _), fun _ _ _ => trivial⟩
    have hfinished : (runCalls storingLibs actionProto [askAt 0 [nothingUntil 1000000]]
        (processOn responses)).isSome := by
      decide +kernel
    obtain ⟨⟨turns, p₁⟩, hrun⟩ := Option.isSome_iff_exists.mp hfinished
    obtain ⟨hseq, hleft⟩ := exec_first
    rw [hrun, Option.map_some, Option.some.injEq] at hseq
    obtain ⟨hway, hws⟩ := onTheWay_behind responses_parse hrun hleft
    obtain ⟨earlier, _, hcall⟩ := hcalls _ responses _ p₁ turns hstart hfirst hrun
    obtain ⟨actionId, hdraw, hends⟩ := hcall _ _ _ _ (askAt_late_untorn hway hws hseq)
    obtain rfl : ascii "act-0-1" = actionId := by
      rw [hseq] at hdraw
      have hid : exec (Client.nextActionId 0) 1 = some (.ok (ascii "act-0-1"), 2) := by
        decide +kernel
      rw [show (linkAt 5000000 lateLinks).nowMs = 0 from rfl, hid] at hdraw
      cases hdraw
      rfl
    obtain ⟨hwaits, _⟩ | ⟨r, p₂, hexec, _, hends, _⟩ := hends
    -- It does not wait: both calls together end.
    · have hends : (runCalls storingLibs actionProto [askAt 0 [nothingUntil 1000000],
          askAt 5000000 lateLinks] (processOn responses)).isSome := by
        decide +kernel
      obtain ⟨⟨_, _⟩, hboth⟩ := Option.isSome_iff_exists.mp hends
      obtain ⟨_, p', _, hfirst', hrest, _⟩ := runCalls_cons hboth
      obtain ⟨_, _, _, hfirst, hnil, _⟩ := runCalls_cons hrun
      rw [hfirst', Option.some.injEq, Prod.mk.injEq] at hfirst
      cases hnil
      obtain ⟨_, _, _, hsecond', _⟩ := runCalls_cons hrest
      rw [hfirst.2, askAt, RequestCall.perform, exec_bind, hwaits] at hsecond'
      cases hsecond'
    · exact ⟨turns, p₁, r, p₂, hrun, hexec, earlier.length, hends⟩
  · obtain ⟨⟨r, p'⟩, hrun⟩ := Option.isSome_iff_exists.mp (show (exec (Client.sendActionStreaming
      storingLibs actionProto (ascii "a") 0 0 sentAtOnce.senv) (processOn []).process).isSome by
        decide +kernel)
    have hreturns : (exec (Client.sendActionStreaming storingLibs actionProto (ascii "a") 0 0
        sentAtOnce.senv) (processOn []).process).map Prod.fst = some (.ok (ascii "act-0-0")) := by
      decide +kernel
    rw [hrun, Option.map_some, Option.some.injEq] at hreturns
    obtain rfl := hreturns
    obtain ⟨actionId, hdraw, hid⟩ := hstreaming _ _ _ _ _ _ _ hrun
    exact ⟨p', hrun, actionId, hdraw, hid _ rfl⟩

/-- **A torn response takes the next call with it.**  Ten bytes of the first
response come before the deadline of its call.  The rest stands in front of the
second response, and the second call throws. -/
theorem torn_response_fails_next_action :
    OnTheWay storingLibs responses (processOn responses).endpoint ∧
      (runCalls storingLibs actionProto [askAt 0 [tornAfterTen], askAt 5000000 lateLinks]
          (processOn responses)).map (fun out => out.1.map Turn.result) =
        some [.error .frameReadTimeout, .error .frameMagicMismatch] ∧
      (responses.map (fun p => actionProto.parse p.frame.payload)) =
        [some (okResponse (ascii "act-0-0")), some (okResponse (ascii "act-0-1"))] ∧
      Client.decideAction (ascii "act-0-1") (okResponse (ascii "act-0-0")) = none ∧
      Client.decideAction (ascii "act-0-1") (okResponse (ascii "act-0-1")) =
        some (.ok { actionId := ascii "act-0-1", status := .ok }) :=
  ⟨(onTheWay_plain responses_parse rfl rfl).1, by decide +kernel, by decide +kernel,
    by decide +kernel, by decide +kernel⟩

end Vynkor
