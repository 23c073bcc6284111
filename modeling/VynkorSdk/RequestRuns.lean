import VynkorSdk.FrameWait
import VynkorSdk.WsClient

/-!
# Runs of requests

`publish_event`, `send_action`, `send_action_streaming` and `send_command`, one
after another on one connection.  What answers a call may come after its
deadline and stands in front of the next one.

In a run in which no deadline passes in the middle of a message every call takes
whole wire frames off the connection, and ends with the first envelope it waits
for, with a frame that holds none, or because its deadline has passed
(`waitForResponse_paced`).
-/

namespace Vynkor

open ByteCodec Procedure

/-- What the environment does during one request: a `RequestEnv` with the
connection underneath. -/
structure RequestLink where
  nowMs : Int := 0
  start : Int
  link : SendLink
  links : List (List LinkEnv)

/-- A process, with the connection underneath its client. -/
structure LinkedProcess where
  actionSeq : UInt64 := 0
  endpoint : Endpoint

namespace LinkedProcess

def setSeq (seq : UInt64) (p : LinkedProcess) : LinkedProcess := { p with actionSeq := seq }

def setEndpoint (e : Endpoint) (p : LinkedProcess) : LinkedProcess := { p with endpoint := e }

/-- The process without the connection. -/
def process (p : LinkedProcess) : Process := ⟨p.actionSeq, p.endpoint.client⟩

/-- The process is on a Unix socket, without a session key. -/
def plain (p : LinkedProcess) : Bool :=
  p.endpoint.client.ws.isNone && p.endpoint.client.fd.isSome && p.endpoint.client.sessionKey.isNone

end LinkedProcess

/-- Where no frame is taken, the bytes are the same. -/
theorem WsImpl.taken_nil {bytes rest : Bytes} (h : WsImpl.Taken bytes [] rest) : rest = bytes := by
  cases h
  rfl

namespace Endpoint

open Client

variable (lib : WireLibs) (proto : ProtoLib)

/-! ### The requests -/

def exchange (env : Envelope) (timeoutMs : UInt32) (isTerminal : Envelope → Bool)
    (rlink : RequestLink) : Proc Exn Endpoint Envelope := do
  send lib proto (ascii "kernel") env rlink.link
  waitForResponse lib proto (requestDeadline timeoutMs rlink.start) isTerminal rlink.links

def publishEvent (eventType payloadJson : Bytes) (timeoutMs : UInt32) (rlink : RequestLink) :
    Proc Exn Endpoint EventPublishAck := do
  let resp ←
    exchange lib proto (publishRequest eventType payloadJson) timeoutMs publishTerminal rlink
  settle (publishOutcome resp)

def requestAction (actionId action paramsJson : Bytes) (timeoutMs : UInt32) (rlink : RequestLink) :
    Proc Exn Endpoint ActionResponse := do
  let resp ← exchange lib proto (actionRequest actionId action paramsJson timeoutMs false) timeoutMs
    (actionTerminal actionId) rlink
  settle (actionOutcome resp)

def sendCommand (commandId command paramsJson : Bytes) (link : SendLink) (links : List LinkEnv) :
    Proc Exn Endpoint KernelCommandAck := do
  send lib proto (ascii "kernel") (commandRequest commandId command paramsJson) link
  let resp ← recv lib proto links
  settle (commandOutcome resp)

def sendAction (action paramsJson : Bytes) (timeoutMs : UInt32) (rlink : RequestLink) :
    Proc Exn LinkedProcess ActionResponse := do
  let actionId ← zoom LinkedProcess.actionSeq LinkedProcess.setSeq (nextActionId rlink.nowMs)
  zoom LinkedProcess.endpoint LinkedProcess.setEndpoint
    (requestAction lib proto actionId action paramsJson timeoutMs rlink)

def sendActionStreaming (action : Bytes) (timeoutMs : UInt32) (nowMs : Int) (link : SendLink) :
    Proc Exn LinkedProcess Bytes := do
  let actionId ← zoom LinkedProcess.actionSeq LinkedProcess.setSeq (nextActionId nowMs)
  zoom LinkedProcess.endpoint LinkedProcess.setEndpoint
    (send lib proto (ascii "kernel") (actionRequest actionId action [] timeoutMs true) link)
  return actionId

variable {lib proto}

/-! ### The client's requests -/

/-- A send leaves the receiving side of a connection as it is. -/
structure SameInbound (e e' : Endpoint) : Prop extends SameReceiver e.client e'.client where
  ahead_eq : e'.impl.ahead = e.impl.ahead

/-- **A send** is the client's, and what comes in stays where it is. -/
theorem send_client {env : Envelope} {link : SendLink} {e e' : Endpoint} {r : Except Exn Unit}
    (h : exec (send lib proto (ascii "kernel") env link) e = some (r, e')) :
    (∃ senv, exec (Client.send lib proto (ascii "kernel") env senv) e.client =
        some (r, e'.client)) ∧ SameInbound e e' := by
  by_cases hws : e.client.ws.isSome = true
  · obtain ⟨outcome, hclient, hcarried⟩ := sendRawWithFlags_carried hws _ _ _ _ r e' h
    refine ⟨⟨_, hclient⟩, send_receiver env _ e.client r e'.client hclient, ?_⟩
    exact WsImpl.taken_nil hcarried.taken
  · rw [send, sendRawWithFlags, exec_bind_ok (exec_get _)] at h
    dsimp only at h
    rw [if_neg hws, exec_zoom, Option.map_eq_some_iff] at h
    obtain ⟨⟨r₁, c⟩, hclient, heq⟩ := h
    cases heq
    exact ⟨⟨_, hclient⟩, send_receiver env _ e.client r c hclient, rfl⟩

/-- **A wait** is the client's on messages from the connection. -/
theorem waitForResponse_client {deadline : Int} {isTerminal : Envelope → Bool} :
    ∀ (links : List (List LinkEnv)) (e e' : Endpoint) (r : Except Exn Envelope),
      exec (waitForResponse lib proto deadline isTerminal links) e = some (r, e') →
      ∃ frames, exec (Client.waitForResponse lib proto deadline isTerminal frames) e.client =
        some (r, e'.client) := by
  intro links
  induction links with
  | nil =>
      intro e e' r h
      cases h
  | cons first links ih =>
      intro e e' r h
      rw [waitForResponse] at h
      obtain ⟨envs, hloop⟩ := recvFrameWith_client lib (some deadline) first e
      obtain ⟨x, rfl, hframe⟩ | ⟨frame, e₁, hframe, hrest⟩ := exec_bind_cases h
      · rw [hframe, Option.map_some] at hloop
        refine ⟨[envs], ?_⟩
        rw [Client.waitForResponse]
        exact exec_bind_error hloop.symm
      · rw [hframe, Option.map_some] at hloop
        have hclient : exec (Client.recvFrameWithDeadline lib deadline envs) e.client =
            some (.ok frame, e₁.client) := hloop.symm
        have hnext : ∀ resp frames, proto.parse frame.payload = some resp →
            exec (Client.waitForResponse lib proto deadline isTerminal (envs :: frames)) e.client =
              exec (if isTerminal resp then pure resp
                else Client.waitForResponse lib proto deadline isTerminal frames) e₁.client := by
          intro resp frames hparse
          rw [Client.waitForResponse, exec_bind_ok hclient, hparse]
        cases hparse : proto.parse frame.payload with
        | none =>
            rw [hparse] at hrest
            cases hrest
            refine ⟨[envs], ?_⟩
            rw [Client.waitForResponse, exec_bind_ok hclient, hparse]
            rfl
        | some resp =>
            rw [hparse] at hrest
            dsimp only at hrest
            by_cases hterminal : isTerminal resp = true
            · rw [if_pos hterminal] at hrest
              cases hrest
              refine ⟨[envs], ?_⟩
              rw [hnext resp [] hparse, if_pos hterminal]
              rfl
            · rw [if_neg hterminal] at hrest
              obtain ⟨frames, hwait⟩ := ih e₁ e' r hrest
              refine ⟨envs :: frames, ?_⟩
              rw [hnext resp frames hparse, if_neg hterminal]
              exact hwait

/-- A request over the transport is a request of the client over what the transport brings it. -/
theorem exchange_client {env : Envelope} {timeoutMs : UInt32} {isTerminal : Envelope → Bool}
    {rlink : RequestLink} {e e' : Endpoint} {r : Except Exn Envelope}
    (h : exec (exchange lib proto env timeoutMs isTerminal rlink) e = some (r, e')) :
    ∃ senv frames, exec (Client.exchange lib proto env timeoutMs isTerminal
      ⟨rlink.nowMs, rlink.start, senv, frames⟩) e.client = some (r, e'.client) := by
  rw [exchange] at h
  obtain ⟨x, rfl, hsend⟩ | ⟨_, e₁, hsend, hwait⟩ := exec_bind_cases h
  · obtain ⟨⟨senv, hclient⟩, _⟩ := send_client hsend
    exact ⟨senv, [], exec_bind_error hclient⟩
  · obtain ⟨⟨senv, hclient⟩, _⟩ := send_client hsend
    obtain ⟨frames, hclient'⟩ := waitForResponse_client _ _ _ _ hwait
    refine ⟨senv, frames, ?_⟩
    rw [Client.exchange, exec_bind_ok hclient]
    exact hclient'

/-- `send_action` draws an id and goes on with it. -/
theorem exec_sendAction (action paramsJson : Bytes) (timeoutMs : UInt32) (rlink : RequestLink)
    (p : LinkedProcess) :
    exec (sendAction lib proto action paramsJson timeoutMs rlink) p =
      (exec (requestAction lib proto (actionIdText rlink.nowMs p.actionSeq) action paramsJson
        timeoutMs rlink) p.endpoint).map (fun (r, e) => (r, ⟨p.actionSeq + 1, e⟩)) := by
  have hdraw : exec (zoom LinkedProcess.actionSeq LinkedProcess.setSeq (nextActionId rlink.nowMs))
      p = some (.ok (actionIdText rlink.nowMs p.actionSeq), p.setSeq (p.actionSeq + 1)) := rfl
  rw [sendAction, exec_bind_ok hdraw, exec_zoom]
  rfl

/-- A streaming action draws an id and sends its request. -/
theorem exec_sendActionStreaming (action : Bytes) (timeoutMs : UInt32) (nowMs : Int)
    (link : SendLink) (p : LinkedProcess) :
    exec (sendActionStreaming lib proto action timeoutMs nowMs link) p =
      (exec (send lib proto (ascii "kernel") (actionRequest (actionIdText nowMs p.actionSeq) action
        [] timeoutMs true) link) p.endpoint).map
          (fun (r, e) => (r.map (fun _ => actionIdText nowMs p.actionSeq),
            ⟨p.actionSeq + 1, e⟩)) := by
  have hdraw : exec (zoom LinkedProcess.actionSeq LinkedProcess.setSeq (nextActionId nowMs)) p =
      some (.ok (actionIdText nowMs p.actionSeq), p.setSeq (p.actionSeq + 1)) := rfl
  rw [sendActionStreaming, exec_bind_ok hdraw, exec_bind, exec_zoom]
  show _ = Option.map _ (exec (send lib proto _ _ link) p.endpoint)
  have hendpoint : (p.setSeq (p.actionSeq + 1)).endpoint = p.endpoint := rfl
  rw [hendpoint]
  cases exec (send lib proto (ascii "kernel") (actionRequest (actionIdText nowMs p.actionSeq) action
    [] timeoutMs true) link) p.endpoint with
  | none => rfl
  | some out =>
      obtain ⟨e | _, e'⟩ := out
      · rfl
      · rfl

/-- Behind its id, a call is the client's on messages from the connection. -/
theorem requestAction_client {actionId action paramsJson : Bytes} {timeoutMs : UInt32}
    {rlink : RequestLink} {e e' : Endpoint} {r : Except Exn ActionResponse}
    (h : exec (requestAction lib proto actionId action paramsJson timeoutMs rlink) e =
      some (r, e')) :
    ∃ senv frames, exec (Client.requestAction lib proto actionId action paramsJson timeoutMs
      ⟨rlink.nowMs, rlink.start, senv, frames⟩) e.client = some (r, e'.client) := by
  rw [requestAction] at h
  obtain ⟨x, rfl, hexchange⟩ | ⟨resp, e₁, hexchange, hend⟩ := exec_bind_cases h
  · obtain ⟨senv, frames, hclient⟩ := exchange_client hexchange
    exact ⟨senv, frames, exec_bind_error hclient⟩
  · obtain ⟨senv, frames, hclient⟩ := exchange_client hexchange
    cases hend
    exact ⟨senv, frames, exec_bind_ok hclient⟩

/-- **`send_action`** is the client's, on messages from the connection. -/
theorem sendAction_client {action paramsJson : Bytes} {timeoutMs : UInt32} {rlink : RequestLink}
    {p p' : LinkedProcess} {r : Except Exn ActionResponse}
    (h : exec (sendAction lib proto action paramsJson timeoutMs rlink) p = some (r, p')) :
    ∃ renv, exec (Client.sendAction lib proto action paramsJson timeoutMs renv) p.process =
      some (r, p'.process) := by
  rw [exec_sendAction, Option.map_eq_some_iff] at h
  obtain ⟨⟨r₁, e⟩, hrun, heq⟩ := h
  cases heq
  obtain ⟨senv, frames, hclient⟩ := requestAction_client hrun
  refine ⟨⟨rlink.nowMs, rlink.start, senv, frames⟩, ?_⟩
  rw [Client.exec_sendAction]
  exact congrArg (Option.map _) hclient

/-! ### What a wait takes -/

/-- The envelope in a frame, as a wait looks at it. -/
def parsed (proto : ProtoLib) (r : FrameResult) : Except Exn Envelope :=
  match proto.parse r.payload with
  | none => .error (.proto (ascii "protobuf parse failed"))
  | some e => .ok e

/-- The envelopes of wire frames, and the exceptions where there is none. -/
def heardOn (proto : ProtoLib) (calls : List AbsorbCall) (t : ReassemblyTable) :
    List (Except Exn Envelope) :=
  (framesOn calls t).map (fun r => r.bind (parsed proto))

/-- What two stretches of calls hear, the second on the table the first leaves. -/
theorem heardOn_append (calls calls' : List AbsorbCall) (t : ReassemblyTable) :
    heardOn proto (calls ++ calls') t =
      heardOn proto calls t ++ heardOn proto calls' (tableOn calls t) := by
  rw [heardOn, framesOn_append, List.map_append]
  rfl

variable (lib proto) in
/-- No receive of the wait is torn, up to the one that ends it. -/
def PacedWait (deadline : Int) (isTerminal : Envelope → Bool) :
    List (List LinkEnv) → Endpoint → Prop
  | [], _ => False
  | links :: rest, e =>
      Paced lib (some deadline) links e ∧
        ∀ frame env e', exec (recvFrameWith lib (some deadline) links) e = some (.ok frame, e') →
          proto.parse frame.payload = some env → isTerminal env = false →
          PacedWait deadline isTerminal rest e'

variable (lib proto) in
/-- The envelopes a wait receives. -/
def waited (deadline : Int) (isTerminal : Envelope → Bool) :
    List (List LinkEnv) → Endpoint → List Envelope
  | [], _ => []
  | links :: rest, e =>
      match exec (recvFrameWith lib (some deadline) links) e with
      | some (.ok frame, e') =>
          match proto.parse frame.payload with
          | some env => if isTerminal env then [env] else env :: waited deadline isTerminal rest e'
          | none => []
      | _ => []

/-- How a wait ends that has heard this: with the first envelope it waits for,
with what is no envelope, or because its deadline has passed. -/
inductive WaitEnds (isTerminal : Envelope → Bool) (late : Prop) :
    List Envelope → List (Except Exn Envelope) → Except Exn Envelope → Prop
  | terminal {es : List Envelope} {e : Envelope} (hearly : ∀ x ∈ es, isTerminal x = false)
      (hlast : isTerminal e = true) :
      WaitEnds isTerminal late (es ++ [e]) ((es ++ [e]).map .ok) (.ok e)
  | refused {es : List Envelope} {x : Exn} (hearly : ∀ x ∈ es, isTerminal x = false) :
      WaitEnds isTerminal late es (es.map .ok ++ [.error x]) (.error x)
  | expired {es : List Envelope} (hearly : ∀ x ∈ es, isTerminal x = false) (hlate : late) :
      WaitEnds isTerminal late es (es.map .ok) (.error .timeout)

/-- One more envelope that does not end the wait. -/
theorem WaitEnds.cons {isTerminal : Envelope → Bool} {late late' : Prop} {reads : List Envelope}
    {heard : List (Except Exn Envelope)} {r : Except Exn Envelope} {env : Envelope}
    (h : WaitEnds isTerminal late reads heard r) (henv : isTerminal env = false)
    (hlate : late → late') : WaitEnds isTerminal late' (env :: reads) (.ok env :: heard) r := by
  have hmore : ∀ es : List Envelope, (∀ x ∈ es, isTerminal x = false) →
      ∀ x ∈ env :: es, isTerminal x = false := by
    intro es hes x hx
    rcases List.mem_cons.mp hx with rfl | hx
    · exact henv
    · exact hes x hx
  cases h with
  | terminal hearly hlast => exact .terminal (hmore _ hearly) hlast
  | refused hearly => exact .refused (hmore _ hearly)
  | expired hearly hdue => exact .expired (hmore _ hearly) (hlate hdue)

variable (proto) in
/-- **A wait** whose deadline does not pass in the middle of a message takes all
packets, finds nothing to wait for in them and waits on; or it takes some and
ends as `WaitEnds` says of them. -/
theorem waitForResponse_paced {deadline : Int} {isTerminal : Envelope → Bool} :
    ∀ (rest : List (List LinkEnv)) (packets : List Packet) (e : Endpoint), OnTheWay lib packets e →
      PacedWait lib proto deadline isTerminal rest e →
      (exec (waitForResponse lib proto deadline isTerminal rest) e = none ∧
        ∃ (taken : List AbsorbCall) (es : List Envelope), TookAll packets rest.flatten taken ∧
          heardOn proto taken e.client.reassembly = es.map .ok ∧ ∀ x ∈ es, isTerminal x = false) ∨
      ∃ taken r e', exec (waitForResponse lib proto deadline isTerminal rest) e = some (r, e') ∧
        Took lib packets rest.flatten e taken e' ∧
        WaitEnds isTerminal (¬ ∀ link ∈ rest.flatten, Punctual (some deadline) link)
          (waited lib proto deadline isTerminal rest e) (heardOn proto taken e.client.reassembly)
          r := by
  intro rest
  induction rest with
  | nil =>
      intro packets e _ hpaced
      cases hpaced
  | cons links rest ih =>
      intro packets e hway hpaced
      obtain ⟨hfirst, hnext⟩ := hpaced
      have hlinks : links.Sublist (links :: rest).flatten := List.sublist_append_left _ _
      have hnothing : ∀ x ∈ ([] : List Envelope), isTerminal x = false := by simp
      rw [waitForResponse, waited]
      obtain ⟨hwaits, taken, hall, hnone⟩ | ⟨taken, r, e', hexec, htook, hends⟩ :=
        recvFrameWith_paced links packets e hway hfirst
      · left
        refine ⟨by rw [exec_bind, hwaits], taken, [], hall.mono hlinks, ?_, by simp⟩
        rw [heardOn, hnone]
        rfl
      have htook' : Took lib packets (links :: rest).flatten e taken e' := htook.mono hlinks
      obtain ⟨rfl, hnone, hlate⟩ | hone := hends
      · refine .inr ⟨taken, .error .timeout, e', exec_bind_error hexec, htook', ?_⟩
        rw [heardOn, hnone, hexec]
        exact .expired hnothing
          (fun hpunctual => hlate (fun l hl => hpunctual l (hlinks.subset hl)))
      have hheard : heardOn proto taken e.client.reassembly = [r.bind (parsed proto)] := by
        rw [heardOn, hone]
        rfl
      cases r with
      | error x =>
          refine .inr ⟨taken, .error x, e', exec_bind_error hexec, htook', ?_⟩
          rw [hheard, hexec]
          exact .refused hnothing
      | ok frame =>
          have hparsed : (Except.ok frame : Except Exn FrameResult).bind (parsed proto) =
              parsed proto frame := rfl
          rw [hparsed, parsed] at hheard
          rw [exec_bind_ok hexec, hexec]
          dsimp only
          cases hparse : proto.parse frame.payload with
          | none =>
              rw [hparse] at hheard
              refine .inr ⟨taken, _, e', rfl, htook', ?_⟩
              rw [hheard]
              exact .refused hnothing
          | some env =>
              rw [hparse] at hheard
              dsimp only
              by_cases hterminal : isTerminal env = true
              · rw [if_pos hterminal, if_pos hterminal]
                refine .inr ⟨taken, .ok env, e', rfl, htook', ?_⟩
                rw [hheard]
                exact .terminal hnothing hterminal
              -- The envelope is discarded, and the wait goes on behind it.
              have hearly : isTerminal env = false := by simpa using hterminal
              have hmore : ∀ taken', heardOn proto (taken ++ taken') e.client.reassembly =
                  .ok env :: heardOn proto taken' e'.client.reassembly := by
                intro taken'
                rw [heardOn_append, hheard, htook.table]
                rfl
              rw [if_neg hterminal, if_neg hterminal]
              obtain ⟨hwaits, taken', es, hall, hes, hnot⟩ |
                  ⟨taken', r, e'', hexec', htook₂, hends⟩ :=
                ih (packets.drop taken.length) e' htook.left
                  (hnext frame env e' hexec hparse hearly)
              · left
                refine ⟨hwaits, taken ++ taken', env :: es, htook.all hall, ?_, ?_⟩
                · rw [hmore, hes]
                  rfl
                · intro x hx
                  rcases List.mem_cons.mp hx with rfl | hx
                  · exact hearly
                  · exact hnot x hx
              · right
                refine ⟨taken ++ taken', r, e'', hexec', htook.trans htook₂, ?_⟩
                rw [hmore]
                exact hends.cons hearly (fun hlate hpunctual => hlate (fun l hl =>
                  hpunctual l (by rw [List.flatten_cons]; exact List.mem_append_right _ hl)))

/-! ### One call -/

/-- A send on the socket stays there. -/
theorem SameInbound.ws_none {e e' : Endpoint} (hsame : SameInbound e e')
    (hws : e.client.ws = none) : e'.client.ws = none := by
  rw [← Option.isNone_iff_eq_none, ← Option.not_isSome, hsame.ws_eq, hws]
  rfl

/-- What comes in on a connection is on its way behind a send as before it. -/
theorem OnTheWay.of_same {packets : List Packet} {e e' : Endpoint} (h : OnTheWay lib packets e)
    (hsame : SameInbound e e') : OnTheWay lib packets e' := by
  cases h with
  | socket hws hfd hinbound hparse =>
      refine .socket (hsame.ws_none hws) (hsame.fd_eq.trans hfd) (hsame.inbound_eq.trans hinbound)
        ?_
      rw [hsame.key_eq]
      exact hparse
  | webSocket hws messages tail hahead hbounded htail hcontent hparse =>
      refine .webSocket (hsame.ws_eq.trans hws) messages tail (hsame.ahead_eq.trans hahead) hbounded
        htail hcontent ?_
      rw [hsame.key_eq]
      exact hparse

/-- A send takes nothing. -/
theorem SameInbound.took {packets : List Packet} {e e' : Endpoint} (hsame : SameInbound e e')
    (h : OnTheWay lib packets e) (links : List LinkEnv) : Took lib packets links e [] e' :=
  .nothing links hsame.table_eq (h.of_same hsame)

section Exchange

variable (lib proto) (env : Envelope) (timeoutMs : UInt32) (isTerminal : Envelope → Bool)
  (rlink : RequestLink) (e : Endpoint)

/-- Behind the send no receive of the exchange is torn. -/
def PacedExchange : Prop :=
  ∀ e', exec (send lib proto (ascii "kernel") env rlink.link) e = some (.ok (), e') →
    PacedWait lib proto (requestDeadline timeoutMs rlink.start) isTerminal rlink.links e'

/-- The envelopes an exchange receives behind its send. -/
def exchanged : List Envelope :=
  match exec (send lib proto (ascii "kernel") env rlink.link) e with
  | some (.ok _, e') =>
      waited lib proto (requestDeadline timeoutMs rlink.start) isTerminal rlink.links e'
  | _ => []

/-- The deadline of the exchange passes in one of its rounds. -/
def Late : Prop :=
  ¬ ∀ link ∈ rlink.links.flatten, Punctual (some (requestDeadline timeoutMs rlink.start)) link

end Exchange

/-- **An exchange** waits, in its send or for what has not come; or its send
throws; or it ends as its wait does. -/
theorem exchange_paced {env : Envelope} {timeoutMs : UInt32} {isTerminal : Envelope → Bool}
    {rlink : RequestLink} {packets : List Packet} {e : Endpoint} (hway : OnTheWay lib packets e)
    (hpaced : PacedExchange lib proto env timeoutMs isTerminal rlink e) :
    (exec (exchange lib proto env timeoutMs isTerminal rlink) e = none ∧
      (exec (send lib proto (ascii "kernel") env rlink.link) e = none ∨
        ∃ (taken : List AbsorbCall) (es : List Envelope),
          TookAll packets rlink.links.flatten taken ∧
          heardOn proto taken e.client.reassembly = es.map .ok ∧ ∀ x ∈ es, isTerminal x = false)) ∨
    (∃ x e', exec (exchange lib proto env timeoutMs isTerminal rlink) e = some (.error x, e') ∧
      exec (send lib proto (ascii "kernel") env rlink.link) e = some (.error x, e') ∧
      SameInbound e e' ∧ exchanged lib proto env timeoutMs isTerminal rlink e = []) ∨
    ∃ taken r e', exec (exchange lib proto env timeoutMs isTerminal rlink) e = some (r, e') ∧
      Took lib packets rlink.links.flatten e taken e' ∧
      WaitEnds isTerminal (Late timeoutMs rlink)
        (exchanged lib proto env timeoutMs isTerminal rlink e)
        (heardOn proto taken e.client.reassembly) r := by
  rw [exchange, exchanged, exec_bind]
  cases hsend : exec (send lib proto (ascii "kernel") env rlink.link) e with
  | none => exact .inl ⟨rfl, .inl rfl⟩
  | some out =>
      obtain ⟨x | _, e₁⟩ := out
      · exact .inr (.inl ⟨x, e₁, rfl, rfl, (send_client hsend).2, rfl⟩)
      · have hsame := (send_client hsend).2
        have hkeep := hsame.table_eq
        obtain ⟨hwaits, taken, es, hall, hheard, hnot⟩ | ⟨taken, r, e', hexec, htook, hends⟩ :=
          waitForResponse_paced proto rlink.links packets e₁ (hway.of_same hsame) (hpaced e₁ hsend)
        · refine .inl ⟨hwaits, .inr ⟨taken, es, hall, ?_, hnot⟩⟩
          rw [← hkeep]
          exact hheard
        · refine .inr (.inr ⟨taken, r, e', hexec, ?_, ?_⟩)
          · exact (hsame.took hway []).trans htook
          · rw [← hkeep]
            exact hends

/-! ### Calls and runs -/

/-- What a request returns. -/
inductive Reply
  | published (ack : EventPublishAck)
  | commanded (ack : KernelCommandAck)
  | responded (response : ActionResponse)
  | started (actionId : Bytes)
  deriving DecidableEq

/-- A request, with what the environment does during it. -/
inductive RequestCall
  | publishEvent (eventType payloadJson : Bytes) (timeoutMs : UInt32) (rlink : RequestLink)
  | sendCommand (commandId command paramsJson : Bytes) (link : SendLink) (links : List LinkEnv)
  | sendAction (action paramsJson : Bytes) (timeoutMs : UInt32) (rlink : RequestLink)
  | sendActionStreaming (action : Bytes) (timeoutMs : UInt32) (nowMs : Int) (link : SendLink)

namespace RequestCall

/-- The environments of the rounds in which a call may receive. -/
def links : RequestCall → List LinkEnv
  | .publishEvent _ _ _ rlink => rlink.links.flatten
  | .sendCommand _ _ _ _ links => links
  | .sendAction _ _ _ rlink => rlink.links.flatten
  | .sendActionStreaming _ _ _ _ => []

variable (lib proto)

def perform : RequestCall → Proc Exn LinkedProcess Reply
  | .publishEvent eventType payloadJson timeoutMs rlink => do
      let ack ← zoom LinkedProcess.endpoint LinkedProcess.setEndpoint
        (Endpoint.publishEvent lib proto eventType payloadJson timeoutMs rlink)
      return .published ack
  | .sendCommand commandId command paramsJson link links => do
      let ack ← zoom LinkedProcess.endpoint LinkedProcess.setEndpoint
        (Endpoint.sendCommand lib proto commandId command paramsJson link links)
      return .commanded ack
  | .sendAction action paramsJson timeoutMs rlink => do
      let response ← Endpoint.sendAction lib proto action paramsJson timeoutMs rlink
      return .responded response
  | .sendActionStreaming action timeoutMs nowMs link => do
      let actionId ← Endpoint.sendActionStreaming lib proto action timeoutMs nowMs link
      return .started actionId

/-- The envelopes a call receives. -/
def reads : RequestCall → LinkedProcess → List Envelope
  | .publishEvent eventType payloadJson timeoutMs rlink, p =>
      exchanged lib proto (publishRequest eventType payloadJson) timeoutMs publishTerminal rlink
        p.endpoint
  | .sendCommand commandId command paramsJson link links, p =>
      match exec (send lib proto (ascii "kernel") (commandRequest commandId command paramsJson)
        link) p.endpoint with
      | some (.ok _, e) =>
          match exec (recv lib proto links) e with
          | some (.ok env, _) => [env]
          | _ => []
      | _ => []
  | .sendAction action paramsJson timeoutMs rlink, p =>
      let actionId := actionIdText rlink.nowMs p.actionSeq
      exchanged lib proto (actionRequest actionId action paramsJson timeoutMs false) timeoutMs
        (actionTerminal actionId) rlink p.endpoint
  | .sendActionStreaming _ _ _ _, _ => []

/-- No deadline passes in the middle of a message while the call receives. -/
def Untorn : RequestCall → LinkedProcess → Prop
  | .publishEvent eventType payloadJson timeoutMs rlink, p =>
      PacedExchange lib proto (publishRequest eventType payloadJson) timeoutMs publishTerminal rlink
        p.endpoint
  | .sendCommand commandId command paramsJson link links, p =>
      ∀ e, exec (send lib proto (ascii "kernel") (commandRequest commandId command paramsJson) link)
        p.endpoint = some (.ok (), e) → Paced lib none links e
  | .sendAction action paramsJson timeoutMs rlink, p =>
      let actionId := actionIdText rlink.nowMs p.actionSeq
      PacedExchange lib proto (actionRequest actionId action paramsJson timeoutMs false) timeoutMs
        (actionTerminal actionId) rlink p.endpoint
  | .sendActionStreaming _ _ _ _, _ => True

end RequestCall

/-- What is left of a call once it has ended. -/
structure Turn where
  reads : List Envelope
  result : Except Exn Reply
  deriving DecidableEq

variable (lib proto) in
/-- One call after another, each of which ends. -/
def runCalls : List RequestCall → LinkedProcess → Option (List Turn × LinkedProcess)
  | [], p => some ([], p)
  | call :: calls, p => do
      let (result, p') ← exec (call.perform lib proto) p
      let (turns, p'') ← runCalls calls p'
      return (⟨call.reads lib proto p, result⟩ :: turns, p'')

variable (lib proto) in
/-- No call of the run is torn. -/
def UntornCalls : List RequestCall → LinkedProcess → Prop
  | [], _ => True
  | call :: calls, p =>
      call.Untorn lib proto p ∧
        ∀ r p', exec (call.perform lib proto) p = some (r, p') → UntornCalls calls p'

/-- A run with its first call. -/
theorem runCalls_cons {call : RequestCall} {calls : List RequestCall} {p p'' : LinkedProcess}
    {turns : List Turn} (h : runCalls lib proto (call :: calls) p = some (turns, p'')) :
    ∃ result p' later, exec (call.perform lib proto) p = some (result, p') ∧
      runCalls lib proto calls p' = some (later, p'') ∧
      turns = ⟨call.reads lib proto p, result⟩ :: later := by
  rw [runCalls] at h
  cases hexec : exec (call.perform lib proto) p with
  | none => simp [hexec] at h
  | some out =>
      obtain ⟨result, p'⟩ := out
      cases hrest : runCalls lib proto calls p' with
      | none => simp [hexec, hrest] at h
      | some rest =>
          obtain ⟨later, p₂⟩ := rest
          obtain ⟨rfl, rfl⟩ : _ = turns ∧ p₂ = p'' := by simpa [hexec, hrest] using h
          exact ⟨result, p', later, rfl, hrest, rfl⟩

/-- What decodes for `recv()` is what a wait hears. -/
theorem heardOn_of_received {calls : List AbsorbCall} {t : ReassemblyTable} {es : List Envelope}
    (h : received proto calls t = es.map .ok) : heardOn proto calls t = es.map .ok := by
  rw [← h, heardOn, received]
  apply List.map_congr_left
  intro r hr
  obtain ⟨e, _, he⟩ : ∃ e ∈ es, .ok e = r.bind (decodeFrame proto) := by
    have hmem := List.mem_map_of_mem (f := fun r => r.bind (decodeFrame proto)) hr
    rw [show (framesOn calls t).map (fun r => r.bind (decodeFrame proto)) =
      es.map .ok from h] at hmem
    exact List.mem_map.mp hmem
  cases r with
  | error x => cases he
  | ok frame =>
      show parsed proto frame = decodeFrame proto frame
      have hdecode : decodeFrame proto frame = .ok e := he.symm
      unfold decodeFrame at hdecode ⊢
      split at hdecode
      · cases hdecode
      · rename_i hraw
        rw [if_neg hraw]
        rfl

/-- What a wait reads are the envelopes it heard. -/
theorem WaitEnds.reads_eq {isTerminal : Envelope → Bool} {late : Prop} {reads es : List Envelope}
    {heard : List (Except Exn Envelope)} {r : Except Exn Envelope}
    (h : WaitEnds isTerminal late reads heard r) (hheard : heard = es.map .ok) : reads = es := by
  have hinj : Function.Injective (Except.ok : Envelope → Except Exn Envelope) :=
    fun _ _ heq => by cases heq; rfl
  cases h with
  | terminal _ _ => exact hinj.list_map hheard
  | expired _ _ => exact hinj.list_map hheard
  | @refused early x _ =>
      have hmem : (.error x : Except Exn Envelope) ∈ es.map .ok := by simp [← hheard]
      obtain ⟨e, _, he⟩ := List.mem_map.mp hmem
      cases he

/-- An exchange takes whole frames, and receives the envelopes in them. -/
theorem exchange_took {env : Envelope} {timeoutMs : UInt32} {isTerminal : Envelope → Bool}
    {rlink : RequestLink} {packets : List Packet} {e e' : Endpoint} {r : Except Exn Envelope}
    (hway : OnTheWay lib packets e)
    (hpaced : PacedExchange lib proto env timeoutMs isTerminal rlink e)
    (h : exec (exchange lib proto env timeoutMs isTerminal rlink) e = some (r, e')) :
    ∃ taken, Took lib packets rlink.links.flatten e taken e' ∧
      ∀ es : List Envelope, received proto taken e.client.reassembly = es.map .ok →
        exchanged lib proto env timeoutMs isTerminal rlink e = es := by
  obtain ⟨hnone, _⟩ | ⟨x, e₁, hexec, _, hsame, hnothing⟩ | ⟨taken, r₁, e₁, hexec, htook, hends⟩ :=
    exchange_paced hway hpaced
  · rw [hnone] at h
    cases h
  · rw [hexec] at h
    cases h
    refine ⟨[], hsame.took hway _, ?_⟩
    intro es hes
    obtain rfl : es = [] := by simpa [received, framesOn] using hes.symm
    exact hnothing
  · rw [hexec] at h
    cases h
    exact ⟨taken, htook, fun es hes => hends.reads_eq (heardOn_of_received hes)⟩

/-- A receive without a deadline. -/
theorem recv_took {links : List LinkEnv} {packets : List Packet} {e e' : Endpoint}
    {r : Except Exn Envelope} (hway : OnTheWay lib packets e) (hpaced : Paced lib none links e)
    (h : exec (recv lib proto links) e = some (r, e')) :
    ∃ taken, Took lib packets links e taken e' ∧
      ∀ es : List Envelope, received proto taken e.client.reassembly = es.map .ok →
        r.toOption.toList = es := by
  rw [recv, exec_bind_settle, Option.map_eq_some_iff] at h
  obtain ⟨⟨r₁, e₁⟩, hloop, heq⟩ := h
  cases heq
  obtain ⟨hnone, _⟩ | ⟨taken, r₂, e₂, hexec, htook, hends⟩ :=
    recvFrameWith_paced links packets e hway hpaced
  · rw [hnone] at hloop
    cases hloop
  rw [hexec] at hloop
  cases hloop
  refine ⟨taken, htook, ?_⟩
  intro es hes
  obtain ⟨rfl, hnone, _⟩ | hone := hends
  · rw [received, hnone] at hes
    obtain rfl : es = [] := by simpa using hes.symm
    rfl
  · rw [received, hone, List.map_singleton] at hes
    obtain ⟨env, rfl, henv⟩ : ∃ env, es = [env] ∧ r₁.bind (decodeFrame proto) = .ok env := by
      cases es with
      | nil => cases hes
      | cons env es =>
          obtain ⟨henv, hrest⟩ := List.cons.inj hes
          exact ⟨env, by simpa using hrest.symm, henv⟩
    dsimp only
    rw [henv]
    rfl

/-- **A call** that is not torn takes whole frames, and receives the envelopes in
them. -/
theorem RequestCall.took {call : RequestCall} {packets : List Packet} {p p' : LinkedProcess}
    {r : Except Exn Reply} (hway : OnTheWay lib packets p.endpoint)
    (huntorn : call.Untorn lib proto p)
    (h : exec (call.perform lib proto) p = some (r, p')) :
    ∃ taken, Took lib packets call.links p.endpoint taken p'.endpoint ∧
      ∀ es : List Envelope, received proto taken p.endpoint.client.reassembly = es.map .ok →
        call.reads lib proto p = es := by
  have hidle : ∀ es : List Envelope,
      received proto [] p.endpoint.client.reassembly = es.map .ok → es = [] := by
    intro es hes
    simpa [received, framesOn] using hes.symm
  cases call with
  | publishEvent eventType payloadJson timeoutMs rlink =>
      rw [perform, exec_bind_pure, Option.map_eq_some_iff] at h
      obtain ⟨⟨_, _⟩, hcall, heq⟩ := h
      cases heq
      rw [exec_zoom, Option.map_eq_some_iff] at hcall
      obtain ⟨⟨_, e⟩, hcall, heq⟩ := hcall
      cases heq
      rw [Endpoint.publishEvent, exec_bind_settle, Option.map_eq_some_iff] at hcall
      obtain ⟨⟨_, _⟩, hexchange, heq⟩ := hcall
      cases heq
      exact exchange_took hway huntorn hexchange
  | sendCommand commandId command paramsJson link links =>
      rw [perform, exec_bind_pure, Option.map_eq_some_iff] at h
      obtain ⟨⟨_, _⟩, hcall, heq⟩ := h
      cases heq
      rw [exec_zoom, Option.map_eq_some_iff] at hcall
      obtain ⟨⟨_, e⟩, hcall, heq⟩ := hcall
      cases heq
      rw [Endpoint.sendCommand] at hcall
      obtain ⟨x, _, hsend⟩ | ⟨_, e₁, hsend, hrest⟩ := exec_bind_cases hcall
      · refine ⟨[], (send_client hsend).2.took hway _, ?_⟩
        intro es hes
        rw [reads, hsend, hidle es hes]
      · have hsame := (send_client hsend).2
        rw [exec_bind_settle, Option.map_eq_some_iff] at hrest
        obtain ⟨⟨resp, _⟩, hrecv, heq⟩ := hrest
        cases heq
        obtain ⟨taken, htook, hreads⟩ := recv_took (hway.of_same hsame) (huntorn e₁ hsend) hrecv
        refine ⟨taken, (hsame.took hway []).trans htook, ?_⟩
        intro es hes
        have hkeep := hsame.table_eq
        rw [← hreads es (by rw [hkeep]; exact hes), reads, hsend]
        dsimp only
        rw [hrecv]
        cases resp <;> rfl
  | sendAction action paramsJson timeoutMs rlink =>
      rw [perform, exec_bind_pure, Option.map_eq_some_iff] at h
      obtain ⟨⟨_, _⟩, hcall, heq⟩ := h
      cases heq
      rw [exec_sendAction, Option.map_eq_some_iff] at hcall
      obtain ⟨⟨_, e⟩, hcall, heq⟩ := hcall
      cases heq
      rw [requestAction, exec_bind_settle, Option.map_eq_some_iff] at hcall
      obtain ⟨⟨_, _⟩, hexchange, heq⟩ := hcall
      cases heq
      exact exchange_took hway huntorn hexchange
  | sendActionStreaming action timeoutMs nowMs link =>
      rw [perform, exec_bind_pure, Option.map_eq_some_iff] at h
      obtain ⟨⟨_, _⟩, hcall, heq⟩ := h
      cases heq
      rw [exec_sendActionStreaming, Option.map_eq_some_iff] at hcall
      obtain ⟨⟨_, e⟩, hsend, heq⟩ := hcall
      cases heq
      exact ⟨[], (send_client hsend).2.took hway _, fun es hes => (hidle es hes).symm⟩

/-- **A run** takes whole frames, and its calls receive the envelopes in them. -/
theorem runCalls_took : ∀ (calls : List RequestCall) (packets : List Packet)
    (p p' : LinkedProcess) (turns : List Turn), OnTheWay lib packets p.endpoint →
    UntornCalls lib proto calls p → runCalls lib proto calls p = some (turns, p') →
    ∃ taken, Took lib packets (calls.flatMap RequestCall.links) p.endpoint taken p'.endpoint ∧
      ∀ es : List Envelope, received proto taken p.endpoint.client.reassembly = es.map .ok →
        turns.flatMap Turn.reads = es := by
  intro calls
  induction calls with
  | nil =>
      intro packets p p' turns hway _ hrun
      cases hrun
      refine ⟨[], .nothing _ rfl hway, ?_⟩
      intro es hes
      simpa [received, framesOn] using hes
  | cons call calls ih =>
      intro packets p p'' turns hway huntorn hrun
      obtain ⟨result, p', later, hexec, hrest, rfl⟩ := runCalls_cons hrun
      obtain ⟨taken, htook, hreads⟩ := call.took hway huntorn.1 hexec
      obtain ⟨taken', htook', hreads'⟩ := ih (packets.drop taken.length) p' p'' later htook.left
        (huntorn.2 result p' hexec) hrest
      refine ⟨taken ++ taken', ?_, ?_⟩
      · rw [List.flatMap_cons]
        exact htook.trans htook'
      · intro es hes
        rw [received_append, List.append_eq_map_iff] at hes
        obtain ⟨es₁, es₂, rfl, hfirst, hsecond⟩ := hes
        rw [← htook.table] at hsecond
        rw [List.flatMap_cons, hreads es₁ hfirst.symm, hreads' es₂ hsecond.symm]

/-! ### Whole frames on a socket -/

/-- A receive that returns on the socket has taken the frame in front, if it is
no fragment. -/
theorem recvFrameWith_whole {deadline : Option Int} {link : LinkEnv} {p : Packet} {ps : List Packet}
    {e e' : Endpoint} {frame : FrameResult} (hway : OnTheWay lib (p :: ps) e)
    (hws : e.client.ws = none) (hwhole : hasFlag p.frame.flags flagFragmented = false)
    (htime : InTime deadline p.bytes.length link.env)
    (h : exec (recvFrameWith lib deadline [link]) e = some (.ok frame, e')) :
    frame = p.frame ∧ OnTheWay lib ps e' ∧ e'.client.ws = none := by
  have haccept : (accept (link.call p) e.client.reassembly).1 = .ok (some p.frame) := by
    have hflags : ¬ hasFlag (link.call p).frame.flags flagFragmented = true := by
      show ¬ hasFlag p.frame.flags flagFragmented = true
      simp [hwhole]
    rw [accept, if_neg hflags]
    rfl
  rw [exec_recvFrameWith_cons] at h
  obtain ⟨hnone, _⟩ | ⟨_, hstep, _⟩ | ⟨q, qs, e₁, hfront, hstep, _, hleft⟩ :=
    recvStep_untorn hway (hway.untorn hws htime)
  · cases hnone
  · rw [hstep] at h
    cases h
  · obtain ⟨rfl, rfl⟩ := List.cons.inj hfront
    have hround := hstep
    rw [hstep, haccept] at h
    cases h
    refine ⟨rfl, hleft, ?_⟩
    rw [exec_recvStep_socket lib hws, Option.map_eq_some_iff] at hround
    obtain ⟨⟨_, c⟩, hclient, heq⟩ := hround
    cases heq
    exact (recvStep_ws deadline link.env e.client _ _ hclient).trans hws

/-- A wait whose deadline passes before anything comes is not torn. -/
theorem PacedWait.idle {deadline : Int} {isTerminal : Envelope → Bool} {link : LinkEnv}
    {packets : List Packet} {e : Endpoint} (hway : OnTheWay lib packets e)
    (hws : e.client.ws = none) (hoverdue : Overdue deadline link.env.waits) :
    PacedWait lib proto deadline isTerminal [[link]] e := by
  have hfd : e.client.fd.isSome := by
    cases hway with
    | socket _ hfd => exact hfd
    | webSocket hws' =>
        rw [hws] at hws'
        cases hws'
  have hstep : exec (recvStep lib (some deadline) link) e = some (.error .timeout, e) := by
    rw [exec_recvStep_socket lib hws, Client.recvStep,
      exec_bind_error (readTransportFrame_overdue hws hfd hoverdue)]
    rfl
  refine ⟨⟨.idle rfl hws hoverdue, ?_⟩, ?_⟩
  · intro e' hcomplete
    rw [hstep] at hcomplete
    cases hcomplete
  · intro frame env e' hexec
    rw [exec_recvFrameWith_cons, hstep] at hexec
    cases hexec

/-- A wait that reads whole frames in time, up to one it waits for. -/
theorem PacedWait.whole {deadline : Int} {isTerminal : Envelope → Bool} {q : Packet}
    {later : List Packet} {env : Envelope} (hparse : proto.parse q.frame.payload = some env)
    (hterminal : isTerminal env = true) :
    ∀ (early : List Packet) (links : List LinkEnv) (e : Endpoint),
      OnTheWay lib (early ++ q :: later) e → e.client.ws = none →
      (∀ p ∈ early ++ [q], hasFlag p.frame.flags flagFragmented = false ∧
        ∀ link ∈ links, InTime (some deadline) p.bytes.length link.env) →
      links.length = early.length + 1 →
      PacedWait lib proto deadline isTerminal (links.map ([·])) e := by
  intro early
  induction early with
  | nil =>
      intro links e hway hws hframes hlength
      obtain ⟨link, rfl⟩ := List.length_eq_one_iff.mp hlength
      obtain ⟨hwhole, htime⟩ := hframes q (by simp)
      have htime := htime link (by simp)
      refine ⟨paced_whole hway hwhole (hway.untorn hws htime), ?_⟩
      intro frame env' e' hexec hparse' hearly
      obtain ⟨rfl, _⟩ := recvFrameWith_whole hway hws hwhole htime hexec
      rw [hparse, Option.some.injEq] at hparse'
      rw [← hparse', hterminal] at hearly
      cases hearly
  | cons p early ih =>
      intro links e hway hws hframes hlength
      obtain ⟨link, links, rfl⟩ := List.exists_cons_of_length_pos (by omega : 0 < links.length)
      obtain ⟨hwhole, htime⟩ := hframes p (by simp)
      have htime := htime link (by simp)
      refine ⟨paced_whole hway hwhole (hway.untorn hws htime), ?_⟩
      intro frame env' e' hexec _ _
      obtain ⟨_, hleft, hws'⟩ := recvFrameWith_whole hway hws hwhole htime hexec
      refine ih links e' hleft hws' ?_ (by simpa using hlength)
      intro p' hp'
      obtain ⟨hwhole', htime'⟩ := hframes p' (List.mem_cons_of_mem _ hp')
      exact ⟨hwhole', fun l hl => htime' l (List.mem_cons_of_mem _ hl)⟩

/-- An exchange whose deadline passes before anything comes is not torn. -/
theorem PacedExchange.idle {env : Envelope} {timeoutMs : UInt32} {isTerminal : Envelope → Bool}
    {rlink : RequestLink} {link : LinkEnv} {packets : List Packet} {e : Endpoint}
    (hway : OnTheWay lib packets e) (hws : e.client.ws = none) (hlinks : rlink.links = [[link]])
    (hoverdue : Overdue (requestDeadline timeoutMs rlink.start) link.env.waits) :
    PacedExchange lib proto env timeoutMs isTerminal rlink e := by
  intro e' hsend
  have hsame := (send_client hsend).2
  rw [hlinks]
  exact .idle (hway.of_same hsame) (hsame.ws_none hws) hoverdue

/-- Nor is one that reads whole frames in time, up to its answer. -/
theorem PacedExchange.whole {env answer : Envelope} {timeoutMs : UInt32}
    {isTerminal : Envelope → Bool} {rlink : RequestLink} (early : List Packet)
    (links : List LinkEnv) {later : List Packet} {q : Packet} {e : Endpoint}
    (hway : OnTheWay lib (early ++ q :: later) e) (hws : e.client.ws = none)
    (hlinks : rlink.links = links.map ([·])) (hparse : proto.parse q.frame.payload = some answer)
    (hterminal : isTerminal answer = true)
    (hframes : ∀ p ∈ early ++ [q], hasFlag p.frame.flags flagFragmented = false ∧
      ∀ link ∈ links,
        InTime (some (requestDeadline timeoutMs rlink.start)) p.bytes.length link.env)
    (hlength : links.length = early.length + 1) :
    PacedExchange lib proto env timeoutMs isTerminal rlink e := by
  intro e' hsend
  have hsame := (send_client hsend).2
  rw [hlinks]
  exact .whole hparse hterminal early links e' (hway.of_same hsame) (hsame.ws_none hws) hframes
    hlength

/-- A payload in a wire frame of its own. -/
def packetOf (payload : Bytes) : Packet :=
  ⟨((packFrameRaw storingLibs [] 0 payload none).toOption).getD [],
    { payload := payload, rawHeader := buildHeader 0 (targetToBytes []) payload }⟩

/-- A process on a Unix socket on which these packets come. -/
def processOn (packets : List Packet) : LinkedProcess :=
  { endpoint := ⟨{ fd := some { inbound := (packets.map Packet.bytes).flatten } }, {}⟩ }

/-- Packets without a MAC on such a socket. -/
theorem onTheWay_plain {packets : List Packet} {p : LinkedProcess}
    (hparse : ∀ q ∈ packets,
      parseFrameBytes storingLibs q.bytes none = .ok (q.frame, q.bytes.length))
    (hplain : p.plain = true)
    (hinbound : p.endpoint.client.inbound = (packets.map Packet.bytes).flatten) :
    OnTheWay storingLibs packets p.endpoint ∧ p.endpoint.client.ws = none := by
  obtain ⟨⟨hws, hfd⟩, hkey⟩ : (p.endpoint.client.ws = none ∧ p.endpoint.client.fd.isSome) ∧
      p.endpoint.client.sessionKey = none := by simpa [LinkedProcess.plain] using hplain
  refine ⟨.socket hws hfd hinbound ?_, hws⟩
  rw [hkey]
  exact hparse

/-- They are still on their way behind calls that leave them on the socket. -/
theorem onTheWay_behind {α : Type} {packets : List Packet} {a : α} {p : LinkedProcess}
    {run : Option (α × LinkedProcess)}
    (hparse : ∀ q ∈ packets,
      parseFrameBytes storingLibs q.bytes none = .ok (q.frame, q.bytes.length))
    (hrun : run = some (a, p))
    (hleft : run.map (fun out => (out.2.plain, out.2.endpoint.client.inbound)) =
      some (true, (packets.map Packet.bytes).flatten)) :
    OnTheWay storingLibs packets p.endpoint ∧ p.endpoint.client.ws = none := by
  rw [hrun, Option.map_some, Option.some.injEq, Prod.mk.injEq] at hleft
  exact onTheWay_plain hparse hleft.1 hleft.2

/-- A send that goes out at once. -/
def sentAtOnce : SendLink := ⟨⟨[.wrote 4095], .ok ()⟩, none, []⟩

/-- Nothing comes before `now`, when the wait is over. -/
def nothingUntil (now : Int) : LinkEnv :=
  ⟨⟨[⟨now, .timeout⟩], 0, [], 0, [], .ok [], 0, 0⟩, []⟩

/-- A frame of up to 80 bytes comes at `now`, byte by byte. -/
def comesAt (now : Int) : LinkEnv :=
  ⟨⟨[⟨now, .ready⟩], now, [.data 0], now, List.replicate 80 ⟨now, .ready, .data 0⟩, .ok [], now,
    now⟩, []⟩

/-- With nothing to read the wait is overdue. -/
theorem nothingUntil_overdue (now : Int) : Overdue now (nothingUntil now).env.waits :=
  ⟨[], _, [], rfl, by simp, .inl (Int.le_refl now)⟩

/-- A request at `start`, each receive of which is one of these. -/
def linkAt (start : Int) (links : List LinkEnv) : RequestLink :=
  ⟨0, start, sentAtOnce, links.map ([·])⟩

/-- A wait of a millisecond is long enough for it. -/
theorem comesAt_inTime (now : Int) {n : Nat} (hn : n ≤ 80) :
    InTime (some (now + millisecond)) n (comesAt now).env := by
  have hremaining : now + millisecond - now = millisecond := by omega
  have htimeout : frameTimeout (some (now + millisecond)) (comesAt now).env = 1 := by
    show toInt32 (if (now + millisecond - now).tdiv millisecond < 1 then 1
      else (now + millisecond - now).tdiv millisecond) = 1
    rw [hremaining]
    decide
  refine ⟨?_, ?_⟩
  · intro d hd
    cases hd
    exact ⟨[], _, [], rfl, by simp, by simp [millisecond], rfl⟩
  · rw [htimeout]
    refine ⟨⟨by simp [comesAt, ReadResult.progress], by simp [comesAt, ReadResult.progress]⟩, ?_,
      ?_, ?_⟩
    · intro tick htick
      obtain rfl := List.eq_of_mem_replicate htick
      simp [comesAt, millisecond]
    · intro tick htick
      obtain rfl := List.eq_of_mem_replicate htick
      exact .inr ⟨rfl, .inr rfl⟩
    · exact hn.trans (by simp [comesAt, Tick.progress, ReadResult.progress])

end Endpoint

end Vynkor
