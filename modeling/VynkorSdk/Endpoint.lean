import VynkorSdk.Deadlines

/-!
# The endpoint of a connection

A client with its connection underneath: the receive loop of the client, with
the WebSocket receive loop below it where there is one.  A receive takes wire
frames off what is on its way.  As long as no deadline passes in the middle of a
message it takes whole ones, whatever it returns (`recvFrameWith_paced`).
-/

namespace Vynkor

open ByteCodec KeyedTable Procedure

/-- A client with the WebSocket connection underneath it. -/
structure Endpoint where
  client : Client
  impl : WsImpl := {}

/-- What the environment does while one wire frame is received, on the socket
or in `receive_binary_deadline`. -/
structure LinkEnv where
  env : FrameEnv
  runs : List WsImpl.FrameRun := []

/-- A wire frame: its bytes and what they parse to. -/
structure Packet where
  bytes : Bytes
  frame : FrameResult

/-- The packet as `absorb_fragment` would get it in this environment. -/
def LinkEnv.call (link : LinkEnv) (p : Packet) : AbsorbCall :=
  ⟨link.env.absorbNow, link.env.absorbSeen, p.frame⟩

namespace Endpoint

open Client

def setClient (c : Client) (e : Endpoint) : Endpoint := { e with client := c }

def setImpl (impl : WsImpl) (e : Endpoint) : Endpoint := { e with impl := impl }

/-- What a call on the connection returns or throws. -/
def onStream {α : Type} (p : Proc Exn WsImpl α) : Proc Exn Endpoint (Except Exn α) :=
  tryCatch
    (do
      let a ← zoom impl setImpl p
      return .ok a)
    (fun error => pure (.error error))

/-- What runs on the stream leaves the client as it is. -/
theorem exec_onStream {α : Type} (p : Proc Exn WsImpl α) (e : Endpoint) :
    exec (onStream p) e = (exec p e.impl).map (fun out => (.ok out.1, e.setImpl out.2)) := by
  rw [onStream, exec_tryCatch, exec_bind, exec_zoom]
  cases exec p e.impl with
  | none => rfl
  | some out =>
      obtain ⟨error | a, impl⟩ := out
      · rfl
      · rfl

variable (lib : WireLibs) (proto : ProtoLib)

/-- One round of `recv_frame` or `recv_frame_with_deadline`; no deadline is
`time_point::max()`. -/
def recvStep (deadline : Option Int) (link : LinkEnv) : Proc Exn Endpoint (Option FrameResult) := do
  let e ← get
  if e.client.ws.isSome then do
    let message ← onStream (WsImpl.receiveBinaryDeadline deadline link.runs)
    zoom client setClient (Client.recvStep lib deadline { link.env with message := message })
  else
    zoom client setClient (Client.recvStep lib deadline link.env)

def recvFrameWith (deadline : Option Int) : List LinkEnv → Proc Exn Endpoint FrameResult
  | [] => waiting
  | link :: links => do
      let complete ← recvStep lib deadline link
      match complete with
      | none => recvFrameWith deadline links
      | some result => pure result

def recvTimeout (timeoutMs now : Int) (links : List LinkEnv) : Proc Exn Endpoint Envelope := do
  let result ← recvFrameWith lib (some (recvDeadline timeoutMs now)) links
  settle (decodeFrame proto result)

/-- On the WebSocket the client gets what the connection underneath returns. -/
theorem exec_recvStep_webSocket {deadline : Option Int} {link : LinkEnv} {e : Endpoint}
    (hws : e.client.ws.isSome) :
    exec (recvStep lib deadline link) e =
      (exec (WsImpl.receiveBinaryDeadline deadline link.runs) e.impl).bind (fun out =>
        (exec (Client.recvStep lib deadline { link.env with message := out.1 }) e.client).map
          (fun r => (r.1, ⟨r.2, out.2⟩))) := by
  rw [recvStep, exec_bind_ok (exec_get _), if_pos hws, exec_bind, exec_onStream]
  cases exec (WsImpl.receiveBinaryDeadline deadline link.runs) e.impl with
  | none => rfl
  | some out => rfl

/-- On the socket it is the client's round. -/
theorem exec_recvStep_socket {deadline : Option Int} {link : LinkEnv} {e : Endpoint}
    (hws : e.client.ws = none) :
    exec (recvStep lib deadline link) e =
      (exec (Client.recvStep lib deadline link.env) e.client).map
        (fun r => (r.1, ⟨r.2, e.impl⟩)) := by
  rw [recvStep, exec_bind_ok (exec_get _), hws]
  rfl

/-- A round is a round of the client, with a message from the connection. -/
theorem recvStep_client (deadline : Option Int) (link : LinkEnv) (e : Endpoint) :
    exec (recvStep lib deadline link) e = none ∨
      ∃ env, (exec (recvStep lib deadline link) e).map (fun r => (r.1, r.2.client)) =
        exec (Client.recvStep lib deadline env) e.client := by
  cases hws : e.client.ws with
  | none =>
      refine .inr ⟨link.env, ?_⟩
      rw [exec_recvStep_socket lib hws]
      cases exec (Client.recvStep lib deadline link.env) e.client <;> rfl
  | some ws =>
      rw [exec_recvStep_webSocket lib (by rw [hws]; rfl)]
      cases exec (WsImpl.receiveBinaryDeadline deadline link.runs) e.impl with
      | none => exact .inl rfl
      | some out =>
          refine .inr ⟨{ link.env with message := out.1 }, ?_⟩
          rw [Option.bind_some]
          cases exec (Client.recvStep lib deadline { link.env with message := out.1 })
            e.client <;> rfl

/-- The loop is its rounds. -/
theorem exec_recvFrameWith_cons (deadline : Option Int) (link : LinkEnv) (links : List LinkEnv)
    (e : Endpoint) :
    exec (recvFrameWith lib deadline (link :: links)) e =
      match exec (recvStep lib deadline link) e with
      | none => none
      | some (.error error, e') => some (.error error, e')
      | some (.ok none, e') => exec (recvFrameWith lib deadline links) e'
      | some (.ok (some r), e') => some (.ok r, e') := by
  rw [recvFrameWith, exec_bind]
  cases exec (recvStep lib deadline link) e with
  | none => rfl
  | some out =>
      obtain ⟨error | complete, e'⟩ := out
      · rfl
      · cases complete <;> rfl

/-- **The client's receive loop** is what runs here; the endpoint only says
where its messages come from. -/
theorem recvFrameWith_client (deadline : Option Int) :
    ∀ (links : List LinkEnv) (e : Endpoint), ∃ envs,
      (exec (recvFrameWith lib deadline links) e).map (fun r => (r.1, r.2.client)) =
        exec (Client.recvFrameWith lib deadline envs) e.client := by
  intro links
  induction links with
  | nil =>
      intro e
      exact ⟨[], rfl⟩
  | cons link links ih =>
      intro e
      rw [exec_recvFrameWith_cons]
      obtain hwait | ⟨env, hround⟩ := recvStep_client lib deadline link e
      · rw [hwait]
        exact ⟨[], rfl⟩
      cases hstep : exec (recvStep lib deadline link) e with
      | none => exact ⟨[], rfl⟩
      | some out =>
          rw [hstep, Option.map_some] at hround
          obtain ⟨error | complete, e'⟩ := out
          · refine ⟨[env], ?_⟩
            rw [Client.exec_recvFrameWith_cons, ← hround]
            rfl
          · cases complete with
            | none =>
                obtain ⟨envs, hrest⟩ := ih e'
                refine ⟨env :: envs, ?_⟩
                rw [Client.exec_recvFrameWith_cons, ← hround]
                exact hrest
            | some r =>
                refine ⟨[env], ?_⟩
                rw [Client.exec_recvFrameWith_cons, ← hround]
                rfl

/-- What is done with the result on both levels keeps them together. -/
theorem client_bind_settle {α β : Type} {p : Proc Exn Endpoint α} {q : Proc Exn Client α}
    {e : Endpoint} (f : α → Except Exn β)
    (h : (exec p e).map (fun r => (r.1, r.2.client)) = exec q e.client) :
    (exec (p >>= fun a => settle (f a)) e).map (fun r => (r.1, r.2.client)) =
      exec (q >>= fun a => settle (f a)) e.client := by
  rw [exec_bind_settle, exec_bind_settle, ← h, Option.map_map, Option.map_map]
  rfl

/-- **The client's `recv_timeout`**, with messages from the connection. -/
theorem recvTimeout_client (timeoutMs now : Int) (links : List LinkEnv) (e : Endpoint) :
    ∃ envs, (exec (recvTimeout lib proto timeoutMs now links) e).map
        (fun r => (r.1, r.2.client)) =
      exec (Client.recvTimeout lib proto timeoutMs now envs) e.client := by
  obtain ⟨envs, hloop⟩ := recvFrameWith_client lib (some (recvDeadline timeoutMs now)) links e
  exact ⟨envs, client_bind_settle (decodeFrame proto) hloop⟩

end Endpoint

/-- `recv_timeout` is the rounds of its receive loop. -/
theorem Client.exec_recvTimeout_cons (lib : WireLibs) (proto : ProtoLib) (timeoutMs now : Int)
    (env : FrameEnv) (envs : List FrameEnv) (c : Client) :
    exec (Client.recvTimeout lib proto timeoutMs now (env :: envs)) c =
      match exec (recvStep lib (some (recvDeadline timeoutMs now)) env) c with
      | none => none
      | some (.error error, c') => some (.error error, c')
      | some (.ok none, c') => exec (Client.recvTimeout lib proto timeoutMs now envs) c'
      | some (.ok (some r), c') => some (decodeFrame proto r, c') := by
  rw [Client.recvTimeout, exec_bind, Client.recvFrameWithDeadline, exec_recvFrameWith_cons]
  cases exec (recvStep lib (some (recvDeadline timeoutMs now)) env) c with
  | none => rfl
  | some out =>
      obtain ⟨error | complete, c'⟩ := out
      · rfl
      · cases complete with
        | none => exact (exec_bind _ _ _).symm
        | some r => rfl

namespace Endpoint

open Client

variable (lib : WireLibs) (proto : ProtoLib)

/-! ### What is on its way -/

/-- All that comes on the endpoint's connection are these packets, each valid
under the session key; on a WebSocket control and text frames may stand among
and behind them. -/
inductive OnTheWay (packets : List Packet) (e : Endpoint) : Prop
  | socket (hws : e.client.ws = none) (hfd : e.client.fd.isSome)
      (hinbound : e.client.inbound = (packets.map Packet.bytes).flatten)
      (hparse : ∀ p ∈ packets,
        parseFrameBytes lib p.bytes e.client.sessionKey = .ok (p.frame, p.bytes.length))
  | webSocket (hws : e.client.ws.isSome) (messages : List WsMessage) (tail : List ServerFrame)
      (hahead : e.impl.ahead = WsImpl.wireBytes (messages.flatMap WsMessage.frames ++ tail))
      (hbounded : ∀ m ∈ messages, m.Bounded)
      (htail : ∀ f ∈ tail, f.IsInsert ∧ f.bytes.length ≤ wsMaxMessageSize)
      (hcontent : messages.map WsMessage.content = packets.map Packet.bytes)
      (hparse : ∀ p ∈ packets,
        ∃ n, parseFrameBytes lib p.bytes e.client.sessionKey = .ok (p.frame, n))

/-- No deadline passes in the middle of a message: on the socket it passes in
the wait for the first byte of a wire frame or not at all, on the WebSocket it
passes before the first data frame of a message or not at all. -/
inductive Untorn (deadline : Option Int) (link : LinkEnv) (e : Endpoint) : Prop
  | idle {d : Int} (hdeadline : deadline = some d) (hws : e.client.ws = none)
      (hoverdue : Overdue d link.env.waits)
  | whole (hws : e.client.ws = none)
      (htime : InTime deadline (frameExtent e.client.inbound) link.env)
  | message (hws : e.client.ws.isSome)
      (hcalm : ∀ run ∈ link.runs, WsImpl.CalmRun deadline run)
      (hsteady : ∀ run ∈ link.runs.drop (WsImpl.leadIn e.impl.ahead), SteadyRun deadline run)
      (henough : WsImpl.messageSpan e.impl.ahead ≤ link.runs.length)

/-- The deadline does not pass at all. -/
structure Punctual (deadline : Option Int) (link : LinkEnv) : Prop where
  waits : ∀ d, deadline = some d → ¬ Overdue d link.env.waits
  runs : ∀ run ∈ link.runs, SteadyRun deadline run

variable {lib proto}

/-- Fragments in the table are not on their way any more. -/
theorem OnTheWay.of_table {packets : List Packet} {e : Endpoint} (h : OnTheWay lib packets e)
    (t : ReassemblyTable) :
    OnTheWay lib packets { e with client := { e.client with reassembly := t } } := by
  cases h with
  | socket hws hfd hinbound hparse => exact .socket hws hfd hinbound hparse
  | webSocket hws messages tail hahead hbounded htail hcontent hparse =>
      exact .webSocket hws messages tail hahead hbounded htail hcontent hparse

/-- The header in front says how long the frame in front is. -/
theorem frameExtent_append {f rest : Bytes} (h : SelfDelimited f) :
    frameExtent (f ++ rest) = f.length := by
  have hheader := h.header_le
  simp only [frameHeaderSize] at hheader
  rw [← h.extent_eq]
  unfold frameExtent lengthField flagsField
  rw [slice_append_left (by omega), slice_append_left (by omega)]

/-- A deadline that passes in the wait for a frame on the socket changes
nothing. -/
theorem readTransportFrame_overdue {deadline : Int} {env : FrameEnv} {c : Client}
    (hws : c.ws = none) (hfd : c.fd.isSome) (hoverdue : Overdue deadline env.waits) :
    exec (readTransportFrame lib (some deadline) env) c = some (.error .timeout, c) := by
  have hsame : c.setInbound c.inbound = c := by
    obtain ⟨sock, hsock⟩ := Option.isSome_iff_exists.mp hfd
    unfold setInbound inbound
    rw [hsock, Option.map_some, Option.map_some, Option.getD_some, ← hsock]
  have hread : exec (readFrameFullWithDeadline lib c.sessionKey deadline env) c.inbound =
      some (.error .timeout, c.inbound) := exec_bind_error (awaitReadable_overdue _ _ hoverdue)
  have hactive : exec (readActiveFrame lib (some deadline) env) c = some (.error .timeout, c) := by
    rw [readActiveFrame, exec_bind_ok (exec_get _), hws]
    show exec (readSocketFrame lib (some deadline) env) c = _
    rw [readSocketFrame, exec_bind_ok (exec_get _), exec_zoom, if_pos hfd]
    dsimp only
    rw [hread, Option.map_some, hsame]
  rw [readTransportFrame, exec_bind_ok (exec_get _), exec_bind_error hactive]

/-- On a socket with nothing to read the call waits. -/
theorem readTransportFrame_empty {deadline : Option Int} {env : FrameEnv} {c : Client} {n : Nat}
    (hws : c.ws = none) (hfd : c.fd.isSome) (hempty : c.inbound = [])
    (htime : InTime deadline n env) :
    exec (readTransportFrame lib deadline env) c = none := by
  have hframe : ∀ timeoutMs, exec (readFrameFullWithTimeout lib c.sessionKey timeoutMs env) [] =
      none := by
    intro timeoutMs
    rw [readFrameFullWithTimeout, exec_bind, recvExact_empty 0 [] _ htime.2.first.sound]
  have hread : exec (readSocketFrame lib deadline env) c = none := by
    rw [readSocketFrame, exec_bind_ok (exec_get _), exec_zoom, if_pos hfd, hempty]
    cases deadline with
    | none =>
        dsimp only
        rw [readFrameFull, hframe]
        rfl
    | some d =>
        dsimp only
        rw [readFrameFullWithDeadline, exec_bind_ok (awaitReadable_inTime _ _ (htime.1 d rfl))]
        exact congrArg (Option.map _) (hframe _)
  have hactive : exec (readActiveFrame lib deadline env) c = none := by
    rw [readActiveFrame, exec_bind_ok (exec_get _), hws]
    exact hread
  rw [readTransportFrame, exec_bind_ok (exec_get _), exec_bind, hactive]

/-- **One round on the socket**: the frame in front. -/
theorem recvStep_socket {deadline : Option Int} {link : LinkEnv} {p : Packet} {ps : List Packet}
    {e : Endpoint} (hws : e.client.ws = none) (hfd : e.client.fd.isSome)
    (hinbound : e.client.inbound = ((p :: ps).map Packet.bytes).flatten)
    (hparse : ∀ q ∈ p :: ps,
      parseFrameBytes lib q.bytes e.client.sessionKey = .ok (q.frame, q.bytes.length))
    (htime : InTime deadline (frameExtent e.client.inbound) link.env) :
    ∃ e', exec (recvStep lib deadline link) e =
        some ((accept (link.call p) e.client.reassembly).1, e') ∧
      e'.client.reassembly = (accept (link.call p) e.client.reassembly).2 ∧ OnTheWay lib ps e' := by
  have hfront := hparse p (by simp)
  rw [List.map_cons, List.flatten_cons] at hinbound
  rw [hinbound, frameExtent_append (selfDelimited_of_parse hfront)] at htime
  have hread : exec (readTransportFrame lib deadline link.env) e.client = some (.ok p.frame,
      hear e.client.sessionKey p.frame (e.client.setInbound (ps.map Packet.bytes).flatten)) :=
    readTransportFrame_socket (w := ⟨p.bytes, p.frame, link.env⟩) hws hfd hinbound hfront htime
  rw [exec_recvStep_socket lib hws, recvStep_of_read hread rfl]
  obtain ⟨sock, hsock⟩ := Option.isSome_iff_exists.mp hfd
  refine ⟨_, rfl, rfl, ?_⟩
  exact .socket hws (by simp [hear, setInbound, hsock])
    (by simp [inbound, hear, setInbound, hsock])
    (fun q hq => hparse q (List.mem_cons_of_mem _ hq))

/-- **One round on the WebSocket**, for a message that has come. -/
theorem recvStep_webSocket {deadline : Option Int} {link : LinkEnv} {p : Packet} {e : Endpoint}
    {impl : WsImpl} {n : Nat} (hws : e.client.ws.isSome)
    (hmessage : exec (WsImpl.receiveBinaryDeadline deadline link.runs) e.impl =
      some (.ok p.bytes, impl))
    (hparse : parseFrameBytes lib p.bytes e.client.sessionKey = .ok (p.frame, n)) :
    exec (recvStep lib deadline link) e =
      some ((accept (link.call p) e.client.reassembly).1,
        ⟨{ hear e.client.sessionKey p.frame e.client with
            reassembly := (accept (link.call p) e.client.reassembly).2 }, impl⟩) := by
  have hread : exec (readTransportFrame lib deadline
      { link.env with message := .ok p.bytes }) e.client =
        some (.ok p.frame, hear e.client.sessionKey p.frame e.client) :=
    readTransportFrame_webSocket (w := ⟨p.bytes, p.frame, { link.env with message := .ok p.bytes }⟩)
      deadline hws rfl hparse
  rw [exec_recvStep_webSocket lib hws, hmessage, Option.bind_some, recvStep_of_read hread rfl]
  rfl

/-- A deadline that passes in the connection passes in the client. -/
theorem recvStep_webSocket_timeout {deadline : Option Int} {link : LinkEnv} {e : Endpoint}
    {impl : WsImpl} (hws : e.client.ws.isSome)
    (hmessage : exec (WsImpl.receiveBinaryDeadline deadline link.runs) e.impl =
      some (.error .timeout, impl)) :
    exec (recvStep lib deadline link) e = some (.error .timeout, ⟨e.client, impl⟩) := by
  have hactive : exec (readActiveFrame lib deadline
      { link.env with message := .error .timeout }) e.client =
        some (.error .timeout, e.client) := by
    rw [readActiveFrame, exec_bind_ok (exec_get _), if_pos hws]
    rfl
  have hread : exec (readTransportFrame lib deadline
      { link.env with message := .error .timeout }) e.client =
        some (.error .timeout, e.client) := by
    rw [readTransportFrame, exec_bind_ok (exec_get _), exec_bind_error hactive]
  rw [exec_recvStep_webSocket lib hws, hmessage, Option.bind_some, Client.recvStep,
    exec_bind_error hread]
  rfl

/-- **One round.**  It waits for packets that do not come, or the deadline
passes and all packets stay on their way, or the one in front is accepted. -/
theorem recvStep_untorn {deadline : Option Int} {link : LinkEnv} {packets : List Packet}
    {e : Endpoint} (h : OnTheWay lib packets e) (hlink : Untorn deadline link e) :
    (packets = [] ∧ exec (recvStep lib deadline link) e = none) ∨
    (∃ e', exec (recvStep lib deadline link) e = some (.error .timeout, e') ∧
      e'.client.reassembly = e.client.reassembly ∧ OnTheWay lib packets e' ∧
      ¬ Punctual deadline link) ∨
    ∃ p ps e', packets = p :: ps ∧ exec (recvStep lib deadline link) e =
        some ((accept (link.call p) e.client.reassembly).1, e') ∧
      e'.client.reassembly = (accept (link.call p) e.client.reassembly).2 ∧
      OnTheWay lib ps e' := by
  cases h with
  | socket hws hfd hinbound hparse =>
      cases hlink with
      | idle hdeadline _ hoverdue =>
          subst hdeadline
          refine .inr (.inl ⟨e, ?_, rfl, .socket hws hfd hinbound hparse,
            fun h => h.waits _ rfl hoverdue⟩)
          rw [exec_recvStep_socket lib hws, Client.recvStep,
            exec_bind_error (readTransportFrame_overdue hws hfd hoverdue)]
          rfl
      | whole _ htime =>
          rcases packets with _ | ⟨p, ps⟩
          · left
            refine ⟨rfl, ?_⟩
            rw [exec_recvStep_socket lib hws, Client.recvStep, exec_bind,
              readTransportFrame_empty hws hfd hinbound htime]
            rfl
          · obtain ⟨e', hround⟩ := recvStep_socket hws hfd hinbound hparse htime
            exact .inr (.inr ⟨p, ps, e', rfl, hround⟩)
      | message hws' =>
          rw [hws] at hws'
          cases hws'
  | webSocket hws messages tail hahead hbounded htail hcontent hparse =>
      cases hlink with
      | idle _ hws' => rw [hws'] at hws; cases hws
      | whole hws' => rw [hws'] at hws; cases hws
      | message _ hcalm hsteady henough =>
          rcases messages with _ | ⟨m, ms⟩
          -- Only control and text frames are left.
          · obtain rfl : packets = [] := by simpa using hcontent.symm
            obtain hwaits | ⟨j, impl, hexec, hleft, hdue⟩ :=
              WsImpl.receiveLoop_calm_tail {} tail link.runs e.impl htail hcalm hahead
            · left
              refine ⟨rfl, ?_⟩
              rw [exec_recvStep_webSocket lib hws, WsImpl.receiveBinaryDeadline, hwaits]
              rfl
            · refine .inr (.inl ⟨_, recvStep_webSocket_timeout hws hexec, rfl, ?_,
                fun hpunctual => hdue.not_steady hpunctual.runs⟩)
              exact .webSocket hws [] (tail.drop j) hleft hbounded
                (fun f hf => htail f (List.mem_of_mem_drop hf)) hcontent hparse
          rcases packets with _ | ⟨p, ps⟩
          · simp at hcontent
          obtain ⟨hm, hms⟩ := List.cons.inj hcontent
          have hmBounded := hbounded m (by simp)
          rw [List.flatMap_cons, List.append_assoc, WsImpl.wireBytes_append] at hahead
          rw [hahead, WsImpl.leadIn_message hmBounded] at hsteady
          rw [hahead, WsImpl.messageSpan_message hmBounded] at henough
          obtain ⟨impl, hexec, hleft⟩ | ⟨j, impl, hexec, hleft, hdue⟩ :=
            WsImpl.receiveBinaryDeadline_calm hmBounded hcalm hsteady henough hahead
          · obtain ⟨n, hfront⟩ := hparse p (by simp)
            rw [hm] at hexec
            refine .inr (.inr ⟨p, ps, _, rfl, recvStep_webSocket hws hexec hfront, rfl, ?_⟩)
            exact .webSocket hws ms tail hleft
              (fun m' hm' => hbounded m' (List.mem_cons_of_mem _ hm')) htail hms
              (fun q hq => hparse q (List.mem_cons_of_mem _ hq))
          · refine .inr (.inl ⟨_, recvStep_webSocket_timeout hws hexec, rfl, ?_,
              fun hpunctual => hdue.not_steady hpunctual.runs⟩)
            refine .webSocket hws (m.skip j :: ms) tail ?_ ?_ htail hcontent hparse
            · rw [hleft, List.flatMap_cons, List.append_assoc, ← WsImpl.wireBytes_append]
            · intro m' hm'
              rcases List.mem_cons.mp hm' with rfl | hm'
              · exact hmBounded.skip j
              · exact hbounded m' (List.mem_cons_of_mem _ hm')

/-! ### What a receive returns -/

/-- The table after wire frames. -/
def tableOn : List AbsorbCall → ReassemblyTable → ReassemblyTable
  | [], t => t
  | call :: calls, t => tableOn calls (accept call t).2

/-- What the receive loop returns on wire frames, and what it throws. -/
def framesOn : List AbsorbCall → ReassemblyTable → List (Except Exn FrameResult)
  | [], _ => []
  | call :: calls, t => (ended (accept call t).1).toList ++ framesOn calls (accept call t).2

/-- The table after two stretches of calls. -/
theorem tableOn_append : ∀ (calls calls' : List AbsorbCall) (t : ReassemblyTable),
    tableOn (calls ++ calls') t = tableOn calls' (tableOn calls t) := by
  intro calls
  induction calls with
  | nil => simp [tableOn]
  | cons call calls ih => simp [tableOn, ih]

/-- The frames of two stretches of calls, the second on the table the first leaves. -/
theorem framesOn_append : ∀ (calls calls' : List AbsorbCall) (t : ReassemblyTable),
    framesOn (calls ++ calls') t = framesOn calls t ++ framesOn calls' (tableOn calls t) := by
  intro calls
  induction calls with
  | nil => simp [framesOn, tableOn]
  | cons call calls ih => simp [framesOn, tableOn, ih]

variable (lib) in
/-- From `e` to `e'` the receives took these wire frames off the front of what
was on its way, in the environments of some of their rounds; all other packets
are still on their way. -/
structure Took (packets : List Packet) (links : List LinkEnv) (e : Endpoint)
    (taken : List AbsorbCall) (e' : Endpoint) : Prop where
  front : taken.map AbsorbCall.frame = (packets.take taken.length).map Packet.frame
  clocks : (taken.map (fun call => (call.now, call.seen))).Sublist
    (links.map (fun link => (link.env.absorbNow, link.env.absorbSeen)))
  left : OnTheWay lib (packets.drop taken.length) e'
  table : e'.client.reassembly = tableOn taken e.client.reassembly

section Took

variable {packets : List Packet} {links links' : List LinkEnv} {e e₁ e' : Endpoint}
  {taken taken' : List AbsorbCall}

/-- Two stretches of calls take consecutive packets. -/
theorem Took.trans (h : Took lib packets links e taken e₁)
    (h' : Took lib (packets.drop taken.length) links' e₁ taken' e') :
    Took lib packets (links ++ links') e (taken ++ taken') e' where
  front := by
    rw [List.map_append, h.front, h'.front, List.length_append, ← List.map_append, List.take_add]
  clocks := by
    rw [List.map_append, List.map_append]
    exact h.clocks.append h'.clocks
  left := by
    have hleft := h'.left
    rwa [List.drop_drop, ← List.length_append] at hleft
  table := by rw [h'.table, h.table, tableOn_append]

/-- More rounds than the frames were taken in. -/
theorem Took.mono (h : Took lib packets links e taken e') (hlinks : links.Sublist links') :
    Took lib packets links' e taken e' :=
  ⟨h.front, h.clocks.trans (hlinks.map _), h.left, h.table⟩

/-- Nothing taken. -/
theorem Took.nothing (links : List LinkEnv) (htable : e'.client.reassembly = e.client.reassembly)
    (hleft : OnTheWay lib packets e') : Took lib packets links e [] e' where
  front := rfl
  clocks := by simp
  left := hleft
  table := htable

/-- One packet taken. -/
theorem Took.one {p : Packet} {link : LinkEnv}
    (htable : e'.client.reassembly = (accept (link.call p) e.client.reassembly).2)
    (hleft : OnTheWay lib packets e') :
    Took lib (p :: packets) [link] e [link.call p] e' where
  front := rfl
  clocks := by simp [LinkEnv.call]
  left := hleft
  table := htable

/-- The wire frames are all the packets there are, each taken in a round of its
own. -/
structure TookAll (packets : List Packet) (links : List LinkEnv) (taken : List AbsorbCall) :
    Prop where
  all : taken.map AbsorbCall.frame = packets.map Packet.frame
  clocks : (taken.map (fun call => (call.now, call.seen))).Sublist
    (links.map (fun link => (link.env.absorbNow, link.env.absorbSeen)))

/-- One more packet taken in front. -/
theorem TookAll.cons {p : Packet} {link : LinkEnv} (h : TookAll packets links taken) :
    TookAll (p :: packets) (link :: links) (link.call p :: taken) where
  all := by rw [List.map_cons, List.map_cons, h.all]; rfl
  clocks := h.clocks.cons_cons _

/-- More rounds than the frames were taken in. -/
theorem TookAll.mono (h : TookAll packets links taken) (hlinks : links.Sublist links') :
    TookAll packets links' taken :=
  ⟨h.all, h.clocks.trans (hlinks.map _)⟩

/-- What was taken first and all of the rest. -/
theorem Took.all (h : Took lib packets links e taken e₁)
    (h' : TookAll (packets.drop taken.length) links' taken') :
    TookAll packets (links ++ links') (taken ++ taken') where
  all := by
    rw [List.map_append, h.front, h'.all, ← List.map_append, List.take_append_drop]
  clocks := by
    rw [List.map_append, List.map_append]
    exact h.clocks.append h'.clocks

end Took

variable (lib) in
/-- Every round of the receive that starts meets the condition, up to the one
that ends it. -/
def Paced (deadline : Option Int) : List LinkEnv → Endpoint → Prop
  | [], _ => False
  | link :: links, e =>
      Untorn deadline link e ∧
        ∀ e', exec (recvStep lib deadline link) e = some (.ok none, e') → Paced deadline links e'

/-- **One receive.**  It takes all packets, finds no whole message in them and
waits; or it takes some and returns what they amount to; or its deadline passes
on the way to that. -/
theorem recvFrameWith_paced {deadline : Option Int} :
    ∀ (links : List LinkEnv) (packets : List Packet) (e : Endpoint), OnTheWay lib packets e →
      Paced lib deadline links e →
      (exec (recvFrameWith lib deadline links) e = none ∧
        ∃ taken, TookAll packets links taken ∧ framesOn taken e.client.reassembly = []) ∨
      ∃ taken r e', exec (recvFrameWith lib deadline links) e = some (r, e') ∧
        Took lib packets links e taken e' ∧
        (r = .error .timeout ∧ framesOn taken e.client.reassembly = [] ∧
            (¬ ∀ link ∈ links, Punctual deadline link) ∨
          framesOn taken e.client.reassembly = [r]) := by
  intro links
  induction links with
  | nil =>
      intro packets e _ hpaced
      cases hpaced
  | cons link links ih =>
      intro packets e hway hpaced
      obtain ⟨huntorn, hnext⟩ := hpaced
      rw [exec_recvFrameWith_cons]
      obtain ⟨rfl, hstep⟩ | ⟨e', hstep, htable, hleft, hlate⟩ |
        ⟨p, ps, e', rfl, hstep, htable, hleft⟩ := recvStep_untorn hway huntorn
      · left
        rw [hstep]
        exact ⟨rfl, [], ⟨rfl, List.nil_sublist _⟩, rfl⟩
      · refine .inr ⟨[], .error .timeout, e', by rw [hstep], .nothing _ htable hleft,
          .inl ⟨rfl, rfl, fun hpunctual => hlate (hpunctual link (by simp))⟩⟩
      have hone : Took lib (p :: ps) [link] e [link.call p] e' := .one htable hleft
      have hframes : framesOn [link.call p] e.client.reassembly =
          (ended (accept (link.call p) e.client.reassembly).1).toList := by simp [framesOn]
      rw [hstep]
      cases hacc : (accept (link.call p) e.client.reassembly).1 with
      | error error =>
          rw [hacc] at hframes
          exact .inr ⟨[link.call p], .error error, e', rfl, hone.mono (by simp), .inr hframes⟩
      | ok complete =>
          cases complete with
          | some result =>
              rw [hacc] at hframes
              exact .inr ⟨[link.call p], .ok result, e', rfl, hone.mono (by simp), .inr hframes⟩
          | none =>
              rw [hacc] at hframes
              have hskip : ∀ taken, framesOn (link.call p :: taken) e.client.reassembly =
                  framesOn taken e'.client.reassembly := by
                intro taken
                rw [framesOn, hacc, htable]
                rfl
              obtain ⟨hwaits, taken, hall, hnone⟩ | ⟨taken, r, e'', hexec, htaken, hends⟩ :=
                ih ps e' hleft (hnext e' (by rw [hstep, hacc]))
              · exact .inl ⟨hwaits, link.call p :: taken, hall.cons, (hskip taken).trans hnone⟩
              · refine .inr ⟨link.call p :: taken, r, e'', hexec, hone.trans htaken, ?_⟩
                rw [hskip]
                exact hends.imp_left (fun ⟨hr, hnone, hlate⟩ => ⟨hr, hnone,
                  fun hpunctual => hlate (fun l hl => hpunctual l (List.mem_cons_of_mem _ hl))⟩)

/-! ### Frames that are messages -/

/-- On the socket a round that reads the frame in front in time is not torn. -/
theorem OnTheWay.untorn {deadline : Option Int} {link : LinkEnv} {p : Packet} {ps : List Packet}
    {e : Endpoint} (h : OnTheWay lib (p :: ps) e) (hws : e.client.ws = none)
    (htime : InTime deadline p.bytes.length link.env) : Untorn deadline link e := by
  cases h with
  | socket _ _ hinbound hparse =>
      refine .whole hws ?_
      have hfront := selfDelimited_of_parse (hparse p (by simp))
      rw [hinbound, List.map_cons, List.flatten_cons, frameExtent_append hfront]
      exact htime
  | webSocket hws' =>
      rw [hws] at hws'
      cases hws'

/-- A frame without fragments ends the receive. -/
theorem paced_whole {deadline : Option Int} {link : LinkEnv} {p : Packet} {ps : List Packet}
    {e : Endpoint} (hway : OnTheWay lib (p :: ps) e)
    (hwhole : hasFlag p.frame.flags flagFragmented = false) (huntorn : Untorn deadline link e) :
    Paced lib deadline [link] e := by
  refine ⟨huntorn, ?_⟩
  intro e' hstep
  have haccept : (accept (link.call p) e.client.reassembly).1 = .ok (some p.frame) := by
    have hflags : ¬ hasFlag (link.call p).frame.flags flagFragmented = true := by
      show ¬ hasFlag p.frame.flags flagFragmented = true
      simp [hwhole]
    rw [accept, if_neg hflags]
    rfl
  obtain ⟨hnone, _⟩ | ⟨_, hexec, _⟩ | ⟨q, _, _, hfront, hexec, _⟩ := recvStep_untorn hway huntorn
  · cases hnone
  · rw [hstep] at hexec
    cases hexec
  · obtain ⟨rfl, rfl⟩ := List.cons.inj hfront
    rw [hstep, haccept] at hexec
    cases hexec

/-- Frames without fragments are returned one by one. -/
theorem framesOn_whole : ∀ (calls : List AbsorbCall) (t : ReassemblyTable),
    (∀ call ∈ calls, hasFlag call.frame.flags flagFragmented = false) →
    framesOn calls t = calls.map (fun call => .ok call.frame) := by
  intro calls
  induction calls with
  | nil => exact fun _ _ => rfl
  | cons call calls ih =>
      intro t hwhole
      have hflags : ¬ hasFlag call.frame.flags flagFragmented = true := by
        simp [hwhole call (by simp)]
      rw [framesOn, accept, if_neg hflags]
      exact congrArg _ (ih t (fun other hother => hwhole other (List.mem_cons_of_mem _ hother)))

end Endpoint

end Vynkor
