import VynkorSdk.Inbox
import VynkorSdk.Requests

/-!
# A request and the frames that come in

`waitOn` is the waiting loop of `publish_event` and `send_action` as a function
of the wire frames that arrive and the reassembly table they meet.  On a
connection that stays up the calls end as it says (`exchange_outcome`), and
`decodedOn` are the messages they hand to the protobuf parser on the way.
-/

namespace Vynkor

open ByteCodec Procedure

namespace Client

variable (lib : WireLibs) (proto : ProtoLib)

/-! ### The wait on wire frames -/

/-- What a request makes of one round of the receive loop: it ends, or it goes
on.  `finish` is the code behind the wait. -/
def verdict {α : Type} (isTerminal : Envelope → Bool) (finish : Envelope → Except Exn α) :
    Except Exn (Option FrameResult) → Option (Except Exn α)
  | .error e => some (.error e)
  | .ok none => none
  | .ok (some r) =>
      match proto.parse r.payload with
      | none => some (.error (.proto (ascii "protobuf parse failed")))
      | some env => if isTerminal env then some (finish env) else none

/-- A wait on one wire frame after another; `none` if it goes on behind them. -/
def waitOn {β : Type} (judge : Except Exn (Option FrameResult) → Option β) :
    List AbsorbCall → ReassemblyTable → Option β
  | [], _ => none
  | call :: calls, t =>
      match judge (accept call t).1 with
      | some b => some b
      | none => waitOn judge calls (accept call t).2

def delivered : Except Exn (Option FrameResult) → List FrameResult
  | .ok (some r) => [r]
  | _ => []

/-- The messages a wait decodes. -/
def decodedOn {β : Type} (judge : Except Exn (Option FrameResult) → Option β) :
    List AbsorbCall → ReassemblyTable → List FrameResult
  | [], _ => []
  | call :: calls, t =>
      delivered (accept call t).1 ++
        match judge (accept call t).1 with
        | some _ => []
        | none => decodedOn judge calls (accept call t).2

/-- The environments of the frames, one list for each message that is received. -/
def groups : List WireFrame → ReassemblyTable → List (List FrameEnv)
  | [], _ => []
  | w :: ws, t =>
      match accept w.call t with
      | (.ok none, t') =>
          match groups ws t' with
          | [] => [[w.env]]
          | envs :: rest => (w.env :: envs) :: rest
      | (_, t') => [w.env] :: groups ws t'

/-- A client with these frames on its stream. -/
def feed (ws : List WireFrame) (c : Client) : Client :=
  c.setInbound (ws.map WireFrame.bytes).flatten

variable {lib proto}

/-- One receive of a wait, with the code behind the wait. -/
theorem exec_wait_cons {α : Type} {deadline : Int} {isTerminal : Envelope → Bool}
    {finish : Envelope → Except Exn α} (envs : List FrameEnv) (rest : List (List FrameEnv))
    (c : Client) :
    exec (do
      let resp ← waitForResponse lib proto deadline isTerminal (envs :: rest)
      settle (finish resp)) c =
      match exec (recvFrameWithDeadline lib deadline envs) c with
      | none => none
      | some (.error e, c') => some (.error e, c')
      | some (.ok r, c') =>
          match verdict proto isTerminal finish (.ok (some r)) with
          | some b => some (b, c')
          | none => exec (do
              let resp ← waitForResponse lib proto deadline isTerminal rest
              settle (finish resp)) c' := by
  rw [exec_bind, waitForResponse, exec_bind]
  cases exec (recvFrameWithDeadline lib deadline envs) c with
  | none => rfl
  | some out =>
      obtain ⟨e | r, c'⟩ := out
      · rfl
      · dsimp only [verdict]
        cases proto.parse r.payload with
        | none => rfl
        | some env =>
            cases hterminal : isTerminal env with
            | true => simp [hterminal]
            | false => simp [hterminal, exec_bind]

/-- **A wait on a connection that stays up** ends as the frames say. -/
theorem exec_wait_groups {α : Type} {deadline : Int} {isTerminal : Envelope → Bool}
    {finish : Envelope → Except Exn α} :
    ∀ (ws : List WireFrame) (c : Client), Incoming lib (some deadline) ws c →
      (exec (do
        let resp ← waitForResponse lib proto deadline isTerminal (groups ws c.reassembly)
        settle (finish resp)) c).map Prod.fst =
        waitOn (verdict proto isTerminal finish) (ws.map WireFrame.call) c.reassembly := by
  intro ws
  induction ws with
  | nil =>
      intro c _
      rfl
  | cons w ws ih =>
      intro c h
      obtain ⟨c', hstep, htable, hrest⟩ := recvStep_incoming h
      have hnext := ih c' hrest
      have hframe : ∀ envs, exec (recvFrameWithDeadline lib deadline (w.env :: envs)) c =
          match (accept w.call c.reassembly).1 with
          | .error e => some (.error e, c')
          | .ok none => exec (recvFrameWithDeadline lib deadline envs) c'
          | .ok (some r) => some (.ok r, c') := by
        intro envs
        rw [recvFrameWithDeadline, exec_recvFrameWith_cons, hstep]
        cases (accept w.call c.reassembly).1 with
        | error e => rfl
        | ok complete => cases complete <;> rfl
      rw [List.map_cons, waitOn, groups, ← htable]
      rcases hacc : accept w.call c.reassembly with ⟨o, t'⟩
      rw [hacc] at htable hframe
      dsimp only at htable hframe ⊢
      cases o with
      | error e =>
          dsimp only
          rw [exec_wait_cons, hframe]
          rfl
      | ok complete =>
          cases complete with
          | none =>
              -- The frame joins the receive that the next frame goes on with.
              dsimp only [verdict]
              rw [← hnext, ← htable]
              cases groups ws c'.reassembly with
              | nil =>
                  dsimp only
                  rw [exec_wait_cons, hframe]
                  rfl
              | cons envs rest =>
                  dsimp only
                  rw [exec_wait_cons, exec_wait_cons, hframe]
          | some r =>
              dsimp only
              rw [exec_wait_cons, hframe, ← htable, ← hnext]
              dsimp only
              cases verdict proto isTerminal finish (.ok (some r)) <;> rfl

/-! ### Requests -/

/-- The two streams of a client are independent. -/
theorem setInbound_setOutbound (b o : Bytes) (c : Client) :
    (c.setInbound b).setOutbound o = (c.setOutbound o).setInbound b := by
  unfold setInbound setOutbound
  cases c.fd <;> rfl

/-- What comes in is no part of what was written. -/
theorem outbound_setInbound (b : Bytes) (c : Client) : (c.setInbound b).outbound = c.outbound := by
  unfold setInbound outbound
  cases c.fd <;> rfl

/-- Whether the socket is open does not depend on what comes in. -/
theorem isSome_setInbound (b : Bytes) (c : Client) : (c.setInbound b).fd.isSome = c.fd.isSome := by
  unfold setInbound
  cases c.fd <;> rfl

/-- A send does not look at what is coming in. -/
theorem send_setInbound (env : Envelope) (senv : SendEnv) (b : Bytes) (c : Client) :
    exec (send lib proto (ascii "kernel") env senv) (c.setInbound b) =
      (exec (send lib proto (ascii "kernel") env senv) c).map
        (fun out => (out.1, out.2.setInbound b)) := by
  have hkey : (c.setInbound b).sessionKey = c.sessionKey := rfl
  have hws : (c.setInbound b).ws = c.ws := rfl
  rw [send, sendRaw, sendRawWithFlags, exec_bind_ok (exec_get _), exec_bind_ok (exec_get _), hkey,
    hws]
  dsimp only
  generalize packFrameWs lib (ascii "kernel") _ (proto.serialize env) c.sessionKey = packedWs
  generalize packFrameRaw lib (ascii "kernel") _ (proto.serialize env) c.sessionKey = packed
  split
  · split
    · rfl
    · cases packedWs with
      | error e => rfl
      | ok message =>
          rw [exec_bind_ok (exec_settle _ _), exec_bind_ok (exec_settle _ _), writeAllWs]
          cases senv.wsSend <;> rfl
  · cases packed with
    | error e => rfl
    | ok frame =>
        rw [exec_bind_ok (exec_settle _ _), exec_bind_ok (exec_settle _ _), writeFrame,
          exec_bind_ok (exec_get _), exec_bind_ok (exec_get _), isSome_setInbound]
        split
        · rw [exec_zoom, exec_zoom, outbound_setInbound]
          cases exec (writeAll senv.writes frame) c.outbound with
          | none => rfl
          | some out =>
              obtain ⟨r, o⟩ := out
              rw [Option.map_some, Option.map_some, Option.map_some]
              dsimp only
              rw [setInbound_setOutbound]
        · rfl

/-- What was written is no part of what comes in. -/
theorem inbound_setOutbound (o : Bytes) (c : Client) : (c.setOutbound o).inbound = c.inbound := by
  unfold setOutbound inbound
  cases c.fd <;> rfl

/-- A send leaves the receiving side of a client as it is. -/
structure SameReceiver (c c' : Client) : Prop where
  inbound_eq : c'.inbound = c.inbound
  key_eq : c'.sessionKey = c.sessionKey
  table_eq : c'.reassembly = c.reassembly
  ws_eq : c'.ws.isSome = c.ws.isSome
  fd_eq : c'.fd.isSome = c.fd.isSome

/-- Sending leaves the receiving side as it is. -/
theorem send_receiver (env : Envelope) (senv : SendEnv) (c : Client) :
    Post (send lib proto (ascii "kernel") env senv) c (fun _ c' => SameReceiver c c') := by
  have hrefl : SameReceiver c c := ⟨rfl, rfl, rfl, rfl, rfl⟩
  unfold send sendRaw sendRawWithFlags
  apply Post.get_bind
  dsimp only
  apply Post.ite
  · intro _
    refine Post.ite (fun _ => Post.throw hrefl) (fun _ => ?_)
    apply Post.bind
    apply Post.settle
    split
    · apply Post.bind
      apply Post.settle
      split
      · exact Post.modify ⟨rfl, rfl, rfl, by simp, rfl⟩
      · exact hrefl
    · exact hrefl
  · intro _
    apply Post.bind
    apply Post.settle
    split
    · apply Post.get_bind
      refine Post.ite (fun _ => Post.zoom (Post.trivial fun _ _ => ?_)) (fun _ => Post.throw hrefl)
      exact ⟨inbound_setOutbound _ c, rfl, rfl, rfl, by simp [setOutbound]⟩
    · exact hrefl

/-- A fed socket holds the frames' bytes in a row. -/
theorem inbound_feed {ws : List WireFrame} {c : Client} (hfd : c.fd.isSome) :
    (c.feed ws).inbound = (ws.map WireFrame.bytes).flatten := by
  obtain ⟨sock, hsock⟩ := Option.isSome_iff_exists.mp hfd
  simp [feed, inbound, setInbound, hsock]

/-- Some of the frames alone, for a client with the same receiving side. -/
theorem Incoming.of_subset {deadline : Option Int} {ws ws' : List WireFrame} {c c' : Client}
    (h : Incoming lib deadline ws (c.feed ws)) (hc : SameReceiver c c')
    (hsub : ∀ w ∈ ws', w ∈ ws) : Incoming lib deadline ws' (c'.feed ws') := by
  have hkey : (c'.feed ws').sessionKey = (c.feed ws).sessionKey := hc.key_eq
  cases h with
  | socket hws hfd rest hinbound hframes =>
      have hopen : c'.fd.isSome := by
        rw [hc.fd_eq, ← isSome_setInbound (ws.map WireFrame.bytes).flatten]
        exact hfd
      have hnone : c'.ws = none := by
        have hws' : c.ws = none := hws
        rw [← Option.isNone_iff_eq_none, ← Option.not_isSome, hc.ws_eq, hws']
        rfl
      refine .socket hnone ?_ [] ?_ ?_
      · rw [feed, isSome_setInbound]
        exact hopen
      · rw [inbound_feed hopen, List.append_nil]
      · rw [hkey]
        exact fun w hw => hframes w (hsub w hw)
  | webSocket hws hframes =>
      refine .webSocket (hc.ws_eq.trans hws) ?_
      rw [hkey]
      exact fun w hw => hframes w (hsub w hw)

/-- **A request on a connection that stays up.**  If the request goes out, the
frames that come in decide. -/
theorem exchange_outcome {α : Type} {env : Envelope} {timeoutMs : UInt32}
    {isTerminal : Envelope → Bool} {finish : Envelope → Except Exn α} {renv : RequestEnv}
    {ws : List WireFrame} {c : Client}
    (hincoming : Incoming lib (some (requestDeadline timeoutMs renv.start)) ws (c.feed ws)) :
    (exec (do
      let resp ← exchange lib proto env timeoutMs isTerminal
        { renv with frames := groups ws c.reassembly }
      settle (finish resp)) (c.feed ws)).map Prod.fst =
      match exec (send lib proto (ascii "kernel") env renv.senv) c with
      | none => none
      | some (.error e, _) => some (.error e)
      | some (.ok (), _) =>
          waitOn (verdict proto isTerminal finish) (ws.map WireFrame.call) c.reassembly := by
  rw [exec_bind, exchange, exec_bind, feed, send_setInbound]
  cases hsend : exec (send lib proto (ascii "kernel") env renv.senv) c with
  | none => rfl
  | some out =>
      obtain ⟨e | _, c'⟩ := out
      · rfl
      · have hsame := send_receiver env renv.senv c _ _ hsend
        have htable : (c'.feed ws).reassembly = c.reassembly := hsame.table_eq
        rw [← htable]
        exact (congrArg (Option.map Prod.fst) (exec_bind _ _ _)).symm.trans
          (exec_wait_groups ws (c'.feed ws) (hincoming.of_subset hsame (fun _ hw => hw)))

end Client

end Vynkor
