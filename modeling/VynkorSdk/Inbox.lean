import VynkorSdk.ClientDelivery

/-!
# What arrives at a client

A connection that stays up delivers one valid wire frame after another, over
either transport.  `accept` is what the receive loop makes of one of them: a
message, an open fragment set, or an exception.  `recvStep` is one round of the
loop on the client; on a connection that stays up it is `accept` on the
reassembly table (`recvStep_incoming`), and successive `recv()` calls give what
`outcomes` says of the frames.
-/

namespace Vynkor

open ByteCodec KeyedTable Procedure

namespace Client

variable (lib : WireLibs) (proto : ProtoLib)

/-! ### One round of the receive loop -/

/-- One round of `recv_frame` and `recv_frame_with_deadline`; `none` while a
fragment set is open. -/
def recvStep (deadline : Option Int) (env : FrameEnv) : Proc Exn Client (Option FrameResult) := do
  let frame ← readTransportFrame lib deadline env
  if hasFlag frame.flags flagFragmented then
    absorb env frame
  else
    return some frame

/-- The loop is its rounds. -/
theorem exec_recvFrameWith_cons (deadline : Option Int) (env : FrameEnv) (envs : List FrameEnv)
    (c : Client) :
    exec (recvFrameWith lib deadline (env :: envs)) c =
      match exec (recvStep lib deadline env) c with
      | none => none
      | some (.error e, c') => some (.error e, c')
      | some (.ok none, c') => exec (recvFrameWith lib deadline envs) c'
      | some (.ok (some r), c') => some (.ok r, c') := by
  unfold recvStep
  rw [recvFrameWith, exec_bind, exec_bind]
  cases exec (readTransportFrame lib deadline env) c with
  | none => rfl
  | some out =>
      obtain ⟨e | frame, c₁⟩ := out
      · rfl
      · dsimp only
        by_cases hfragmented : hasFlag frame.flags flagFragmented = true
        · rw [if_pos hfragmented, if_pos hfragmented, exec_bind, exec_absorb]
          dsimp only
          cases (absorbFragment ⟨env.absorbNow, env.absorbSeen, frame⟩ c₁.reassembly).1 with
          | error e => rfl
          | ok complete => cases complete <;> rfl
        · rw [if_neg hfragmented, if_neg hfragmented]
          rfl

/-- One round of `recv()`, which is its rounds (`exec_recv_cons`): the first that
gives an envelope or throws ends the call. -/
def recvRound (env : FrameEnv) : Proc Exn Client (Option Envelope) := do
  let complete ← recvStep lib none env
  match complete with
  | none => pure none
  | some result => do
      let env ← settle (decodeFrame proto result)
      return some env

/-- `recv` goes round by round until one brings an envelope or an error. -/
theorem exec_recv_cons (env : FrameEnv) (envs : List FrameEnv) (c : Client) :
    exec (recv lib proto (env :: envs)) c =
      match exec (recvRound lib proto env) c with
      | none => none
      | some (.error e, c') => some (.error e, c')
      | some (.ok none, c') => exec (recv lib proto envs) c'
      | some (.ok (some e), c') => some (.ok e, c') := by
  unfold recv recvRound recvFrame
  rw [exec_bind, exec_bind, exec_recvFrameWith_cons]
  cases exec (recvStep lib none env) c with
  | none => rfl
  | some out =>
      obtain ⟨e | complete, c'⟩ := out
      · rfl
      · cases complete with
        | none => exact (exec_bind _ _ _).symm
        | some result =>
            dsimp only
            rw [exec_settle, exec_bind, exec_settle]
            cases decodeFrame proto result <;> rfl

/-! ### What one frame amounts to -/

/-- One wire frame at the receive loop, with the table it meets. -/
def accept (call : AbsorbCall) (t : ReassemblyTable) :
    Except Exn (Option FrameResult) × ReassemblyTable :=
  if hasFlag call.frame.flags flagFragmented then
    absorbFragment call t
  else
    (.ok (some call.frame), t)

/-- Accepting a frame keeps the invariant of the table. -/
theorem accept_inv (call : AbsorbCall) {t : ReassemblyTable} (ht : TableInv t) :
    TableInv (accept call t).2 := by
  unfold accept
  split
  · exact (absorbFragment_inv call ht).1
  · exact ht

/-- What `recv()` makes of one wire frame. -/
def outcome (call : AbsorbCall) (t : ReassemblyTable) : Except Exn (Option Envelope) :=
  match (accept call t).1 with
  | .error e => .error e
  | .ok none => .ok none
  | .ok (some result) => (decodeFrame proto result).map some

/-- The same where the parser may have refused the frame, -/
def outcomeOf (read : Except Exn AbsorbCall) (t : ReassemblyTable) :
    Except Exn (Option Envelope) :=
  match read with
  | .error e => .error e
  | .ok call => outcome proto call t

/-- and the table it leaves. -/
def tableAfter (read : Except Exn AbsorbCall) (t : ReassemblyTable) : ReassemblyTable :=
  match read with
  | .error _ => t
  | .ok call => (accept call t).2

/-- So does a read, failed or not. -/
theorem tableAfter_inv (read : Except Exn AbsorbCall) {t : ReassemblyTable} (ht : TableInv t) :
    TableInv (tableAfter read t) := by
  cases read with
  | error e => exact ht
  | ok call => exact accept_inv call ht

/-- What `recv()` makes of one wire frame after another.  An entry of any kind
may stand beside a frame. -/
def outcomes {α : Type} :
    List (Except Exn AbsorbCall × α) → ReassemblyTable → List (Except Exn (Option Envelope) × α)
  | [], _ => []
  | (read, a) :: reads, t => (outcomeOf proto read t, a) :: outcomes reads (tableAfter read t)

/-- What the rounds of `recv()` give on a client, one environment for each
frame; the list ends where the client waits. -/
def arrivals {α : Type} :
    List (FrameEnv × α) → Client → List (Except Exn (Option Envelope) × α)
  | [], _ => []
  | (env, a) :: envs, c =>
      match exec (recvRound lib proto env) c with
      | none => []
      | some (o, c') => (o, a) :: arrivals envs c'

/-- A round that ends a call, with the result of the call. -/
def ended {α : Type} : Except Exn (Option α) → Option (Except Exn α)
  | .error e => some (.error e)
  | .ok none => none
  | .ok (some a) => some (.ok a)

/-! ### Connections that stay up -/

/-- A wire frame on its way: its bytes, what they parse to, and the environment
it is read in. -/
structure WireFrame where
  bytes : Bytes
  frame : FrameResult
  env : FrameEnv

/-- The frame as `absorb_fragment` would get it. -/
def WireFrame.call (w : WireFrame) : AbsorbCall := ⟨w.env.absorbNow, w.env.absorbSeen, w.frame⟩

/-- The time a started frame has, in milliseconds. -/
def frameTimeout (deadline : Option Int) (env : FrameEnv) : Int :=
  match deadline with
  | none => frameReadTimeoutMs
  | some deadline =>
      let remaining := (deadline - env.waitEnd).tdiv millisecond
      toInt32 (if remaining < 1 then 1 else remaining)

/-- The wait for the first byte ends before the deadline: interruptions, then a
readable socket. -/
def ReadableInTime (deadline : Int) (waits : List Wait) : Prop :=
  ∃ (early : List Wait) (ready : Wait) (late : List Wait), waits = early ++ ready :: late ∧
    (∀ wait ∈ early, wait.now < deadline ∧ wait.poll = .eintr) ∧
    ready.now < deadline ∧ ready.poll = .ready

/-- The environment lets a frame of `n` bytes through. -/
def InTime (deadline : Option Int) (n : Nat) (env : FrameEnv) : Prop :=
  (∀ d, deadline = some d → ReadableInTime d env.waits) ∧ Steady (frameTimeout deadline env) n env

/-- Bytes on their way that delimit themselves as a wire frame, and the
environment they are read in. -/
structure WireInput where
  bytes : Bytes
  env : FrameEnv

/-- What the parser makes of them under the session key. -/
def WireInput.parsed (key : Option Block32) (w : WireInput) : Except Exn FrameResult :=
  (parseFrameBytes lib w.bytes key).map Prod.fst

/-- The frame as `absorb_fragment` would get it, if the parser accepts it. -/
def WireInput.read (key : Option Block32) (w : WireInput) : Except Exn AbsorbCall :=
  (w.parsed lib key).map (fun frame => ⟨w.env.absorbNow, w.env.absorbSeen, frame⟩)

/-- These come next on the client's connection, well delimited and in time; on a
WebSocket each as a message. -/
inductive Arriving (deadline : Option Int) (ws : List WireInput) (c : Client) : Prop
  | socket (hws : c.ws = none) (hfd : c.fd.isSome) (rest : Bytes)
      (hinbound : c.inbound = (ws.map WireInput.bytes).flatten ++ rest)
      (hframes : ∀ w ∈ ws, SelfDelimited w.bytes ∧ InTime deadline w.bytes.length w.env)
  | webSocket (hws : c.ws.isSome) (hframes : ∀ w ∈ ws, w.env.message = .ok w.bytes)

/-- The wire frames come next on the client's connection, each valid under the
session key and read in time. -/
inductive Incoming (deadline : Option Int) (ws : List WireFrame) (c : Client) : Prop
  | socket (hws : c.ws = none) (hfd : c.fd.isSome) (rest : Bytes)
      (hinbound : c.inbound = (ws.map WireFrame.bytes).flatten ++ rest)
      (hframes : ∀ w ∈ ws, parseFrameBytes lib w.bytes c.sessionKey =
        .ok (w.frame, w.bytes.length) ∧ InTime deadline w.bytes.length w.env)
  | webSocket (hws : c.ws.isSome)
      (hframes : ∀ w ∈ ws, w.env.message = .ok w.bytes ∧
        ∃ n, parseFrameBytes lib w.bytes c.sessionKey = .ok (w.frame, n))

variable {lib proto}

/-- An interrupted wait is made again. -/
theorem awaitReadable_eintr {deadline : Int} {s : Bytes} (wait : Wait) (waits : List Wait)
    (h : wait.now < deadline ∧ wait.poll = .eintr) :
    exec (awaitReadable deadline (wait :: waits)) s = exec (awaitReadable deadline waits) s := by
  obtain ⟨hnow, hpoll⟩ := h
  rw [awaitReadable, if_neg (by omega), hpoll]

/-- A wait that is readable in time ends so. -/
theorem awaitReadable_inTime {deadline : Int} (s : Bytes) (waits : List Wait)
    (h : ReadableInTime deadline waits) :
    exec (awaitReadable deadline waits) s = some (.ok (), s) := by
  obtain ⟨early, ready, late, rfl, hearly, hnow, hpoll⟩ := h
  rw [exec_retry awaitReadable_eintr hearly, awaitReadable, if_neg (by omega), hpoll]
  rfl

/-- What delimits itself is read whole off the socket, whatever the parser says. -/
theorem readSocketFrame_delimited {deadline : Option Int} {w : WireInput} {c : Client}
    {rest : Bytes}
    (hfd : c.fd.isSome) (hinbound : c.inbound = w.bytes ++ rest)
    (hdelimited : SelfDelimited w.bytes)
    (htime : InTime deadline w.bytes.length w.env) :
    exec (readSocketFrame lib deadline w.env) c =
      some (w.parsed lib c.sessionKey, c.setInbound rest) := by
  have hread : exec (readFrameFullWithTimeout lib c.sessionKey (frameTimeout deadline w.env) w.env)
      c.inbound = some (w.parsed lib c.sessionKey, rest) := by
    rw [hinbound, readFrameFullWithTimeout_steady lib hdelimited htime.2]
    rfl
  rw [readSocketFrame, exec_bind_ok (exec_get _), exec_zoom, if_pos hfd]
  cases deadline with
  | none =>
      dsimp only
      rw [readFrameFull, show frameReadTimeoutMs = frameTimeout none w.env from rfl, hread]
      rfl
  | some d =>
      dsimp only
      rw [readFrameFullWithDeadline, exec_bind_ok (awaitReadable_inTime _ _ (htime.1 d rfl))]
      exact congrArg (Option.map _) hread

/-- A frame on the socket is read whole. -/
theorem readSocketFrame_incoming {deadline : Option Int} {w : WireFrame} {c : Client} {rest : Bytes}
    (hfd : c.fd.isSome) (hinbound : c.inbound = w.bytes ++ rest)
    (hparse : parseFrameBytes lib w.bytes c.sessionKey = .ok (w.frame, w.bytes.length))
    (htime : InTime deadline w.bytes.length w.env) :
    exec (readSocketFrame lib deadline w.env) c = some (.ok w.frame, c.setInbound rest) := by
  have hread : exec (readSocketFrame lib deadline w.env) c =
      some ((parseFrameBytes lib w.bytes c.sessionKey).map Prod.fst, c.setInbound rest) :=
    @readSocketFrame_delimited lib deadline ⟨w.bytes, w.env⟩ c rest hfd hinbound
      (selfDelimited_of_parse hparse) htime
  rw [hread, hparse]
  rfl

/-- A frame off the socket is heard, and the stream moves on behind it. -/
theorem readTransportFrame_socket {deadline : Option Int} {w : WireFrame} {c : Client}
    {rest : Bytes} (hws : c.ws = none) (hfd : c.fd.isSome) (hinbound : c.inbound = w.bytes ++ rest)
    (hparse : parseFrameBytes lib w.bytes c.sessionKey = .ok (w.frame, w.bytes.length))
    (htime : InTime deadline w.bytes.length w.env) :
    exec (readTransportFrame lib deadline w.env) c =
      some (.ok w.frame, hear c.sessionKey w.frame (c.setInbound rest)) := by
  have hactive : exec (readActiveFrame lib deadline w.env) c =
      some (.ok w.frame, c.setInbound rest) := by
    rw [readActiveFrame, exec_bind_ok (exec_get _), hws]
    exact readSocketFrame_incoming hfd hinbound hparse htime
  rw [readTransportFrame, exec_bind_ok (exec_get _), exec_bind_ok hactive]
  rfl

/-- A frame in a message is heard. -/
theorem readTransportFrame_webSocket {w : WireFrame} {c : Client} {n : Nat}
    (deadline : Option Int) (hws : c.ws.isSome) (hmessage : w.env.message = .ok w.bytes)
    (hparse : parseFrameBytes lib w.bytes c.sessionKey = .ok (w.frame, n)) :
    exec (readTransportFrame lib deadline w.env) c =
      some (.ok w.frame, hear c.sessionKey w.frame c) := by
  have hactive : exec (readActiveFrame lib deadline w.env) c = some (.ok w.frame, c) := by
    rw [readActiveFrame, exec_bind_ok (exec_get _), if_pos hws, readWsFrame,
      exec_bind_ok (exec_get _), hmessage, exec_bind_ok (exec_settle _ _), parseFrameFromBuffer,
      hparse, exec_bind_ok (exec_settle _ _)]
    rfl
  rw [readTransportFrame, exec_bind_ok (exec_get _), exec_bind_ok hactive]
  rfl

/-- **The next frame is read**, and the others stay where they are. -/
theorem readTransportFrame_incoming {deadline : Option Int} {w : WireFrame} {ws : List WireFrame}
    {c : Client} (h : Incoming lib deadline (w :: ws) c) :
    ∃ c', exec (readTransportFrame lib deadline w.env) c = some (.ok w.frame, c') ∧
      c'.reassembly = c.reassembly ∧ Incoming lib deadline ws c' := by
  cases h with
  | socket hws hfd rest hinbound hframes =>
      rw [List.map_cons, List.flatten_cons, List.append_assoc] at hinbound
      obtain ⟨hparse, htime⟩ := hframes w (by simp)
      obtain ⟨sock, hsock⟩ := Option.isSome_iff_exists.mp hfd
      exact ⟨_, readTransportFrame_socket hws hfd hinbound hparse htime, rfl,
        .socket hws (by simp [hear, setInbound, hsock]) rest
          (by simp [inbound, hear, setInbound, hsock])
          (fun w' hw' => hframes w' (List.mem_cons_of_mem _ hw'))⟩
  | webSocket hws hframes =>
      obtain ⟨hmessage, n, hparse⟩ := hframes w (by simp)
      exact ⟨_, readTransportFrame_webSocket deadline hws hmessage hparse, rfl,
        .webSocket hws (fun w' hw' => hframes w' (List.mem_cons_of_mem _ hw'))⟩

/-- What comes in does not depend on the reassembly table. -/
theorem Incoming.of_table {deadline : Option Int} {ws : List WireFrame} {c : Client}
    (h : Incoming lib deadline ws c) (t : ReassemblyTable) :
    Incoming lib deadline ws { c with reassembly := t } := by
  cases h with
  | socket hws hfd rest hinbound hframes => exact .socket hws hfd rest hinbound hframes
  | webSocket hws hframes => exact .webSocket hws hframes

/-- A round on a frame that has been read. -/
theorem recvStep_of_read {deadline : Option Int} {env : FrameEnv} {frame : FrameResult}
    {c c' : Client} (hread : exec (readTransportFrame lib deadline env) c = some (.ok frame, c'))
    (htable : c'.reassembly = c.reassembly) :
    exec (recvStep lib deadline env) c =
      some ((accept ⟨env.absorbNow, env.absorbSeen, frame⟩ c.reassembly).1,
        { c' with
          reassembly := (accept ⟨env.absorbNow, env.absorbSeen, frame⟩ c.reassembly).2 }) := by
  rw [recvStep, exec_bind_ok hread, ← htable, accept]
  by_cases hfragmented : hasFlag frame.flags flagFragmented = true
  · rw [if_pos hfragmented, if_pos hfragmented, exec_absorb]
  · rw [if_neg hfragmented, if_neg hfragmented]
    rfl

/-- **One round** on a connection that stays up. -/
theorem recvStep_incoming {deadline : Option Int} {w : WireFrame} {ws : List WireFrame}
    {c : Client} (h : Incoming lib deadline (w :: ws) c) :
    ∃ c', exec (recvStep lib deadline w.env) c = some ((accept w.call c.reassembly).1, c') ∧
      c'.reassembly = (accept w.call c.reassembly).2 ∧ Incoming lib deadline ws c' := by
  obtain ⟨c₁, hread, htable, hrest⟩ := readTransportFrame_incoming h
  exact ⟨_, recvStep_of_read hread htable, rfl, hrest.of_table _⟩

/-- **The next frame is read or refused**, and the others stay where they are. -/
theorem readTransportFrame_arriving {deadline : Option Int} {w : WireInput} {ws : List WireInput}
    {c : Client} (h : Arriving deadline (w :: ws) c) :
    ∃ c', exec (readTransportFrame lib deadline w.env) c = some (w.parsed lib c.sessionKey, c') ∧
      c'.reassembly = c.reassembly ∧ c'.sessionKey = c.sessionKey ∧ Arriving deadline ws c' := by
  -- Recording the frame changes neither the table nor what is left to read.
  have hrecord : ∀ c₁ : Client, c₁.sessionKey = c.sessionKey → c₁.reassembly = c.reassembly →
      exec (readActiveFrame lib deadline w.env) c = some (w.parsed lib c.sessionKey, c₁) →
      (∀ key frame, Arriving deadline ws (hear key frame c₁)) → Arriving deadline ws c₁ →
      ∃ c', exec (readTransportFrame lib deadline w.env) c =
          some (w.parsed lib c.sessionKey, c') ∧
        c'.reassembly = c.reassembly ∧ c'.sessionKey = c.sessionKey ∧ Arriving deadline ws c' := by
    intro c₁ hkey htable hactive hheard hrest
    rw [readTransportFrame, exec_bind_ok (exec_get _)]
    cases hparsed : w.parsed lib c.sessionKey with
    | error e =>
        rw [hparsed] at hactive
        exact ⟨c₁, exec_bind_error hactive, htable, hkey, hrest⟩
    | ok frame =>
        rw [hparsed] at hactive
        rw [exec_bind_ok hactive]
        exact ⟨hear c.sessionKey frame c₁, rfl, htable, hkey, hheard _ _⟩
  cases h with
  | socket hws hfd rest hinbound hframes =>
      rw [List.map_cons, List.flatten_cons, List.append_assoc] at hinbound
      obtain ⟨hdelimited, htime⟩ := hframes w (by simp)
      obtain ⟨sock, hsock⟩ := Option.isSome_iff_exists.mp hfd
      have hothers : ∀ w' ∈ ws, SelfDelimited w'.bytes ∧ InTime deadline w'.bytes.length w'.env :=
        fun w' hw' => hframes w' (List.mem_cons_of_mem _ hw')
      refine hrecord (c.setInbound ((ws.map WireInput.bytes).flatten ++ rest)) rfl rfl ?_
        (fun key frame => .socket hws (by simp [hear, setInbound, hsock]) rest
          (by simp [inbound, hear, setInbound, hsock]) hothers)
        (.socket hws (by simp [setInbound, hsock]) rest (by simp [inbound, setInbound, hsock])
          hothers)
      rw [readActiveFrame, exec_bind_ok (exec_get _), hws]
      exact readSocketFrame_delimited hfd hinbound hdelimited htime
  | webSocket hws hframes =>
      have hothers : ∀ w' ∈ ws, w'.env.message = .ok w'.bytes :=
        fun w' hw' => hframes w' (List.mem_cons_of_mem _ hw')
      refine hrecord c rfl rfl ?_ (fun key frame => .webSocket hws hothers) (.webSocket hws hothers)
      rw [readActiveFrame, exec_bind_ok (exec_get _), if_pos hws, readWsFrame,
        exec_bind_ok (exec_get _), hframes w (by simp), exec_bind_ok (exec_settle _ _),
        parseFrameFromBuffer, WireInput.parsed]
      cases parseFrameBytes lib w.bytes c.sessionKey with
      | error e => rfl
      | ok out => rfl

/-- What arrives does not depend on the reassembly table. -/
theorem Arriving.of_table {deadline : Option Int} {ws : List WireInput} {c : Client}
    (h : Arriving deadline ws c) (t : ReassemblyTable) :
    Arriving deadline ws { c with reassembly := t } := by
  cases h with
  | socket hws hfd rest hinbound hframes => exact .socket hws hfd rest hinbound hframes
  | webSocket hws hframes => exact .webSocket hws hframes

/-- A round of `recv()` on what has arrived. -/
theorem recvRound_arriving {w : WireInput} {ws : List WireInput} {c : Client}
    (h : Arriving none (w :: ws) c) :
    ∃ c', exec (recvRound lib proto w.env) c =
        some (outcomeOf proto (w.read lib c.sessionKey) c.reassembly, c') ∧
      c'.reassembly = tableAfter (w.read lib c.sessionKey) c.reassembly ∧
      c'.sessionKey = c.sessionKey ∧ Arriving none ws c' := by
  obtain ⟨c₁, hread, htable, hkey, hrest⟩ := @readTransportFrame_arriving lib _ _ _ _ h
  unfold WireInput.read
  cases hparsed : w.parsed lib c.sessionKey with
  | error e =>
      rw [hparsed] at hread
      refine ⟨c₁, ?_, htable, hkey, hrest⟩
      rw [recvRound, recvStep, exec_bind_error (exec_bind_error hread)]
      rfl
  | ok frame =>
      rw [hparsed] at hread
      let call : AbsorbCall := ⟨w.env.absorbNow, w.env.absorbSeen, frame⟩
      refine ⟨{ c₁ with reassembly := (accept call c.reassembly).2 }, ?_, rfl, hkey,
        hrest.of_table _⟩
      rw [recvRound, exec_bind, recvStep_of_read hread htable]
      dsimp only [Except.map, outcomeOf, outcome]
      cases (accept ⟨w.env.absorbNow, w.env.absorbSeen, frame⟩ c.reassembly).1 with
      | error e => rfl
      | ok complete =>
          cases complete with
          | none => rfl
          | some result =>
              dsimp only
              rw [exec_bind, exec_settle]
              cases decodeFrame proto result <;> rfl

/-- **A connection that stays up** gives `recv()` what the frames amount to. -/
theorem arrivals_arriving {α : Type} : ∀ (ws : List (WireInput × α)) (c : Client),
    Arriving none (ws.map Prod.fst) c →
    arrivals lib proto (ws.map (fun w => (w.1.env, w.2))) c =
      outcomes proto (ws.map (fun w => (w.1.read lib c.sessionKey, w.2))) c.reassembly := by
  intro ws
  induction ws with
  | nil =>
      intro c _
      rfl
  | cons w ws ih =>
      intro c h
      obtain ⟨c', hround, htable, hkey, hrest⟩ : ∃ c', exec (recvRound lib proto w.1.env) c =
          some (outcomeOf proto (w.1.read lib c.sessionKey) c.reassembly, c') ∧
            c'.reassembly = tableAfter (w.1.read lib c.sessionKey) c.reassembly ∧
            c'.sessionKey = c.sessionKey ∧ Arriving none (ws.map Prod.fst) c' :=
              recvRound_arriving h
      rw [List.map_cons, List.map_cons, arrivals, hround, outcomes, ← htable, ← hkey]
      dsimp only
      rw [ih c' hrest]

/-- The first outcomes are those of the first reads. -/
theorem outcomes_take {α : Type} : ∀ (n : Nat) (reads : List (Except Exn AbsorbCall × α))
    (t : ReassemblyTable), (outcomes proto reads t).take n = outcomes proto (reads.take n) t := by
  intro n
  induction n with
  | zero =>
      intro reads t
      rfl
  | succ n ih =>
      intro reads t
      rcases reads with _ | ⟨⟨read, a⟩, reads⟩
      · rfl
      · rw [outcomes, List.take_succ_cons, List.take_succ_cons, outcomes, ih]

/-! ### Frames that make `recv()` throw -/

/-- The fragment header is valid, the fragment fits into an open set of the same
total or opens a new one, and the set stays within the payload limit. -/
def FragmentFits (call : AbsorbCall) (t : ReassemblyTable) : Prop :=
  ∃ hdr b, Joins call (prune call.now t) hdr b ∧
    b.newTotal hdr.sequence (call.frame.payload.drop fragHeaderSize) ≤ maxPayloadSize

/-- The message is not raw binary, and an envelope. -/
def Decodable (proto : ProtoLib) (r : FrameResult) : Prop :=
  hasFlag r.flags flagRawBinary = false ∧ (proto.parse r.payload).isSome

/-- Nothing about the frame makes `recv()` throw. -/
structure Digestible (proto : ProtoLib) (call : AbsorbCall) (t : ReassemblyTable) : Prop where
  fits : hasFlag call.frame.flags flagFragmented = true → FragmentFits call t
  decodable : ∀ r, (accept call t).1 = .ok (some r) → Decodable proto r

/-- The parser accepts the frame, and nothing else about it makes `recv()` throw. -/
def DigestibleRead (proto : ProtoLib) (read : Except Exn AbsorbCall) (t : ReassemblyTable) : Prop :=
  ∃ call, read = .ok call ∧ Digestible proto call t

/-- A frame decodes exactly when it is not raw binary and its payload is an envelope. -/
theorem decodeFrame_ok_iff (r : FrameResult) :
    (∃ env, decodeFrame proto r = .ok env) ↔ Decodable proto r := by
  unfold decodeFrame Decodable
  cases hasFlag r.flags flagRawBinary with
  | true => simp
  | false => cases proto.parse r.payload <;> simp

/-- A fragment is refused exactly if it does not fit. -/
theorem absorbFragment_ok_iff (call : AbsorbCall) {t : ReassemblyTable} (ht : TableInv t) :
    (∃ o, (absorbFragment call t).1 = .ok o) ↔ FragmentFits call t := by
  obtain ⟨hno, _, hout | ⟨hdr, _, hout⟩⟩ | ⟨hdr, b, hjoin, hcases⟩ := absorbFragment_cases call t
  · rw [hout]
    simp [FragmentFits, hno]
  · rw [hout]
    simp [FragmentFits, hno]
  · obtain ⟨hover, hout⟩ | ⟨hfits, _, hout⟩ | ⟨hfits, hcomplete, ⟨payload, _, hout⟩ | ⟨hmiss, _⟩⟩ :=
      hcases
    · rw [hout]
      refine iff_of_false (by simp) ?_
      rintro ⟨hdr', b', hjoin', hfits⟩
      -- The header and the entry are the ones of the call.
      obtain rfl := Option.some.inj (hjoin.header.symm.trans hjoin'.header)
      have hsame : b = b' := by
        rcases hjoin.entry with hb | ⟨hnone, _, rfl⟩ <;>
          rcases hjoin'.entry with hb' | ⟨hnone', _, rfl⟩
        · exact Option.some.inj (hb.symm.trans hb')
        · rw [hb] at hnone'
          cases hnone'
        · rw [hnone] at hb'
          cases hb'
        · rfl
      subst hsame
      omega
    · rw [hout]
      exact iff_of_true ⟨_, rfl⟩ ⟨hdr, b, hjoin, hfits⟩
    · rw [hout]
      exact iff_of_true ⟨_, rfl⟩ ⟨hdr, b, hjoin, hfits⟩
    · rw [hjoin.reassemble_of_complete (ht.prune _) _ hcomplete] at hmiss
      cases hmiss

/-- **`recv()` throws on a frame** exactly if the frame is not digestible. -/
theorem outcome_ok_iff (call : AbsorbCall) {t : ReassemblyTable} (ht : TableInv t) :
    (∃ o, outcome proto call t = .ok o) ↔ Digestible proto call t := by
  have haccept : (∃ o, (accept call t).1 = .ok o) ↔
      (hasFlag call.frame.flags flagFragmented = true → FragmentFits call t) := by
    unfold accept
    split
    · rename_i hfragmented
      rw [absorbFragment_ok_iff call ht]
      exact ⟨fun h _ => h, fun h => h hfragmented⟩
    · rename_i hwhole
      exact iff_of_true ⟨_, rfl⟩ (fun h => absurd h hwhole)
  constructor
  · rintro ⟨o, ho⟩
    unfold outcome at ho
    refine ⟨haccept.mp ?_, ?_⟩
    · cases hacc : (accept call t).1 with
      | error e => simp [hacc] at ho
      | ok complete => exact ⟨complete, rfl⟩
    · intro r hr
      rw [hr] at ho
      rw [← decodeFrame_ok_iff]
      cases hdecode : decodeFrame proto r with
      | error e => simp [hdecode, Except.map] at ho
      | ok env => exact ⟨env, rfl⟩
  · intro h
    obtain ⟨complete, hacc⟩ := haccept.mpr h.fits
    rw [outcome, hacc]
    cases complete with
    | none => exact ⟨none, rfl⟩
    | some r =>
        obtain ⟨env, hdecode⟩ := (decodeFrame_ok_iff r).mpr (h.decodable r hacc)
        exact ⟨some env, by simp [hdecode, Except.map]⟩

/-- The same where the parser may refuse the frame. -/
theorem outcomeOf_ok_iff (read : Except Exn AbsorbCall) {t : ReassemblyTable} (ht : TableInv t) :
    (∃ o, outcomeOf proto read t = .ok o) ↔ DigestibleRead proto read t := by
  cases read with
  | error e => exact iff_of_false (by simp [outcomeOf]) (by simp [DigestibleRead])
  | ok call => simpa [outcomeOf, DigestibleRead] using outcome_ok_iff call ht

end Client

end Vynkor
