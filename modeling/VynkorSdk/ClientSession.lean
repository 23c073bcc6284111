import VynkorSdk.Client
import VynkorSdk.FrameCanonical
import VynkorSdk.ReassemblyInvariant

/-!
# Histories of a client

The public operations of `VynkorClient` as one type, and runs of them: an
application may call them in any order, and an operation that throws leaves
the client in whatever state it reached.

The operations fall into three kinds.  Sends, `connect` and `close` touch the
transport only (`SameSession`); receives read frames under the current key and
feed the reassembly table; a registration is a send and a receive, and then
sets the key.
-/

namespace Vynkor

open ByteCodec KeyedTable Procedure

namespace Client

/-- A call of a public operation, with what the environment does during it. -/
inductive Op
  | connect (env : ConnectEnv)
  | close
  | registerFull (pluginId version : Bytes) (manifest : PluginManifest) (jwtToken : Bytes)
      (senv : SendEnv) (envs : List FrameEnv)
  | send (target : Bytes) (env : Envelope) (senv : SendEnv)
  | sendRawWithFlags (target : Bytes) (extraFlags : UInt16) (payload : Bytes) (senv : SendEnv)
  | sendFragmented (target payload : Bytes) (chunkSize : UInt64) (senvs : List SendEnv)
  | recvFrame (envs : List FrameEnv)
  | recv (envs : List FrameEnv)
  | recvTimeout (timeoutMs now : Int) (envs : List FrameEnv)
  | waitForResponse (deadline : Int) (isTerminal : Envelope → Bool) (calls : List (List FrameEnv))

/-- What an operation returns. -/
inductive Output
  | done
  | frame (result : FrameResult)
  | envelope (env : Envelope)
  | ack (ack : PluginRegisterAck)

variable (lib : WireLibs) (proto : ProtoLib)

def Op.perform : Op → Proc Exn Client Output
  | .connect env => do Client.connect env; return .done
  | .close => do Client.close; return .done
  | .registerFull pluginId version manifest jwtToken senv envs => do
      let ack ← Client.registerFull lib proto pluginId version manifest jwtToken senv envs
      return .ack ack
  | .send target env senv => do Client.send lib proto target env senv; return .done
  | .sendRawWithFlags target extraFlags payload senv => do
      Client.sendRawWithFlags lib target extraFlags payload senv
      return .done
  | .sendFragmented target payload chunkSize senvs => do
      Client.sendFragmented lib target payload chunkSize senvs
      return .done
  | .recvFrame envs => do return .frame (← Client.recvFrame lib envs)
  | .recv envs => do return .envelope (← Client.recv lib proto envs)
  | .recvTimeout timeoutMs now envs => do
      return .envelope (← Client.recvTimeout lib proto timeoutMs now envs)
  | .waitForResponse deadline isTerminal calls => do
      return .envelope (← Client.waitForResponse lib proto deadline isTerminal calls)

/-- The client after a history of operations, `none` if one of them still
waits. -/
def runOps : List Op → Client → Option Client
  | [], c => some c
  | op :: ops, c =>
      match exec (op.perform lib proto) c with
      | none => none
      | some (_, c') => runOps ops c'

/-- Every operation of the history meets `cond` in the state it starts from. -/
def Along (cond : Client → Op → Prop) : List Op → Client → Prop
  | [], _ => True
  | op :: ops, c => cond c op ∧
      ∀ r c', exec (op.perform lib proto) c = some (r, c') → Along cond ops c'

/-- **Run rule.**  What every operation under `cond` preserves holds after every
history under `cond`. -/
theorem runOps_invariant {lib : WireLibs} {proto : ProtoLib} {cond : Client → Op → Prop}
    {Inv : Client → Prop}
    (hstep : ∀ c op, Inv c → cond c op → Post (op.perform lib proto) c (fun _ c' => Inv c')) :
    ∀ (ops : List Op) (c c' : Client), Inv c → Along lib proto cond ops c →
      runOps lib proto ops c = some c' → Inv c' := by
  intro ops
  induction ops with
  | nil =>
      intro c c' hinv _ hrun
      cases hrun
      exact hinv
  | cons op ops ih =>
      intro c c' hinv hcond hrun
      rw [runOps] at hrun
      cases hexec : exec (op.perform lib proto) c with
      | none => rw [hexec] at hrun; cases hrun
      | some out =>
          obtain ⟨r, c₁⟩ := out
          rw [hexec] at hrun
          exact ih c₁ c' (hstep c op hinv hcond.1 r c₁ hexec) (hcond.2 r c₁ hexec) hrun

/-! ### The transport side -/

/-- The two clients agree on key, table and history, and no WebSocket
connection has appeared. -/
structure SameSession (c c' : Client) : Prop where
  key_eq : c'.sessionKey = c.sessionKey
  table_eq : c'.reassembly = c.reassembly
  heard_eq : c'.heard = c.heard
  ws_none : c.ws = none → c'.ws = none

/-- A session is the same as itself. -/
theorem SameSession.refl (c : Client) : SameSession c c := ⟨rfl, rfl, rfl, id⟩

/-- Sameness of sessions carries over two stretches. -/
theorem SameSession.trans {c₁ c₂ c₃ : Client} (h : SameSession c₁ c₂) (h' : SameSession c₂ c₃) :
    SameSession c₁ c₃ :=
  ⟨h'.key_eq.trans h.key_eq, h'.table_eq.trans h.table_eq, h'.heard_eq.trans h.heard_eq,
    fun hws => h'.ws_none (h.ws_none hws)⟩

variable {lib proto}

/-- A view of the client that is the same whatever has been written. -/
structure WriteInvariant {α : Type} (f : Client → α) : Prop where
  outbound : ∀ bytes c, f (c.setOutbound bytes) = f c
  ws : ∀ (g : WsConnection → WsConnection) (c : Client), f { c with ws := c.ws.map g } = f c

/-- Sending a frame leaves such a view alone. -/
theorem sendRawWithFlags_view {α : Type} {f : Client → α} (hf : WriteInvariant f) (target : Bytes)
    (extraFlags : UInt16) (payload : Bytes) (senv : SendEnv) (c : Client) :
    Post (sendRawWithFlags lib target extraFlags payload senv) c (fun _ c' => f c' = f c) := by
  unfold sendRawWithFlags
  apply Post.get_bind
  dsimp only
  apply Post.ite
  · intro _
    apply Post.ite
    · intro _
      exact Post.throw rfl
    · intro _
      apply Post.bind
      apply Post.settle
      split
      · apply Post.bind
        apply Post.settle
        split
        · exact Post.modify (hf.ws _ c)
        · rfl
      · rfl
  · intro _
    apply Post.bind
    apply Post.settle
    split
    · apply Post.get_bind
      apply Post.ite
      · intro _
        exact Post.zoom (Post.trivial (fun _ bytes => hf.outbound bytes c))
      · intro _
        exact Post.throw rfl
    · rfl

/-- The loop over the fragments keeps what every write keeps. -/
theorem sendFragments_view {α : Type} {f : Client → α} (hf : WriteInvariant f)
    (target payload : Bytes) (chunkSize total : UInt64) (S : UInt32) :
    ∀ (rounds : Nat) (seq : UInt64) (senvs : List SendEnv) (c : Client),
      Post (sendFragments lib target payload chunkSize total S rounds seq senvs) c
        (fun _ c' => f c' = f c) := by
  intro rounds
  induction rounds with
  | zero =>
      intro seq senvs c
      exact Post.pure rfl
  | succ rounds ih =>
      intro seq senvs c
      cases senvs with
      | nil => exact Post.waiting
      | cons senv senvs =>
          apply Post.bind
          refine (sendRawWithFlags_view hf target _ _ senv c).mono ?_
          intro r c' hsame
          cases r with
          | error e => exact hsame
          | ok _ => exact (ih (seq + 1) senvs c').mono (fun _ _ h => h.trans hsame)

/-- What `SameSession` compares. -/
def sessionView (c : Client) :
    Option Block32 × ReassemblyTable × List (Option Block32 × FrameResult) × Bool :=
  (c.sessionKey, c.reassembly, c.heard, c.ws.isSome)

/-- No write touches the session. -/
theorem sessionView_writeInvariant : WriteInvariant sessionView :=
  ⟨fun _ _ => rfl, fun g c => by simp [sessionView]⟩

/-- Clients with the same view have the same session. -/
theorem SameSession.of_view {c c' : Client} (h : sessionView c' = sessionView c) :
    SameSession c c' := by
  simp only [sessionView, Prod.mk.injEq] at h
  refine ⟨h.1, h.2.1, h.2.2.1, ?_⟩
  intro hws
  rw [hws, Option.isSome_none, Option.isSome_eq_false_iff, Option.isNone_iff_eq_none] at h
  exact h.2.2.2

/-- `send_raw_with_flags` keeps the session. -/
theorem sendRawWithFlags_session (target : Bytes) (extraFlags : UInt16) (payload : Bytes)
    (senv : SendEnv) (c : Client) :
    Post (sendRawWithFlags lib target extraFlags payload senv) c
      (fun _ c' => SameSession c c') :=
  (sendRawWithFlags_view sessionView_writeInvariant target extraFlags payload senv c).mono
    (fun _ _ h => .of_view h)

/-- `send_fragmented` keeps it, for the stream counter is no part of it. -/
theorem sendFragmented_session (target payload : Bytes) (chunkSize : UInt64)
    (senvs : List SendEnv) (c : Client) :
    Post (sendFragmented lib target payload chunkSize senvs) c (fun _ c' => SameSession c c') := by
  unfold sendFragmented
  apply Post.get_bind
  dsimp only
  apply Post.ite
  · intro _
    exact Post.throw (.refl c)
  intro _
  apply Post.ite
  · intro _
    exact Post.throw (.refl c)
  intro _
  apply Post.ite
  · intro _
    exact Post.throw (.refl c)
  intro _
  apply Post.ite
  · intro _
    exact Post.throw (.refl c)
  intro _
  apply Post.bind
  intro r c' htake
  cases htake
  refine (sendFragments_view sessionView_writeInvariant target payload chunkSize _ _ _ _ _ _).mono
    ?_
  intro r c' hview
  have hsame := SameSession.of_view hview
  exact ⟨hsame.key_eq, hsame.table_eq, hsame.heard_eq, hsame.ws_none⟩

/-- `connect` keeps it. -/
theorem connect_session (env : ConnectEnv) (c : Client) :
    Post (connect env) c (fun _ c' => SameSession c c') := by
  apply Post.bind
  apply Post.modify
  apply Post.get_bind
  cases env with
  | socketFails => exact Post.throw ⟨rfl, rfl, rfl, fun _ => rfl⟩
  | connectFails =>
      dsimp only
      split
      · exact Post.throw ⟨rfl, rfl, rfl, fun _ => rfl⟩
      · exact Post.throw ⟨rfl, rfl, rfl, fun _ => rfl⟩
  | connects peer =>
      dsimp only
      split
      · exact Post.throw ⟨rfl, rfl, rfl, fun _ => rfl⟩
      · exact Post.modify ⟨rfl, rfl, rfl, fun _ => rfl⟩

/-! ### The receiving side -/

/-- What is known of a frame that was accepted under a key. -/
def Verified (lib : WireLibs) (key : Option Block32) (frame : FrameResult) : Prop :=
  ∀ k, key = some k →
    frame.hasMac = true ∧ frame.mac = computeTag lib k frame.rawHeader.val frame.payload

/-- A frame that parses has passed the checks of the session. -/
theorem verified_of_parse {buf : Bytes} {key : Option Block32} {frame : FrameResult} {n : Nat}
    (h : parseFrameBytes lib buf key = .ok (frame, n)) : Verified lib key frame := by
  intro k hk
  subst hk
  exact (Accepts.of_parse lib h).mac_verified

/-- Whatever the stream does, a frame that is read verifies. -/
theorem readFrameFullWithTimeout_verified (key : Option Block32) (frameTimeoutMs : Int)
    (env : FrameEnv) (inbound : Bytes) :
    Post (readFrameFullWithTimeout lib key frameTimeoutMs env) inbound
      (fun r _ => ∀ frame, r = .ok frame → Verified lib key frame) := by
  have herror : ∀ {e : Exn} {frame : FrameResult}, (Except.error e : Except Exn FrameResult) =
      .ok frame → Verified lib key frame := fun h => by cases h
  unfold readFrameFullWithTimeout
  apply Post.bind
  apply Post.trivial
  rintro (e | first) inbound
  · exact fun _ h => herror h
  apply Post.bind
  apply Post.trivial
  rintro (e | ⟨header, ticks⟩) inbound
  · exact fun _ h => herror h
  dsimp only
  apply Post.ite
  · intro _
    exact Post.throw (fun _ h => herror h)
  intro _
  apply Post.bind
  apply Post.trivial
  rintro (e | ⟨buf, left⟩) inbound
  · exact fun _ h => herror h
  dsimp only
  apply Post.bind
  apply Post.settle
  cases hparse : parseFrameBytes lib buf key with
  | error e => exact fun _ h => herror h
  | ok r =>
      apply Post.pure
      intro frame hframe
      cases hframe
      exact verified_of_parse hparse

/-- A frame off the socket has passed the checks. -/
theorem readSocketFrame_verified (deadline : Option Int) (env : FrameEnv) (c : Client) :
    Post (readSocketFrame lib deadline env) c
      (fun r c' => SameSession c c' ∧ ∀ frame, r = .ok frame →
        Verified lib c.sessionKey frame) := by
  have hsame : ∀ inbound, SameSession c (c.setInbound inbound) := fun _ => ⟨rfl, rfl, rfl, id⟩
  have hframe : ∀ timeout inbound, Post (readFrameFullWithTimeout lib c.sessionKey timeout env)
      inbound (fun r inbound => SameSession c (c.setInbound inbound) ∧
        ∀ frame, r = .ok frame → Verified lib c.sessionKey frame) :=
    fun timeout inbound => (readFrameFullWithTimeout_verified c.sessionKey timeout env inbound).mono
      (fun r inbound hr => ⟨hsame inbound, hr⟩)
  unfold readSocketFrame
  apply Post.get_bind
  apply Post.zoom
  apply Post.ite
  · intro _
    cases deadline with
    | none => exact hframe _ _
    | some deadline =>
        apply Post.bind
        apply Post.trivial
        intro r inbound
        cases r with
        | error e => exact ⟨hsame inbound, fun _ h => by cases h⟩
        | ok _ => exact hframe _ inbound
  · intro _
    cases deadline with
    | none => exact Post.throw ⟨hsame _, fun _ h => by cases h⟩
    | some deadline =>
        apply Post.bind
        apply Post.trivial
        intro r inbound
        cases r with
        | error e => exact ⟨hsame inbound, fun _ h => by cases h⟩
        | ok _ => exact Post.throw ⟨hsame inbound, fun _ h => by cases h⟩

/-- So has a frame off the WebSocket. -/
theorem readWsFrame_verified (env : FrameEnv) (c : Client) :
    Post (readWsFrame lib env) c
      (fun r c' => SameSession c c' ∧ ∀ frame, r = .ok frame →
        Verified lib c.sessionKey frame) := by
  unfold readWsFrame
  apply Post.get_bind
  apply Post.bind
  apply Post.settle
  cases env.message with
  | error e => exact ⟨.refl c, fun _ h => by cases h⟩
  | ok message =>
      apply Post.bind
      apply Post.settle
      cases hparse : parseFrameFromBuffer lib message c.sessionKey with
      | error e => exact ⟨.refl c, fun _ h => by cases h⟩
      | ok r =>
          apply Post.pure
          refine ⟨.refl c, fun frame hframe => ?_⟩
          cases hframe
          exact verified_of_parse hparse

/-- The two states of a read: the frame is in the history under the current
key and verifies, or nothing of the session has changed. -/
def FrameRead (lib : WireLibs) (c : Client) (r : Except Exn FrameResult) (c' : Client) : Prop :=
  match r with
  | .ok frame => Verified lib c.sessionKey frame ∧ c'.sessionKey = c.sessionKey ∧
      c'.reassembly = c.reassembly ∧ c'.heard = c.heard ++ [(c.sessionKey, frame)] ∧
      (c.ws = none → c'.ws = none)
  | .error _ => SameSession c c'

/-- So has a frame off either. -/
theorem readTransportFrame_read (deadline : Option Int) (env : FrameEnv) (c : Client) :
    Post (readTransportFrame lib deadline env) c (FrameRead lib c) := by
  have hread : Post (readActiveFrame lib deadline env) c
      (fun r c' => SameSession c c' ∧ ∀ frame, r = .ok frame →
        Verified lib c.sessionKey frame) := by
    apply Post.get_bind
    apply Post.ite
    · intro _
      exact readWsFrame_verified env c
    · intro _
      exact readSocketFrame_verified deadline env c
  unfold readTransportFrame
  apply Post.get_bind
  apply Post.bind
  refine hread.mono ?_
  intro r c' hr
  obtain ⟨hsame, hverified⟩ := hr
  cases r with
  | error e => exact hsame
  | ok frame =>
      apply Post.bind
      apply Post.modify
      apply Post.pure
      exact ⟨hverified frame rfl, hsame.key_eq, hsame.table_eq,
        by rw [hear, hsame.heard_eq], hsame.ws_none⟩

/-- A view of the client that is the same whatever has been read off the
stream, put on record or buffered. -/
structure ReadInvariant {α : Type} (f : Client → α) : Prop where
  inbound : ∀ bytes c, f (c.setInbound bytes) = f c
  hear : ∀ key frame c, f (c.hear key frame) = f c
  table : ∀ (table : ReassemblyTable) (c : Client), f { c with reassembly := table } = f c

/-- Reading a frame keeps what every read keeps. -/
theorem readTransportFrame_view {α : Type} {f : Client → α} (hf : ReadInvariant f)
    (deadline : Option Int) (env : FrameEnv) (c : Client) :
    Post (readTransportFrame lib deadline env) c (fun _ c' => f c' = f c) := by
  have hread : Post (readActiveFrame lib deadline env) c (fun _ c' => f c' = f c) := by
    apply Post.get_bind
    apply Post.ite
    · intro _
      apply Post.get_bind
      apply Post.bind
      apply Post.settle
      cases env.message with
      | error e => rfl
      | ok message =>
          apply Post.bind
          apply Post.settle
          cases parseFrameFromBuffer lib message c.sessionKey with
          | error e => rfl
          | ok r => exact Post.pure rfl
    · intro _
      apply Post.get_bind
      exact Post.zoom (Post.trivial (fun _ bytes => hf.inbound bytes c))
  unfold readTransportFrame
  apply Post.get_bind
  apply Post.bind
  refine hread.mono ?_
  intro r c' hsame
  cases r with
  | error e => exact hsame
  | ok frame =>
      apply Post.bind
      apply Post.modify
      exact Post.pure ((hf.hear _ _ _).trans hsame)

/-- Receiving leaves such a view alone. -/
theorem recvFrameWith_view {α : Type} {f : Client → α} (hf : ReadInvariant f)
    (deadline : Option Int) : ∀ (envs : List FrameEnv) (c : Client),
      Post (recvFrameWith lib deadline envs) c (fun _ c' => f c' = f c) := by
  intro envs
  induction envs with
  | nil =>
      intro c
      exact Post.waiting
  | cons env envs ih =>
      intro c
      apply Post.bind
      refine (readTransportFrame_view hf deadline env c).mono ?_
      intro r c₁ hread
      cases r with
      | error e => exact hread
      | ok frame =>
          apply Post.ite
          · intro _
            apply Post.bind
            intro r c₂ habsorb
            rw [exec_absorb] at habsorb
            cases habsorb
            have htable : ∀ table : ReassemblyTable, f { c₁ with reassembly := table } = f c :=
              fun table => (hf.table table c₁).trans hread
            split
            · rename_i complete _
              cases complete with
              | none => exact (ih _).mono (fun _ _ h => h.trans (htable _))
              | some result => exact Post.pure (htable _)
            · exact htable _
          · intro _
            exact Post.pure hread

end Client

end Vynkor
