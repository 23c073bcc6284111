import VynkorSdk.ClientAuthenticity
import VynkorSdk.ClientDelivery
import VynkorSdk.Lockstep

/-!
# Connecting again

Member `connect()` replaces the socket and nothing else: a session key and the
fragment sets of an earlier connection stay.  What an application can observe
on the new connection is what a new client would show exactly if there is no
key and every set left over has reached its timeout.

The comparison runs both clients side by side (`SameFrom`).  They may hold
different leftover sets, as long as pruning at any later time makes them equal.
-/

namespace Vynkor

open ByteCodec KeyedTable Procedure

namespace Client

variable (lib : WireLibs) (proto : ProtoLib)

/-- What an application and its peer see of a run: for each operation its
outcome and the bytes on the stream after it.  An operation that waits ends
the run. -/
def observe : List Op → Client → List (Option (Except Exn Output × Bytes))
  | [], _ => []
  | op :: ops, c =>
      match exec (op.perform lib proto) c with
      | none => [none]
      | some (r, c') => some (r, c'.outbound) :: observe ops c'

/-- The operation absorbs fragments at `T` or later. -/
def Op.After (T : Int) : Op → Prop
  | .registerFull _ _ _ _ _ envs => ∀ env ∈ envs, T ≤ env.absorbNow
  | .recvFrame envs => ∀ env ∈ envs, T ≤ env.absorbNow
  | .recv envs => ∀ env ∈ envs, T ≤ env.absorbNow
  | .recvTimeout _ _ envs => ∀ env ∈ envs, T ≤ env.absorbNow
  | .waitForResponse _ _ calls => ∀ envs ∈ calls, ∀ env ∈ envs, T ≤ env.absorbNow
  | _ => True

/-- The clients differ in their records, and in fragment sets that no time
from `T` on will find. -/
structure SameFrom (T : Int) (c d : Client) : Prop where
  path_eq : c.socketPath = d.socketPath
  fd_eq : c.fd = d.fd
  ws_eq : c.ws = d.ws
  secret_eq : c.secret = d.secret
  device_eq : c.deviceId = d.deviceId
  key_eq : c.sessionKey = d.sessionKey
  stream_eq : c.nextStreamId = d.nextStreamId
  table_eq : ∀ now, T ≤ now → prune now c.reassembly = prune now d.reassembly
  ws_none : c.ws = none

variable {lib proto} {T : Int}

/-- Absorbing depends on the pruned table only. -/
theorem absorbFragment_congr (call : AbsorbCall) {t t' : ReassemblyTable}
    (h : prune call.now t = prune call.now t') :
      absorbFragment call t = absorbFragment call t' := by
  unfold absorbFragment
  rw [h]

/-! ### The two clients side by side -/

/-- Clients that are the same from `T` on stay so, call by call. -/
theorem sameFrom_lockstep : Lockstep (SameFrom T) (fun env => T ≤ env.absorbNow) where
  fd_eq h := h.fd_eq
  ws_eq h := h.ws_eq
  key_eq h := h.key_eq
  stream_eq h := h.stream_eq
  absorb_eq h _ hT _ := absorbFragment_congr _ (h.table_eq _ hT)
  setInbound h _ := { h with fd_eq := by simp only [setInbound, h.fd_eq] }
  setOutbound h _ := { h with fd_eq := by simp only [setOutbound, h.fd_eq] }
  sendWs h _ := { h with ws_eq := by rw [h.ws_eq], ws_none := by rw [h.ws_none]; rfl }
  close h := { h with ws_eq := rfl, fd_eq := rfl, ws_none := rfl }
  hear h _ _ := { h with }
  setTable h _ := { h with table_eq := fun _ _ => rfl }
  setStream h _ := { h with stream_eq := rfl }

/-- They connect alike. -/
theorem connect_agree {c d : Client} (h : SameFrom T c d) (env : ConnectEnv) :
    Agree (SameFrom T) (connect env) c d := by
  apply Agree.bind (Agree.modify (sameFrom_lockstep.close h))
  intro _ c d h
  unfold Agree
  rw [exec_bind_ok (exec_get c), exec_bind_ok (exec_get d)]
  cases env with
  | socketFails => exact .some ⟨rfl, h⟩
  | connectFails =>
      dsimp only
      rw [h.path_eq]
      split
      · exact .some ⟨rfl, h⟩
      · exact .some ⟨rfl, h⟩
  | connects peer =>
      dsimp only
      rw [h.path_eq]
      split
      · exact .some ⟨rfl, h⟩
      · exact .some ⟨rfl, { h with fd_eq := rfl, path_eq := rfl }⟩

/-- They register alike. -/
theorem registerFull_agree {c d : Client} (h : SameFrom T c d) (pluginId version : Bytes)
    (manifest : PluginManifest) (jwtToken : Bytes) (senv : SendEnv) {envs : List FrameEnv}
    (hT : ∀ env ∈ envs, T ≤ env.absorbNow) :
    Agree (SameFrom T)
      (registerFull lib proto pluginId version manifest jwtToken senv envs) c d := by
  have hexchange : Agree (SameFrom T)
      (registerExchange lib proto pluginId version manifest jwtToken senv envs) c d := by
    apply Agree.get_bind (by simp only [h.device_eq])
    apply Agree.bind (sameFrom_lockstep.sendRawWithFlags h _ _ _ senv)
    intro _ c d h
    exact sameFrom_lockstep.recvDecode none h hT
  apply Agree.bind hexchange
  intro answer c d h
  exact Lockstep.acceptRegistration (fun h => h.secret_eq)
    (fun h key => { h with key_eq := by rw [h.key_eq] }) h pluginId answer

/-- **One operation** from either client. -/
theorem perform_agree {c d : Client} (h : SameFrom T c d) {op : Op} (hop : op.After T) :
    Agree (SameFrom T) (op.perform lib proto) c d := by
  have hreads : op.Reads (fun env => T ≤ env.absorbNow) := by
    cases op <;> exact hop
  apply sameFrom_lockstep.perform h hreads
  · intro env _
    exact connect_agree h env
  · intro _ _ _ _ _ _ hop
    rw [hop] at hreads
    exact registerFull_agree h _ _ _ _ _ hreads

/-- **Whole runs** show the same from either client. -/
theorem observe_eq : ∀ (ops : List Op) (c d : Client), SameFrom T c d →
    (∀ op ∈ ops, op.After T) → observe lib proto ops c = observe lib proto ops d := by
  intro ops
  induction ops with
  | nil =>
      intro c d _ _
      rfl
  | cons op ops ih =>
      intro c d h hops
      rw [observe, observe]
      rcases (perform_agree h (hops op (by simp))).split with
        ⟨hc, hd⟩ | ⟨r, c', d', hc, hd, h'⟩
      · rw [hc, hd]
      · rw [hc, hd]
        dsimp only
        rw [sameFrom_lockstep.outbound_eq h',
          ih c' d' h' (fun o ho => hops o (List.mem_cons_of_mem _ ho))]

/-! ### What is left of the old connection -/

/-- A new client with the same socket path, secret and device id.  Its stream
ids begin where the old client's go on. -/
def fresh (c : Client) : Client :=
  { socketPath := c.socketPath, secret := c.secret, deviceId := c.deviceId,
    nextStreamId := c.nextStreamId }

/-- No key is set, and no fragment set is buffered that a fragment arriving at
`T` or later would find. -/
def NothingLeft (T : Int) (c : Client) : Prop :=
  c.sessionKey = none ∧
    ∀ S b, c.reassembly.lookup S = some b → reassemblyTimeout ≤ T - b.firstSeen

/-- The client on its new connection. -/
def connected (peer : Bytes) (c : Client) : Client :=
  { c with ws := none, fd := some { inbound := peer } }

/-- `connect()` succeeds if the path fits, and replaces the transport. -/
theorem exec_connect {peer : Bytes} {c c₁ : Client} :
    exec (connect (.connects peer)) c = some (.ok (), c₁) ↔
      c.socketPath.length < sunPathSize ∧ c₁ = c.connected peer := by
  have hout : exec (connect (.connects peer)) c =
      if c.socketPath.length ≥ sunPathSize then
        some (.error (.io (ascii "socket path too long: " ++ c.socketPath)),
          { c with ws := none, fd := none })
      else some (.ok (), c.connected peer) := by
    unfold connect close
    rw [exec_bind_ok (exec_modify _ _), exec_bind_ok (exec_get _)]
    dsimp only
    split
    · rfl
    · rfl
  rw [hout]
  by_cases hpath : c.socketPath.length ≥ sunPathSize
  · rw [if_pos hpath]
    constructor
    · intro h
      cases h
    · intro h
      exact absurd h.1 (Nat.not_lt.mpr hpath)
  · rw [if_neg hpath]
    constructor
    · intro h
      cases h
      exact ⟨Nat.not_le.mp hpath, rfl⟩
    · intro h
      rw [h.2]

/-- With nothing left, the old client and a new one cannot be told apart. -/
theorem NothingLeft.sameFrom {c : Client} (h : NothingLeft T c) (peer : Bytes) :
    SameFrom T (c.connected peer) (c.fresh.connected peer) where
  path_eq := rfl
  fd_eq := rfl
  ws_eq := rfl
  secret_eq := rfl
  device_eq := rfl
  key_eq := h.1
  stream_eq := rfl
  ws_none := rfl
  table_eq := by
    intro now hnow
    have hempty : ∀ t : ReassemblyTable,
        (∀ S b, t.lookup S = some b → reassemblyTimeout ≤ T - b.firstSeen) →
        prune now t = ∅ := by
      intro t ht
      apply eq_empty_of_lookup_none
      intro S
      by_contra hfound
      obtain ⟨b, hb⟩ := Option.ne_none_iff_exists'.mp hfound
      obtain ⟨hb, hage⟩ := lookup_prune.mp hb
      have hold := ht S b hb
      omega
    have hfresh : prune now (∅ : ReassemblyTable) = ∅ :=
      hempty ∅ (fun S b hb => by simp at hb)
    exact (hempty c.reassembly h.2).trans hfresh.symm

/-! ### The frames of a registration -/

/-- The operation sends a `PluginRegister`. -/
def Op.Registers : Op → Prop
  | .registerFull _ _ _ _ _ _ => True
  | .send _ env _ => ∃ register, env.payload = some (.pluginRegister register)
  | _ => False

/-- Whatever was written since `c` is a front of one frame, which announces a
tag as `tagged` says. -/
def WroteFrame (tagged : Bool) (c c' : Client) : Prop :=
  c'.outbound = c.outbound ∨
    ∃ frame sent, c'.outbound = c.outbound ++ sent ∧ sent <+: frame ∧
      hasFlag (flagsField frame) flagMacPresent = tagged

/-- What `write_all` puts out is a front of the frame. -/
theorem writeAll_writes : ∀ (writes : List WriteResult) (frame out : Bytes),
    Post (writeAll writes frame) out
      (fun _ out' => ∃ sent, out' = out ++ sent ∧ sent <+: frame) := by
  intro writes
  induction writes with
  | nil =>
      intro frame out
      cases frame with
      | nil => exact Post.pure ⟨[], by simp, List.nil_prefix⟩
      | cons b frame => exact Post.waiting
  | cons write writes ih =>
      intro frame out
      cases frame with
      | nil => exact Post.pure ⟨[], by simp, List.nil_prefix⟩
      | cons b frame =>
          cases write with
          | eintr => exact ih (b :: frame) out
          | failed => exact Post.throw ⟨[], by simp, List.nil_prefix⟩
          | stuck => exact Post.throw ⟨[], by simp, List.nil_prefix⟩
          | wrote k =>
              apply Post.bind
              apply Post.modify
              refine (ih _ _).mono ?_
              intro r out' hout
              obtain ⟨sent, rfl, hfront⟩ := hout
              refine ⟨(b :: frame).take (k + 1) ++ sent, by simp, ?_⟩
              have hsplit := List.take_append_drop (k + 1) (b :: frame)
              nth_rewrite 2 [← hsplit]
              exact (List.prefix_append_right_inj _).mpr hfront

/-- The wire header announces a tag exactly if the flags did: compression sets
another flag. -/
theorem packFrameRaw_tagged {target payload frame : Bytes} {flags : UInt16}
    {key : Option Block32} (h : packFrameRaw lib target flags payload key = .ok frame) :
    hasFlag (flagsField frame) flagMacPresent = hasFlag flags flagMacPresent := by
  have hfield : ∀ (wireFlags : UInt16) (wire rest : Bytes), wire.length ≤ payload.length →
      payload.length ≤ maxPayloadSize →
      flagsField ((buildHeader wireFlags (targetToBytes target) wire).val ++ wire ++ rest) =
        wireFlags := by
    intro wireFlags wire rest hwire hsize
    have hlen : wire.length < 256 ^ 4 := by
      simp only [maxPayloadSize] at hsize
      omega
    exact (headerBytes_fields hlen (List.append_assoc _ _ _)).2.1
  have hcompressed : hasFlag (flags ||| flagCompressed) flagMacPresent =
      hasFlag flags flagMacPresent := by
    rw [hasFlag_or, show hasFlag flagCompressed flagMacPresent = false from rfl, Bool.or_false]
  unfold packFrameRaw at h
  split at h
  · cases h
  rename_i hsize
  dsimp only at h
  cases hwire : wirePayload lib flags payload with
  | error e => rw [hwire] at h; cases h
  | ok out =>
      obtain ⟨wireFlags, wire⟩ := out
      rw [hwire] at h
      cases h
      unfold wirePayload at hwire
      split at hwire
      · split at hwire
        · cases hwire
        · split at hwire
          · rename_i hsmall
            cases hwire
            rw [hfield _ _ _ (Nat.le_of_lt hsmall) (Nat.not_lt.mp hsize), hcompressed]
          · cases hwire
            rw [hfield _ _ _ (Nat.le_refl _) (Nat.not_lt.mp hsize)]
      · cases hwire
        rw [hfield _ _ _ (Nat.le_refl _) (Nat.not_lt.mp hsize)]

/-- A send writes a front of a frame, tagged exactly when there is a session key. -/
theorem sendRaw_wroteFrame {c : Client} (hws : c.ws = none) (target payload : Bytes)
    (senv : SendEnv) :
    Post (sendRawWithFlags lib target 0 payload senv) c
      (fun _ c' => WroteFrame c.sessionKey.isSome c c') := by
  have htag := (baseFlags_or c.sessionKey (Or.inl rfl : SendFlags 0)).2.1
  unfold sendRawWithFlags
  apply Post.get_bind
  dsimp only
  rw [hws, if_neg (by simp)]
  apply Post.bind
  apply Post.settle
  cases hpack : packFrameRaw lib target _ payload c.sessionKey with
  | error e => exact Or.inl rfl
  | ok frame =>
      have hframe : hasFlag (flagsField frame) flagMacPresent = c.sessionKey.isSome :=
        (packFrameRaw_tagged hpack).trans htag
      apply Post.get_bind
      apply Post.ite
      · intro hfd
        apply Post.zoom
        refine (writeAll_writes _ frame c.outbound).mono ?_
        intro r out hout
        obtain ⟨sent, rfl, hfront⟩ := hout
        obtain ⟨sock, hsock⟩ := Option.isSome_iff_exists.mp hfd
        exact Or.inr ⟨frame, sent, by simp [outbound, setOutbound, hsock], hfront, hframe⟩
      · intro _
        exact Post.throw (Or.inl rfl)

/-- What comes in is no part of what was written. -/
theorem setInbound_outbound (bytes : Bytes) (c : Client) :
    (c.setInbound bytes).outbound = c.outbound := by
  cases hfd : c.fd with
  | none => simp [outbound, setInbound, hfd]
  | some sock => simp [outbound, setInbound, hfd]

/-- Receiving writes nothing. -/
theorem outbound_readInvariant : ReadInvariant outbound :=
  ⟨setInbound_outbound, fun _ _ _ => rfl, fun _ _ => rfl⟩

/-- A registration writes one frame, which is tagged exactly if a key is set
when it begins. -/
theorem perform_wroteFrame {c : Client} (hws : c.ws = none) {op : Op} (hop : op.Registers) :
    Post (op.perform lib proto) c (fun _ c' => WroteFrame c.sessionKey.isSome c c') := by
  cases op with
  | registerFull pluginId version manifest jwtToken senv envs =>
      have hexchange : Post (registerExchange lib proto pluginId version manifest jwtToken senv
          envs) c (fun _ c' => WroteFrame c.sessionKey.isSome c c') := by
        apply Post.get_bind
        apply Post.bind
        refine (sendRaw_wroteFrame hws _ _ senv).mono ?_
        intro r c₁ hsend
        cases r with
        | error e => exact hsend
        | ok _ =>
            have hkeep : ∀ c₂ : Client, c₂.outbound = c₁.outbound →
                WroteFrame c.sessionKey.isSome c c₂ := by
              intro c₂ hout
              unfold WroteFrame
              rw [hout]
              exact hsend
            apply Post.bind
            refine (recvFrameWith_view outbound_readInvariant none envs c₁).mono ?_
            intro r c₂ hrecv
            cases r with
            | error e => exact hkeep c₂ hrecv
            | ok result => exact Post.settle (hkeep c₂ hrecv)
      apply Post.bind_return
      apply Post.bind
      refine hexchange.mono ?_
      intro r c₁ hwrote
      cases r with
      | error e => exact hwrote
      | ok answer =>
          unfold acceptRegistration
          apply Post.get_bind
          split
          · apply Post.bind
            apply Post.settle
            split
            · apply Post.bind
              apply Post.modify
              exact Post.pure hwrote
            · exact hwrote
          · exact Post.throw hwrote
          · exact Post.throw hwrote
  | send target env senv => exact (sendRaw_wroteFrame hws target _ senv).bind_return
  | connect env => exact hop.elim
  | close => exact hop.elim
  | sendRawWithFlags target extraFlags payload senv => exact hop.elim
  | sendFragmented target payload chunkSize senvs => exact hop.elim
  | recvFrame envs => exact hop.elim
  | recv envs => exact hop.elim
  | recvTimeout timeoutMs now envs => exact hop.elim
  | waitForResponse deadline isTerminal calls => exact hop.elim

/-! ### Reconnecting -/

/-- The registrations of a run are made before a key is set. -/
def KeylessRegistrations (lib : WireLibs) (proto : ProtoLib) (ops : List Op) (c : Client) : Prop :=
  Along lib proto (fun c op => op.Registers → c.sessionKey = none) ops c

/-- The registrations of a run write frames without a tag. -/
def CrcOnlyRegistrations (lib : WireLibs) (proto : ProtoLib) (ops : List Op) (c : Client) : Prop :=
  Along lib proto (fun c op => op.Registers →
    Post (op.perform lib proto) c (fun _ c' => WroteFrame false c c')) ops c

/-- Once `connect()` succeeds, at `T` or later the client shows what a new
client shows on the same connection, and its registrations are CRC-only as long
as the new client's are made without a key. -/
def StartsFresh (lib : WireLibs) (proto : ProtoLib) (T : Int) (c : Client) : Prop :=
  ∀ peer c₁ d₁, exec (connect (.connects peer)) c = some (.ok (), c₁) →
    exec (connect (.connects peer)) c.fresh = some (.ok (), d₁) →
    ∀ ops : List Op, (∀ op ∈ ops, op.After T) →
      observe lib proto ops c₁ = observe lib proto ops d₁ ∧
      (KeylessRegistrations lib proto ops d₁ → CrcOnlyRegistrations lib proto ops c₁)

/-- A client that is the same from `T` on registers without tags too. -/
theorem SameFrom.crcOnly : ∀ (ops : List Op) (c d : Client), SameFrom T c d →
    (∀ op ∈ ops, op.After T) → KeylessRegistrations lib proto ops d →
    CrcOnlyRegistrations lib proto ops c := by
  intro ops
  induction ops with
  | nil =>
      intro c d _ _ _
      trivial
  | cons op ops ih =>
      intro c d h hops hkeyless
      constructor
      · intro hop
        have hwrote : Post (op.perform lib proto) c
            (fun _ c' => WroteFrame c.sessionKey.isSome c c') := perform_wroteFrame h.ws_none hop
        rw [h.key_eq, hkeyless.1 hop] at hwrote
        exact hwrote
      · intro r c' hc'
        rcases (perform_agree h (hops op (by simp))).split with
          ⟨hc, _⟩ | ⟨r', c'', d', hc, hd, h'⟩
        · rw [hc] at hc'
          cases hc'
        · rw [hc] at hc'
          cases hc'
          exact ih c' d' h' (fun o ho => hops o (List.mem_cons_of_mem _ ho)) (hkeyless.2 r d' hd)

/-- A client with nothing left over starts afresh. -/
theorem NothingLeft.startsFresh {c : Client} (h : NothingLeft T c) : StartsFresh lib proto T c := by
  intro peer c₁ d₁ hc hd ops hops
  obtain ⟨_, rfl⟩ := exec_connect.mp hc
  obtain ⟨_, rfl⟩ := exec_connect.mp hd
  have hsame := h.sameFrom peer
  exact ⟨observe_eq ops _ _ hsame hops, SameFrom.crcOnly ops _ _ hsame hops⟩

/-- The two clients of a fresh start show the same. -/
theorem StartsFresh.observe {c : Client} (h : StartsFresh lib proto T c)
    (hpath : c.socketPath.length < sunPathSize) (peer : Bytes) (ops : List Op)
    (hops : ∀ op ∈ ops, op.After T) :
    Client.observe lib proto ops (c.connected peer) =
      Client.observe lib proto ops (c.fresh.connected peer) :=
  (h peer _ _ (exec_connect.mpr ⟨hpath, rfl⟩) (exec_connect.mpr ⟨hpath, rfl⟩) ops hops).1

/-- What a client writes for an empty payload: a header, and a tag under a
key. -/
theorem observe_send_empty {c : Client} (hws : c.ws = none) (hfd : c.fd.isSome)
    (hout : c.outbound = []) :
    ∃ frame, Client.observe lib proto [.sendRawWithFlags [] 0 [] slowSendEnv] c =
        [some (.ok .done, frame)] ∧
      frame.length = 44 + if c.sessionKey.isSome then 32 else 0 := by
  let flags := baseFlags c.sessionKey ||| 0
  let header := buildHeader flags (targetToBytes []) []
  let tag := c.sessionKey.map (fun key => computeTag lib key header.val [])
  let frame := header.val ++ [] ++ (tag.map Subtype.val).getD []
  have hpack : packFrameRaw lib [] flags [] c.sessionKey = .ok frame := rfl
  have hlength : frame.length = 44 + if c.sessionKey.isSome then 32 else 0 := by
    have htag : ((tag.map Subtype.val).getD []).length = if c.sessionKey.isSome then 32 else 0 := by
      cases hkey : c.sessionKey with
      | none => simp [tag, hkey]
      | some key => simp [tag, hkey, (computeTag lib key header.val []).2]
    simp only [frame, List.length_append, header.2, htag, List.length_nil, Nat.add_zero]
  have hsize : frame.length ≤ maxFrameSize := by
    rw [hlength]
    simp only [maxFrameSize, frameHeaderSize, macTagLen]
    split <;> omega
  obtain ⟨c', hsend, hsent⟩ :=
    sendRawWithFlags_packed hws hfd hpack (slowSendEnv_steady.mono hsize)
  have hperform : exec ((Op.sendRawWithFlags [] 0 [] slowSendEnv).perform lib proto) c =
      some (.ok .done, c') := exec_bind_ok hsend
  refine ⟨frame, ?_, hlength⟩
  rw [Client.observe, hperform]
  dsimp only
  rw [hsent.outbound_eq, hout, List.nil_append, Client.observe]

/-- A key left over shows in the length of the first frame. -/
theorem StartsFresh.key_none {c : Client} (h : StartsFresh lib proto T c)
    (hpath : c.socketPath.length < sunPathSize) : c.sessionKey = none := by
  obtain ⟨frame, hc, hlen⟩ := @observe_send_empty lib proto (c.connected []) rfl rfl rfl
  obtain ⟨frame', hd, hlen'⟩ := @observe_send_empty lib proto (c.fresh.connected []) rfl rfl rfl
  have hsame := h.observe hpath [] [.sendRawWithFlags [] 0 [] slowSendEnv] (by simp [Op.After])
  rw [hc, hd] at hsame
  simp only [List.cons.injEq, Option.some.injEq, Prod.mk.injEq, and_true, true_and] at hsame
  rw [hsame, hlen'] at hlen
  cases hkey : c.sessionKey with
  | none => rfl
  | some key => simp [connected, fresh, hkey] at hlen

/-- A stream that keeps going, at time `T`. -/
def steadyFrameEnv (T : Int) : FrameEnv := { slowFrameEnv with absorbNow := T }

/-- One empty fragment, the first of `n` of stream `S`: a client without a key
absorbs it. -/
theorem absorbs_first_fragment (lib : WireLibs) (T : Int) (S : UInt32) (n : Nat) :
    ∃ peer, ∀ c : Client, c.sessionKey = none → ∃ (r : FrameResult) (c₁ : Client),
      r.payload = fragmentHeaderBytes S 0 n ∧ c₁.reassembly = c.reassembly ∧
      exec (recvFrame lib [steadyFrameEnv T]) (c.connected peer) =
        exec (do
          let complete ← absorb (steadyFrameEnv T) r
          match complete with
          | none => waiting
          | some result => pure result) c₁ := by
  have hsmall : (fragmentHeaderBytes S 0 n).length ≤ maxPayloadSize := by
    rw [fragmentHeaderBytes, packFragHeader_length]
    decide
  have hmac : hasFlag flagFragmented flagMacPresent = (none : Option Block32).isSome := by decide
  obtain ⟨frame, _, hparse⟩ := packFrameWs_parses lib [] hsmall (by decide) hmac
  have hdelimited := selfDelimited_of_parse hparse
  have hcarries : Carries lib none flagFragmented (fragmentHeaderBytes S 0 n) frame :=
    ⟨hdelimited, size_le_of_delimited hdelimited, _, hparse, rfl,
      show flagFragmented = _ by decide⟩
  refine ⟨frame, ?_⟩
  intro c hkey
  have hlistening : Listening none (frame ++ []) c.reassembly (c.connected frame) :=
    ⟨hkey, rfl, rfl, by simp [inbound, connected], rfl⟩
  have hsteady : Steady frameReadTimeoutMs maxFrameSize (steadyFrameEnv T) :=
    { slowFrameEnv_steady with }
  obtain ⟨r, c₁, hread, hpayload, hflags, hc₁⟩ :=
    readTransportFrame_steady hlistening hcarries hsteady
  have hfragmented : hasFlag r.flags flagFragmented = true := by
    rw [hflags]
    decide
  refine ⟨r, c₁, hpayload, hc₁.table_eq, ?_⟩
  unfold recvFrame
  rw [recvFrameWith, exec_bind_ok hread, if_pos hfragmented]
  rfl

/-- A set with another total that is still young refuses the fragment. -/
theorem absorbFragment_mismatch (T seen : Int) {r : FrameResult} {S : UInt32} {n : Nat}
    (hn : 1 ≤ n ∧ n ≤ 65535) (hr : r.payload = fragmentHeaderBytes S 0 n) {t : ReassemblyTable}
    {b : ReassemblyBuf} (hb : t.lookup S = some b) (hage : T - b.firstSeen < reassemblyTimeout)
    (htotal : b.total ≠ UInt16.ofNat n) :
    ∃ e, (absorbFragment ⟨T, seen, r⟩ t).1 = .error e := by
  have hpos : ¬ (UInt16.ofNat n = 0 ∨ UInt16.ofNat 0 ≥ UInt16.ofNat n) := by
    have hnat : (UInt16.ofNat n).toNat = n := ofNat_toNat_of_le hn.2
    have hlt : (0 : UInt16) < UInt16.ofNat n := by
      rw [UInt16.lt_iff_toNat_lt, hnat]
      exact hn.1
    intro h
    rcases h with h0 | hge
    · rw [h0] at hlt
      exact absurd hlt (by decide)
    · exact absurd hlt (UInt16.not_lt.mpr hge)
  have hheader : parseFragHeader r.payload =
      some ⟨(S &&& 0xFFFF).toUInt16, UInt16.ofNat 0, UInt16.ofNat n, S⟩ := by
    rw [hr, fragmentHeaderBytes, ← List.append_nil (packFragHeader _ _ _ _), parseFragHeader_pack]
  have hfound : (prune T t).lookup S = some b := lookup_prune.mpr ⟨hb, hage⟩
  unfold absorbFragment
  dsimp only
  rw [hheader]
  dsimp only
  rw [if_neg hpos, hfound]
  dsimp only
  rw [if_pos htotal]
  exact ⟨_, rfl⟩

/-- An empty table takes it. -/
theorem absorbFragment_fresh (T seen : Int) {r : FrameResult} {S : UInt32} {n : Nat}
    (hn : 1 ≤ n ∧ n ≤ 65535) (hr : r.payload = fragmentHeaderBytes S 0 n) :
    ∃ complete, (absorbFragment ⟨T, seen, r⟩ ∅).1 = .ok complete := by
  have hfrag : IsFragment S (List.replicate n []) 0 ⟨T, seen, r⟩ :=
    ⟨by rw [List.length_replicate]; exact hn.1, by simpa using hr⟩
  obtain ⟨hmore, hdone⟩ := hfrag.opens (by simpa using hn) (by simp) TableInv.empty
    (AList.lookup_empty _) prune_empty_room
  by_cases hall : ∀ j < (List.replicate n ([] : Bytes)).length, j = 0
  · exact ⟨_, (hdone hall).1⟩
  · have hmissing : ∃ j < (List.replicate n ([] : Bytes)).length, ¬ j = 0 := by
      by_contra hnone
      exact hall (fun j hj => by_contra fun hj0 => hnone ⟨j, hj, hj0⟩)
    exact ⟨_, (hmore hmissing).1⟩

/-- A young set left over refuses a fragment that a new client takes. -/
theorem StartsFresh.sets_old {c : Client} (h : StartsFresh lib proto T c)
    (hpath : c.socketPath.length < sunPathSize) {S : UInt32} {b : ReassemblyBuf}
    (hb : c.reassembly.lookup S = some b) : reassemblyTimeout ≤ T - b.firstSeen := by
  by_contra hage
  have hkey := h.key_none hpath
  obtain ⟨n, hn, htotal⟩ : ∃ n, (1 ≤ n ∧ n ≤ 65535) ∧ b.total ≠ UInt16.ofNat n := by
    by_cases hone : b.total = 1
    · exact ⟨2, by omega, by rw [hone]; decide⟩
    · exact ⟨1, by omega, hone⟩
  obtain ⟨peer, hpeer⟩ := absorbs_first_fragment lib T S n
  obtain ⟨r, c₁, hr, htable, hold⟩ := hpeer c hkey
  obtain ⟨r', d₁, hr', hempty, hnew⟩ := hpeer c.fresh rfl
  have hsame := h.observe hpath peer [.recvFrame [steadyFrameEnv T]]
    (by simp [Op.After, steadyFrameEnv])
  obtain ⟨e, c₂, hthrows⟩ : ∃ e c₂, exec ((Op.recvFrame [steadyFrameEnv T]).perform lib proto)
      (c.connected peer) = some (.error e, c₂) := by
    obtain ⟨e, he⟩ := absorbFragment_mismatch T (steadyFrameEnv T).absorbSeen hn hr hb
      (Int.not_le.mp hage) htotal
    have habsorb := exec_absorb (steadyFrameEnv T) r c₁
    dsimp only [steadyFrameEnv] at habsorb he
    rw [htable, he] at habsorb
    exact ⟨e, _, exec_bind_error (hold.trans (exec_bind_error habsorb))⟩
  obtain ⟨complete, hcomplete⟩ := absorbFragment_fresh T (steadyFrameEnv T).absorbSeen hn hr'
  have habsorb := exec_absorb (steadyFrameEnv T) r' d₁
  dsimp only [steadyFrameEnv] at habsorb hcomplete
  rw [hempty, show c.fresh.reassembly = ∅ from rfl, hcomplete] at habsorb
  rw [Client.observe, hthrows, Client.observe] at hsame
  cases complete with
  | none =>
      have hwaits : exec ((Op.recvFrame [steadyFrameEnv T]).perform lib proto)
          (c.fresh.connected peer) = none := by
        have hnone := hnew.trans (exec_bind_ok habsorb)
        rw [Op.perform, exec_bind, hnone]
        rfl
      rw [hwaits] at hsame
      simp at hsame
  | some result =>
      have hreturns := hnew.trans (exec_bind_ok habsorb)
      have hperform : exec ((Op.recvFrame [steadyFrameEnv T]).perform lib proto)
          (c.fresh.connected peer) = _ := exec_bind_ok hreturns
      rw [hperform] at hsame
      simp at hsame

/-- A client that starts afresh has nothing left over. -/
theorem StartsFresh.nothingLeft {c : Client} (h : StartsFresh lib proto T c)
    (hpath : c.socketPath.length < sunPathSize) : NothingLeft T c :=
  ⟨h.key_none hpath, fun _ _ hb => h.sets_old hpath hb⟩

end Client

open Client in
/-- **Reconnecting.**  From whatever history a client comes: if `connect()` can
succeed, the new connection is like one of a new client exactly if no key is
set and every buffered fragment set has reached its timeout.  And a
registration is CRC-only exactly as long as no key is set: a second one on the
same connection is tagged too. -/
theorem reconnect_starts_fresh_iff (lib : WireLibs) (proto : ProtoLib) (T : Int) (c : Client) :
    (StartsFresh lib proto T c ↔ (c.socketPath.length < sunPathSize → NothingLeft T c)) ∧
    ∀ (d : Client) (op : Op), d.ws = none → op.Registers →
      Post (op.perform lib proto) d (fun _ d' => WroteFrame d.sessionKey.isSome d d') := by
  refine ⟨⟨fun h hpath => h.nothingLeft hpath, ?_⟩, fun d op hws hop => perform_wroteFrame hws hop⟩
  intro h peer c₁ d₁ hc
  exact (h (exec_connect.mp hc).1).startsFresh peer c₁ d₁ hc

namespace Client

/-- A client that has registered on a secured connection. -/
def securedHistory : List Op :=
  [.connect (.connects (wireFrame 0 sampleAckBytes none)), registerOp [promptFrameEnv]]

def newClient : Client := { socketPath := ascii "/run/vynkor.sock", secret := ascii "secret" }

/-- Run the history, reconnect, register: the flags of the register frame. -/
def secondRegisterFlags : Option UInt16 := do
  let c ← runOps storingLibs registerProto (securedHistory ++ [.connect (.connects [])]) newClient
  let (_, c') ← exec (send storingLibs registerProto (ascii "kernel")
    { payload := some (.pluginRegister { pluginId := ascii "p", version := ascii "1.0.0" }) }
    promptSendEnv) c
  return flagsField c'.outbound

end Client

open Client in
/-- After a secured connection the law fails: the register frame of the next
connection is tagged under the old key. -/
theorem reconnected_client_keeps_key :
    (∃ flags, secondRegisterFlags = some flags ∧ hasFlag flags flagMacPresent = true) ∧
    ¬ ∀ (lib : WireLibs) (proto : ProtoLib) (c₀ : Client) (ops : List Op) (c : Client) (T : Int),
      c₀.sessionKey = none → c₀.reassembly = ∅ → runOps lib proto ops c₀ = some c →
      StartsFresh lib proto T c := by
  constructor
  · have htagged : (secondRegisterFlags.map (fun flags => hasFlag flags flagMacPresent)) =
        some true := by decide +kernel
    exact Option.map_eq_some_iff.mp htagged
  · intro hclaim
    have hsecured : (runOps storingLibs registerProto securedHistory newClient).map
        (fun c => (c.sessionKey.isSome, decide (c.socketPath.length < sunPathSize))) =
        some (true, true) := by decide +kernel
    obtain ⟨c, hrun, hc⟩ := Option.map_eq_some_iff.mp hsecured
    rw [Prod.mk.injEq, decide_eq_true_iff] at hc
    have hkey := (hclaim _ _ _ _ c 0 rfl rfl hrun).key_none hc.2
    rw [hkey] at hc
    cases hc.1

end Vynkor
