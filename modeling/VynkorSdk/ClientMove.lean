import VynkorSdk.Lockstep
import VynkorSdk.WireReadable

/-!
# Moving a client

The move constructor and the move assignment copy the members one by one, and
`device_id_` is not among them: a constructed client has none, an assigned one
keeps its own.  No other member is forgotten, so the new owner can be told from
the old one by a registration only.

`RegistersAlike` says when not even a registration tells: the two register
envelopes are the same bytes, or neither can be sent and both fail alike.
-/

namespace Vynkor

open ByteCodec KeyedTable Procedure

namespace Client

/-! ### The two move operations -/

/-- The move constructor: the new client, and what is left of `other`, which no
longer owns a transport. -/
def moveConstruct (other : Client) : Client × Client :=
  ({ socketPath := other.socketPath,
     fd := other.fd,
     ws := other.ws,
     secret := other.secret,
     sessionKey := other.sessionKey,
     reassembly := other.reassembly,
     nextStreamId := other.nextStreamId,
     heard := other.heard },
    { other with fd := none, ws := none })

/-- Move assignment between two clients: `target` after it, and what is left of
`other`. -/
def moveAssign (target other : Client) : Client × Client :=
  -- `close()`
  let target := { target with ws := none, fd := none }
  ({ target with
      socketPath := other.socketPath,
      fd := other.fd,
      ws := other.ws,
      secret := other.secret,
      sessionKey := other.sessionKey,
      reassembly := other.reassembly,
      nextStreamId := other.nextStreamId,
      heard := other.heard },
    { other with fd := none, ws := none })

/-- The ways to move out of a client. -/
inductive Move
  | construct
  | assign (target : Client)
  /-- `this == &other`. -/
  | assignSelf

/-- The new owner. -/
def Move.owner : Move → Client → Client
  | .construct, c => (moveConstruct c).1
  | .assign target, c => (moveAssign target c).1
  | .assignSelf, c => c

/-- A move forgets the device id, and nothing else. -/
theorem Move.owner_eq (m : Move) (c : Client) :
    m.owner c = { c with deviceId := (m.owner c).deviceId } := by
  cases m with
  | construct => rfl
  | assign target => rfl
  | assignSelf => rfl

/-! ### What can be told from a client -/

/-- All that has been written to the transport. -/
def written (c : Client) : Option Bytes × Option (List Bytes) :=
  (c.fd.map Socket.outbound, c.ws.map WsConnection.sent)

variable (lib : WireLibs) (proto : ProtoLib)

/-- What is seen of a run: for each operation its outcome, and all that has been
written to the transport by then.  An operation that waits ends the run. -/
def transcript : List Op → Client →
    List (Option (Except Exn Output × Option Bytes × Option (List Bytes)))
  | [], _ => []
  | op :: ops, c =>
      match exec (op.perform lib proto) c with
      | none => [none]
      | some (r, c') =>
          some (r, c'.written) :: transcript ops c'

/-- Registrations, sends, receives and `close`. -/
def Op.OnTransport : Op → Prop
  | .connect _ => False
  | _ => True

/-- The new owner cannot be told from the original. -/
def Unobservable (m : Move) (c : Client) : Prop :=
  ∀ ops : List Op, (∀ op ∈ ops, op.OnTransport) →
    transcript lib proto ops (m.owner c) = transcript lib proto ops c

/-- No transport is open. -/
def Closed (c : Client) : Prop := c.fd = none ∧ c.ws = none

/-- The serialized envelope of a registration. -/
def registerBytes (register : PluginRegister) : Bytes :=
  proto.serialize { payload := some (.pluginRegister register) }

/-- Sending `a` or `b` shows the same. -/
def SentAlike (closed : Prop) (a b : Bytes) : Prop :=
  a = b ∨
    (a.length = b.length ∧ maxPayloadSize < b.length) ∨
    (closed ∧ a.length ≤ maxPayloadSize ∧ b.length ≤ maxPayloadSize)

/-- No registration tells the two device ids apart. -/
def RegistersAlike (closed : Prop) (deviceId deviceId' : Bytes) : Prop :=
  ∀ register : PluginRegister,
    SentAlike closed (registerBytes proto { register with deviceId := deviceId })
      (registerBytes proto { register with deviceId := deviceId' })

variable {lib proto}

/-- A weaker closing condition. -/
theorem RegistersAlike.mono {closed closed' : Prop} {deviceId deviceId' : Bytes}
    (h : RegistersAlike proto closed deviceId deviceId') (himp : closed → closed') :
    RegistersAlike proto closed' deviceId deviceId' := by
  intro register
  rcases h register with heq | hlarge | ⟨hclosed, hfits⟩
  · exact Or.inl heq
  · exact Or.inr (Or.inl hlarge)
  · exact Or.inr (Or.inr ⟨himp hclosed, hfits⟩)

/-- Equal device ids are enough. -/
theorem registersAlike_refl (closed : Prop) (deviceId : Bytes) :
    RegistersAlike proto closed deviceId deviceId :=
  fun _ => Or.inl rfl

/-! ### A registration that cannot be sent -/

/-- On a closed client nothing is written. -/
theorem sendRaw_closed (hz : lib.ZstdRoundTrip) {c : Client} (hclosed : c.Closed)
    (target : Bytes) {payload : Bytes} (hpayload : payload.length ≤ maxPayloadSize)
    (senv : SendEnv) :
    exec (sendRawWithFlags lib target 0 payload senv) c =
      some (.error (.io (ascii "write() failed")), c) := by
  obtain ⟨wireFlags, wire, _, hpack⟩ := packedFrame_layout hz c target 0 hpayload
  unfold packedFrame sentFlags at hpack
  rw [hclosed.2, if_neg (by simp)] at hpack
  have hflags : (if c.sessionKey.isSome then flagMacPresent else 0) ||| 0 =
      baseFlags c.sessionKey ||| 0 := rfl
  unfold sendRawWithFlags
  rw [exec_bind_ok (exec_get _)]
  dsimp only
  rw [hclosed.2, if_neg (by simp), hflags, hpack, exec_bind_ok (exec_settle _ _)]
  unfold writeFrame
  rw [exec_bind_ok (exec_get _), hclosed.1, if_neg (by simp), exec_throw]

/-- An oversized payload is refused on either transport. -/
theorem sendRaw_tooLarge {c : Client} (target : Bytes) {payload : Bytes}
    (hpayload : maxPayloadSize < payload.length) (senv : SendEnv) :
    exec (sendRawWithFlags lib target 0 payload senv) c =
      some (.error (.payloadTooLarge payload.length), c) := by
  unfold sendRawWithFlags
  rw [exec_bind_ok (exec_get _)]
  dsimp only
  by_cases hws : c.ws.isSome
  · rw [if_pos hws, if_pos hpayload, exec_throw]
  · rw [if_neg hws]
    unfold packFrameRaw
    rw [if_pos hpayload, exec_bind_error (exec_settle _ _)]

section Refused

variable {c : Client} {pluginId version jwtToken payload : Bytes} {manifest : PluginManifest}

/-- A registration whose send fails goes no further. -/
theorem registerFull_of_send_error {c' : Client} {senv : SendEnv} {e : Exn}
    (hbytes : registerBytes proto ⟨pluginId, version, manifest, jwtToken, c.deviceId⟩ = payload)
    (hsend : exec (sendRawWithFlags lib (ascii "kernel") 0 payload senv) c = some (.error e, c'))
    (envs : List FrameEnv) :
    exec (registerFull lib proto pluginId version manifest jwtToken senv envs) c =
      some (.error e, c') := by
  have hexchange : exec (registerExchange lib proto pluginId version manifest jwtToken senv envs)
      c = some (.error e, c') := by
    unfold registerExchange
    rw [exec_bind_ok (exec_get _)]
    refine exec_bind_error ?_
    subst hbytes
    exact hsend
  exact exec_bind_error hexchange

/-- A registration that does not fit fails before a byte is written. -/
theorem registerFull_tooLarge
    (hbytes : registerBytes proto ⟨pluginId, version, manifest, jwtToken, c.deviceId⟩ = payload)
    (hlarge : maxPayloadSize < payload.length) (senv : SendEnv) (envs : List FrameEnv) :
    exec (registerFull lib proto pluginId version manifest jwtToken senv envs) c =
      some (.error (.payloadTooLarge payload.length), c) :=
  registerFull_of_send_error hbytes (sendRaw_tooLarge (ascii "kernel") hlarge senv) envs

/-- A registration on a connection that is gone fails with its first write. -/
theorem registerFull_closed (hz : lib.ZstdRoundTrip) (hclosed : c.Closed)
    (hbytes : registerBytes proto ⟨pluginId, version, manifest, jwtToken, c.deviceId⟩ = payload)
    (hfits : payload.length ≤ maxPayloadSize) (senv : SendEnv) (envs : List FrameEnv) :
    exec (registerFull lib proto pluginId version manifest jwtToken senv envs) c =
      some (.error (.io (ascii "write() failed")), c) :=
  registerFull_of_send_error hbytes (sendRaw_closed hz hclosed (ascii "kernel") hfits senv) envs

end Refused

/-! ### The two owners side by side -/

/-- The clients differ in their device ids, and no registration tells. -/
def SameButDevice (proto : ProtoLib) (c d : Client) : Prop :=
  ∃ deviceId, d = { c with deviceId := deviceId } ∧
    RegistersAlike proto c.Closed c.deviceId deviceId

/-- An assignment to another member keeps the relation if it opens no transport. -/
theorem SameButDevice.update {c d : Client} (h : SameButDevice proto c d) {f : Client → Client}
    (hf : ∀ c deviceId, f { c with deviceId := deviceId } = { f c with deviceId := deviceId })
    (hdevice : ∀ c, (f c).deviceId = c.deviceId) (hclosed : ∀ c, c.Closed → (f c).Closed) :
    SameButDevice proto (f c) (f d) := by
  obtain ⟨deviceId, rfl, halike⟩ := h
  refine ⟨deviceId, hf c deviceId, ?_⟩
  rw [hdevice]
  exact halike.mono (hclosed c)

/-- Clients that differ in the device id only stay in lockstep. -/
theorem sameButDevice_lockstep : Lockstep (SameButDevice proto) (fun _ => True) where
  fd_eq h := by obtain ⟨deviceId, rfl, _⟩ := h; rfl
  ws_eq h := by obtain ⟨deviceId, rfl, _⟩ := h; rfl
  key_eq h := by obtain ⟨deviceId, rfl, _⟩ := h; rfl
  stream_eq h := by obtain ⟨deviceId, rfl, _⟩ := h; rfl
  absorb_eq h _ _ _ := by obtain ⟨deviceId, rfl, _⟩ := h; rfl
  setInbound h bytes := h.update (f := setInbound bytes) (fun _ _ => rfl) (fun _ => rfl)
    (fun c hc => ⟨by rw [setInbound, hc.1]; rfl, hc.2⟩)
  setOutbound h bytes := h.update (f := setOutbound bytes) (fun _ _ => rfl) (fun _ => rfl)
    (fun c hc => ⟨by rw [setOutbound, hc.1]; rfl, hc.2⟩)
  sendWs h message := h.update
    (f := fun c => { c with ws := c.ws.map (fun ws => { ws with sent := ws.sent ++ [message] }) })
    (fun _ _ => rfl) (fun _ => rfl) (fun c hc => ⟨hc.1, by dsimp only; rw [hc.2]; rfl⟩)
  close h := h.update (f := fun c => { c with ws := none, fd := none }) (fun _ _ => rfl)
    (fun _ => rfl) (fun _ _ => ⟨rfl, rfl⟩)
  hear h key frame := h.update (f := hear key frame) (fun _ _ => rfl) (fun _ => rfl) (fun _ hc =>
    hc)
  setTable h table := h.update (f := fun c => { c with reassembly := table }) (fun _ _ => rfl)
    (fun _ => rfl) (fun _ hc => hc)
  setStream h streamId := h.update (f := fun c => { c with nextStreamId := streamId })
    (fun _ _ => rfl) (fun _ => rfl) (fun _ hc => hc)

/-- They register alike where the device id cannot be seen. -/
theorem registerFull_unobservable (hz : lib.ZstdRoundTrip) {c d : Client}
    (h : SameButDevice proto c d) (pluginId version : Bytes) (manifest : PluginManifest)
    (jwtToken : Bytes) (senv : SendEnv) (envs : List FrameEnv) :
    Agree (SameButDevice proto)
      (registerFull lib proto pluginId version manifest jwtToken senv envs) c d := by
  obtain ⟨deviceId, hd, halike⟩ := h
  have h : SameButDevice proto c d := ⟨deviceId, hd, halike⟩
  have hold : d.deviceId = deviceId := by rw [hd]
  have hclosedSame : d.Closed ↔ c.Closed := by rw [hd]; exact Iff.rfl
  have hsent := halike ⟨pluginId, version, manifest, jwtToken, []⟩
  rw [← hold] at hsent
  generalize ha : registerBytes proto _ = a at hsent
  generalize hb : registerBytes proto _ = b at hsent
  rcases hsent with hsame | ⟨hsize, hlarge⟩ | ⟨hclosed, hfits, hfits'⟩
  · -- The same bytes go out, and from there on nothing reads the device id.
    have hexchange : Agree (SameButDevice proto)
        (registerExchange lib proto pluginId version manifest jwtToken senv envs) c d := by
      refine Agree.get_bind ?_ ?_
      · exact congrArg (fun payload => do
          sendRawWithFlags lib (ascii "kernel") 0 payload senv
          recv lib proto envs) (ha.trans (hsame.trans hb.symm))
      · apply Agree.bind (sameButDevice_lockstep.sendRawWithFlags h _ _ _ senv)
        intro _ c d h
        exact sameButDevice_lockstep.recvDecode none h (fun _ _ => trivial)
    apply Agree.bind hexchange
    intro answer c d h
    refine Lockstep.acceptRegistration ?_ ?_ h pluginId answer
    · intro c d h
      obtain ⟨_, rfl, _⟩ := h
      rfl
    · intro c d h key
      exact h.update (f := fun c => { c with sessionKey := key.or c.sessionKey }) (fun _ _ => rfl)
        (fun _ => rfl) (fun _ hc => hc)
  · -- Both are refused, with the same size in the error.
    unfold Agree
    rw [registerFull_tooLarge ha (hsize ▸ hlarge) senv envs,
      registerFull_tooLarge hb hlarge senv envs, hsize]
    exact .some ⟨rfl, h⟩
  · unfold Agree
    rw [registerFull_closed hz hclosed ha hfits senv envs,
      registerFull_closed hz (hclosedSame.mpr hclosed) hb hfits' senv envs]
    exact .some ⟨rfl, h⟩

/-- **Whole runs** show the same from either owner. -/
theorem transcript_eq (hz : lib.ZstdRoundTrip) : ∀ (ops : List Op) (c d : Client),
    SameButDevice proto c d → (∀ op ∈ ops, op.OnTransport) →
    transcript lib proto ops c = transcript lib proto ops d := by
  intro ops
  induction ops with
  | nil =>
      intro c d _ _
      rfl
  | cons op ops ih =>
      intro c d h hops
      have hreads : op.Reads (fun _ => True) := by
        cases op <;> simp [Op.Reads]
      have hagree : Agree (SameButDevice proto) (op.perform lib proto) c d := by
        apply sameButDevice_lockstep.perform h hreads
        · intro env hop
          exact absurd (hops op (by simp)) (by rw [hop]; exact id)
        · intro _ _ _ _ _ _ _
          exact registerFull_unobservable hz h _ _ _ _ _ _
      rw [transcript, transcript]
      rcases hagree.split with ⟨hc, hd⟩ | ⟨r, c', d', hc, hd, h'⟩
      · rw [hc, hd]
      · rw [hc, hd]
        dsimp only
        rw [written, sameButDevice_lockstep.fd_eq h', sameButDevice_lockstep.ws_eq h', ← written,
          ih c' d' h' (fun o ho => hops o (List.mem_cons_of_mem _ ho))]

/-! ### What a registration shows -/

/-- The peer hangs up before it answers. -/
def hangUpEnv : FrameEnv where
  waits := []
  waitEnd := 0
  firstReads := [.failed]
  start := 0
  ticks := []
  message := .error (.io (ascii "connection closed or recv error"))
  absorbNow := 0
  absorbSeen := 0

/-- No read touches what was written. -/
theorem written_readInvariant : ReadInvariant written where
  inbound := by
    intro bytes c
    unfold written setInbound
    rw [Option.map_map]
    rfl
  hear _ _ _ := rfl
  table _ _ := rfl

/-- A receive on a closed connection fails and writes nothing. -/
theorem recv_hangUp (lib : WireLibs) (proto : ProtoLib) (c : Client) :
    ∃ c', written c' = written c ∧ exec (recv lib proto [hangUpEnv]) c =
      some (.error (.io (ascii "connection closed or recv error")), c') := by
  have hread : ∃ c', exec (recvFrameWith lib none [hangUpEnv]) c =
      some (.error (.io (ascii "connection closed or recv error")), c') := by
    cases hws : c.ws with
    | some ws =>
        refine ⟨c, exec_bind_error ((exec_bind_ok (exec_get c)).trans (exec_bind_error ?_))⟩
        unfold readActiveFrame
        rw [exec_bind_ok (exec_get _), hws]
        rfl
    | none =>
        refine ⟨c.setInbound c.inbound,
          exec_bind_error ((exec_bind_ok (exec_get c)).trans (exec_bind_error ?_))⟩
        unfold readActiveFrame
        rw [exec_bind_ok (exec_get _), hws]
        unfold readSocketFrame
        rw [if_neg (by simp), exec_bind_ok (exec_get _), exec_zoom]
        split
        · rfl
        · rfl
  obtain ⟨c', hread⟩ := hread
  exact ⟨c', recvFrameWith_view written_readInvariant none _ c _ _ hread, exec_bind_error hread⟩

/-- The registration under which the two device ids are compared. -/
def probe (register : PluginRegister) : Op :=
  .registerFull register.pluginId register.version register.manifest register.jwtToken slowSendEnv
    [hangUpEnv]

/-- The transcript of a probe is its error and what it wrote. -/
theorem transcript_probe {c c' : Client} {register : PluginRegister} {e : Exn}
    (h : exec (registerFull lib proto register.pluginId register.version register.manifest
      register.jwtToken slowSendEnv [hangUpEnv]) c = some (.error e, c')) :
    transcript lib proto [probe register] c = [some (.error e, written c')] := by
  have hperform : exec ((probe register).perform lib proto) c = some (.error e, c') :=
    exec_bind_error h
  rw [transcript, hperform]
  rfl

/-- A registration that fits fails with an I/O error; on an open transport its
frame has gone out. -/
theorem registerFull_fits (hz : lib.ZstdRoundTrip) {c : Client} {register : PluginRegister}
    {payload : Bytes}
    (hbytes : registerBytes proto { register with deviceId := c.deviceId } = payload)
    (hfits : payload.length ≤ maxPayloadSize) :
    ∃ message c', exec (registerFull lib proto register.pluginId register.version register.manifest
        register.jwtToken slowSendEnv [hangUpEnv]) c = some (.error (.io message), c') ∧
      (¬ c.Closed → ∃ frame c₁, packedFrame lib c (ascii "kernel") 0 payload = .ok frame ∧
        Emits c frame c₁ ∧ written c' = written c₁) := by
  by_cases hclosed : c.Closed
  · exact ⟨_, c, registerFull_closed hz hclosed hbytes hfits slowSendEnv [hangUpEnv],
      fun hopen => absurd hclosed hopen⟩
  · have htakes : TakesFrame c slowSendEnv := by
      refine ⟨?_, slowSendEnv_steady, rfl⟩
      intro hws
      by_contra hfd
      exact hclosed ⟨Option.not_isSome_iff_eq_none.mp hfd, hws⟩
    obtain ⟨wireFlags, wire, hwire, hpack⟩ := packedFrame_layout hz c (ascii "kernel") 0 hfits
    obtain ⟨c₁, hsend, hemits⟩ :=
      sendRawWithFlags_emits hfits hpack (layout_size hwire.size_le) htakes
    obtain ⟨c', hwritten, hrecv⟩ := recv_hangUp lib proto c₁
    refine ⟨ascii "connection closed or recv error", c', ?_,
      fun _ => ⟨_, c₁, hpack, hemits, hwritten⟩⟩
    refine exec_bind_error ?_
    unfold registerExchange
    rw [exec_bind_ok (exec_get _)]
    subst hbytes
    exact (exec_bind_ok hsend).trans hrecv

/-- What is written shows the frame. -/
theorem Emits.frame_eq {c c₁ c₂ : Client} {frame₁ frame₂ : Bytes} (h₁ : Emits c frame₁ c₁)
    (h₂ : Emits c frame₂ c₂) (hwritten : written c₁ = written c₂) : frame₁ = frame₂ := by
  unfold Emits at h₁ h₂
  unfold written at hwritten
  rw [Prod.mk.injEq] at hwritten
  cases hws : c.ws with
  | none =>
      simp only [hws] at h₁ h₂
      have hsame : c₁.outbound = c₂.outbound := congrArg (Option.getD · []) hwritten.1
      rw [h₁, h₂] at hsame
      exact List.append_cancel_left hsame
  | some ws =>
      simp only [hws] at h₁ h₂
      have hsame := hwritten.2
      rw [h₁, h₂] at hsame
      simpa using hsame

/-- A frame shows its payload. -/
theorem packedFrame_injective (hz : lib.ZstdRoundTrip) {c : Client} {target a b frame : Bytes}
    (ha : a.length ≤ maxPayloadSize) (hb : b.length ≤ maxPayloadSize)
    (hpack : packedFrame lib c target 0 a = .ok frame)
    (hpack' : packedFrame lib c target 0 b = .ok frame) : a = b := by
  have hplain : hasFlag (c.sentFlags 0) flagCompressed = false := by
    rw [sentFlags_compressed, hasFlag_zero]
  have hmac : hasFlag (c.sentFlags 0) flagMacPresent = c.sessionKey.isSome := by
    rw [sentFlags_mac, hasFlag_zero, Bool.or_false]
  have hsame := (packedFrame_parses hz ha hpack hplain hmac).symm.trans
    (packedFrame_parses hz hb hpack' hplain hmac)
  rw [Except.ok.injEq, Prod.mk.injEq] at hsame
  exact congrArg FrameResult.payload hsame.1

/-- Device ids that no registration tells apart on the wire are alike. -/
theorem sentAlike_of_probe (hz : lib.ZstdRoundTrip) {c : Client} {deviceId : Bytes}
    {register : PluginRegister}
    (h : transcript lib proto [probe register] { c with deviceId := deviceId } =
      transcript lib proto [probe register] c) :
    SentAlike c.Closed (registerBytes proto { register with deviceId := c.deviceId })
      (registerBytes proto { register with deviceId := deviceId }) := by
  generalize ha : registerBytes proto { register with deviceId := c.deviceId } = a
  generalize hb : registerBytes proto { register with deviceId := deviceId } = b
  by_cases hsizeA : maxPayloadSize < a.length
  · rw [transcript_probe (registerFull_tooLarge ha hsizeA slowSendEnv [hangUpEnv])] at h
    by_cases hsizeB : maxPayloadSize < b.length
    · rw [transcript_probe (registerFull_tooLarge (c := { c with deviceId := deviceId }) hb hsizeB
        slowSendEnv [hangUpEnv])] at h
      simp only [List.cons.injEq, Option.some.injEq, Prod.mk.injEq, Except.error.injEq,
        Exn.payloadTooLarge.injEq] at h
      exact Or.inr (Or.inl ⟨h.1.1.symm, hsizeB⟩)
    · obtain ⟨message, d', hd, _⟩ := registerFull_fits (c := { c with deviceId := deviceId }) hz hb
        (Nat.not_lt.mp hsizeB)
      rw [transcript_probe hd] at h
      simp at h
  · have hfitsA := Nat.not_lt.mp hsizeA
    obtain ⟨message, c', hc, hshowsA⟩ := registerFull_fits hz ha hfitsA
    rw [transcript_probe hc] at h
    by_cases hsizeB : maxPayloadSize < b.length
    · rw [transcript_probe (registerFull_tooLarge (c := { c with deviceId := deviceId }) hb hsizeB
        slowSendEnv [hangUpEnv])] at h
      simp at h
    · have hfitsB := Nat.not_lt.mp hsizeB
      obtain ⟨message', d', hd, hshowsB⟩ := registerFull_fits (c := { c with deviceId := deviceId })
        hz hb hfitsB
      rw [transcript_probe hd] at h
      by_cases hclosed : c.Closed
      · exact Or.inr (Or.inr ⟨hclosed, hfitsA, hfitsB⟩)
      · obtain ⟨frame, c₁, hpack, hemits, hwritten⟩ := hshowsA hclosed
        obtain ⟨frame', d₁, hpack', hemits', hwritten'⟩ := hshowsB hclosed
        have hsame : d'.written = c'.written := by
          simp only [List.cons.injEq, Option.some.injEq, Prod.mk.injEq] at h
          exact h.1.2
        have hframes : frame = frame' := by
          refine Emits.frame_eq (c := c) hemits hemits' ?_
          rw [← hwritten, ← hwritten', hsame]
        subst hframes
        exact Or.inl (packedFrame_injective (c := c) hz hfitsA hfitsB hpack hpack')

end Client

open Client in
/-- **When a move cannot be seen.**  For every client and every way to move out
of it: no sequence of registrations, sends, receives and closes tells the new
owner from the original, exactly if no registration tells their device ids
apart. -/
theorem move_unobservable_iff (lib : WireLibs) (hz : lib.ZstdRoundTrip) (proto : ProtoLib)
    (m : Move) (c : Client) :
    Unobservable lib proto m c ↔
      RegistersAlike proto c.Closed c.deviceId (m.owner c).deviceId := by
  constructor
  · intro h register
    have hprobe := h [probe register] (by simp [probe, Op.OnTransport])
    rw [m.owner_eq c] at hprobe
    exact sentAlike_of_probe hz hprobe
  · intro h ops hops
    have hrelated : SameButDevice proto c (m.owner c) := ⟨_, m.owner_eq c, h⟩
    exact (transcript_eq hz ops c (m.owner c) hrelated hops).symm

namespace Client

/-- A length-delimited protobuf field of less than 128 bytes. -/
def shortField (tag : UInt8) (bytes : Bytes) : Bytes := tag :: UInt8.ofNat bytes.length :: bytes

/-- A string field of proto3: an empty one is left out. -/
def shortString (tag : UInt8) (bytes : Bytes) : Bytes :=
  if bytes = [] then [] else shortField tag bytes

/-- Register envelopes of short fields and an empty manifest, as protobuf writes
them. -/
def shortRegisterProto : ProtoLib where
  serialize env :=
    match env.payload with
    | some (.pluginRegister r) =>
        shortField 0x52 (shortString 0x0A r.pluginId ++ shortString 0x12 r.version ++
          shortField 0x22 [] ++ shortString 0x2A r.jwtToken ++ shortString 0x32 r.deviceId)
    | _ => []
  parse _ := none

/-- What `connect_ws_device` returns. -/
def deviceClient : Client :=
  { ws := some {}, secret := ascii "secret", deviceId := ascii "dev-1" }

end Client

open Client in
/-- A target that belongs to the same device. -/
theorem move_unobservable_iff_same_device :
    Unobservable storingLibs shortRegisterProto
      (.assign { fd := some {}, deviceId := ascii "dev-1" }) deviceClient :=
  (move_unobservable_iff storingLibs storingLibs_roundTrip shortRegisterProto _ _).mpr
    (registersAlike_refl _ _)

open Client in
/-- Moved into a new client, a device registers without its id; moved onto the
client of another device, it registers as that one. -/
theorem moved_client_loses_device :
    registerBytes shortRegisterProto
        ⟨ascii "p", ascii "1.0.0", {}, [], (Move.construct.owner deviceClient).deviceId⟩ =
      [0x52, 0x0C, 0x0A, 0x01, 0x70, 0x12, 0x05] ++ ascii "1.0.0" ++ [0x22, 0x00] ∧
    registerBytes shortRegisterProto
        ⟨ascii "p", ascii "1.0.0", {}, [], deviceClient.deviceId⟩ =
      [0x52, 0x13, 0x0A, 0x01, 0x70, 0x12, 0x05] ++ ascii "1.0.0" ++ [0x22, 0x00, 0x32, 0x05] ++
        ascii "dev-1" ∧
    ¬ Unobservable storingLibs shortRegisterProto .construct deviceClient ∧
    ¬ Unobservable storingLibs shortRegisterProto (.assign { deviceId := ascii "dev-2" })
      deviceClient := by
  have htold : ∀ m : Move, (m.owner deviceClient).deviceId = [] ∨
      (m.owner deviceClient).deviceId = ascii "dev-2" →
      ¬ Unobservable storingLibs shortRegisterProto m deviceClient := by
    intro m hdevice h
    have hprobe := h [probe ⟨ascii "p", ascii "1.0.0", {}, [], []⟩]
      (by simp [probe, Op.OnTransport])
    rw [m.owner_eq deviceClient] at hprobe
    rcases sentAlike_of_probe storingLibs_roundTrip hprobe with hsame | ⟨_, hlarge⟩ | ⟨hclosed, _⟩
    · rcases hdevice with hdevice | hdevice
      · rw [hdevice] at hsame
        exact absurd hsame (by decide)
      · rw [hdevice] at hsame
        exact absurd hsame (by decide)
    · rcases hdevice with hdevice | hdevice
      · rw [hdevice] at hlarge
        exact absurd hlarge (by decide)
      · rw [hdevice] at hlarge
        exact absurd hlarge (by decide)
    · cases hclosed.2
  exact ⟨by decide, by decide, htold _ (Or.inl rfl), htold _ (Or.inr rfl)⟩

end Vynkor
