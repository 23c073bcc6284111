import VynkorSdk.ClientSession

/-!
# Two clients side by side

To compare what two clients show of themselves, both run the same operations in
the same environment.  An operation reads the transport, the key, the stream
counter and the table; a relation under which these agree, and which every
assignment of the operations keeps, makes the two runs agree (`Lockstep`).

What reads more than that, namely a registration and `connect`, is left to the
relation at hand.
-/

namespace Vynkor

open ByteCodec KeyedTable Procedure

namespace Client

/-- Related clients send and receive alike, and stay related.  `admits` says at
which times the relation lets a fragment be absorbed. -/
structure Lockstep (R : Client → Client → Prop) (admits : FrameEnv → Prop) : Prop where
  fd_eq : ∀ {c d}, R c d → c.fd = d.fd
  ws_eq : ∀ {c d}, R c d → c.ws = d.ws
  key_eq : ∀ {c d}, R c d → c.sessionKey = d.sessionKey
  stream_eq : ∀ {c d}, R c d → c.nextStreamId = d.nextStreamId
  absorb_eq : ∀ {c d}, R c d → ∀ {env}, admits env → ∀ frame,
    absorbFragment ⟨env.absorbNow, env.absorbSeen, frame⟩ c.reassembly =
      absorbFragment ⟨env.absorbNow, env.absorbSeen, frame⟩ d.reassembly
  setInbound : ∀ {c d}, R c d → ∀ bytes, R (c.setInbound bytes) (d.setInbound bytes)
  setOutbound : ∀ {c d}, R c d → ∀ bytes, R (c.setOutbound bytes) (d.setOutbound bytes)
  sendWs : ∀ {c d}, R c d → ∀ message,
    R { c with ws := c.ws.map (fun ws => { ws with sent := ws.sent ++ [message] }) }
      { d with ws := d.ws.map (fun ws => { ws with sent := ws.sent ++ [message] }) }
  close : ∀ {c d}, R c d → R { c with ws := none, fd := none } { d with ws := none, fd := none }
  hear : ∀ {c d}, R c d → ∀ key frame, R (c.hear key frame) (d.hear key frame)
  setTable : ∀ {c d}, R c d → ∀ table,
    R { c with reassembly := table } { d with reassembly := table }
  setStream : ∀ {c d}, R c d → ∀ streamId,
    R { c with nextStreamId := streamId } { d with nextStreamId := streamId }

namespace Lockstep

variable {lib : WireLibs} {proto : ProtoLib} {R : Client → Client → Prop}
  {admits : FrameEnv → Prop} {c d : Client}

/-- Clients in lockstep have the same bytes before them. -/
theorem inbound_eq (hR : Lockstep R admits) (h : R c d) : c.inbound = d.inbound := by
  rw [inbound, inbound, hR.fd_eq h]

/-- Clients in lockstep have written the same. -/
theorem outbound_eq (hR : Lockstep R admits) (h : R c d) : c.outbound = d.outbound := by
  rw [outbound, outbound, hR.fd_eq h]

/-! ### Sending -/

/-- Writing a frame keeps the lockstep. -/
theorem writeFrame (hR : Lockstep R admits) (h : R c d) (senv : SendEnv) (frame : Bytes) :
    Agree R (writeFrame senv frame) c d := by
  apply Agree.get_bind (by simp only [hR.fd_eq h])
  apply Agree.ite
  · exact Agree.zoom (hR.outbound_eq h) (hR.setOutbound h)
  · exact Agree.throw h

/-- Writing a message keeps the lockstep. -/
theorem writeAllWs (hR : Lockstep R admits) (h : R c d) (senv : SendEnv) (message : Bytes) :
    Agree R (writeAllWs senv message) c d :=
  Agree.bind (Agree.settle h) (fun _ _ _ h => Agree.modify (hR.sendWs h message))

/-- So does `send_raw_with_flags`. -/
theorem sendRawWithFlags (hR : Lockstep R admits) (h : R c d) (target : Bytes)
    (extraFlags : UInt16) (payload : Bytes) (senv : SendEnv) :
    Agree R (sendRawWithFlags lib target extraFlags payload senv) c d := by
  apply Agree.get_bind (by simp only [hR.key_eq h, hR.ws_eq h])
  apply Agree.ite
  · apply Agree.ite
    · exact Agree.throw h
    · exact Agree.bind (Agree.settle h) (fun message _ _ h => hR.writeAllWs h senv message)
  · exact Agree.bind (Agree.settle h) (fun frame _ _ h => hR.writeFrame h senv frame)

/-- So does the loop over the fragments. -/
theorem sendFragments (hR : Lockstep R admits) (target payload : Bytes) (chunkSize total : UInt64)
    (S : UInt32) : ∀ (rounds : Nat) (seq : UInt64) (senvs : List SendEnv) (c d : Client), R c d →
      Agree R (sendFragments lib target payload chunkSize total S rounds seq senvs) c d := by
  intro rounds
  induction rounds with
  | zero =>
      intro seq senvs c d h
      exact Agree.pure h
  | succ rounds ih =>
      intro seq senvs c d h
      cases senvs with
      | nil => exact Agree.waiting
      | cons senv senvs =>
          apply Agree.bind (hR.sendRawWithFlags h target _ _ senv)
          intro _ c d h
          exact ih (seq + 1) senvs c d h

/-- So does taking a stream id. -/
theorem takeStreamId (hR : Lockstep R admits) (h : R c d) : Agree R takeStreamId c d := by
  unfold Agree
  have hout : ∀ c : Client, exec Client.takeStreamId c = some (.ok c.nextStreamId,
      { c with nextStreamId := if c.nextStreamId + 1 = 0 then 1 else c.nextStreamId + 1 }) :=
    fun _ => rfl
  rw [hout c, hout d, hR.stream_eq h]
  exact .some ⟨rfl, hR.setStream h _⟩

/-- So does `send_fragmented`. -/
theorem sendFragmented (hR : Lockstep R admits) (h : R c d) (target payload : Bytes)
    (chunkSize : UInt64) (senvs : List SendEnv) :
    Agree R (sendFragmented lib target payload chunkSize senvs) c d := by
  apply Agree.get_bind (by simp only [hR.ws_eq h])
  apply Agree.ite (Agree.throw h)
  apply Agree.ite (Agree.throw h)
  apply Agree.ite (Agree.throw h)
  apply Agree.ite (Agree.throw h)
  apply Agree.bind (hR.takeStreamId h)
  intro streamId c d h
  exact hR.sendFragments _ _ _ _ _ _ _ _ _ _ h

/-! ### Receiving -/

/-- Reading a frame off the transport keeps the lockstep. -/
theorem readActiveFrame (hR : Lockstep R admits) (h : R c d) (deadline : Option Int)
    (env : FrameEnv) : Agree R (readActiveFrame lib deadline env) c d := by
  apply Agree.get_bind (by simp only [hR.ws_eq h])
  apply Agree.ite
  · apply Agree.get_bind (by simp only [hR.key_eq h])
    apply Agree.bind (Agree.settle h)
    intro message c d h
    apply Agree.bind (Agree.settle h)
    intro frame c d h
    exact Agree.pure h
  · apply Agree.get_bind (by simp only [hR.key_eq h, hR.fd_eq h])
    exact Agree.zoom (hR.inbound_eq h) (hR.setInbound h)

/-- So does reading it with the session's checks. -/
theorem readTransportFrame (hR : Lockstep R admits) (h : R c d) (deadline : Option Int)
    (env : FrameEnv) : Agree R (readTransportFrame lib deadline env) c d := by
  apply Agree.get_bind (by simp only [hR.key_eq h])
  apply Agree.bind (hR.readActiveFrame h deadline env)
  intro frame c d h
  exact Agree.bind (Agree.modify (hR.hear h _ frame)) (fun _ _ _ h => Agree.pure h)

/-- Taking a frame up keeps the lockstep when its environment is admitted. -/
theorem absorb (hR : Lockstep R admits) (h : R c d) {env : FrameEnv} (hT : admits env)
    (frame : FrameResult) : Agree R (absorb env frame) c d := by
  unfold Agree
  rw [exec_absorb, exec_absorb, hR.absorb_eq h hT frame]
  exact .some ⟨rfl, hR.setTable h _⟩

/-- So does `recv_frame_with`. -/
theorem recvFrameWith (hR : Lockstep R admits) (deadline : Option Int) :
    ∀ (envs : List FrameEnv) (c d : Client), R c d → (∀ env ∈ envs, admits env) →
      Agree R (recvFrameWith lib deadline envs) c d := by
  intro envs
  induction envs with
  | nil =>
      intro c d _ _
      exact Agree.waiting
  | cons env envs ih =>
      intro c d h hT
      apply Agree.bind (hR.readTransportFrame h deadline env)
      intro frame c d h
      apply Agree.ite
      · apply Agree.bind (hR.absorb h (hT env (by simp)) frame)
        intro complete c d h
        cases complete with
        | none => exact ih c d h (fun e he => hT e (List.mem_cons_of_mem _ he))
        | some result => exact Agree.pure h
      · exact Agree.pure h

/-- So does a receive with its decoding. -/
theorem recvDecode (hR : Lockstep R admits) (deadline : Option Int) {envs : List FrameEnv}
    (h : R c d) (hT : ∀ env ∈ envs, admits env) :
    Agree R (do
      let result ← Client.recvFrameWith lib deadline envs
      settle (decodeFrame proto result)) c d :=
  Agree.bind (hR.recvFrameWith deadline envs c d h hT) (fun _ _ _ h => Agree.settle h)

/-- So does waiting for a response. -/
theorem waitForResponse (hR : Lockstep R admits) (deadline : Int) (isTerminal : Envelope → Bool) :
    ∀ (calls : List (List FrameEnv)) (c d : Client), R c d →
      (∀ envs ∈ calls, ∀ env ∈ envs, admits env) →
      Agree R (waitForResponse lib proto deadline isTerminal calls) c d := by
  intro calls
  induction calls with
  | nil =>
      intro c d _ _
      exact Agree.waiting
  | cons envs calls ih =>
      intro c d h hT
      apply Agree.bind (hR.recvFrameWith (some deadline) envs c d h (hT envs (by simp)))
      intro frame c d h
      cases proto.parse frame.payload with
      | none => exact Agree.throw h
      | some resp =>
          apply Agree.ite
          · exact Agree.pure h
          · exact ih c d h (fun e he => hT e (List.mem_cons_of_mem _ he))

/-! ### Operations -/

/-- The second half of a registration reads the secret and sets the key. -/
theorem acceptRegistration (hsecret : ∀ {c d}, R c d → c.secret = d.secret)
    (hkey : ∀ {c d}, R c d → ∀ key : Option Block32,
      R { c with sessionKey := key.or c.sessionKey } { d with sessionKey := key.or d.sessionKey })
    (h : R c d) (pluginId : Bytes) (ack : Envelope) :
    Agree R (acceptRegistration lib pluginId ack) c d := by
  unfold Client.acceptRegistration
  apply Agree.get_bind (by simp only [hsecret h])
  split
  · apply Agree.bind (Agree.settle h)
    intro key c d h
    exact Agree.bind (Agree.modify (hkey h key)) (fun _ _ _ h => Agree.pure h)
  · exact Agree.throw h
  · exact Agree.throw h

end Lockstep

/-- The environments an operation reads frames in. -/
def Op.Reads (admits : FrameEnv → Prop) : Op → Prop
  | .registerFull _ _ _ _ _ envs => ∀ env ∈ envs, admits env
  | .recvFrame envs => ∀ env ∈ envs, admits env
  | .recv envs => ∀ env ∈ envs, admits env
  | .recvTimeout _ _ envs => ∀ env ∈ envs, admits env
  | .waitForResponse _ _ calls => ∀ envs ∈ calls, ∀ env ∈ envs, admits env
  | _ => True

/-- **One operation** from either client, given the two that read more. -/
theorem Lockstep.perform {lib : WireLibs} {proto : ProtoLib} {R : Client → Client → Prop}
    {admits : FrameEnv → Prop} (hR : Lockstep R admits) {c d : Client} (h : R c d) {op : Op}
    (hop : op.Reads admits)
    (hconnect : ∀ env, op = .connect env → Agree R (connect env) c d)
    (hregister : ∀ pluginId version manifest jwtToken senv envs,
      op = .registerFull pluginId version manifest jwtToken senv envs →
      Agree R (registerFull lib proto pluginId version manifest jwtToken senv envs) c d) :
    Agree R (op.perform lib proto) c d := by
  cases op with
  | connect env => exact (hconnect env rfl).bind_return
  | close => exact (Agree.modify (hR.close h)).bind_return
  | registerFull pluginId version manifest jwtToken senv envs =>
      exact (hregister _ _ _ _ senv envs rfl).bind_return
  | send target env senv => exact (hR.sendRawWithFlags h target 0 _ senv).bind_return
  | sendRawWithFlags target extraFlags payload senv =>
      exact (hR.sendRawWithFlags h target extraFlags payload senv).bind_return
  | sendFragmented target payload chunkSize senvs =>
      exact (hR.sendFragmented h target payload chunkSize senvs).bind_return
  | recvFrame envs => exact (hR.recvFrameWith none envs c d h hop).bind_return
  | recv envs => exact (hR.recvDecode none h hop).bind_return
  | recvTimeout timeoutMs now envs => exact (hR.recvDecode (some _) h hop).bind_return
  | waitForResponse deadline isTerminal calls =>
      exact (hR.waitForResponse deadline isTerminal calls c d h hop).bind_return

end Client

end Vynkor
