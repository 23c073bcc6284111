import VynkorSdk.ClientOutbound

/-!
# What the secrets of a client show of themselves

What a client says is made of the arguments of its calls, its device id and two
counters.  The secret, the session key and all that has been received decide
only what stands in the tags: two clients that differ in nothing else write the
same bytes but for the last 32 of each frame.
-/

namespace Vynkor

open ByteCodec Procedure PrefixCode Client

/-- What goes into the messages of a process besides the arguments. -/
structure Voice where
  actionSeq : UInt64
  nextStreamId : UInt32
  deviceId : Bytes
  deriving DecidableEq

def Process.voice (p : Process) : Voice := ⟨p.actionSeq, p.client.nextStreamId, p.client.deviceId⟩

def Voice.takeId (v : Voice) : Voice := { v with actionSeq := v.actionSeq + 1 }

def Voice.takeStream (v : Voice) : Voice :=
  { v with nextStreamId := if v.nextStreamId + 1 = 0 then 1 else v.nextStreamId + 1 }

/-- What a call uses up, however it ends. -/
def ApiCall.spend : ApiCall → Voice → Voice
  | .basic (.sendFragmented _ payload chunkSize _), v =>
      if SplitRefused payload chunkSize then v else v.takeStream
  | .sendAction _ _ _ _, v => v.takeId
  | .sendActionStreaming _ _ _ _, v => v.takeId
  | _, v => v

variable {lib : WireLibs} {proto : ProtoLib}

/-- The messages are the voice's. -/
theorem messages_of_voice {p q : Process} (h : p.voice = q.voice) (call : ApiCall) :
    call.messages proto p = call.messages proto q := by
  obtain ⟨hseq, hstream, hdevice⟩ := Voice.mk.inj h
  cases call with
  | basic op => cases op <;> simp [ApiCall.messages, Op.messages, hstream, hdevice]
  | _ => simp [ApiCall.messages, hseq, hdevice]

/-! ### The voice after a call -/

/-- The client's part of the voice. -/
def Client.stamp (c : Client) : UInt32 × Bytes := (c.nextStreamId, c.deviceId)

/-- No write touches the stamp. -/
theorem stamp_writeInvariant : WriteInvariant stamp := ⟨fun _ _ => rfl, fun _ _ => rfl⟩

/-- No read touches it. -/
theorem stamp_readInvariant : ReadInvariant stamp :=
  ⟨fun _ _ => rfl, fun _ _ _ => rfl, fun _ _ => rfl⟩

variable {c : Client}

/-- `send` keeps the stamp. -/
theorem send_stamp (target : Bytes) (env : Envelope) (senv : SendEnv) :
    Post (send lib proto target env senv) c (fun _ c' => c'.stamp = c.stamp) :=
  sendRawWithFlags_view stamp_writeInvariant target 0 _ senv c

/-- What comes behind a send and keeps the stamp. -/
theorem send_then_stamp {β : Type} {q : Unit → Proc Exn Client β} (target : Bytes) (env : Envelope)
    (senv : SendEnv) (hq : ∀ c₁, Post (q ()) c₁ (fun _ c' => c'.stamp = c₁.stamp)) :
    Post (send lib proto target env senv >>= q) c (fun _ c' => c'.stamp = c.stamp) := by
  refine .bind ((send_stamp target env senv).mono ?_)
  rintro (e | _) c₁ hsame
  · exact hsame
  · exact (hq c₁).mono (fun _ _ h => h.trans hsame)

/-- Settling an outcome keeps the stamp. -/
theorem settle_stamp {α β : Type} {q : Proc Exn Client α} {outcome : α → Except Exn β}
    (h : Post q c (fun _ c' => c'.stamp = c.stamp)) :
    Post (q >>= fun a => settle (outcome a)) c (fun _ c' => c'.stamp = c.stamp) := by
  refine .bind (h.mono ?_)
  rintro (e | a) c' hsame
  · exact hsame
  · exact .settle hsame

/-- Registering keeps it, whether or not it succeeds. -/
theorem registerFull_stamp (pluginId version : Bytes) (manifest : PluginManifest)
    (jwtToken : Bytes) (senv : SendEnv) (envs : List FrameEnv) :
    Post (registerFull lib proto pluginId version manifest jwtToken senv envs) c
      (fun _ c' => c'.stamp = c.stamp) := by
  have hexchange : Post (registerExchange lib proto pluginId version manifest jwtToken senv envs) c
      (fun _ c' => c'.stamp = c.stamp) :=
    .get_bind (send_then_stamp _ _ senv
      (fun c₁ => recvDecode_view stamp_readInvariant none envs c₁))
  refine .bind (hexchange.mono ?_)
  rintro (e | ack) c₁ hsame
  · exact hsame
  · unfold acceptRegistration
    apply Post.get_bind
    split
    · refine .bind (.settle ?_)
      split
      · exact .bind (.modify (.pure hsame))
      · exact hsame
    · exact .throw hsame
    · exact .throw hsame

/-- `send_fragmented` takes a stream id unless it refuses the payload. -/
theorem sendFragmented_stamp (hc : c.OnSocket) (target payload : Bytes) (chunkSize : UInt64)
    (senvs : List SendEnv) :
    Post (sendFragmented lib target payload chunkSize senvs) c (fun _ c' =>
      c'.stamp = if SplitRefused payload chunkSize then c.stamp else c.afterTake.stamp) := by
  refine sendFragmented_post hc ?_ ?_
  · intro h _
    rw [if_pos h]
  · intro h
    rw [if_neg h]
    exact sendFragments_view stamp_writeInvariant target payload chunkSize _ _ _ 0 senvs c.afterTake

/-- An operation on the client leaves the counter of the process. -/
theorem onClient_voice {α : Type} {q : Proc Exn Client α} {p : Process} {stamp : UInt32 × Bytes}
    (h : Post q p.client (fun _ c' => c'.stamp = stamp)) :
    Post (ApiCall.onClient q) p (fun _ p' => p'.voice = ⟨p.actionSeq, stamp.1, stamp.2⟩) := by
  have hzoom : Post (zoom Process.client Process.setClient q) p
      (fun _ p' => p'.voice = ⟨p.actionSeq, stamp.1, stamp.2⟩) := by
    refine .zoom (h.mono ?_)
    rintro _ c' rfl
    rfl
  exact hzoom.bind_return

/-- A request keeps the stamp. -/
theorem exchange_stamp (env : Envelope) (timeoutMs : UInt32) (isTerminal : Envelope → Bool)
    (renv : RequestEnv) :
    Post (exchange lib proto env timeoutMs isTerminal renv) c (fun _ c' => c'.stamp = c.stamp) :=
  send_then_stamp _ _ renv.senv
    (fun c₁ => waitForResponse_view stamp_readInvariant _ isTerminal renv.frames c₁)

/-- A process that has drawn an action id, and whose client has kept its stamp. -/
theorem voice_of_stamp {p : Process} {c' : Client} (hsame : c'.stamp = p.client.stamp) :
    ((p.setSeq (p.actionSeq + 1)).setClient c').voice = p.voice.takeId := by
  obtain ⟨hstream, hdevice⟩ := Prod.mk.inj hsame
  simp [Process.voice, Voice.takeId, Process.setClient, Process.setSeq, hstream, hdevice]

/-- An action id is drawn, and what follows keeps the stamp. -/
theorem drawn_voice {α : Type} {q : Bytes → Proc Exn Client α} {p : Process} (nowMs : Int)
    (h : ∀ id, Post (q id) p.client (fun _ c' => c'.stamp = p.client.stamp)) :
    Post (do
        let actionId ← zoom Process.actionSeq Process.setSeq (nextActionId nowMs)
        zoom Process.client Process.setClient (q actionId)) p
      (fun _ p' => p'.voice = p.voice.takeId) := by
  refine .bind ?_
  intro r p₁ hid
  cases hid
  refine .zoom ((h _).mono ?_)
  exact fun _ c' hsame => voice_of_stamp hsame

/-- **What a call uses up** does not depend on what it reads. -/
theorem perform_voice {p : Process} (hp : p.client.OnSocket) {call : ApiCall}
    (hcall : call.Plain) :
    Post (call.perform lib proto) p (fun _ p' => p'.voice = call.spend p.voice) := by
  cases call with
  | basic op =>
      cases op with
      | connect env => cases hcall
      | close => cases hcall
      | registerFull pluginId version manifest jwtToken senv envs =>
          exact onClient_voice (registerFull_stamp _ _ _ _ senv envs).bind_return
      | send target env senv => exact onClient_voice (send_stamp target env senv).bind_return
      | sendRawWithFlags target extraFlags payload senv =>
          exact onClient_voice
            (sendRawWithFlags_view stamp_writeInvariant target extraFlags payload senv
              _).bind_return
      | sendFragmented target payload chunkSize senvs =>
          refine (onClient_voice
            (sendFragmented_stamp hp target payload chunkSize senvs).bind_return).mono ?_
          rintro _ p' hvoice
          rw [hvoice, ApiCall.spend]
          split <;> rfl
      | recvFrame envs =>
          exact onClient_voice (recvFrameWith_view stamp_readInvariant none envs _).bind_return
      | recv envs =>
          exact onClient_voice (recvDecode_view stamp_readInvariant none envs _).bind_return
      | recvTimeout timeoutMs now envs =>
          exact onClient_voice (recvDecode_view stamp_readInvariant (some _) envs _).bind_return
      | waitForResponse deadline isTerminal calls =>
          exact onClient_voice
            (waitForResponse_view stamp_readInvariant deadline isTerminal calls _).bind_return
  | registerWithToken pluginId manifest jwtToken senv envs =>
      exact onClient_voice (registerFull_stamp _ _ _ _ senv envs)
  | registerPlugin pluginId manifest senv envs =>
      exact onClient_voice (registerFull_stamp _ _ _ _ senv envs)
  | publishEvent eventType payloadJson timeoutMs renv =>
      exact onClient_voice (settle_stamp (exchange_stamp _ timeoutMs _ renv))
  | sendAction action paramsJson timeoutMs renv =>
      exact Post.bind_return (P := fun p' : Process => p'.voice = p.voice.takeId)
        (drawn_voice renv.nowMs (fun id => settle_stamp (exchange_stamp _ timeoutMs _ renv)))
  | sendActionStreaming action timeoutMs nowMs senv =>
      refine Post.bind_return (P := fun p' : Process => p'.voice = p.voice.takeId) ?_
      refine .bind ?_
      intro r p₁ hid
      cases hid
      refine Post.bind_return (P := fun p' : Process => p'.voice = p.voice.takeId) (.zoom ?_)
      refine (send_stamp _ _ senv).mono ?_
      intro _ c' hsame
      exact voice_of_stamp hsame
  | sendCommand commandId command paramsJson senv envs =>
      exact onClient_voice (send_then_stamp _ _ senv
        (fun c₁ => settle_stamp (recvDecode_view stamp_readInvariant none envs c₁)))
  | ping nowMs t0 t1 senv envs =>
      refine onClient_voice (send_then_stamp _ _ senv ?_)
      intro c₁
      refine .bind ((recvDecode_view stamp_readInvariant none envs c₁).mono ?_)
      rintro (e | resp) c' hsame
      · exact hsame
      · dsimp only
        split
        · exact .pure hsame
        · exact .throw hsame
  | sendRaw target payload senv =>
      exact onClient_voice (sendRawWithFlags_view stamp_writeInvariant target 0 payload senv _)
  | sendRawAudio target data senv =>
      exact onClient_voice
        (sendRawWithFlags_view stamp_writeInvariant target flagRawBinary data senv _)
  | _ => exact onClient_voice (send_stamp _ _ _)

/-! ### Two clients -/

/-- Two clients that make the same calls with the same voice are to say the
same, whatever their keys. -/
theorem dueOf_voice (hz : lib.ZstdRoundTrip) : ∀ (calls : List ApiCall) (p q p' q' : Process),
    (∀ call ∈ calls, call.Plain) → p.client.OnSocket → q.client.OnSocket → p.voice = q.voice →
    ApiCall.runAll lib proto calls p = some p' → ApiCall.runAll lib proto calls q = some q' →
    (dueOf lib proto calls p).map Prod.snd = (dueOf lib proto calls q).map Prod.snd := by
  intro calls
  induction calls with
  | nil => intros; rfl
  | cons call calls ih =>
      intro p q p' q' hcalls hp hq hvoice hrun hrun'
      obtain ⟨hplain, hcalls⟩ := List.forall_mem_cons.mp hcalls
      rw [ApiCall.runAll] at hrun hrun'
      cases hexec : exec (call.perform lib proto) p with
      | none => rw [hexec] at hrun; cases hrun
      | some out =>
          cases hexec' : exec (call.perform lib proto) q with
          | none => rw [hexec'] at hrun'; cases hrun'
          | some out' =>
              obtain ⟨r, p₁⟩ := out
              obtain ⟨r', q₁⟩ := out'
              rw [hexec] at hrun
              rw [hexec'] at hrun'
              have hwrote := ApiCall.perform_wrote hz hp hplain r p₁ hexec
              have hwrote' := ApiCall.perform_wrote hz hq hplain r' q₁ hexec'
              have hspent : p₁.voice = q₁.voice := by
                rw [perform_voice hp hplain r p₁ hexec, perform_voice hq hplain r' q₁ hexec',
                  hvoice]
              have hrest := ih p₁ q₁ p' q' hcalls hwrote.onSocket hwrote'.onSocket hspent hrun hrun'
              simp only [dueOf, hexec, hexec', List.map_append, hrest, sendable, List.map_map,
                messages_of_voice hvoice call]
              rfl

/-! ### Frames -/

/-- The same header and payload; behind them as many bytes, which may differ. -/
def SameButTag (f g : Bytes) : Prop :=
  f.length = g.length ∧
    f.take (frameHeaderSize + lengthField f) = g.take (frameHeaderSize + lengthField f)

instance (f g : Bytes) : Decidable (SameButTag f g) := inferInstanceAs (Decidable (_ ∧ _))

/-- The key of a frame decides its last bytes only. -/
theorem packFrameRaw_body (hz : lib.ZstdRoundTrip) (target : Bytes) (flags : UInt16)
    {payload : Bytes} (hpayload : payload.length ≤ maxPayloadSize) :
    ∃ body : Bytes, ∀ (key : Option Block32) (f : Bytes),
      packFrameRaw lib target flags payload key = .ok f →
      ∃ tag : Bytes, f = body ++ tag ∧ tag.length = (if key.isSome then macTagLen else 0) ∧
        frameHeaderSize + lengthField f = body.length := by
  obtain ⟨wireFlags, wire, hwire, hsize, -⟩ := wirePayload_spec lib hz flags hpayload
  have hlen4 : wire.length < 256 ^ 4 := by
    simp only [maxPayloadSize] at hsize
    omega
  let header := buildHeader wireFlags (targetToBytes target) wire
  refine ⟨header.val ++ wire, ?_⟩
  intro key f hpack
  let tag := tagBytes lib (serializeHeaderWs target flags payload).val payload key
  have hframe : packFrameRaw lib target flags payload key = .ok (header.val ++ wire ++ tag) := by
    unfold packFrameRaw
    rw [if_neg (by omega)]
    simp only [hwire]
    rfl
  rw [hframe] at hpack
  cases hpack
  have hlength : lengthField (header.val ++ wire ++ tag) = wire.length :=
    (headerBytes_fields hlen4 (List.append_assoc _ _ _)).2.2.1
  refine ⟨tag, rfl, tagBytes_length lib _ _ key, ?_⟩
  rw [hlength, List.length_append, header.2]
  rfl

/-- **One message under two keys.** -/
theorem sameButTag_of_seals (hz : lib.ZstdRoundTrip) {f g : WireImage}
    {m m' : Option Block32 × Outgoing} (hsame : m.2 = m'.2) (hkeys : m.1.isSome = m'.1.isSome)
    (hf : WireImage.Seals lib f m) (hg : WireImage.Seals lib g m') :
    SameButTag f.bytes g.bytes := by
  obtain ⟨key, m⟩ := m
  obtain ⟨key', m'⟩ := m'
  cases hsame
  dsimp only at hkeys
  have hfit : m.payload.length ≤ maxPayloadSize := by
    by_contra hlarge
    have hpacks := hf.packs
    rw [packFrameRaw, if_pos (Nat.lt_of_not_le hlarge)] at hpacks
    cases hpacks
  have hflags : baseFlags key' = baseFlags key := by simp [baseFlags, hkeys]
  have hgpacks := hg.packs
  dsimp only at hgpacks
  rw [hflags] at hgpacks
  obtain ⟨body, hbody⟩ := packFrameRaw_body hz m.target (baseFlags key ||| m.extraFlags) hfit
  obtain ⟨tag, hfbytes, htag, hextent⟩ := hbody key f.val hf.packs
  obtain ⟨tag', hgbytes, htag', -⟩ := hbody key' g.val hgpacks
  refine ⟨?_, ?_⟩
  · rw [WireImage.bytes, WireImage.bytes, hfbytes, hgbytes, List.length_append, List.length_append,
      htag, htag', hkeys]
  · rw [WireImage.bytes, WireImage.bytes, hextent, hfbytes, hgbytes, List.take_left, List.take_left]

/-- Frame by frame, the same messages under keys of the same kind. -/
theorem forall₂_sameButTag (hz : lib.ZstdRoundTrip) :
    ∀ {frames frames' : List WireImage} {said said' : List (Option Block32 × Outgoing)},
      List.Forall₂ (WireImage.Seals lib) frames said →
      List.Forall₂ (WireImage.Seals lib) frames' said' →
      said.map Prod.snd = said'.map Prod.snd →
      said.map (fun m => m.1.isSome) = said'.map (fun m => m.1.isSome) →
      List.Forall₂ (fun f g => SameButTag f.bytes g.bytes) frames frames' := by
  intro frames frames' said said' hseals
  induction hseals generalizing frames' said' with
  | nil =>
      intro hseals' hsame _
      obtain rfl : said' = [] := by simpa using hsame.symm
      cases hseals'
      exact .nil
  | cons hf _ ih =>
      intro hseals' hsame hkeyed
      cases hseals' with
      | nil => simp at hsame
      | cons hg hrest =>
          simp only [List.map_cons, List.cons.injEq] at hsame hkeyed
          exact .cons (sameButTag_of_seals hz hsame.1 hkeyed.1 hf hg) (ih hrest hsame.2 hkeyed.2)

/-- Of a run none of whose calls is cut short, whole frames remain. -/
theorem runAll_wrote_all (hz : lib.ZstdRoundTrip) {calls : List ApiCall} {p p' : Process}
    (hp : p.client.OnSocket) (hcalls : ∀ call ∈ calls, call.Plain ∧ call.GoesOn)
    (hrun : ApiCall.runAll lib proto calls p = some p') :
    ∃ frames : List WireImage,
      p'.client.outbound = p.client.outbound ++ encode WireImage.bytes frames ∧
      List.Forall₂ (WireImage.Seals lib) frames (dueOf lib proto calls p) := by
  rcases List.eq_nil_or_concat calls with rfl | ⟨calls, last, rfl⟩
  · cases hrun
    exact ⟨[], (List.append_nil _).symm, .nil⟩
  · rw [List.concat_eq_append] at hcalls hrun ⊢
    obtain ⟨hcalls, hlast⟩ := List.forall_mem_append.mp hcalls
    obtain ⟨hplain, hgoes⟩ := hlast last (List.mem_singleton_self last)
    obtain ⟨frames, torn, said, hout, -, hseals, -, hall⟩ :=
      (runAll_wrote hz last hplain calls p p' hp hcalls hrun).emitted
    obtain ⟨rfl, rfl⟩ := hall hgoes
    exact ⟨frames, by rw [hout, List.append_nil], hseals⟩

/-- **Secrets show in tags only.**  Two processes on open sockets make the same
calls, none of which sees a write fail.  They differ in their secrets, their
session keys and all they have received, and agree in what goes into messages;
and each message finds both of them with a session key or neither.  Then they
write frames of the same sizes, with the same headers and payloads. -/
theorem secrets_show_in_tags_only (lib : WireLibs) (proto : ProtoLib) (hz : lib.ZstdRoundTrip)
    (calls : List ApiCall) (p q p' q' : Process)
    (hcalls : ∀ call ∈ calls, call.Plain ∧ call.GoesOn) (hp : p.client.OnSocket)
    (hq : q.client.OnSocket) (hvoice : p.voice = q.voice)
    (hkeyed : (dueOf lib proto calls p).map (fun m => m.1.isSome) =
      (dueOf lib proto calls q).map (fun m => m.1.isSome))
    (hrun : ApiCall.runAll lib proto calls p = some p')
    (hrun' : ApiCall.runAll lib proto calls q = some q') :
    ∃ frames frames' : List WireImage,
      p'.client.outbound = p.client.outbound ++ encode WireImage.bytes frames ∧
      q'.client.outbound = q.client.outbound ++ encode WireImage.bytes frames' ∧
      List.Forall₂ (fun f g => SameButTag f.bytes g.bytes) frames frames' := by
  obtain ⟨frames, hout, hseals⟩ := runAll_wrote_all hz hp hcalls hrun
  obtain ⟨frames', hout', hseals'⟩ := runAll_wrote_all hz hq hcalls hrun'
  have hsame := dueOf_voice hz calls p q p' q' (fun call h => (hcalls call h).1) hp hq hvoice hrun
    hrun'
  exact ⟨frames, frames', hout, hout', forall₂_sameButTag hz hseals hseals' hsame hkeyed⟩

/-- A process whose client sends under a key. -/
def keyedProcess (key : Block32) : Process :=
  { client := { fd := some {}, sessionKey := some key } }

def aliceKey : Block32 := fillArray 32 (ascii "a")
def bobKey : Block32 := fillArray 32 (ascii "b")

/-- Two processes under two keys: two frames each, which are not the same. -/
theorem secrets_show_in_tags_only_keyed :
    ∃ p' q' frames frames',
      ApiCall.runAll storingLibs emptyProto [.subscribe [ascii "tick"] wholeWrite]
        (keyedProcess aliceKey) = some p' ∧
      ApiCall.runAll storingLibs emptyProto [.subscribe [ascii "tick"] wholeWrite]
        (keyedProcess bobKey) = some q' ∧
      p'.client.outbound = encode WireImage.bytes frames ∧
      q'.client.outbound = encode WireImage.bytes frames' ∧
      p'.client.outbound ≠ q'.client.outbound ∧
      List.Forall₂ (fun f g => SameButTag f.bytes g.bytes) frames frames' := by
  have hran : (ApiCall.runAll storingLibs emptyProto [.subscribe [ascii "tick"] wholeWrite]
      (keyedProcess aliceKey)).map (fun p => p.client.outbound.getLastD 0) = some 65 := by
    decide +kernel
  have hran' : (ApiCall.runAll storingLibs emptyProto [.subscribe [ascii "tick"] wholeWrite]
      (keyedProcess bobKey)).map (fun p => p.client.outbound.getLastD 0) = some 50 := by
    decide +kernel
  obtain ⟨p', hrun, hlast⟩ := Option.map_eq_some_iff.mp hran
  obtain ⟨q', hrun', hlast'⟩ := Option.map_eq_some_iff.mp hran'
  obtain ⟨frames, frames', hout, hout', hsame⟩ := secrets_show_in_tags_only storingLibs emptyProto
    storingLibs_roundTrip [.subscribe [ascii "tick"] wholeWrite] (keyedProcess aliceKey)
    (keyedProcess bobKey) p' q'
    (by simp [ApiCall.Plain, ApiCall.GoesOn, ApiCall.senvs, SendEnv.GoesOn, wholeWrite])
    ⟨rfl, rfl⟩ ⟨rfl, rfl⟩ rfl (by decide +kernel) hrun hrun'
  refine ⟨p', q', frames, frames', hrun, hrun', hout, hout', ?_, hsame⟩
  intro h
  rw [h, hlast'] at hlast
  exact absurd hlast (by decide)

end Vynkor
