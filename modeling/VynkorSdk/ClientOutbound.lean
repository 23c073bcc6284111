import VynkorSdk.ClientCalls
import VynkorSdk.Polling
import VynkorSdk.PrefixCode

/-!
# What a client writes

The bytes a client puts on its socket, over any run of public calls.  Receives
write nothing; a send writes the frames of its messages, one behind the other,
each sealed under the key of the moment; and a write that fails leaves a torn
frame.  Wire frames say how long they are, so they are a prefix code, and the
peer has one way to read them.
-/

namespace Vynkor

open ByteCodec Procedure PrefixCode Client

/-- A wire frame, as long as its header says. -/
abbrev WireImage : Type := { f : Bytes // SelfDelimited f }

namespace WireImage

def bytes (f : WireImage) : Bytes := f.val

/-- **Wire frames delimit themselves.** -/
theorem isPrefixCode : IsPrefixCode bytes where
  ne_nil := by
    rintro ⟨f, hf⟩ hnil
    have hlength := hf.header_le
    rw [show f = [] from hnil] at hlength
    exact absurd hlength (by decide)
  unique := by
    rintro ⟨f, hf⟩ ⟨g, hg⟩ r r' h
    exact Subtype.ext (hf.front_unique hg h).1

/-- The frame is the message packed under the key, and a reader with the key
takes it for the message. -/
structure Seals (lib : WireLibs) (f : WireImage) (m : Option Block32 × Outgoing) : Prop where
  packs : packFrameRaw lib m.2.target (baseFlags m.1 ||| m.2.extraFlags) m.2.payload m.1 =
    .ok f.val
  carries : Carries lib m.1 m.2.extraFlags m.2.payload f.val

end WireImage

/-! ### One frame -/

/-- No write of this frame fails. -/
def SendEnv.GoesOn (senv : SendEnv) : Prop :=
  ∀ write ∈ senv.writes, write ≠ .failed ∧ write ≠ .stuck

/-- What one `write` is to `write_all`: made again, a front on the stream, or the end. -/
theorem writeAll_transfers (write : WriteResult) :
    Transfers writeAll (fun front out => out ++ front)
      (fun write => write = .failed ∨ write = .stuck) write := by
  cases write with
  | eintr => exact .again (fun _ _ _ _ => rfl)
  | wrote k => exact .on k (fun _ _ _ _ => rfl)
  | failed => exact .off (.inl rfl) (fun _ _ _ _ => ⟨_, rfl⟩)
  | stuck => exact .off (.inr rfl) (fun _ _ _ _ => ⟨_, rfl⟩)

variable (lib : WireLibs) (proto : ProtoLib)

/-- The socket is still open, and has taken what was `due`, or a front of it
where not everything went out. -/
structure Wrote (c c' : Client) (due : List (Option Block32 × Outgoing)) (whole : Prop) :
    Prop where
  ws_none : c'.ws = none
  fd_open : c'.fd.isSome
  emitted : Emitted WireImage.bytes (WireImage.Seals lib) c.outbound c'.outbound due whole

/-- A client on an open socket. -/
def Client.OnSocket (c : Client) : Prop := c.ws = none ∧ c.fd.isSome

def Outgoing.fits (m : Outgoing) : Bool := m.payload.length ≤ maxPayloadSize

/-- What of these messages can be sent under a key: the first that is too large
has the call throw. -/
def sendable (key : Option Block32) (messages : List Outgoing) : List (Option Block32 × Outgoing) :=
  (messages.takeWhile Outgoing.fits).map (fun m => (key, m))

/-- Behind messages that all fit, more messages add what they can add. -/
theorem sendable_append {messages : List Outgoing} (hfit : ∀ m ∈ messages, m.fits = true)
    (key : Option Block32) (more : List Outgoing) :
    sendable key (messages ++ more) = sendable key messages ++ sendable key more := by
  rw [sendable, List.takeWhile_append_of_pos hfit, List.map_append, sendable, sendable,
    List.takeWhile_eq_self_iff.mpr hfit]

/-- Behind a message that does not fit nothing more is sent. -/
theorem sendable_of_not_fit {messages : List Outgoing} (h : ¬ ∀ m ∈ messages, m.fits = true)
    (key : Option Block32) (more : List Outgoing) :
    sendable key (messages ++ more) = sendable key messages := by
  induction messages with
  | nil => simp at h
  | cons m messages ih =>
      unfold sendable at ih ⊢
      by_cases hfits : m.fits = true
      · have hlater : ¬ ∀ m ∈ messages, m.fits = true :=
          fun hall => h (List.forall_mem_cons.mpr ⟨hfits, hall⟩)
        simpa [List.takeWhile_cons_of_pos hfits] using ih hlater
      · simp [List.takeWhile_cons_of_neg hfits]

/-- What can be sent of a list comes first in what can be sent of a longer one. -/
theorem sendable_front (key : Option Block32) (messages more : List Outgoing) :
    sendable key messages <+: sendable key (messages ++ more) := by
  by_cases hfit : ∀ m ∈ messages, m.fits = true
  · rw [sendable_append hfit]
    exact List.prefix_append _ _
  · rw [sendable_of_not_fit hfit]

variable {lib proto} {c c' : Client}

/-- An empty write, as a write of this client. -/
theorem Client.OnSocket.wrote_nothing (hc : c.OnSocket)
    {due : List (Option Block32 × Outgoing)} {whole : Prop}
    (h : Emitted WireImage.bytes (WireImage.Seals lib) c.outbound c.outbound due whole) :
    Wrote lib c c due whole :=
  ⟨hc.1, hc.2, h⟩

/-- The client is still on its socket after a write. -/
theorem Wrote.onSocket {due : List (Option Block32 × Outgoing)} {whole : Prop}
    (h : Wrote lib c c' due whole) : c'.OnSocket :=
  ⟨h.ws_none, h.fd_open⟩

/-- Less is known of when the write was whole. -/
theorem Wrote.mono {due : List (Option Block32 × Outgoing)} {whole whole' : Prop}
    (h : Wrote lib c c' due whole) (himp : whole' → whole) : Wrote lib c c' due whole' :=
  ⟨h.ws_none, h.fd_open, h.emitted.mono himp⟩

/-- Two writes one after the other, the first of them whole. -/
theorem Wrote.trans {c'' : Client} {due due' : List (Option Block32 × Outgoing)} {whole : Prop}
    (h : Wrote lib c c' due True) (h' : Wrote lib c' c'' due' whole) :
    Wrote lib c c'' (due ++ due') whole :=
  ⟨h'.ws_none, h'.fd_open, h.emitted.trans h'.emitted⟩

/-- A procedure that sends these messages: all of them if it returns, and if it
throws, a write has failed or one of them was too large. -/
structure SendsResult {α : Type} (lib : WireLibs) (c : Client) (messages : List Outgoing)
    (goesOn : Prop) (r : Except Exn α) (c' : Client) : Prop where
  key_eq : c'.sessionKey = c.sessionKey
  wrote : Wrote lib c c' (sendable c.sessionKey messages) goesOn
  ok : ∀ a, r = .ok a → (∀ m ∈ messages, m.fits = true) ∧
    Wrote lib c c' (sendable c.sessionKey messages) True
  error : ∀ e, r = .error e → ¬ goesOn ∨ ¬ ∀ m ∈ messages, m.fits = true

def Sends {α : Type} (lib : WireLibs) (p : Proc Exn Client α) (c : Client)
    (messages : List Outgoing) (goesOn : Prop) : Prop :=
  Post p c (SendsResult lib c messages goesOn)

/-- **Sending one behind the other.** -/
theorem Sends.bind {α β : Type} {p : Proc Exn Client α} {q : α → Proc Exn Client β}
    {messages more : List Outgoing} {goesOn goesOn' : Prop} (hp : Sends lib p c messages goesOn)
    (hq : ∀ a c', c'.OnSocket → Sends lib (q a) c' more goesOn') :
    Sends lib (p >>= q) c (messages ++ more) (goesOn ∧ goesOn') := by
  refine Post.bind (hp.mono ?_)
  rintro (e | a) c₁ h
  · refine ⟨h.key_eq, ?_, fun _ h => (by cases h), ?_⟩
    · rcases h.error e rfl with hbroken | hlarge
      · exact ⟨h.wrote.ws_none, h.wrote.fd_open,
          (h.wrote.emitted.mono And.left).more (sendable_front _ _ _) (fun hall => hbroken hall.1)⟩
      · rw [sendable_of_not_fit hlarge]
        exact h.wrote.mono And.left
    · intro _ _
      refine (h.error e rfl).imp (fun hbroken hall => hbroken hall.1) (fun hlarge hall => hlarge ?_)
      exact fun m hm => hall m (List.mem_append_left _ hm)
  · obtain ⟨hfit, hall⟩ := h.ok a rfl
    refine (hq a c₁ hall.onSocket).mono ?_
    intro r c₂ h'
    have hwrote := h'.wrote
    have hok := h'.ok
    rw [h.key_eq] at hwrote hok
    refine ⟨h'.key_eq.trans h.key_eq, ?_, ?_, ?_⟩
    · rw [sendable_append hfit]
      exact hall.trans (hwrote.mono And.right)
    · intro b hb
      obtain ⟨hfit', hall'⟩ := hok b hb
      rw [sendable_append hfit]
      exact ⟨List.forall_mem_append.mpr ⟨hfit, hfit'⟩, hall.trans hall'⟩
    · intro e he
      refine (h'.error e he).imp (fun hbroken hgoes => hbroken hgoes.2) (fun hlarge hall' =>
        hlarge ?_)
      exact fun m hm => hall' m (List.mem_append_right _ hm)

/-- Writing a frame leaves all of it, or after an error a proper front, on the stream. -/
theorem exec_writeFrame_open (hc : c.OnSocket) (senv : SendEnv) (f : WireImage) :
    Post (writeFrame senv f.val) c (fun r c' =>
      ∃ k ≤ f.val.length, c' = c.setOutbound (c.outbound ++ f.val.take k) ∧
        (r = .ok () ∧ k = f.val.length ∨
          (∃ e, r = .error e) ∧ k < f.val.length ∧ ¬ senv.GoesOn)) := by
  unfold writeFrame
  refine .get_bind (.ite (fun _ => ?_) (fun hclosed => absurd hc.2 hclosed))
  refine .zoom ((Post.transfers (fun writes _ => by cases writes <;> rfl) (fun _ _ _ => rfl)
    (fun _ => List.append_nil _) (fun _ _ _ => List.append_assoc _ _ _) writeAll_transfers
    senv.writes f.val c.outbound).mono ?_)
  rintro r out ⟨k, hk, rfl, hr⟩
  refine ⟨k, hk, rfl, hr.imp_right (fun ⟨he, hlt, write, hmem, hfails⟩ =>
    ⟨he, hlt, fun hgoes => ?_⟩)⟩
  exact hfails.elim (hgoes write hmem).1 (hgoes write hmem).2

/-- **One message** goes out as one frame, whole unless a write fails. -/
theorem sendRawWithFlags_sends (hz : lib.ZstdRoundTrip) (hc : c.OnSocket) (m : Outgoing)
    (hflags : SendFlags m.extraFlags) (senv : SendEnv) :
    Sends lib (sendRawWithFlags lib m.target m.extraFlags m.payload senv) c [m] senv.GoesOn := by
  unfold Sends sendRawWithFlags
  apply Post.get_bind
  dsimp only
  rw [if_neg (by simp [hc.1]),
    show (if c.sessionKey.isSome then flagMacPresent else 0) ||| m.extraFlags =
      baseFlags c.sessionKey ||| m.extraFlags from rfl]
  by_cases hfits : m.fits = true
  · obtain ⟨frame, hpack, hcarries⟩ :=
      carries_of_pack hz m.target c.sessionKey (of_decide_eq_true hfits) hflags
    let f : WireImage := ⟨frame, hcarries.delimited⟩
    have hdue : sendable c.sessionKey [m] = [(c.sessionKey, m)] := by simp [sendable, hfits]
    obtain ⟨sock, hsock⟩ := Option.isSome_iff_exists.mp hc.2
    have hout : ∀ bytes, (c.setOutbound bytes).outbound = bytes := by
      intro bytes
      simp [outbound, setOutbound, hsock]
    have hopen : ∀ bytes, (c.setOutbound bytes).fd.isSome := by
      intro bytes
      simp [setOutbound, hsock]
    rw [hpack]
    refine .bind (.settle ((exec_writeFrame_open hc senv f).mono ?_))
    rintro r c' ⟨k, hk, rfl, ⟨rfl, rfl⟩ | ⟨⟨e, rfl⟩, hlt, hstuck⟩⟩
    · have hall : Wrote lib c (c.setOutbound (c.outbound ++ f.val.take f.val.length))
          (sendable c.sessionKey [m]) True := by
        refine ⟨hc.1, hopen _, ?_⟩
        rw [hout, List.take_length, hdue]
        exact Emitted.one (a := f) ⟨hpack, hcarries⟩
      exact ⟨rfl, hall.mono (fun _ => trivial), fun _ _ => ⟨by simp [hfits], hall⟩,
        fun _ h => by cases h⟩
    · refine ⟨rfl, ⟨hc.1, hopen _, ?_⟩, fun _ h => (by cases h), fun _ _ => Or.inl hstuck⟩
      rw [hout]
      exact Emitted.broken f hlt hstuck
  · have hpack : packFrameRaw lib m.target (baseFlags c.sessionKey ||| m.extraFlags) m.payload
        c.sessionKey = .error (.payloadTooLarge m.payload.length) := by
      rw [packFrameRaw, if_pos (Nat.lt_of_not_le (fun h => hfits (decide_eq_true h)))]
    have hdue : sendable c.sessionKey [m] = [] := by simp [sendable, hfits]
    rw [hpack]
    refine .bind (.settle ⟨rfl, ?_, fun _ h => (by cases h), fun _ _ => Or.inr (by simp [hfits])⟩)
    rw [hdue]
    exact hc.wrote_nothing .nil

/-! ### Fragments -/

/-- The loop over the fragments sends the fragments' messages in turn. -/
theorem sendFragments_sends (hz : lib.ZstdRoundTrip) (target payload : Bytes)
    (chunkSize total : UInt64) (streamId : UInt32) :
    ∀ (rounds : Nat) (seq : UInt64) (senvs : List SendEnv) (c : Client), c.OnSocket →
      Sends lib (sendFragments lib target payload chunkSize total streamId rounds seq senvs) c
        (fragmentMessages target payload chunkSize total streamId rounds seq)
        (∀ senv ∈ senvs, senv.GoesOn) := by
  intro rounds
  induction rounds with
  | zero =>
      intro seq senvs c hc
      have hnone : Wrote lib c c (sendable c.sessionKey []) True := hc.wrote_nothing .nil
      exact .pure ⟨rfl, hnone.mono (fun _ => trivial),
        fun _ _ => ⟨by simp [fragmentMessages], hnone⟩, fun _ h => by cases h⟩
  | succ rounds ih =>
      intro seq senvs c hc
      cases senvs with
      | nil => exact .waiting
      | cons senv senvs =>
          have hone := sendRawWithFlags_sends hz hc
            ⟨target, flagFragmented, fragmentPayload payload chunkSize total streamId seq⟩
            (Or.inr (Or.inr rfl)) senv
          have hall := hone.bind (fun _ c' hc' => ih (seq + 1) senvs c' hc')
          rw [List.forall_mem_cons]
          exact hall

/-- A `send_fragmented` that is not refused takes a stream id and sends. -/
theorem sendFragmented_post {Q : Except Exn Unit → Client → Prop} (hc : c.OnSocket)
    {target payload : Bytes} {chunkSize : UInt64} {senvs : List SendEnv}
    (hrefused : SplitRefused payload chunkSize → ∀ e, Q (.error e) c)
    (hsplit : ¬ SplitRefused payload chunkSize →
      Post (sendFragments lib target payload chunkSize (fragmentCount payload chunkSize)
        c.nextStreamId (fragmentCount payload chunkSize).toNat 0 senvs) c.afterTake Q) :
    Post (sendFragmented lib target payload chunkSize senvs) c Q := by
  unfold sendFragmented
  refine .get_bind (.ite (fun hws => absurd hws (by simp [hc.1])) (fun _ => ?_))
  refine .ite (fun h => .throw (hrefused (.inl h) _)) (fun hlarge => ?_)
  refine .ite (fun h => .throw (hrefused (.inr (h.imp_right .inl)) _)) (fun hchunk => ?_)
  refine .ite (fun h => .throw (hrefused (.inr (.inr (.inr h))) _)) (fun hcount => ?_)
  refine .bind ?_
  intro r c₁ htake
  rw [exec_takeStreamId] at htake
  cases htake
  apply hsplit
  rintro (h | h | h | h)
  · exact hlarge h
  · exact hchunk (.inl h)
  · exact hchunk (.inr h)
  · exact hcount h

/-- `send_fragmented` writes the messages its payload is split into, under the
stream id it takes. -/
theorem sendFragmented_sends (hz : lib.ZstdRoundTrip) (hc : c.OnSocket) (target payload : Bytes)
    (chunkSize : UInt64) (senvs : List SendEnv) :
    Post (sendFragmented lib target payload chunkSize senvs) c (fun _ c' =>
      Wrote lib c c' (sendable c.sessionKey (splitMessages target payload chunkSize c.nextStreamId))
        (∀ senv ∈ senvs, senv.GoesOn)) := by
  refine sendFragmented_post hc ?_ ?_
  · intro h e
    rw [splitMessages, if_pos h]
    exact hc.wrote_nothing .nil
  · intro h
    rw [splitMessages, if_neg h]
    have hsends := sendFragments_sends hz target payload chunkSize (fragmentCount payload chunkSize)
      c.nextStreamId (fragmentCount payload chunkSize).toNat 0 senvs c.afterTake hc
    exact hsends.mono (fun _ _ h => ⟨h.wrote.ws_none, h.wrote.fd_open, h.wrote.emitted⟩)

/-! ### Behind the send -/

/-- What a client shows of its socket to the writing side. -/
def Client.wire (c : Client) : Bytes × Bool × Bool := (c.outbound, c.fd.isSome, c.ws.isSome)

/-- No read touches the write side. -/
theorem wire_readInvariant : ReadInvariant Client.wire := by
  refine ⟨?_, fun _ _ _ => rfl, fun _ _ => rfl⟩
  intro bytes c
  cases hfd : c.fd <;> simp [Client.wire, setInbound, outbound, hfd]

/-- What leaves the write side as it was may follow a write. -/
theorem Wrote.of_wire {c'' : Client} {due : List (Option Block32 × Outgoing)} {whole : Prop}
    (h : Wrote lib c c' due whole) (hsame : c''.wire = c'.wire) : Wrote lib c c'' due whole := by
  simp only [Client.wire, Prod.mk.injEq] at hsame
  obtain ⟨hout, hfd, hws⟩ := hsame
  refine ⟨?_, by rw [hfd, h.fd_open], by rw [hout]; exact h.emitted⟩
  rw [h.ws_none] at hws
  exact Option.not_isSome_iff_eq_none.mp (by simp [hws])

/-- A receive with its decoding keeps what every read keeps. -/
theorem recvDecode_view {α : Type} {f : Client → α} (hf : ReadInvariant f) (deadline : Option Int)
    (envs : List FrameEnv) (c : Client) :
    Post (do
      let result ← recvFrameWith lib deadline envs
      settle (decodeFrame proto result)) c (fun _ c' => f c' = f c) := by
  refine .bind ((recvFrameWith_view hf deadline envs c).mono ?_)
  rintro (e | result) c' hsame
  · exact hsame
  · exact .settle hsame

/-- Waiting for a response keeps what every read keeps. -/
theorem waitForResponse_view {α : Type} {f : Client → α} (hf : ReadInvariant f) (deadline : Int)
    (isTerminal : Envelope → Bool) : ∀ (calls : List (List FrameEnv)) (c : Client),
      Post (waitForResponse lib proto deadline isTerminal calls) c (fun _ c' => f c' = f c) := by
  intro calls
  induction calls with
  | nil =>
      intro c
      exact .waiting
  | cons envs calls ih =>
      intro c
      refine .bind ((recvFrameWith_view hf (some deadline) envs c).mono ?_)
      rintro (e | frame) c₁ hsame
      · exact hsame
      · dsimp only
        split
        · exact .throw hsame
        · exact .ite (fun _ => .pure hsame)
            (fun _ => (ih c₁).mono (fun _ _ h => h.trans hsame))

/-- Accepting a registration writes nothing. -/
theorem acceptRegistration_wire (pluginId : Bytes) (ack : Envelope) (c : Client) :
    Post (acceptRegistration lib pluginId ack) c (fun _ c' => c'.wire = c.wire) := by
  unfold acceptRegistration
  apply Post.get_bind
  split
  · refine .bind (.settle ?_)
    split
    · exact .bind (.modify (.pure rfl))
    · rfl
  · exact .throw rfl
  · exact .throw rfl

/-- What comes behind a send and writes nothing leaves what was sent. -/
theorem Sends.then_reads {α β : Type} {p : Proc Exn Client α} {q : α → Proc Exn Client β}
    {messages : List Outgoing} {goesOn : Prop} (hp : Sends lib p c messages goesOn)
    (hq : ∀ a c₁, Post (q a) c₁ (fun _ c' => c'.wire = c₁.wire)) :
    Post (p >>= q) c (fun _ c' => Wrote lib c c' (sendable c.sessionKey messages) goesOn) := by
  refine .bind (hp.mono ?_)
  rintro (e | a) c₁ h
  · exact h.wrote
  · exact (hq a c₁).mono (fun _ _ hsame => h.wrote.of_wire hsame)

/-- `send` sends one message, the envelope to its target. -/
theorem send_sends (hz : lib.ZstdRoundTrip) (hc : c.OnSocket) (target : Bytes) (env : Envelope)
    (senv : SendEnv) :
    Sends lib (send lib proto target env senv) c [env.to proto target] senv.GoesOn :=
  sendRawWithFlags_sends hz hc (env.to proto target) (Or.inl rfl) senv

/-- What is sent is written, as far as it fits. -/
theorem Sends.wrote {α : Type} {p : Proc Exn Client α} {messages : List Outgoing} {goesOn : Prop}
    (hp : Sends lib p c messages goesOn) :
    Post p c (fun _ c' => Wrote lib c c' (sendable c.sessionKey messages) goesOn) :=
  hp.mono (fun _ _ h => h.wrote)

/-- Registering writes one message, the registration envelope. -/
theorem registerFull_wrote (hz : lib.ZstdRoundTrip) (hc : c.OnSocket) (pluginId version : Bytes)
    (manifest : PluginManifest) (jwtToken : Bytes) (senv : SendEnv) (envs : List FrameEnv) :
    Post (registerFull lib proto pluginId version manifest jwtToken senv envs) c (fun _ c' =>
      Wrote lib c c' (sendable c.sessionKey
        [(registerEnvelope pluginId version manifest jwtToken c.deviceId).toKernel proto])
        senv.GoesOn) := by
  have hexchange : Post (registerExchange lib proto pluginId version manifest jwtToken senv envs) c
      (fun _ c' => Wrote lib c c' (sendable c.sessionKey
        [(registerEnvelope pluginId version manifest jwtToken c.deviceId).toKernel proto])
        senv.GoesOn) :=
    .get_bind ((send_sends hz hc _ _ senv).then_reads
      (fun _ c₁ => recvDecode_view wire_readInvariant none envs c₁))
  refine .bind (hexchange.mono ?_)
  rintro (e | ack) c₁ h
  · exact h
  · exact (acceptRegistration_wire pluginId ack c₁).mono (fun _ _ hsame => h.of_wire hsame)

/-! ### Calls -/

/-- What the environment does while the frames of a call are written. -/
def Client.Op.senvs : Op → List SendEnv
  | .registerFull _ _ _ _ senv _ => [senv]
  | .send _ _ senv => [senv]
  | .sendRawWithFlags _ _ _ senv => [senv]
  | .sendFragmented _ _ _ senvs => senvs
  | _ => []

/-- The operation stays on the socket, with flags the framing layer acts on. -/
def Client.Op.Plain : Op → Prop
  | .connect _ => False
  | .close => False
  | .sendRawWithFlags _ extraFlags _ _ => SendFlags extraFlags
  | _ => True

/-- Each operation writes its own messages, as far as they fit. -/
theorem perform_wrote (hz : lib.ZstdRoundTrip) (hc : c.OnSocket) {op : Op} (hop : op.Plain) :
    Post (op.perform lib proto) c (fun _ c' =>
      Wrote lib c c' (sendable c.sessionKey (op.messages proto c))
        (∀ senv ∈ op.senvs, senv.GoesOn)) := by
  have hreads : ∀ {α : Type} {p : Proc Exn Client α}, Post p c (fun _ c' => c'.wire = c.wire) →
      Post p c (fun _ c' => Wrote lib c c' (sendable c.sessionKey [])
        (∀ senv ∈ ([] : List SendEnv), senv.GoesOn)) :=
    fun hp => hp.mono (fun _ _ hsame => (hc.wrote_nothing .nil).of_wire hsame)
  cases op with
  | connect env => cases hop
  | close => cases hop
  | registerFull pluginId version manifest jwtToken senv envs =>
      simp only [Op.senvs, List.forall_mem_singleton]
      exact (registerFull_wrote hz hc pluginId version manifest jwtToken senv envs).bind_return
  | send target env senv =>
      simp only [Op.senvs, List.forall_mem_singleton]
      exact (send_sends hz hc target env senv).wrote.bind_return
  | sendRawWithFlags target extraFlags payload senv =>
      simp only [Op.senvs, List.forall_mem_singleton]
      exact (sendRawWithFlags_sends hz hc ⟨target, extraFlags, payload⟩ hop senv).wrote.bind_return
  | sendFragmented target payload chunkSize senvs =>
      exact (sendFragmented_sends hz hc target payload chunkSize senvs).bind_return
  | recvFrame envs =>
      exact (hreads (recvFrameWith_view wire_readInvariant none envs c)).bind_return
  | recv envs => exact (hreads (recvDecode_view wire_readInvariant none envs c)).bind_return
  | recvTimeout timeoutMs now envs =>
      exact (hreads (recvDecode_view wire_readInvariant (some _) envs c)).bind_return
  | waitForResponse deadline isTerminal calls =>
      exact (hreads (waitForResponse_view wire_readInvariant deadline isTerminal calls
        c)).bind_return

namespace ApiCall

def senvs : ApiCall → List SendEnv
  | .basic op => op.senvs
  | .registerWithToken _ _ _ senv _ => [senv]
  | .registerPlugin _ _ senv _ => [senv]
  | .subscribe _ senv => [senv]
  | .unsubscribe _ senv => [senv]
  | .ackEvent _ senv => [senv]
  | .publishEvent _ _ _ renv => [renv.senv]
  | .sendAction _ _ _ renv => [renv.senv]
  | .sendActionStreaming _ _ _ senv => [senv]
  | .sendRequestChunk _ _ _ _ senv => [senv]
  | .sendResponseChunk _ _ _ senv => [senv]
  | .closeSession _ _ senv => [senv]
  | .sendCommand _ _ _ senv _ => [senv]
  | .ping _ _ _ senv _ => [senv]
  | .sendAudioChunk _ _ senv => [senv]
  | .sendRaw _ _ senv => [senv]
  | .sendRawAudio _ _ senv => [senv]

/-- No write during the call fails. -/
def GoesOn (call : ApiCall) : Prop := ∀ senv ∈ call.senvs, senv.GoesOn

def Plain : ApiCall → Prop
  | .basic op => op.Plain
  | _ => True

/-- An operation on the client is a call on its process. -/
theorem onClient_wrote {α : Type} {q : Proc Exn Client α} {p : Process}
    {due : List (Option Block32 × Outgoing)} {whole : Prop}
    (h : Post q p.client (fun _ c' => Wrote lib p.client c' due whole)) :
    Post (onClient q) p (fun _ p' => Wrote lib p.client p'.client due whole) := by
  have hzoom : Post (zoom Process.client Process.setClient q) p
      (fun _ p' => Wrote lib p.client p'.client due whole) := .zoom h
  exact hzoom.bind_return

/-- A call that writes one frame. -/
theorem onClient_wrote_one {α : Type} {q : Proc Exn Client α} {p : Process}
    {due : List (Option Block32 × Outgoing)} {senv : SendEnv}
    (h : Post q p.client (fun _ c' => Wrote lib p.client c' due senv.GoesOn)) :
    Post (onClient q) p (fun _ p' =>
      Wrote lib p.client p'.client due (∀ other ∈ [senv], other.GoesOn)) := by
  simp only [List.forall_mem_singleton]
  exact onClient_wrote h

/-- A request writes one message; its answer is only read. -/
theorem exchange_wrote (hz : lib.ZstdRoundTrip) (hc : c.OnSocket) (env : Envelope)
    (timeoutMs : UInt32) (isTerminal : Envelope → Bool) (renv : RequestEnv) :
    Post (exchange lib proto env timeoutMs isTerminal renv) c (fun _ c' =>
      Wrote lib c c' (sendable c.sessionKey [env.toKernel proto]) renv.senv.GoesOn) :=
  (send_sends hz hc _ env renv.senv).then_reads
    (fun _ c₁ => waitForResponse_view wire_readInvariant _ isTerminal renv.frames c₁)

/-- A result that is settled behind a call leaves the client alone. -/
theorem settle_wrote {α β : Type} {q : Proc Exn Client α} {outcome : α → Except Exn β}
    {due : List (Option Block32 × Outgoing)} {whole : Prop}
    (h : Post q c (fun _ c' => Wrote lib c c' due whole)) :
    Post (q >>= fun a => settle (outcome a)) c (fun _ c' => Wrote lib c c' due whole) := by
  refine .bind (h.mono ?_)
  rintro (e | a) c' hwrote
  · exact hwrote
  · exact .settle hwrote

/-- `ping` writes one message, its ping. -/
theorem ping_wrote (hz : lib.ZstdRoundTrip) (hc : c.OnSocket) (nowMs : UInt64) (t0 t1 : Int)
    (senv : SendEnv) (envs : List FrameEnv) :
    Post (Client.ping lib proto nowMs t0 t1 senv envs) c (fun _ c' =>
      Wrote lib c c' (sendable c.sessionKey
        [Envelope.toKernel proto { payload := some (.ping nowMs) }]) senv.GoesOn) := by
  refine (send_sends hz hc _ _ senv).then_reads ?_
  intro _ c₁
  refine .bind ((recvDecode_view wire_readInvariant none envs c₁).mono ?_)
  rintro (e | resp) c' hsame
  · exact hsame
  · dsimp only
    split
    · exact .pure hsame
    · exact .throw hsame

/-- **One call** writes what it is to say. -/
theorem perform_wrote (hz : lib.ZstdRoundTrip) {p : Process} (hp : p.client.OnSocket)
    {call : ApiCall} (hcall : call.Plain) :
    Post (call.perform lib proto) p (fun _ p' =>
      Wrote lib p.client p'.client (sendable p.client.sessionKey (call.messages proto p))
        call.GoesOn) := by
  unfold GoesOn
  cases call with
  | basic op => exact onClient_wrote (Vynkor.perform_wrote hz hp hcall)
  | registerWithToken pluginId manifest jwtToken senv envs =>
      exact onClient_wrote_one (registerFull_wrote hz hp _ _ _ _ senv envs)
  | registerPlugin pluginId manifest senv envs =>
      exact onClient_wrote_one (registerFull_wrote hz hp _ _ _ _ senv envs)
  | publishEvent eventType payloadJson timeoutMs renv =>
      exact onClient_wrote_one (settle_wrote (exchange_wrote hz hp _ timeoutMs _ renv))
  | sendAction action paramsJson timeoutMs renv =>
      simp only [senvs, List.forall_mem_singleton]
      refine Post.bind_return (P := fun p' : Process => Wrote lib p.client p'.client _ _) ?_
      refine .bind ?_
      intro r p₁ hid
      cases hid
      exact .zoom (settle_wrote (exchange_wrote hz hp _ timeoutMs _ renv))
  | sendActionStreaming action timeoutMs nowMs senv =>
      simp only [senvs, List.forall_mem_singleton]
      refine Post.bind_return (P := fun p' : Process => Wrote lib p.client p'.client _ _) ?_
      refine .bind ?_
      intro r p₁ hid
      cases hid
      exact Post.bind_return (P := fun p' : Process => Wrote lib p.client p'.client _ _)
        (.zoom (send_sends hz hp _ _ senv).wrote)
  | sendCommand commandId command paramsJson senv envs =>
      refine onClient_wrote_one ((send_sends hz hp _ _ senv).then_reads ?_)
      intro _ c₁
      refine .bind ((recvDecode_view wire_readInvariant none envs c₁).mono ?_)
      rintro (e | resp) c' hsame
      · exact hsame
      · exact .settle hsame
  | ping nowMs t0 t1 senv envs =>
      exact onClient_wrote_one (ping_wrote hz hp nowMs t0 t1 senv envs)
  | sendRaw target payload senv =>
      exact onClient_wrote_one
        (sendRawWithFlags_sends hz hp { target := target, payload := payload }
          (.inl rfl) senv).wrote
  | sendRawAudio target data senv =>
      exact onClient_wrote_one
        (sendRawWithFlags_sends hz hp ⟨target, flagRawBinary, data⟩ (.inr (.inl rfl)) senv).wrote
  | subscribe eventTypes senv =>
      exact onClient_wrote_one (send_sends hz hp _ _ senv).wrote
  | unsubscribe eventTypes senv =>
      exact onClient_wrote_one (send_sends hz hp _ _ senv).wrote
  | ackEvent eventId senv =>
      exact onClient_wrote_one (send_sends hz hp _ _ senv).wrote
  | sendRequestChunk actionId seq chunk isFinal senv =>
      exact onClient_wrote_one (send_sends hz hp _ _ senv).wrote
  | sendResponseChunk actionId seq chunk senv =>
      exact onClient_wrote_one (send_sends hz hp _ _ senv).wrote
  | closeSession actionId reason senv =>
      exact onClient_wrote_one (send_sends hz hp _ _ senv).wrote
  | sendAudioChunk target body senv =>
      exact onClient_wrote_one (send_sends hz hp _ _ senv).wrote

end ApiCall

/-! ### Runs -/

variable (lib proto) in
/-- What a run of calls is to say, each message under the key of its call. -/
def dueOf : List ApiCall → Process → List (Option Block32 × Outgoing)
  | [], _ => []
  | call :: calls, p =>
      sendable p.client.sessionKey (call.messages proto p) ++
        match exec (call.perform lib proto) p with
        | none => []
        | some (_, p') => dueOf calls p'

/-- **Whole runs**, of which only the last call may see a write fail. -/
theorem runAll_wrote (hz : lib.ZstdRoundTrip) (last : ApiCall) (hlast : last.Plain) :
    ∀ (calls : List ApiCall) (p p' : Process), p.client.OnSocket →
      (∀ call ∈ calls, call.Plain ∧ call.GoesOn) →
      ApiCall.runAll lib proto (calls ++ [last]) p = some p' →
      Wrote lib p.client p'.client (dueOf lib proto (calls ++ [last]) p) last.GoesOn := by
  intro calls
  induction calls with
  | nil =>
      intro p p' hp _ hrun
      rw [List.nil_append, ApiCall.runAll] at hrun
      rw [List.nil_append, dueOf]
      cases hexec : exec (last.perform lib proto) p with
      | none => rw [hexec] at hrun; cases hrun
      | some out =>
          obtain ⟨r, p₁⟩ := out
          rw [hexec] at hrun
          cases hrun
          dsimp only
          rw [dueOf, List.append_nil]
          exact ApiCall.perform_wrote hz hp hlast r p' hexec
  | cons call calls ih =>
      intro p p' hp hcalls hrun
      obtain ⟨⟨hplain, hgoes⟩, hcalls⟩ := List.forall_mem_cons.mp hcalls
      rw [List.cons_append, ApiCall.runAll] at hrun
      rw [List.cons_append, dueOf]
      cases hexec : exec (call.perform lib proto) p with
      | none => rw [hexec] at hrun; cases hrun
      | some out =>
          obtain ⟨r, p₁⟩ := out
          rw [hexec] at hrun
          have hfirst : Wrote lib p.client p₁.client _ True :=
            (ApiCall.perform_wrote hz hp hplain r p₁ hexec).mono (fun _ => hgoes)
          exact hfirst.trans (ih p₁ p' hfirst.onSocket hcalls hrun)

/-- **Whole frames on the socket.**  In a run of public calls on an open socket,
of which only the last may see a write fail: the client has written whole wire
frames, and they seal, in order and each under the session key of its call, the
messages of the calls; if the last call was cut short, a front of these and what
is left of one frame.  However much of it has arrived, a peer that reads frames
off the stream finds the first of these and no others. -/
theorem client_writes_whole_frames (lib : WireLibs) (proto : ProtoLib) (hz : lib.ZstdRoundTrip)
    (calls : List ApiCall) (last : ApiCall) (p p' : Process) (hp : p.client.OnSocket)
    (hcalls : ∀ call ∈ calls, call.Plain ∧ call.GoesOn) (hlast : last.Plain)
    (hrun : ApiCall.runAll lib proto (calls ++ [last]) p = some p') :
    ∃ (frames : List WireImage) (torn : Bytes) (said : List (Option Block32 × Outgoing)),
      p'.client.outbound = p.client.outbound ++ (encode WireImage.bytes frames ++ torn) ∧
      Torn WireImage.bytes torn ∧ List.Forall₂ (WireImage.Seals lib) frames said ∧
      said <+: dueOf lib proto (calls ++ [last]) p ∧
      (last.GoesOn → said = dueOf lib proto (calls ++ [last]) p ∧ torn = []) ∧
      ∀ (read : List WireImage) (left : Bytes),
        encode WireImage.bytes read ++ left <+: encode WireImage.bytes frames ++ torn →
        read <+: frames := by
  obtain ⟨frames, torn, said, hout, htorn, hseals, hfront, hall⟩ :=
    (runAll_wrote hz last hlast calls p p' hp hcalls hrun).emitted
  exact ⟨frames, torn, said, hout, htorn, hseals, hfront, hall,
    fun read left hread => WireImage.isPrefixCode.reads_front htorn hread⟩

/-- A process whose client has just connected. -/
def connected : Process := { client := { fd := some {} } }

def wholeWrite : SendEnv := { writes := [.eintr, .wrote 19, .wrote 99] }

/-- The peer goes away behind the first ten bytes. -/
def cutWrite : SendEnv := { writes := [.wrote 9, .failed] }

/-- A frame, and the front of another. -/
theorem client_writes_whole_frames_cut :
    ∃ p' frames torn said,
      ApiCall.runAll storingLibs emptyProto [.subscribe [ascii "tick"] wholeWrite,
        .ackEvent (ascii "e1") cutWrite] connected = some p' ∧
      p'.client.outbound.length = 54 ∧
      p'.client.outbound = encode WireImage.bytes frames ++ torn ∧
      Torn WireImage.bytes torn ∧ List.Forall₂ (WireImage.Seals storingLibs) frames said ∧
      said <+: [(none, Envelope.toKernel emptyProto
        { payload := some (.subscribe [ascii "tick"]) }),
        (none, Envelope.toKernel emptyProto { payload := some (.eventAck (ascii "e1")) })] := by
  have hran : (ApiCall.runAll storingLibs emptyProto [.subscribe [ascii "tick"] wholeWrite,
      .ackEvent (ascii "e1") cutWrite] connected).map (fun p => p.client.outbound.length) =
        some 54 := by decide +kernel
  obtain ⟨p', hrun, hlength⟩ := Option.map_eq_some_iff.mp hran
  obtain ⟨frames, torn, said, hout, htorn, hseals, hfront, -, -⟩ :=
    client_writes_whole_frames storingLibs emptyProto storingLibs_roundTrip
      [.subscribe [ascii "tick"] wholeWrite] (.ackEvent (ascii "e1") cutWrite) connected p'
      ⟨rfl, rfl⟩ (by simp [ApiCall.Plain, ApiCall.GoesOn, ApiCall.senvs, SendEnv.GoesOn,
        wholeWrite])
      trivial hrun
  exact ⟨p', frames, torn, said, hrun, hlength, hout, htorn, hseals, hfront⟩

end Vynkor
