import VynkorSdk.ClientSession

/-!
# What a secured client may return

Once a session key is set, a frame is accepted only with a tag that verifies
under it.  That bounds the frames, not yet the payloads: a fragment set may
have been begun before the key was set.  The invariant is `Secure`: every
buffered chunk came from a frame that verified under the current key.  Receives
keep it, and setting a key establishes it exactly where nothing is buffered.
-/

namespace Vynkor

open ByteCodec KeyedTable Procedure

namespace Client

variable (lib : WireLibs) (proto : ProtoLib)

/-- The chunk is what a fragment frame carried that verified under `k`. -/
def FromVerified (k : Block32) (heard : List (Option Block32 × FrameResult)) (chunk : Bytes) :
    Prop :=
  ∃ frame, (some k, frame) ∈ heard ∧ Verified lib (some k) frame ∧
    chunk = frame.payload.drop fragHeaderSize

/-- Every byte of the payload came from a frame that verified under `k`: the
payload is that of one frame, or the chunks of several. -/
def Authentic (k : Block32) (heard : List (Option Block32 × FrameResult)) (payload : Bytes) :
    Prop :=
  (∃ frame, (some k, frame) ∈ heard ∧ Verified lib (some k) frame ∧ payload = frame.payload) ∨
  ∃ chunks : List Bytes, payload = chunks.flatten ∧
    ∀ chunk ∈ chunks, FromVerified lib k heard chunk

/-- Every buffered chunk came from a frame that verified under the current
key. -/
def Secure (c : Client) : Prop :=
  ∀ k, c.sessionKey = some k → AllChunks (FromVerified lib k c.heard) c.reassembly

/-- The receives of a client return authentic payloads, or envelopes decoded
from them. -/
structure InboundAuthentic (c : Client) (k : Block32) : Prop where
  recvFrame : ∀ envs r c', exec (recvFrame lib envs) c = some (.ok r, c') →
    Authentic lib k c'.heard r.payload
  recv : ∀ envs env c', exec (recv lib proto envs) c = some (.ok env, c') →
    ∃ payload, Authentic lib k c'.heard payload ∧ proto.parse payload = some env
  recvTimeout : ∀ timeoutMs now envs env c',
    exec (recvTimeout lib proto timeoutMs now envs) c = some (.ok env, c') →
    ∃ payload, Authentic lib k c'.heard payload ∧ proto.parse payload = some env
  waitForResponse : ∀ deadline isTerminal calls env c',
    exec (waitForResponse lib proto deadline isTerminal calls) c = some (.ok env, c') →
    ∃ payload, Authentic lib k c'.heard payload ∧ proto.parse payload = some env

variable {lib proto}

/-- What comes from verified frames comes from more of them. -/
theorem FromVerified.mono {k : Block32} {heard heard' : List (Option Block32 × FrameResult)}
    {chunk : Bytes} (h : FromVerified lib k heard chunk) (hsub : heard ⊆ heard') :
    FromVerified lib k heard' chunk := by
  obtain ⟨frame, hmem, hverified, hchunk⟩ := h
  exact ⟨frame, hsub hmem, hverified, hchunk⟩

/-- A client with the same session is as secure. -/
theorem Secure.of_same {c c' : Client} (h : Secure lib c) (hsame : SameSession c c') :
    Secure lib c' := by
  intro k hk
  rw [hsame.table_eq, hsame.heard_eq]
  exact h k (hsame.key_eq ▸ hk)

/-- Setting a key while nothing is buffered. -/
theorem Secure.of_empty {c : Client} (h : c.reassembly = ∅) : Secure lib c := by
  intro k _
  rw [h]
  exact AllChunks.empty _

/-- A frame on record under the current key. -/
def Recorded (lib : WireLibs) (c : Client) (frame : FrameResult) : Prop :=
  ∀ k, c.sessionKey = some k → (some k, frame) ∈ c.heard ∧ Verified lib (some k) frame

/-- What a receive guarantees: the invariant, the key, and an authentic
payload. -/
def SecureRead (lib : WireLibs) (c : Client) (r : Except Exn FrameResult) (c' : Client) : Prop :=
  Secure lib c' ∧ c'.sessionKey = c.sessionKey ∧
    ∀ frame k, r = .ok frame → c.sessionKey = some k → Authentic lib k c'.heard frame.payload

/-- A secure read, seen from an earlier client with the same key. -/
theorem SecureRead.of_key_eq {c c₁ c' : Client} {r : Except Exn FrameResult}
    (h : SecureRead lib c₁ r c') (hkey : c₁.sessionKey = c.sessionKey) : SecureRead lib c r c' := by
  obtain ⟨hsecure, hkey', hauthentic⟩ := h
  exact ⟨hsecure, hkey'.trans hkey, fun frame k hr hk => hauthentic frame k hr (hkey.trans hk)⟩

/-- A frame just read is on record, and the invariant still holds. -/
theorem FrameRead.secure {c c' : Client} {frame : FrameResult} (hsecure : Secure lib c)
    (h : FrameRead lib c (.ok frame) c') : Secure lib c' ∧ Recorded lib c' frame := by
  obtain ⟨hverified, hkey, htable, hheard, _⟩ := h
  constructor
  · intro k hk
    rw [hkey] at hk
    rw [htable, hheard]
    exact (hsecure k hk).mono (fun chunk hchunk => hchunk.mono (List.subset_append_left _ _))
  · intro k hk
    rw [hkey] at hk
    rw [hheard, hk]
    exact ⟨by simp, hk ▸ hverified⟩

/-- Absorbing a recorded fragment keeps the invariant; a payload it completes
is made of chunks that verified. -/
theorem absorb_secure {c : Client} {env : FrameEnv} {frame : FrameResult}
    (hsecure : Secure lib c) (hrecord : Recorded lib c frame) :
    Post (absorb env frame) c (fun r c' => Secure lib c' ∧ c'.sessionKey = c.sessionKey ∧
      ∀ result k, r = .ok (some result) → c.sessionKey = some k →
        Authentic lib k c'.heard result.payload) := by
  intro r c' hrun
  rw [exec_absorb] at hrun
  obtain ⟨rfl, rfl⟩ := Prod.mk.inj (Option.some.inj hrun)
  have hchunks : ∀ k, c.sessionKey = some k →
      AllChunks (FromVerified lib k c.heard)
        (absorbFragment ⟨env.absorbNow, env.absorbSeen, frame⟩ c.reassembly).2 ∧
      ∀ r, (absorbFragment ⟨env.absorbNow, env.absorbSeen, frame⟩ c.reassembly).1 =
        .ok (some r) → ∃ chunks : List Bytes, r.payload = chunks.flatten ∧
          ∀ chunk ∈ chunks, FromVerified lib k c.heard chunk := by
    intro k hk
    apply absorbFragment_chunks (hsecure k hk)
    exact ⟨frame, (hrecord k hk).1, (hrecord k hk).2, rfl⟩
  refine ⟨fun k hk => (hchunks k hk).1, rfl, ?_⟩
  intro result k hresult hk
  exact Or.inr ((hchunks k hk).2 result hresult)

/-- **A receive keeps the invariant** and returns an authentic payload. -/
theorem recvFrameWith_secure (deadline : Option Int) :
    ∀ (envs : List FrameEnv) (c : Client), Secure lib c →
      Post (recvFrameWith lib deadline envs) c (SecureRead lib c) := by
  intro envs
  induction envs with
  | nil =>
      intro c _
      exact Post.waiting
  | cons env envs ih =>
      intro c hsecure
      apply Post.bind
      refine (readTransportFrame_read deadline env c).mono ?_
      intro r c₁ hread
      cases r with
      | error e => exact ⟨hsecure.of_same hread, hread.key_eq, fun _ _ h => by cases h⟩
      | ok frame =>
          have hkey : c₁.sessionKey = c.sessionKey := hread.2.1
          obtain ⟨hsecure₁, hrecord⟩ := FrameRead.secure hsecure hread
          apply Post.ite
          · intro _
            apply Post.bind
            refine (absorb_secure hsecure₁ hrecord).mono ?_
            intro r c₂ habsorb
            obtain ⟨hsecure₂, hkey₂, hcomplete⟩ := habsorb
            cases r with
            | error e => exact ⟨hsecure₂, hkey₂.trans hkey, fun _ _ h => by cases h⟩
            | ok complete =>
                cases complete with
                | none =>
                    refine (ih c₂ hsecure₂).mono ?_
                    intro r c₃ h
                    exact h.of_key_eq (hkey₂.trans hkey)
                | some result =>
                    apply Post.pure
                    refine ⟨hsecure₂, hkey₂.trans hkey, ?_⟩
                    intro frame' k hframe hk
                    cases hframe
                    exact hcomplete result k rfl (hkey.trans hk)
          · intro _
            apply Post.pure
            refine ⟨hsecure₁, hkey, ?_⟩
            intro frame' k hframe hk
            cases hframe
            obtain ⟨hmem, hverified⟩ := hrecord k (hkey.trans hk)
            exact Or.inl ⟨frame, hmem, hverified, rfl⟩

/-- The same for a receive that returns an envelope: it was decoded from an
authentic payload. -/
def SecureDecode (lib : WireLibs) (proto : ProtoLib) (c : Client) (r : Except Exn Envelope)
    (c' : Client) : Prop :=
  Secure lib c' ∧ c'.sessionKey = c.sessionKey ∧
    ∀ env k, r = .ok env → c.sessionKey = some k →
      ∃ payload, Authentic lib k c'.heard payload ∧ proto.parse payload = some env

/-- Decoding the frame of a receive. -/
theorem recvFrameWith_decode (deadline : Option Int) (envs : List FrameEnv) {c : Client}
    (hsecure : Secure lib c) :
    Post (do
      let result ← recvFrameWith lib deadline envs
      settle (decodeFrame proto result)) c (SecureDecode lib proto c) := by
  apply Post.bind
  refine (recvFrameWith_secure deadline envs c hsecure).mono ?_
  intro r c' hread
  obtain ⟨hsecure', hkey, hauthentic⟩ := hread
  cases r with
  | error e => exact ⟨hsecure', hkey, fun _ _ h => by cases h⟩
  | ok result =>
      apply Post.settle
      refine ⟨hsecure', hkey, ?_⟩
      intro env k hdecode hk
      refine ⟨result.payload, hauthentic result k rfl hk, ?_⟩
      unfold decodeFrame at hdecode
      split at hdecode
      · cases hdecode
      · cases hparse : proto.parse result.payload with
        | none => rw [hparse] at hdecode; cases hdecode
        | some env' => rw [hparse] at hdecode; cases hdecode; rfl

/-- Waiting for a response keeps a client secure, and the envelope it brings is verified. -/
theorem waitForResponse_secure (deadline : Int) (isTerminal : Envelope → Bool) :
    ∀ (calls : List (List FrameEnv)) (c : Client), Secure lib c →
      Post (waitForResponse lib proto deadline isTerminal calls) c (SecureDecode lib proto c) := by
  intro calls
  induction calls with
  | nil =>
      intro c _
      exact Post.waiting
  | cons envs calls ih =>
      intro c hsecure
      apply Post.bind
      refine (recvFrameWith_secure (some deadline) envs c hsecure).mono ?_
      intro r c₁ hread
      obtain ⟨hsecure₁, hkey, hauthentic⟩ := hread
      cases r with
      | error e => exact ⟨hsecure₁, hkey, fun _ _ h => by cases h⟩
      | ok frame =>
          dsimp only
          cases hparse : proto.parse frame.payload with
          | none => exact Post.throw ⟨hsecure₁, hkey, fun _ _ h => by cases h⟩
          | some resp =>
              apply Post.ite
              · intro _
                apply Post.pure
                refine ⟨hsecure₁, hkey, ?_⟩
                intro env k henv hk
                cases henv
                exact ⟨frame.payload, hauthentic frame k rfl hk, hparse⟩
              · intro _
                refine (ih c₁ hsecure₁).mono ?_
                intro r c₂ h
                obtain ⟨hsecure₂, hkey₂, hdecode⟩ := h
                exact ⟨hsecure₂, hkey₂.trans hkey,
                  fun env k hr hk => hdecode env k hr (hkey.trans hk)⟩

/-- A client that satisfies the invariant returns authentic payloads only. -/
theorem Secure.inboundAuthentic {c : Client} (h : Secure lib c) {k : Block32}
    (hk : c.sessionKey = some k) : InboundAuthentic lib proto c k where
  recvFrame envs r _ hrun := (recvFrameWith_secure none envs c h _ _ hrun).2.2 r k rfl hk
  recv envs env _ hrun := (recvFrameWith_decode none envs h _ _ hrun).2.2 env k rfl hk
  recvTimeout _ _ envs env _ hrun :=
    (recvFrameWith_decode (some _) envs h _ _ hrun).2.2 env k rfl hk
  waitForResponse deadline isTerminal calls env _ hrun :=
    (waitForResponse_secure deadline isTerminal calls c h _ _ hrun).2.2 env k rfl hk

/-! ### Whole histories -/

/-- Where `register_full` sets the session key, nothing is buffered: after the
exchange, if its answer yields a key, the reassembly table is empty.  The other
operations set no key. -/
def KeySetOnEmptyTable (lib : WireLibs) (proto : ProtoLib) (c : Client) : Op → Prop
  | .registerFull pluginId version manifest jwtToken senv envs =>
      ∀ answer ack k c₁,
        exec (registerExchange lib proto pluginId version manifest jwtToken senv envs) c =
          some (.ok answer, c₁) →
        answer.payload = some (.pluginRegisterAck ack) →
        registeredKey lib c₁.secret pluginId ack = .ok (some k) → c₁.reassembly = ∅
  | _ => True

/-- Accepting a registration keeps a client secure when a new key finds the table empty. -/
theorem acceptRegistration_secure (pluginId : Bytes) (answer : Envelope) {c : Client}
    (hsecure : Secure lib c)
    (hempty : ∀ ack k, answer.payload = some (.pluginRegisterAck ack) →
      registeredKey lib c.secret pluginId ack = .ok (some k) → c.reassembly = ∅) :
    Post (acceptRegistration lib pluginId answer) c (fun _ c' => Secure lib c') := by
  unfold acceptRegistration
  apply Post.get_bind
  split
  · rename_i ack hack
    apply Post.bind
    apply Post.settle
    cases hkey : registeredKey lib c.secret pluginId ack with
    | error e => exact hsecure
    | ok key =>
        apply Post.bind
        apply Post.modify
        apply Post.pure
        cases key with
        | none => exact hsecure.of_same ⟨rfl, rfl, rfl, id⟩
        | some k => exact Secure.of_empty (hempty ack k hack hkey)
  · exact Post.throw hsecure
  · exact Post.throw hsecure

/-- Registering keeps a client secure. -/
theorem registerExchange_secure (pluginId version : Bytes) (manifest : PluginManifest)
    (jwtToken : Bytes) (senv : SendEnv) (envs : List FrameEnv) {c : Client}
    (hsecure : Secure lib c) :
    Post (registerExchange lib proto pluginId version manifest jwtToken senv envs) c
      (fun _ c' => Secure lib c') := by
  apply Post.get_bind
  apply Post.bind
  refine (sendRawWithFlags_session _ _ _ senv c).mono ?_
  intro r c₁ hsame
  cases r with
  | error e => exact hsecure.of_same hsame
  | ok _ =>
      exact (recvFrameWith_decode none envs (hsecure.of_same hsame)).mono (fun _ _ h => h.1)

/-- **One operation** keeps the invariant, registrations under their
condition. -/
theorem perform_secure {op : Op} {c : Client} (hsecure : Secure lib c)
    (hcond : KeySetOnEmptyTable lib proto c op) :
    Post (op.perform lib proto) c (fun _ c' => Secure lib c') := by
  -- Every operation is a procedure and a value to return.
  have hsession : ∀ {α : Type} {p : Proc Exn Client α} {f : α → Output},
      Post p c (fun _ c' => SameSession c c') →
      Post (do let a ← p; return f a) c (fun _ c' => Secure lib c') :=
    fun hp => (hp.mono (fun _ _ h => hsecure.of_same h)).bind_return
  cases op with
  | connect env => exact hsession (connect_session env c)
  | close => exact hsession (Post.modify ⟨rfl, rfl, rfl, fun _ => rfl⟩)
  | registerFull pluginId version manifest jwtToken senv envs =>
      apply Post.bind_return
      intro r c' hrun
      obtain ⟨e, _, hthrow⟩ | ⟨answer, c₁, hexchange, haccept⟩ := exec_bind_cases hrun
      · exact registerExchange_secure _ _ _ _ _ _ hsecure _ _ hthrow
      · exact acceptRegistration_secure pluginId answer
          (registerExchange_secure _ _ _ _ _ _ hsecure _ _ hexchange)
          (fun ack k => hcond answer ack k c₁ hexchange) _ _ haccept
  | send target env senv => exact hsession (sendRawWithFlags_session target 0 _ senv c)
  | sendRawWithFlags target extraFlags payload senv =>
      exact hsession (sendRawWithFlags_session target extraFlags payload senv c)
  | sendFragmented target payload chunkSize senvs =>
      exact hsession (sendFragmented_session target payload chunkSize senvs c)
  | recvFrame envs =>
      exact ((recvFrameWith_secure none envs c hsecure).mono (fun _ _ h => h.1)).bind_return
  | recv envs => exact ((recvFrameWith_decode none envs hsecure).mono (fun _ _ h =>
    h.1)).bind_return
  | recvTimeout timeoutMs now envs =>
      exact ((recvFrameWith_decode (some _) envs hsecure).mono (fun _ _ h => h.1)).bind_return
  | waitForResponse deadline isTerminal calls =>
      exact ((waitForResponse_secure deadline isTerminal calls c hsecure).mono
        (fun _ _ h => h.1)).bind_return

end Client

open Client in
/-- **Inbound authenticity.**  In every history of a client that begins without
a key, and in which `register_full` finds the reassembly table empty whenever it
sets one, every payload received under a key came from frames that verified
under it. -/
theorem inbound_authentic_of_key_set_on_empty_table (lib : WireLibs) (proto : ProtoLib)
    (c₀ : Client) (hnew : c₀.sessionKey = none) (ops : List Op)
    (hcond : Along lib proto (KeySetOnEmptyTable lib proto) ops c₀) (c : Client)
    (hrun : runOps lib proto ops c₀ = some c) (k : Block32) (hk : c.sessionKey = some k) :
    InboundAuthentic lib proto c k := by
  have hstart : Secure lib c₀ := by
    intro k hk
    rw [hnew] at hk
    cases hk
  have hsecure : Secure lib c :=
    runOps_invariant (fun c op hinv hcond => perform_secure hinv hcond) ops c₀ c hstart hcond hrun
  exact hsecure.inboundAuthentic hk

namespace Client

/-- A stream that hands over whatever is asked for at once. -/
def promptFrameEnv : FrameEnv where
  waits := []
  waitEnd := 0
  firstReads := [.data 0]
  start := 0
  ticks := [⟨0, .ready, .data 4095⟩, ⟨0, .ready, .data 4095⟩]
  message := .ok []
  absorbNow := 0
  absorbSeen := 0

def promptSendEnv : SendEnv where
  writes := [.wrote 4095]

def sampleNonce : Bytes := (List.range 16).map UInt8.ofNat

def sampleAck : PluginRegisterAck := { accepted := true, sessionNonce := sampleNonce }

/-- The encoding of `sampleAck` in an envelope. -/
def sampleAckBytes : Bytes := [0x5A, 0x14, 0x08, 0x01, 0x22, 0x10] ++ sampleNonce

/-- Protobuf on one register envelope and on its ack. -/
def registerProto : ProtoLib where
  serialize _ := [0x52, 0x0C, 0x0A, 0x01, 0x70, 0x12, 0x05] ++ ascii "1.0.0" ++ [0x22, 0x00]
  parse bytes :=
    if bytes = sampleAckBytes then some { payload := some (.pluginRegisterAck sampleAck) } else none

/-- The key that `sampleAck` gives plugin `p` with the secret `secret`. -/
def sampleSessionKey : Option Block32 :=
  (deriveSessionKey storingLibs (ascii "secret") sampleNonce (ascii "p")).toOption

def wireFrame (flags : UInt16) (payload : Bytes) (key : Option Block32) : Bytes :=
  ((packFrameWs storingLibs (ascii "p") flags payload key).toOption).getD []

def registerOp (envs : List FrameEnv) : Op :=
  .registerFull (ascii "p") (ascii "1.0.0") {} [] promptSendEnv envs

/-- A client whose peer has sent `bytes`. -/
def clientWith (bytes : Bytes) : Client :=
  { fd := some { inbound := bytes }, secret := ascii "secret" }

end Client

open Client in
/-- A registration with nothing buffered sets a key, and the condition holds. -/
theorem inbound_authentic_of_key_set_on_empty_table_ack :
    ∃ c k, runOps storingLibs registerProto [registerOp [promptFrameEnv]]
        (clientWith (wireFrame 0 sampleAckBytes none)) = some c ∧ c.sessionKey = some k ∧
      InboundAuthentic storingLibs registerProto c k := by
  have hexchange : (exec (registerExchange storingLibs registerProto (ascii "p") (ascii "1.0.0") {}
      [] promptSendEnv [promptFrameEnv]) (clientWith (wireFrame 0 sampleAckBytes none))).map
      (fun out => out.2.reassembly.entries) = some [] := by decide +kernel
  have hkeyed : ((runOps storingLibs registerProto [registerOp [promptFrameEnv]]
      (clientWith (wireFrame 0 sampleAckBytes none))).bind (·.sessionKey)).isSome := by
    decide +kernel
  obtain ⟨k, hkey⟩ := Option.isSome_iff_exists.mp hkeyed
  obtain ⟨c, hrun, hk⟩ := Option.bind_eq_some_iff.mp hkey
  refine ⟨c, k, hrun, hk, ?_⟩
  refine inbound_authentic_of_key_set_on_empty_table storingLibs registerProto _ rfl
    [registerOp [promptFrameEnv]] ⟨?_, fun _ _ _ => trivial⟩ c hrun k hk
  intro answer ack k c₁ hexec _ _
  rw [hexec] at hexchange
  exact AList.ext (Option.some.inj hexchange)

namespace Client

/-- Half of a fragment set without a tag, the register ack, and the other half
with a tag. -/
def splitSet : Bytes :=
  wireFrame flagFragmented (packFragHeader 1 0 2 1 ++ ascii "a") none ++
  wireFrame 0 sampleAckBytes none ++
  wireFrame (flagMacPresent ||| flagFragmented) (packFragHeader 1 1 2 1 ++ ascii "b")
    sampleSessionKey

/-- The registration sets a key, the next receive returns `ab`, and the only
frame on record under a key carried `b`. -/
def splitSetReturned : Bool :=
  match runOps storingLibs registerProto [registerOp [promptFrameEnv, promptFrameEnv]]
      (clientWith splitSet) with
  | none => false
  | some c =>
      match exec (recvFrame storingLibs [promptFrameEnv]) c with
      | some (.ok r, c') => c.sessionKey.isSome && r.payload == ascii "ab" &&
          c'.heard.all (fun (key, frame) => key.isNone ||
            frame.payload == packFragHeader 1 1 2 1 ++ ascii "b")
      | _ => false

/-- Nothing made of frames that carried `b` contains `a`. -/
theorem not_authentic_of_heard {k : Block32} {heard : List (Option Block32 × FrameResult)}
    (h : heard.all (fun (key, frame) => key.isNone ||
      frame.payload == packFragHeader 1 1 2 1 ++ ascii "b") = true) :
    ¬ Authentic storingLibs k heard (ascii "ab") := by
  have hframe : ∀ frame, (some k, frame) ∈ heard →
      frame.payload = packFragHeader 1 1 2 1 ++ ascii "b" := by
    intro frame hmem
    simpa using List.all_eq_true.mp h _ hmem
  rintro (⟨frame, hmem, _, hpayload⟩ | ⟨chunks, hpayload, hchunks⟩)
  · rw [hframe frame hmem] at hpayload
    exact absurd hpayload (by decide)
  · have hfirst : (0x61 : UInt8) ∈ chunks.flatten := hpayload ▸ (by decide)
    obtain ⟨chunk, hmem, hbyte⟩ := List.mem_flatten.mp hfirst
    obtain ⟨frame, hheard, _, hchunk⟩ := hchunks chunk hmem
    rw [hchunk, hframe frame hheard] at hbyte
    exact absurd hbyte (by decide)

end Client

open Client in
/-- Without the condition the law fails: the first half of a fragment set may
arrive before the key, without a tag. -/
theorem untagged_fragment_returned :
    ¬ ∀ (lib : WireLibs) (proto : ProtoLib) (c₀ : Client), c₀.sessionKey = none →
      ∀ (ops : List Op) (c : Client), runOps lib proto ops c₀ = some c →
        ∀ k, c.sessionKey = some k → InboundAuthentic lib proto c k := by
  intro hclaim
  have hreturned : splitSetReturned = true := by decide +kernel
  unfold splitSetReturned at hreturned
  split at hreturned
  · cases hreturned
  rename_i c hrun
  split at hreturned
  · rename_i r c' hrecv
    simp only [Bool.and_eq_true, beq_iff_eq] at hreturned
    obtain ⟨⟨hkey, hpayload⟩, hheard⟩ := hreturned
    obtain ⟨k, hk⟩ := Option.isSome_iff_exists.mp hkey
    have hauthentic := (hclaim _ _ _ rfl _ c hrun k hk).recvFrame _ r c' hrecv
    rw [hpayload] at hauthentic
    exact not_authentic_of_heard hheard hauthentic
  · cases hreturned

end Vynkor
