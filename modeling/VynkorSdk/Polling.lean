import VynkorSdk.ClientSession
import VynkorSdk.MixedStream

/-!
# Polling between messages

`recv_timeout` after `recv_timeout` on the Unix socket, in an environment that
is not restricted in any way.  Where a call may fail, two kinds of timeouts are
told apart: `VynkorTimeout` comes from the wait for the first byte of a frame
alone, so the stream stands at a frame boundary; one in the middle of a frame is
a `VynkorFrameReadTimeout`.

In a run whose failing calls all fail with `VynkorTimeout`, every call takes
whole frames, and the fragments it took before its deadline passed are in the
reassembly table when the next call begins.
-/

namespace Vynkor

open ByteCodec KeyedTable Procedure

/-! ### What a read has taken -/

/-- `need` bytes have been taken off the stream and put behind `got`, or the
read has failed, and not with `VynkorTimeout`. -/
def TakesBytes {α : Type} (bytes : α → Bytes) (need : Nat) (got s : Bytes) (r : Except Exn α)
    (s' : Bytes) : Prop :=
  match r with
  | .error e => e ≠ .timeout
  | .ok a => ∃ taken, taken.length = need ∧ s = taken ++ s' ∧ bytes a = got ++ taken

/-- One transfer, and what follows it. -/
theorem readSome_takes {α : Type} {bytes : α → Bytes} {k need : Nat} {got s : Bytes}
    {next : Bytes → Proc Exn Bytes α}
    (hnext : ∀ more s', more.length ≤ need + 1 →
      Post (next more) s' (TakesBytes bytes (need + 1 - more.length) (got ++ more) s')) :
    Post (readSome k (need + 1) >>= next) s (TakesBytes bytes (need + 1) got s) := by
  apply Post.bind
  apply Post.get_bind
  apply Post.ite
  · intro _
    exact Post.waiting
  · intro _
    generalize hn : min (k + 1) (min (need + 1) s.length) = n
    apply Post.bind
    apply Post.modify
    apply Post.pure
    have hlength : (s.take n).length = n := by
      rw [List.length_take]
      omega
    refine (hnext (s.take n) (s.drop n) (by omega)).mono ?_
    intro r s' h
    unfold TakesBytes at h ⊢
    cases r with
    | error e => exact h
    | ok a =>
        obtain ⟨taken, htaken, hs', hbytes⟩ := h
        refine ⟨s.take n ++ taken, ?_, ?_, ?_⟩
        · rw [List.length_append]
          omega
        · rw [List.append_assoc, ← hs', List.take_append_drop]
        · rw [hbytes, List.append_assoc]

/-- `recv_exact` takes bytes off the front of the stream, and on success as many as needed. -/
theorem recvExact_takes : ∀ (reads : List ReadResult) (need : Nat) (got s : Bytes),
    Post (recvExact reads need got) s (TakesBytes id need got s) := by
  intro reads
  induction reads with
  | nil =>
      intro need got s
      cases need with
      | zero => exact Post.pure ⟨[], by simp⟩
      | succ need => exact Post.waiting
  | cons read reads ih =>
      intro need got s
      cases need with
      | zero => exact Post.pure ⟨[], by simp⟩
      | succ need =>
          cases read with
          | eintr => exact ih (need + 1) got s
          | failed => exact Post.throw (by simp [TakesBytes])
          | closed => exact Post.throw (by simp [TakesBytes])
          | data k => exact readSome_takes (fun more s' _ => ih _ (got ++ more) s')

/-- So does the read with a deadline. -/
theorem recvExactDeadline_takes (deadline : Int) :
    ∀ (ticks : List Tick) (need : Nat) (got s : Bytes),
      Post (recvExactDeadline deadline ticks need got) s (TakesBytes Prod.fst need got s) := by
  intro ticks
  induction ticks with
  | nil =>
      intro need got s
      cases need with
      | zero => exact Post.pure ⟨[], by simp⟩
      | succ need => exact Post.waiting
  | cons tick ticks ih =>
      intro need got s
      cases need with
      | zero => exact Post.pure ⟨[], by simp⟩
      | succ need =>
          apply Post.ite
          · intro _
            exact Post.throw (by simp [TakesBytes])
          · intro _
            split
            · exact ih (need + 1) got s
            · exact Post.throw (by simp [TakesBytes])
            · exact Post.throw (by simp [TakesBytes])
            · split
              · exact ih (need + 1) got s
              · exact Post.throw (by simp [TakesBytes])
              · exact Post.throw (by simp [TakesBytes])
              · exact readSome_takes (fun more s' _ => ih _ (got ++ more) s')

/-- `VynkorTimeout` comes from the wait, which leaves the stream alone. -/
theorem awaitReadable_keeps (deadline : Int) : ∀ (waits : List Wait) (s : Bytes),
    Post (awaitReadable deadline waits) s (fun _ s' => s' = s) := by
  intro waits
  induction waits with
  | nil =>
      intro s
      exact Post.waiting
  | cons wait waits ih =>
      intro s
      apply Post.ite
      · intro _
        exact Post.throw rfl
      · intro _
        split
        · exact ih s
        · exact Post.throw rfl
        · exact Post.throw rfl
        · exact Post.pure rfl

/-! ### What reading a frame can end with -/

/-- The wait timed out and nothing was read; or the read failed in another way;
or a whole frame was taken and parsed. -/
def ReadsFrame (lib : WireLibs) (key : Option Block32) (s : Bytes) (r : Except Exn FrameResult)
    (s' : Bytes) : Prop :=
  (r = .error .timeout ∧ s' = s) ∨ (∃ e, r = .error e ∧ e ≠ .timeout) ∨
    ∃ buf, SelfDelimited buf ∧ s = buf ++ s' ∧ r = (parseFrameBytes lib buf key).map Prod.fst

/-- A read that fails inside a frame is a failed read of the frame. -/
theorem TakesBytes.failed {α : Type} {bytes : α → Bytes} {need : Nat} {got s s' : Bytes} {e : Exn}
    (h : TakesBytes bytes need got s (.error e) s') (lib : WireLibs) (key : Option Block32)
    (s₀ : Bytes) : ReadsFrame lib key s₀ (.error e) s' :=
  Or.inr (Or.inl ⟨e, rfl, h⟩)

/-- Reading a frame takes bytes off the front and parses what it took. -/
theorem readFrameFullWithTimeout_reads (lib : WireLibs) (key : Option Block32)
    (frameTimeoutMs : Int) (env : FrameEnv) (s : Bytes) :
    Post (readFrameFullWithTimeout lib key frameTimeoutMs env) s (ReadsFrame lib key s) := by
  apply Post.bind
  refine (recvExact_takes env.firstReads 1 [] s).mono ?_
  intro r s₁ hfirst
  cases r with
  | error e => exact hfirst.failed lib key s
  | ok first =>
  obtain ⟨taken₁, hlength₁, hs₁, hfirst⟩ := hfirst
  apply Post.bind
  refine (recvExactDeadline_takes _ env.ticks (frameHeaderSize - 1) first s₁).mono ?_
  intro r s₂ hheader
  cases r with
  | error e => exact hheader.failed lib key s
  | ok out =>
  obtain ⟨header, ticks⟩ := out
  obtain ⟨taken₂, hlength₂, hs₂, hheader⟩ := hheader
  have hheaderLength : header.length = frameHeaderSize := by
    have hfirstLength : first.length = 1 := by
      rw [show first = taken₁ from hfirst, hlength₁]
    rw [show header = first ++ taken₂ from hheader, List.length_append, hfirstLength, hlength₂]
    rfl
  dsimp only
  apply Post.ite
  · intro _
    exact Post.throw (Or.inr (Or.inl ⟨_, rfl, by simp⟩))
  · intro hsize
    apply Post.bind
    refine (recvExactDeadline_takes _ ticks _ header s₂).mono ?_
    intro r s₃ hbody
    cases r with
    | error e => exact hbody.failed lib key s
    | ok out =>
    obtain ⟨buf, left⟩ := out
    obtain ⟨taken₃, hlength₃, hs₃, hbuf⟩ := hbody
    have hbuf : buf = header ++ taken₃ := hbuf
    have hfields : lengthField buf = lengthField header ∧ flagsField buf = flagsField header := by
      unfold lengthField flagsField
      simp only [frameHeaderSize] at hheaderLength
      rw [hbuf, slice_append_left (by omega), slice_append_left (by omega)]
      exact ⟨rfl, rfl⟩
    have hdelimited : SelfDelimited buf := by
      refine ⟨?_, ?_, ?_⟩
      · rw [hbuf, List.length_append]
        omega
      · rw [hfields.1]
        exact Nat.not_lt.mp hsize
      · rw [frameExtent, hfields.1, hfields.2, hbuf, List.length_append, hlength₃, hheaderLength,
          Nat.add_assoc]
    have hstream : s = buf ++ s₃ := by
      rw [hs₁, hs₂, hs₃, hbuf, show header = first ++ taken₂ from hheader,
        show first = taken₁ from hfirst]
      simp
    dsimp only
    apply Post.bind
    apply Post.settle
    cases hparse : parseFrameBytes lib buf key with
    | error e => exact Or.inr (Or.inr ⟨buf, hdelimited, hstream, by rw [hparse]; rfl⟩)
    | ok r => exact Post.pure (Or.inr (Or.inr ⟨buf, hdelimited, hstream, by rw [hparse]; rfl⟩))

/-- So does reading it with a deadline. -/
theorem readFrameFullWithDeadline_reads (lib : WireLibs) (key : Option Block32) (deadline : Int)
    (env : FrameEnv) (s : Bytes) :
    Post (readFrameFullWithDeadline lib key deadline env) s (ReadsFrame lib key s) := by
  apply Post.bind
  refine (awaitReadable_keeps deadline env.waits s).mono ?_
  intro r s' hsame
  subst hsame
  cases r with
  | error e =>
      by_cases htimeout : e = .timeout
      · exact Or.inl ⟨by rw [htimeout], rfl⟩
      · exact Or.inr (Or.inl ⟨e, rfl, htimeout⟩)
  | ok _ => exact readFrameFullWithTimeout_reads lib key _ env s'

/-- The whole frame is the one in front. -/
theorem SelfDelimited.front_unique {f buf rest rest' : Bytes} (hf : SelfDelimited f)
    (hbuf : SelfDelimited buf) (h : f ++ rest = buf ++ rest') : f = buf ∧ rest = rest' := by
  refine List.append_inj h ?_
  rw [← Endpoint.frameExtent_append hf, h, Endpoint.frameExtent_append hbuf]

/-! ### Frames queued on the socket -/

namespace Client

variable (lib : WireLibs) (proto : ProtoLib)

/-- The packets are what will ever come in on the socket, each valid under the
session key. -/
structure Queued (packets : List Packet) (c : Client) : Prop where
  ws_none : c.ws = none
  fd_some : c.fd.isSome
  inbound_eq : c.inbound = (packets.map Packet.bytes).flatten
  parses : ∀ p ∈ packets, parseFrameBytes lib p.bytes c.sessionKey = .ok (p.frame, p.bytes.length)

variable {lib proto}

/-- `c'` is `c` with `s'` left on the socket, and perhaps one more frame heard. -/
structure Advanced (c : Client) (s' : Bytes) (c' : Client) : Prop where
  ws_eq : c'.ws = c.ws
  fd_some : c'.fd.isSome
  inbound_eq : c'.inbound = s'
  key_eq : c'.sessionKey = c.sessionKey
  table_eq : c'.reassembly = c.reassembly

/-- A socket client's read advances its stream and its clock only. -/
theorem readTransportFrame_reads {c : Client} (hws : c.ws = none) (hfd : c.fd.isSome)
    (deadline : Int) (env : FrameEnv) :
    Post (readTransportFrame lib (some deadline) env) c
      (fun r c' => ∃ s', ReadsFrame lib c.sessionKey c.inbound r s' ∧ Advanced c s' c') := by
  obtain ⟨sock, hsock⟩ := Option.isSome_iff_exists.mp hfd
  have hadvanced : ∀ s', Advanced c s' (c.setInbound s') := by
    intro s'
    exact ⟨rfl, by simp [setInbound, hsock], by simp [inbound, setInbound, hsock], rfl, rfl⟩
  have hactive : Post (readActiveFrame lib (some deadline) env) c
      (fun r c' => ∃ s', ReadsFrame lib c.sessionKey c.inbound r s' ∧ Advanced c s' c') := by
    apply Post.get_bind
    apply Post.ite
    · intro hsome
      rw [hws] at hsome
      cases hsome
    · intro _
      apply Post.get_bind
      apply Post.zoom
      rw [if_pos hfd]
      refine (readFrameFullWithDeadline_reads lib c.sessionKey deadline env c.inbound).mono ?_
      intro r s' hreads
      exact ⟨s', hreads, hadvanced s'⟩
  apply Post.get_bind
  apply Post.bind
  refine hactive.mono ?_
  intro r c' hread
  cases r with
  | error e => exact hread
  | ok frame =>
      obtain ⟨s', hreads, h⟩ := hread
      apply Post.bind
      apply Post.modify
      exact Post.pure ⟨s', hreads, h.ws_eq, h.fd_some, h.inbound_eq, h.key_eq, h.table_eq⟩

/-- **One frame off the socket**: the wait times out and all packets stay queued,
or the read fails in another way, or the packet in front is taken. -/
theorem Queued.read {packets : List Packet} {c c' : Client} (h : Queued lib packets c)
    {deadline : Int} {env : FrameEnv} {r : Except Exn FrameResult}
    (hread : exec (readTransportFrame lib (some deadline) env) c = some (r, c')) :
    (r = .error .timeout ∧ c'.reassembly = c.reassembly ∧ Queued lib packets c') ∨
    (∃ e, r = .error e ∧ e ≠ .timeout) ∨
    ∃ p ps, packets = p :: ps ∧ r = .ok p.frame ∧ c'.reassembly = c.reassembly ∧
      Queued lib ps c' := by
  obtain ⟨s', hreads, hadvanced⟩ :=
    readTransportFrame_reads h.ws_none h.fd_some deadline env r c' hread
  rcases hreads with ⟨rfl, rfl⟩ | hfailed | ⟨buf, hdelimited, hstream, hresult⟩
  · refine Or.inl ⟨rfl, hadvanced.table_eq, ?_⟩
    exact ⟨hadvanced.ws_eq.trans h.ws_none, hadvanced.fd_some,
      hadvanced.inbound_eq.trans h.inbound_eq, by rw [hadvanced.key_eq]; exact h.parses⟩
  · exact Or.inr (Or.inl hfailed)
  · rw [h.inbound_eq] at hstream
    rcases packets with _ | ⟨p, ps⟩
    · -- There is no frame to take.
      have hheader := hdelimited.header_le
      have hempty : buf = [] := (List.append_eq_nil_iff.mp hstream.symm).1
      rw [hempty] at hheader
      exact absurd hheader (by decide)
    · rw [List.map_cons, List.flatten_cons] at hstream
      have hparse := h.parses p (by simp)
      obtain ⟨rfl, rfl⟩ := (selfDelimited_of_parse hparse).front_unique hdelimited hstream
      refine Or.inr (Or.inr ⟨p, ps, rfl, by rw [hresult, hparse]; rfl, hadvanced.table_eq, ?_⟩)
      exact ⟨hadvanced.ws_eq.trans h.ws_none, hadvanced.fd_some, hadvanced.inbound_eq,
        by rw [hadvanced.key_eq]; exact fun q hq => h.parses q (List.mem_cons_of_mem _ hq)⟩

/-- The frame in front as `absorb_fragment` would get it. -/
def callOf (env : FrameEnv) (p : Packet) : AbsorbCall := ⟨env.absorbNow, env.absorbSeen, p.frame⟩

/-- **One round** of a call. -/
theorem Queued.round {packets : List Packet} {c c' : Client} (h : Queued lib packets c)
    {deadline : Int} {env : FrameEnv} {r : Except Exn (Option FrameResult)}
    (hstep : exec (recvStep lib (some deadline) env) c = some (r, c')) :
    (r = .error .timeout ∧ c'.reassembly = c.reassembly ∧ Queued lib packets c') ∨
    (∃ e, r = .error e ∧ e ≠ .timeout) ∨
    ∃ p ps c₁, packets = p :: ps ∧
      exec (readTransportFrame lib (some deadline) env) c = some (.ok p.frame, c₁) ∧
      r = (accept (callOf env p) c.reassembly).1 ∧
      c'.reassembly = (accept (callOf env p) c.reassembly).2 ∧ Queued lib ps c' := by
  cases hread : exec (readTransportFrame lib (some deadline) env) c with
  | none =>
      rw [recvStep, exec_bind, hread] at hstep
      cases hstep
  | some out =>
      obtain ⟨outcome, c₁⟩ := out
      rcases h.read hread with ⟨rfl, htable, hqueued⟩ | ⟨e, rfl, he⟩ |
        ⟨p, ps, rfl, rfl, htable, hqueued⟩
      · rw [recvStep, exec_bind_error hread] at hstep
        cases hstep
        exact Or.inl ⟨rfl, htable, hqueued⟩
      · rw [recvStep, exec_bind_error hread] at hstep
        cases hstep
        exact Or.inr (Or.inl ⟨e, rfl, he⟩)
      · rw [recvStep_of_read hread htable] at hstep
        cases hstep
        exact Or.inr (Or.inr ⟨p, ps, c₁, rfl, rfl, rfl, rfl,
          ⟨hqueued.ws_none, hqueued.fd_some, hqueued.inbound_eq, hqueued.parses⟩⟩)

/-! ### Runs of calls -/

variable (lib proto) in
/-- One `recv_timeout` after another: the outcome of each, with what it left on
the socket. -/
def polls : List PollCall → Client → Option (List (Except Exn Envelope × Bytes) × Client)
  | [], c => some ([], c)
  | call :: calls, c => do
      let (r, c') ← exec (recvTimeout lib proto call.timeoutMs call.now call.envs) c
      let (rs, c'') ← polls calls c'
      return ((r, c'.inbound) :: rs, c'')

variable (lib) in
/-- In the rounds of one call, no `absorb_fragment` finds a set that has reached
30 s. -/
def NoSetAges (deadline : Int) : List FrameEnv → Client → Prop
  | [], _ => True
  | env :: envs, c =>
      (∀ frame c₁, exec (readTransportFrame lib (some deadline) env) c = some (.ok frame, c₁) →
        hasFlag frame.flags flagFragmented = true →
        ∀ S b, c.reassembly.lookup S = some b → env.absorbNow - b.firstSeen < reassemblyTimeout) ∧
      ∀ c', exec (recvStep lib (some deadline) env) c = some (.ok none, c') →
        NoSetAges deadline envs c'

variable (lib proto) in
/-- The same of every call of a run. -/
def NoSetAgesRun : List PollCall → Client → Prop
  | [], _ => True
  | call :: calls, c =>
      NoSetAges lib (recvDeadline call.timeoutMs call.now) call.envs c ∧
        ∀ r c', exec (recvTimeout lib proto call.timeoutMs call.now call.envs) c = some (r, c') →
          NoSetAgesRun calls c'

/-- Every set was opened at `T` or later. -/
def OpenedFrom (T : Int) (t : ReassemblyTable) : Prop :=
  ∀ S b, t.lookup S = some b → T ≤ b.firstSeen

/-- A frame seen from `T` on opens sets from `T` on only. -/
theorem OpenedFrom.accept {T : Int} {t : ReassemblyTable} (h : OpenedFrom T t) {call : AbsorbCall}
    (hseen : T ≤ call.seen) : OpenedFrom T (accept call t).2 := by
  have hpruned : OpenedFrom T (prune call.now t) :=
    fun S b hb => h S b (lookup_prune.mp hb).1
  have herased : ∀ S, OpenedFrom T ((prune call.now t).erase S) :=
    fun S S' b hb => hpruned S' b (lookup_erase_some hb).2
  unfold Client.accept
  split
  · obtain ⟨_, _, hout | ⟨hdr, _, hout⟩⟩ | ⟨hdr, b, hjoin, hcases⟩ := absorbFragment_cases call t
    · rw [hout]
      exact hpruned
    · rw [hout]
      exact herased _
    · have hstored : ∀ chunk, OpenedFrom T
          ((prune call.now t).insert hdr.streamId (b.store hdr.sequence chunk)) := by
        intro chunk S b' hb'
        rcases lookup_insert_some hb' with ⟨_, rfl⟩ | hold
        · rcases hjoin.entry with hb | ⟨_, _, rfl⟩
          · exact hpruned _ b hb
          · exact hseen
        · exact hpruned S b' hold
      obtain ⟨_, hout⟩ | ⟨_, _, hout⟩ | ⟨_, _, ⟨_, _, hout⟩ | ⟨_, hout⟩⟩ := hcases
      · rw [hout]
        exact herased _
      · rw [hout]
        exact hstored _
      · rw [hout]
        exact herased _
      · rw [hout]
        exact hstored _
  · exact h

/-- The clock readings of a frame lie within 30 s of `T`. -/
def Within (T : Int) (env : FrameEnv) : Prop :=
  T ≤ env.absorbSeen ∧ env.absorbNow < T + reassemblyTimeout

/-- A round leaves the table alone, or accepts a frame. -/
theorem recvStep_openedFrom {T : Int} {env : FrameEnv} (henv : Within T env) {c : Client}
    (h : OpenedFrom T c.reassembly) (deadline : Option Int) :
    Post (recvStep lib deadline env) c (fun _ c' => OpenedFrom T c'.reassembly) := by
  intro r c' hstep
  cases hread : exec (readTransportFrame lib deadline env) c with
  | none =>
      rw [recvStep, exec_bind, hread] at hstep
      cases hstep
  | some out =>
      obtain ⟨outcome, c₁⟩ := out
      have hreads := readTransportFrame_read deadline env c _ _ hread
      cases outcome with
      | error e =>
          rw [recvStep, exec_bind_error hread] at hstep
          cases hstep
          rw [hreads.table_eq]
          exact h
      | ok frame =>
          rw [recvStep_of_read hread hreads.2.2.1] at hstep
          cases hstep
          exact h.accept henv.1

/-- A poll within its time lets no set age and opens none before its time. -/
theorem recvTimeout_openedFrom {T timeoutMs now : Int} : ∀ (envs : List FrameEnv) (c : Client),
    (∀ env ∈ envs, Within T env) → OpenedFrom T c.reassembly →
    NoSetAges lib (recvDeadline timeoutMs now) envs c ∧
      Post (recvTimeout lib proto timeoutMs now envs) c (fun _ c' =>
        OpenedFrom T c'.reassembly) := by
  intro envs
  induction envs with
  | nil =>
      intro c _ _
      refine ⟨trivial, ?_⟩
      intro r c' hexec
      cases hexec
  | cons env envs ih =>
      intro c hwithin h
      have hround : Post (recvStep lib (some (recvDeadline timeoutMs now)) env) c
          (fun _ c' => OpenedFrom T c'.reassembly) :=
        recvStep_openedFrom (hwithin env (by simp)) h _
      have hlater : ∀ env ∈ envs, Within T env := fun e he => hwithin e (List.mem_cons_of_mem _ he)
      refine ⟨⟨?_, fun c' hstep => (ih c' hlater (hround _ c' hstep)).1⟩, ?_⟩
      · intro frame c₁ _ _ S b hb
        have hopened := h S b hb
        have hclock := (hwithin env (by simp)).2
        omega
      · intro r c' hexec
        rw [exec_recvTimeout_cons] at hexec
        cases hstep : exec (recvStep lib (some (recvDeadline timeoutMs now)) env) c with
        | none =>
            rw [hstep] at hexec
            cases hexec
        | some out =>
            obtain ⟨complete, c₁⟩ := out
            have hopened := hround complete c₁ hstep
            rw [hstep] at hexec
            cases complete with
            | error e =>
                cases hexec
                exact hopened
            | ok complete =>
                cases complete with
                | none => exact (ih c₁ hlater hopened).2 r c' hexec
                | some frame =>
                    cases hexec
                    exact hopened

/-- A run within 30 s ages nothing. -/
theorem noSetAgesRun_within {T : Int} : ∀ (calls : List PollCall) (c : Client),
    (∀ call ∈ calls, ∀ env ∈ call.envs, Within T env) → OpenedFrom T c.reassembly →
    NoSetAgesRun lib proto calls c := by
  intro calls
  induction calls with
  | nil =>
      intro c _ _
      trivial
  | cons call calls ih =>
      intro c hwithin h
      obtain ⟨hcall, hafter⟩ := recvTimeout_openedFrom call.envs c (hwithin call (by simp)) h
      refine ⟨hcall, ?_⟩
      intro r c' hexec
      exact ih c' (fun e he => hwithin e (List.mem_cons_of_mem _ he)) (hafter r c' hexec)

variable (lib proto) in
/-- From `c` to `c'` these frames were taken off the front of the queue, and
what they amount to was returned; the others are still queued. -/
structure Took (packets : List Packet) (c : Client) (taken : List AbsorbCall)
    (results : List (Except Exn Envelope)) (c' : Client) : Prop where
  front : taken.map AbsorbCall.frame = (packets.take taken.length).map Packet.frame
  ageless : Ageless taken c.reassembly
  left : Queued lib (packets.drop taken.length) c'
  table : c'.reassembly = Endpoint.tableOn taken c.reassembly
  returned : Endpoint.received proto taken c.reassembly =
    (results.filterMap Except.toOption).map .ok

/-- No set ages in two stretches when none does in each. -/
theorem ageless_append : ∀ {calls calls' : List AbsorbCall} {t : ReassemblyTable},
    Ageless calls t → Ageless calls' (Endpoint.tableOn calls t) → Ageless (calls ++ calls') t := by
  intro calls
  induction calls with
  | nil =>
      intro calls' t _ h'
      exact h'
  | cons call calls ih =>
      intro calls' t h h'
      exact ⟨h.1, ih h.2 h'⟩

/-- Two polls one after the other take consecutive packets. -/
theorem Took.trans {packets : List Packet} {c c₁ c' : Client} {taken taken' : List AbsorbCall}
    {results results' : List (Except Exn Envelope)}
    (h : Took lib proto packets c taken results c₁)
    (h' : Took lib proto (packets.drop taken.length) c₁ taken' results' c') :
    Took lib proto packets c (taken ++ taken') (results ++ results') c' where
  front := by
    rw [List.map_append, h.front, h'.front, List.length_append, ← List.map_append, List.take_add]
  ageless := ageless_append h.ageless (h.table ▸ h'.ageless)
  left := by
    have hleft := h'.left
    rwa [List.drop_drop, ← List.length_append] at hleft
  table := by rw [h'.table, h.table, Endpoint.tableOn_append]
  returned := by
    rw [Endpoint.received_append, h.returned, ← h.table, h'.returned, List.filterMap_append,
      List.map_append]

/-- **One call** that returns or fails with `VynkorTimeout` takes whole frames. -/
theorem Queued.call {timeoutMs now : Int} {r : Except Exn Envelope} {c' : Client}
    (hfail : ∀ e, r = .error e → e = .timeout) :
    ∀ (envs : List FrameEnv) (packets : List Packet) (c : Client), Queued lib packets c →
      NoSetAges lib (recvDeadline timeoutMs now) envs c →
      exec (recvTimeout lib proto timeoutMs now envs) c = some (r, c') →
      ∃ taken, Took lib proto packets c taken [r] c' := by
  intro envs
  induction envs with
  | nil =>
      intro packets c _ _ hexec
      cases hexec
  | cons env envs ih =>
      intro packets c hqueued hages hexec
      rw [exec_recvTimeout_cons] at hexec
      cases hstep : exec (recvStep lib (some (recvDeadline timeoutMs now)) env) c with
      | none =>
          rw [hstep] at hexec
          cases hexec
      | some out =>
          obtain ⟨complete, c₁⟩ := out
          rw [hstep] at hexec
          rcases hqueued.round hstep with ⟨rfl, htable, hleft⟩ | ⟨e, rfl, he⟩ |
            ⟨p, ps, c₂, rfl, hread, hround, htable, hleft⟩
          · -- The deadline has passed, and nothing was taken.
            cases hexec
            exact ⟨[], rfl, trivial, hleft, htable, rfl⟩
          · cases hexec
            exact absurd (hfail e rfl) he
          · have hageless : Ageless [callOf env p] c.reassembly :=
              ⟨fun hfragmented => hages.1 p.frame c₂ hread hfragmented, trivial⟩
            cases hacc : (accept (callOf env p) c.reassembly).1 with
            | error e =>
                rw [hround, hacc] at hexec
                cases hexec
                have htimeout := hfail e rfl
                rw [htimeout] at hacc
                exact absurd (Endpoint.accept_not_expiry _ _ hacc) (by decide)
            | ok complete =>
                cases complete with
                | none =>
                    -- The set is still open: the call goes on with the next frame.
                    rw [hround, hacc] at hexec hstep
                    have hone : Took lib proto (p :: ps) c [callOf env p] [] c₁ :=
                      ⟨rfl, hageless, hleft, htable,
                        by simp [Endpoint.received, Endpoint.framesOn, hacc, ended]⟩
                    obtain ⟨taken, htook⟩ := ih ps c₁ hleft (hages.2 c₁ hstep) hexec
                    exact ⟨callOf env p :: taken, hone.trans htook⟩
                | some frame =>
                    rw [hround, hacc] at hexec
                    cases hexec
                    refine ⟨[callOf env p], rfl, hageless, hleft, htable, ?_⟩
                    rw [Endpoint.received_cons, outcome, hacc]
                    dsimp only
                    cases hdecode : decodeFrame proto frame with
                    | error e =>
                        have htimeout := hfail e hdecode
                        have hnot : Endpoint.expired (decodeFrame proto frame) = false :=
                          Endpoint.decodeFrame_not_expired frame
                        rw [hdecode, htimeout] at hnot
                        cases hnot
                    | ok env => rfl

/-- **A run** takes whole frames, call by call. -/
theorem Queued.run : ∀ (calls : List PollCall) (packets : List Packet) (c c' : Client)
    (results : List (Except Exn Envelope × Bytes)), Queued lib packets c →
    polls lib proto calls c = some (results, c') →
    (∀ r ∈ results, ∀ e, r.1 = .error e → e = .timeout) → NoSetAgesRun lib proto calls c →
    (∃ taken, Took lib proto packets c taken (results.map Prod.fst) c') ∧
      ∀ r ∈ results, ∃ n, r.2 = ((packets.drop n).map Packet.bytes).flatten := by
  intro calls
  induction calls with
  | nil =>
      intro packets c c' results hqueued hrun _ _
      cases hrun
      exact ⟨⟨[], rfl, trivial, hqueued, rfl, rfl⟩, by simp⟩
  | cons call calls ih =>
      intro packets c c' results hqueued hrun hfail hages
      rw [polls] at hrun
      obtain ⟨⟨r, c₁⟩, hcall, hrun⟩ := Option.bind_eq_some_iff.mp hrun
      obtain ⟨⟨rest, c₂⟩, hcalls, hrun⟩ := Option.bind_eq_some_iff.mp hrun
      cases hrun
      obtain ⟨taken, htook⟩ := Queued.call (hfail (r, c₁.inbound) (by simp)) call.envs packets c
        hqueued hages.1 hcall
      obtain ⟨⟨taken', htook'⟩, hleft⟩ := ih (packets.drop taken.length) c₁ c' rest htook.left
        hcalls (fun r hr => hfail r (List.mem_cons_of_mem _ hr)) (hages.2 r c₁ hcall)
      refine ⟨⟨taken ++ taken', htook.trans htook'⟩, ?_⟩
      intro out hout
      rcases List.mem_cons.mp hout with rfl | hout
      · exact ⟨taken.length, htook.left.inbound_eq⟩
      · obtain ⟨n, hn⟩ := hleft out hout
        exact ⟨taken.length + n, by rw [hn, List.drop_drop]⟩

end Client

open Client in
/-- **Polling loses nothing.**  A client in front of a stream of whole and
fragmented envelopes polls with `recv_timeout` in any way and any environment;
every failing call fails with `VynkorTimeout`, and no fragment set reaches 30 s.
Then every call leaves the stream at a frame boundary, and the envelopes
returned so far are the stream's in the order of their last frames, each once,
up to those that end with frames still on the socket. -/
theorem polling_loses_nothing (lib : WireLibs) (proto : ProtoLib) (messages : List Message)
    (parts : List Part) (c : Client) (hws : c.ws = none) (hfd : c.fd.isSome)
    (htable : TableInv c.reassembly)
    (hfree : ∀ k S chunks, SplitAs messages k S chunks → c.reassembly.lookup S = none)
    (hstream : MixedStream lib proto c.sessionKey messages parts)
    (hinbound : c.inbound = (parts.map (fun p => p.packet.bytes)).flatten)
    (calls : List PollCall) (results : List (Except Exn Envelope × Bytes)) (c' : Client)
    (hrun : polls lib proto calls c = some (results, c'))
    (hfail : ∀ r ∈ results, ∀ e, r.1 = .error e → e = .timeout)
    (hages : NoSetAgesRun lib proto calls c) :
    (∀ r ∈ results, ∃ taken left, parts = taken ++ left ∧
      r.2 = (left.map (fun p => p.packet.bytes)).flatten) ∧
    (∃ taken left, parts = taken ++ left ∧
      c'.inbound = (left.map (fun p => p.packet.bytes)).flatten ∧
      (results.map Prod.fst).filterMap Except.toOption ++ envelopesOf messages (lastFrames left) =
        envelopesOf messages (lastFrames parts)) ∧
    (lastFrames parts).Perm (List.range messages.length) := by
  have hbytes : ∀ parts : List Part, (parts.map (fun p => p.packet.bytes)).flatten =
      ((parts.map Part.packet).map Packet.bytes).flatten := by
    intro parts
    rw [List.map_map]
    rfl
  have hqueued : Queued lib (parts.map Part.packet) c := by
    refine ⟨hws, hfd, by rw [hinbound, hbytes], ?_⟩
    intro packet hpacket
    obtain ⟨p, hp, rfl⟩ := List.mem_map.mp hpacket
    exact hstream.parses p hp
  obtain ⟨⟨taken, htook⟩, hboundaries⟩ := Queued.run calls _ c c' results hqueued hrun hfail hages
  refine ⟨?_, ⟨parts.take taken.length, parts.drop taken.length, ?_, ?_, ?_⟩,
    hstream.lastFrames_perm⟩
  · intro r hr
    obtain ⟨n, hn⟩ := hboundaries r hr
    refine ⟨parts.take n, parts.drop n, (List.take_append_drop n parts).symm, ?_⟩
    rw [hn, hbytes, ← List.map_drop]
  · exact (List.take_append_drop _ parts).symm
  · rw [htook.left.inbound_eq, hbytes, ← List.map_drop]
  · have hfront : taken.map AbsorbCall.frame =
        (parts.take taken.length).map (fun p => p.packet.frame) := by
      rw [htook.front, ← List.map_take, List.map_map]
      rfl
    have hok : ∀ r ∈ Endpoint.received proto taken c.reassembly, ∃ env, r = .ok env := by
      intro r hr
      rw [htook.returned] at hr
      obtain ⟨env, _, rfl⟩ := List.mem_map.mp hr
      exact ⟨env, rfl⟩
    obtain ⟨_, hall⟩ := Buffered.run hstream taken [] parts c.reassembly rfl
      (buffered_start htable hfree) hfront htook.ageless hok
    rw [htook.returned, ← List.map_append] at hall
    exact List.map_injective_iff.mpr (fun _ _ h => Except.ok.inj h) hall

namespace Client

/-- Protobuf on envelopes that have a one-byte message id and nothing else. -/
def idProto : ProtoLib where
  serialize env := [0x0A, 0x01] ++ env.messageId
  parse bytes := if bytes.take 2 = [0x0A, 0x01] then some { messageId := bytes.drop 2 } else none

/-- A wire frame to plugin `p` without a tag. -/
def plainPacket (flags : UInt16) (payload : Bytes) : Packet where
  bytes := (serializeHeaderWs (ascii "p") flags payload).val ++ payload
  frame := plainResult storingLibs (ascii "p") flags payload none

/-- A plain packet parses to its own frame. -/
theorem plainPacket_parses {flags : UInt16} {payload : Bytes}
    (hsize : payload.length ≤ maxPayloadSize)
    (hplain : hasFlag flags flagCompressed = false) (hmac : hasFlag flags flagMacPresent = false) :
    parseFrameBytes storingLibs (plainPacket flags payload).bytes none =
      .ok ((plainPacket flags payload).frame, (plainPacket flags payload).bytes.length) := by
  obtain ⟨frame, hpack, hparse⟩ : ∃ frame,
      packFrameWs storingLibs (ascii "p") flags payload none = .ok frame ∧ _ :=
    packFrameWs_parses storingLibs (ascii "p") hsize hplain hmac
  have hbytes : frame = (plainPacket flags payload).bytes := by
    unfold packFrameWs at hpack
    rw [if_neg (Nat.not_lt.mpr hsize)] at hpack
    exact (Except.ok.inj hpack).symm
  rw [← hbytes]
  exact hparse

/-- Fragment `i` of two on stream 9. -/
def halfPart (i : Nat) (chunk : Bytes) : Part :=
  ⟨0, i, plainPacket flagFragmented (fragmentHeaderBytes 9 i 2 ++ chunk)⟩

/-- An envelope in two fragments, and between them one in a single frame. -/
def sampleParts : List Part :=
  [halfPart 0 [0x0A, 0x01], ⟨1, 0, plainPacket 0 [0x0A, 0x01, 0x62]⟩, halfPart 1 [0x61]]

def sampleMessages : List Message :=
  [⟨{ messageId := [0x61] }, some (9, [[0x0A, 0x01], [0x61]])⟩, ⟨{ messageId := [0x62] }, none⟩]

/-- The sample holds one fragmented message, the first. -/
theorem splitAs_sample {k : Nat} {S : UInt32} {chunks : List Bytes}
    (h : SplitAs sampleMessages k S chunks) : k = 0 := by
  obtain ⟨m, hm, hsplit⟩ := h
  rcases k with _ | _ | k
  · rfl
  · cases hm
    cases hsplit
  · cases hm

/-- The sample packets are a mixed stream. -/
theorem sampleStream : MixedStream storingLibs idProto none sampleMessages sampleParts where
  parses := by
    simp only [sampleParts, List.forall_mem_cons]
    exact ⟨plainPacket_parses (by decide) rfl rfl, plainPacket_parses (by decide) rfl rfl,
      plainPacket_parses (by decide) rfl rfl, by simp⟩
  not_raw := by
    simp only [sampleParts, List.forall_mem_cons]
    exact ⟨rfl, rfl, rfl, by simp⟩
  contains := by
    simp only [sampleParts, List.forall_mem_cons]
    refine ⟨⟨_, rfl, rfl, ⟨_, parseFragHeader_pack _ _ _ _ _, rfl, rfl, rfl, rfl⟩, rfl⟩,
      ⟨_, rfl, rfl, rfl, rfl⟩,
      ⟨_, rfl, rfl, ⟨_, parseFragHeader_pack _ _ _ _ _, rfl, rfl, rfl, rfl⟩, rfl⟩, by simp⟩
  nonempty := by decide
  complete := by
    intro k m hm i hi
    rcases k with _ | _ | k
    · cases hm
      rcases i with _ | _ | i
      · exact ⟨halfPart 0 [0x0A, 0x01], by simp [sampleParts], rfl, rfl⟩
      · exact ⟨halfPart 1 [0x61], by simp [sampleParts], rfl, rfl⟩
      · exact absurd hi (by simp [Message.count])
    · cases hm
      rcases i with _ | i
      · exact ⟨⟨1, 0, plainPacket 0 [0x0A, 0x01, 0x62]⟩, by simp [sampleParts], rfl, rfl⟩
      · exact absurd hi (by simp [Message.count])
    · cases hm
  once := by
    simp [sampleParts, halfPart]
  apart := by
    intro early q late _ p _ hne S chunks chunks' hp hq
    exact absurd ((splitAs_sample hp).trans (splitAs_sample hq).symm) hne

/-- A frame is there at once, or the wait times out. -/
def polledEnv (poll : PollResult) : FrameEnv :=
  ⟨[⟨0, poll⟩], 0, [.data 0], 0, [⟨0, .ready, .data 4095⟩, ⟨0, .ready, .data 4095⟩], .ok [], 0, 0⟩

/-- Four polls, the first and the third without an answer; the fragments arrive
in the first and in the last. -/
def sampleCalls : List PollCall :=
  [⟨1, 0, [polledEnv .ready, polledEnv .timeout]⟩, ⟨1, 0, [polledEnv .ready]⟩,
    ⟨1, 0, [polledEnv .timeout]⟩, ⟨1, 0, [polledEnv .ready]⟩]

def samplePoller : Client :=
  { fd := some { inbound := (sampleParts.map (fun p => p.packet.bytes)).flatten } }

/-- The four polls of the sample, with the message that overtakes the fragments. -/
theorem samplePoller_polls :
    (polls storingLibs idProto sampleCalls samplePoller).map (fun out => out.1.map Prod.fst) =
      some [.error .timeout, .ok { messageId := [0x62] }, .error .timeout,
        .ok { messageId := [0x61] }] := by
  decide +kernel

end Client

open Client in
/-- The fragments of the first envelope arrive on both sides of timed-out calls. -/
theorem polling_loses_nothing_sample :
    ∃ results c', polls storingLibs idProto sampleCalls samplePoller = some (results, c') ∧
      results.map Prod.fst = [.error .timeout, .ok { messageId := [0x62] }, .error .timeout,
        .ok { messageId := [0x61] }] ∧
      ∃ taken left, sampleParts = taken ++ left ∧
        c'.inbound = (left.map (fun p => p.packet.bytes)).flatten ∧
        (results.map Prod.fst).filterMap Except.toOption ++
            envelopesOf sampleMessages (lastFrames left) =
          envelopesOf sampleMessages (lastFrames sampleParts) := by
  obtain ⟨⟨results, c'⟩, hrun, hresults⟩ := Option.map_eq_some_iff.mp samplePoller_polls
  have hfail : ∀ r ∈ results, ∀ e, r.1 = .error e → e = .timeout := by
    intro r hr e he
    have hmem : r.1 ∈ results.map Prod.fst := List.mem_map_of_mem hr
    rw [hresults, he] at hmem
    simpa using hmem
  have hages : NoSetAgesRun storingLibs idProto sampleCalls samplePoller := by
    refine noSetAgesRun_within (T := 0) sampleCalls samplePoller ?_ (fun S b hb => by cases hb)
    simp [sampleCalls, polledEnv, Within, reassemblyTimeout]
  obtain ⟨_, hdelivered, _⟩ := polling_loses_nothing storingLibs idProto sampleMessages sampleParts
    samplePoller rfl rfl TableInv.empty (fun _ _ _ _ => rfl) sampleStream rfl sampleCalls results c'
    hrun hfail hages
  exact ⟨results, c', hrun, hresults, hdelivered⟩

end Vynkor
