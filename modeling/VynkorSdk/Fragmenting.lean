import VynkorSdk.ClientDelivery
import VynkorSdk.ClientSession

/-!
# Cutting at every chunk size

`send_fragmented` checks and divides in `size_t` arithmetic.  The check of the
chunk size adds the fragment header to it, and the count of the fragments adds
the payload to it; near the top of the range both sums wrap.

The outcome is one of three (`rejected`, `one frame for each piece`, `nothing at
all`), and the last is exactly where the second sum wraps behind the first.
-/

namespace Vynkor

open ByteCodec Procedure

namespace Client

variable {lib : WireLibs} {proto : ProtoLib}

/-! ### Stream ids -/

/-- The counter of a client at some point of its life, whatever it does. -/
def ReachableStreamId (lib : WireLibs) (proto : ProtoLib) (id : UInt32) : Prop :=
  ∃ (c₀ : Client) (ops : List Op) (c : Client), c₀.nextStreamId = 1 ∧
    runOps lib proto ops c₀ = some c ∧ c.nextStreamId = id

/-- No write moves the stream counter. -/
theorem streamId_writeInvariant : WriteInvariant nextStreamId := ⟨fun _ _ => rfl, fun _ _ => rfl⟩

/-- No read moves it. -/
theorem streamId_readInvariant : ReadInvariant nextStreamId :=
  ⟨fun _ _ => rfl, fun _ _ _ => rfl, fun _ _ => rfl⟩

/-- The counter skips zero. -/
theorem afterTake_streamId_ne_zero (c : Client) : c.afterTake.nextStreamId ≠ 0 := by
  unfold afterTake
  dsimp only
  split
  · decide
  · assumption

/-- Only `send_fragmented` touches the counter, and it skips 0. -/
theorem sendFragmented_streamId (target payload : Bytes) (chunkSize : UInt64)
    (senvs : List SendEnv) {c : Client} (hc : c.nextStreamId ≠ 0) :
    Post (sendFragmented lib target payload chunkSize senvs) c
      (fun _ c' => c'.nextStreamId ≠ 0) := by
  unfold sendFragmented
  apply Post.get_bind
  dsimp only
  apply Post.ite
  · intro _
    exact Post.throw hc
  intro _
  apply Post.ite
  · intro _
    exact Post.throw hc
  intro _
  apply Post.ite
  · intro _
    exact Post.throw hc
  intro _
  apply Post.ite
  · intro _
    exact Post.throw hc
  intro _
  apply Post.bind
  intro r c₁ htake
  cases htake
  refine (sendFragments_view streamId_writeInvariant _ _ _ _ _ _ _ _ _).mono ?_
  intro r c₂ hsame
  show c₂.nextStreamId ≠ 0
  rw [hsame]
  exact afterTake_streamId_ne_zero c

/-- Connecting keeps the counter. -/
theorem connect_streamId (env : ConnectEnv) (c : Client) :
    Post (connect env) c (fun _ c' => c'.nextStreamId = c.nextStreamId) := by
  apply Post.bind
  apply Post.modify
  apply Post.get_bind
  cases env with
  | socketFails => exact Post.throw rfl
  | connectFails =>
      dsimp only
      split
      · exact Post.throw rfl
      · exact Post.throw rfl
  | connects peer =>
      dsimp only
      split
      · exact Post.throw rfl
      · exact Post.modify rfl

/-- Receiving keeps it. -/
theorem recvDecode_streamId (deadline : Option Int) (envs : List FrameEnv) (c : Client) :
    Post (do
      let result ← recvFrameWith lib deadline envs
      settle (decodeFrame proto result)) c (fun _ c' => c'.nextStreamId = c.nextStreamId) := by
  apply Post.bind
  refine (recvFrameWith_view streamId_readInvariant deadline envs c).mono ?_
  intro r c' hsame
  cases r with
  | error e => exact hsame
  | ok result => exact Post.settle hsame

/-- Waiting for a response keeps it. -/
theorem waitForResponse_streamId (deadline : Int) (isTerminal : Envelope → Bool) :
    ∀ (calls : List (List FrameEnv)) (c : Client),
      Post (waitForResponse lib proto deadline isTerminal calls) c
        (fun _ c' => c'.nextStreamId = c.nextStreamId) := by
  intro calls
  induction calls with
  | nil =>
      intro c
      exact Post.waiting
  | cons envs calls ih =>
      intro c
      apply Post.bind
      refine (recvFrameWith_view streamId_readInvariant (some deadline) envs c).mono ?_
      intro r c' hsame
      cases r with
      | error e => exact hsame
      | ok frame =>
          dsimp only
          split
          · exact Post.throw hsame
          · apply Post.ite
            · intro _
              exact Post.pure hsame
            · intro _
              exact (ih c').mono (fun _ _ h => h.trans hsame)

/-- Registering keeps it. -/
theorem registerFull_streamId (pluginId version : Bytes) (manifest : PluginManifest)
    (jwtToken : Bytes) (senv : SendEnv) (envs : List FrameEnv) (c : Client) :
    Post (registerFull lib proto pluginId version manifest jwtToken senv envs) c
      (fun _ c' => c'.nextStreamId = c.nextStreamId) := by
  have hexchange : Post (registerExchange lib proto pluginId version manifest jwtToken senv envs) c
      (fun _ c' => c'.nextStreamId = c.nextStreamId) := by
    apply Post.get_bind
    apply Post.bind
    refine (sendRawWithFlags_view streamId_writeInvariant _ _ _ senv c).mono ?_
    intro r c₁ hsame
    cases r with
    | error e => exact hsame
    | ok _ => exact (recvDecode_streamId none envs c₁).mono (fun _ _ h => h.trans hsame)
  apply Post.bind
  refine hexchange.mono ?_
  intro r c₁ hsame
  cases r with
  | error e => exact hsame
  | ok answer =>
      unfold acceptRegistration
      apply Post.get_bind
      split
      · apply Post.bind
        apply Post.settle
        split
        · apply Post.bind
          apply Post.modify
          exact Post.pure hsame
        · exact hsame
      · exact Post.throw hsame
      · exact Post.throw hsame

/-- **Step**: no operation brings the counter to 0. -/
theorem perform_streamId {c : Client} (op : Op) (hc : c.nextStreamId ≠ 0) :
    Post (op.perform lib proto) c (fun _ c' => c'.nextStreamId ≠ 0) := by
  have hkeep : ∀ {α : Type} {p : Proc Exn Client α},
      Post p c (fun _ c' => c'.nextStreamId = c.nextStreamId) →
      Post p c (fun _ c' => c'.nextStreamId ≠ 0) := by
    intro α p hp
    refine hp.mono ?_
    intro _ c' hsame
    rw [hsame]
    exact hc
  cases op with
  | connect env => exact (hkeep (connect_streamId env c)).bind_return
  | close => exact (hkeep (Post.modify rfl)).bind_return
  | registerFull pluginId version manifest jwtToken senv envs =>
      exact (hkeep (registerFull_streamId _ _ _ _ senv envs c)).bind_return
  | send target env senv =>
      exact (hkeep (sendRawWithFlags_view streamId_writeInvariant target 0 _ senv c)).bind_return
  | sendRawWithFlags target extraFlags payload senv =>
      exact (hkeep (sendRawWithFlags_view streamId_writeInvariant target extraFlags payload senv
        c)).bind_return
  | sendFragmented target payload chunkSize senvs =>
      exact (sendFragmented_streamId target payload chunkSize senvs hc).bind_return
  | recvFrame envs =>
      exact (hkeep (recvFrameWith_view streamId_readInvariant none envs c)).bind_return
  | recv envs => exact (hkeep (recvDecode_streamId none envs c)).bind_return
  | recvTimeout timeoutMs now envs =>
      exact (hkeep (recvDecode_streamId (some _) envs c)).bind_return
  | waitForResponse deadline isTerminal calls =>
      exact (hkeep (waitForResponse_streamId deadline isTerminal calls c)).bind_return

/-- **Run**: a stream id is never 0. -/
theorem ReachableStreamId.ne_zero {id : UInt32} (h : ReachableStreamId lib proto id) : id ≠ 0 := by
  obtain ⟨c₀, ops, c, hstart, hrun, rfl⟩ := h
  have hstep : ∀ c op, c.nextStreamId ≠ 0 → (fun _ _ => True : Client → Op → Prop) c op →
      Post (op.perform lib proto) c (fun _ c' => c'.nextStreamId ≠ 0) :=
    fun c op hc _ => perform_streamId op hc
  have halong : ∀ (ops : List Op) (c : Client), Along lib proto (fun _ _ => True) ops c := by
    intro ops
    induction ops with
    | nil => exact fun _ => trivial
    | cons op ops ih => exact fun _ => ⟨trivial, fun _ c' _ => ih c'⟩
  exact runOps_invariant hstep ops c₀ c (by rw [hstart]; decide) (halong ops c₀) hrun

/-! ### The outcomes of a call -/

/-- It throws with nothing sent and no id taken. -/
def Rejects (c : Client) (outcome : Except Exn Unit) (c' : Client) : Prop :=
  (∃ e, outcome = .error e) ∧ c' = c

/-- It returns, and what has been written since `c` is one frame for each piece
of the payload: numbered from 0 under one stream id, none too large, and the
payload when put together. -/
def Splits (lib : WireLibs) (payload : Bytes) (c : Client) (outcome : Except Exn Unit)
    (c' : Client) : Prop :=
  outcome = .ok () ∧ ∃ (S : UInt32) (chunks wires : List Bytes), S ≠ 0 ∧ 1 ≤ chunks.length ∧
    chunks.length ≤ 65535 ∧ chunks.flatten = payload ∧
    (∀ chunk ∈ chunks, fragHeaderSize + chunk.length ≤ maxPayloadSize) ∧
    List.Forall₂ (CarriesFragment lib c.sessionKey S chunks) (List.range chunks.length) wires ∧
    c'.outbound = c.outbound ++ wires.flatten

def SplitsWithoutLoss (lib : WireLibs) (target payload : Bytes) (chunkSize : UInt64)
    (senvs : List SendEnv) (c : Client) : Prop :=
  ∃ outcome c', exec (sendFragmented lib target payload chunkSize senvs) c = some (outcome, c') ∧
    (Rejects c outcome c' ∨ Splits lib payload c outcome c')

/-- The chunk size is so near the top that the check of it wraps, and the count
of the fragments wraps too. -/
def CountWraps (payload : Bytes) (chunkSize : UInt64) : Prop :=
  2 ^ 64 - fragHeaderSize ≤ chunkSize.toNat ∧ 2 ^ 64 < payload.length + chunkSize.toNat

/-- The four checks. -/
theorem exec_sendFragmented_rejects {target payload : Bytes} {chunkSize : UInt64}
    {senvs : List SendEnv} {c : Client}
    (h : c.ws.isSome ∨ payload.length > maxPayloadSize ∨
      (chunkSize = 0 ∨ chunkSize + UInt64.ofNat fragHeaderSize > UInt64.ofNat maxPayloadSize) ∨
      fragmentCount payload chunkSize > 0xFFFF) :
    ∃ e, exec (sendFragmented lib target payload chunkSize senvs) c = some (.error e, c) := by
  unfold sendFragmented
  rw [exec_bind_ok (exec_get _)]
  dsimp only
  by_cases hws : c.ws.isSome
  · rw [if_pos hws]
    exact ⟨_, rfl⟩
  rw [if_neg hws]
  by_cases hsize : payload.length > maxPayloadSize
  · rw [if_pos hsize]
    exact ⟨_, rfl⟩
  rw [if_neg hsize]
  by_cases hchunk : chunkSize = 0 ∨
      chunkSize + UInt64.ofNat fragHeaderSize > UInt64.ofNat maxPayloadSize
  · rw [if_pos hchunk]
    exact ⟨_, rfl⟩
  rw [if_neg hchunk]
  by_cases hcount : fragmentCount payload chunkSize > 0xFFFF
  · rw [if_pos hcount]
    exact ⟨_, rfl⟩
  · exact absurd h (by simp [hws, hsize, hchunk, hcount])

/-- What the check of the chunk size lets through: what it should, and the
sizes for which it wraps. -/
theorem chunkSize_cases {chunkSize : UInt64}
    (h : ¬ (chunkSize = 0 ∨
      chunkSize + UInt64.ofNat fragHeaderSize > UInt64.ofNat maxPayloadSize)) :
    (1 ≤ chunkSize.toNat ∧ chunkSize.toNat ≤ maxPayloadSize - fragHeaderSize) ∨
      2 ^ 64 - fragHeaderSize ≤ chunkSize.toNat := by
  rw [not_or, gt_iff_lt, UInt64.lt_iff_toNat_lt, UInt64.toNat_add] at h
  have hpos : chunkSize.toNat ≠ 0 := fun hzero => h.1 (UInt64.toNat_inj.mp hzero)
  have hheader : (UInt64.ofNat fragHeaderSize).toNat = 10 := rfl
  have hmax : (UInt64.ofNat maxPayloadSize).toNat = 1048576 := rfl
  have hlt := chunkSize.toNat_lt
  rw [hheader, hmax] at h
  simp only [maxPayloadSize, fragHeaderSize]
  omega

/-- The count for such a size. -/
theorem fragmentCount_wrapped {payload : Bytes} {chunkSize : UInt64}
    (hpayload : payload.length ≤ maxPayloadSize)
    (hchunk : 2 ^ 64 - fragHeaderSize ≤ chunkSize.toNat) :
    (fragmentCount payload chunkSize).toNat =
      if 2 ^ 64 < payload.length + chunkSize.toNat then 0 else 1 := by
  simp only [maxPayloadSize, fragHeaderSize] at hpayload hchunk
  have hlt := chunkSize.toNat_lt
  unfold fragmentCount
  by_cases hnil : payload = []
  · rw [if_pos hnil, hnil, if_neg (by simp only [List.length_nil]; omega)]
    rfl
  have hlen : payload.length ≠ 0 := fun h => hnil (List.length_eq_zero_iff.mp h)
  have hofNat : (UInt64.ofNat payload.length).toNat = payload.length :=
    UInt64.toNat_ofNat_of_lt' (by simp only [UInt64.size]; omega)
  rw [if_neg hnil, UInt64.toNat_div, UInt64.toNat_sub, UInt64.toNat_add, hofNat, UInt64.toNat_one]
  by_cases hwraps : 2 ^ 64 < payload.length + chunkSize.toNat
  · rw [if_pos hwraps]
    exact Nat.div_eq_of_lt (by omega)
  · rw [if_neg hwraps]
    exact Nat.div_eq_of_lt_le (by omega) (by omega)

/-- A piece as long as the payload is the payload. -/
theorem fragmentPayload_whole {payload : Bytes} {chunkSize : UInt64} {S : UInt32}
    (hpayload : payload.length ≤ maxPayloadSize) (hle : payload.length ≤ chunkSize.toNat) :
    fragmentPayload payload chunkSize 1 S 0 = fragmentHeaderBytes S 0 1 ++ payload := by
  simp only [maxPayloadSize] at hpayload
  have hofNat : (UInt64.ofNat payload.length).toNat = payload.length :=
    UInt64.toNat_ofNat_of_lt' (by simp only [UInt64.size]; omega)
  have hmin : min chunkSize (UInt64.ofNat payload.length) = UInt64.ofNat payload.length := by
    show (if chunkSize ≤ UInt64.ofNat payload.length then chunkSize else _) = _
    split
    · rename_i hge
      rw [UInt64.le_iff_toNat_le, hofNat] at hge
      exact UInt64.toNat_inj.mp (by omega)
    · rfl
  have hslice : slice payload 0 payload.length = payload := by
    rw [slice, List.drop_zero, List.take_length]
  unfold fragmentPayload
  dsimp only
  rw [UInt64.zero_mul, UInt64.sub_zero, hmin, hofNat, UInt64.toNat_zero, hslice]
  rfl

/-- With a size that only just does not wrap, the payload goes out in one
fragment. -/
theorem splits_one (hz : lib.ZstdRoundTrip) {target payload : Bytes} {chunkSize : UInt64}
    {c : Client} (hid : c.nextStreamId ≠ 0) (hws : c.ws = none) (hfd : c.fd.isSome)
    (hpayload : payload.length ≤ maxPayloadSize)
    (haccepted : ¬ (chunkSize = 0 ∨
      chunkSize + UInt64.ofNat fragHeaderSize > UInt64.ofNat maxPayloadSize))
    (hchunk : 2 ^ 64 - fragHeaderSize ≤ chunkSize.toNat)
    (hfits : payload.length + chunkSize.toNat ≤ 2 ^ 64) {senvs : List SendEnv}
    (hsteady : SteadySends 1 senvs) :
    SplitsWithoutLoss lib target payload chunkSize senvs c := by
  simp only [fragHeaderSize] at hchunk
  have hone : fragmentCount payload chunkSize = 1 := by
    apply UInt64.toNat_inj.mp
    rw [fragmentCount_wrapped hpayload hchunk, if_neg (Nat.not_lt.mpr hfits)]
    rfl
  obtain ⟨senv, senvs, rfl⟩ : ∃ senv rest, senvs = senv :: rest := by
    cases senvs with
    | nil => exact absurd hsteady.1 (by simp)
    | cons senv rest => exact ⟨senv, rest, rfl⟩
  have hlen : (fragmentHeaderBytes c.nextStreamId 0 1 ++ payload).length ≤ maxPayloadSize := by
    rw [List.length_append, fragmentHeaderBytes, packFragHeader_length]
    simp only [maxPayloadSize, fragHeaderSize]
    omega
  obtain ⟨frame, c', hcarries, hsend, hsent⟩ := sendRawWithFlags_steady hz
    (c := c.afterTake) hws hfd target flagFragmented hlen (Or.inr (Or.inr rfl))
    (hsteady.2 senv List.mem_cons_self)
  have hout : c'.outbound = c.outbound ++ frame := hsent.outbound_eq
  refine ⟨.ok (), c', ?_, Or.inr ⟨rfl, c.nextStreamId, [payload], [frame], hid, by simp, by simp,
    by simp, ?_, ?_, by simpa using hout⟩⟩
  · rw [exec_sendFragmented hws hpayload haccepted (by rw [hone]; decide), hone, UInt64.toNat_one,
      sendFragments, fragmentPayload_whole hpayload (by omega), exec_bind_ok hsend]
    rfl
  · intro chunk hmem
    rw [List.mem_singleton.mp hmem]
    simp only [maxPayloadSize, fragHeaderSize]
    omega
  · exact List.Forall₂.cons hcarries List.Forall₂.nil

/-- With a size that does not come near, it goes out in `pieces`, unless there
are too many. -/
theorem splits_pieces (proto : ProtoLib) (hz : lib.ZstdRoundTrip) {target payload : Bytes}
    {chunkSize : UInt64}
    {c : Client} (hid : c.nextStreamId ≠ 0) (hws : c.ws = none) (hfd : c.fd.isSome)
    (hpayload : payload.length ≤ maxPayloadSize) (hpos : 1 ≤ chunkSize.toNat)
    (hle : chunkSize.toNat ≤ maxPayloadSize - fragHeaderSize)
    (hcount : ¬ fragmentCount payload chunkSize > 0xFFFF) {senvs : List SendEnv}
    (hsteady : SteadySends (fragmentCount payload chunkSize).toNat senvs) :
    SplitsWithoutLoss lib target payload chunkSize senvs c := by
  have htotal := fragmentCount_toNat hpayload hpos hle
  rw [htotal] at hsteady
  have hpieces : SendOp.pieces payload.length chunkSize.toNat ≤ 65535 := by
    rw [gt_iff_lt, UInt64.lt_iff_toNat_lt, htotal] at hcount
    simpa using hcount
  have hop : (SendOp.sendFragmented target payload chunkSize).Valid proto :=
    ⟨hpayload, hpos, hle, hpieces⟩
  obtain ⟨wires, c', hwires, hsend, hsent⟩ := sendFragmented_cut hz hop hws hfd hsteady
  refine ⟨.ok (), c', hsend, Or.inr ⟨rfl, c.nextStreamId, _, wires, hid, ?_, ?_, cut_pieces hpos,
    ?_, by rw [cut_length]; exact hwires, hsent.outbound_eq⟩⟩
  · rw [cut_length]
    exact pieces_pos hpos
  · rw [cut_length]
    exact hpieces
  · intro chunk hmem
    obtain ⟨i, _, rfl⟩ := List.mem_map.mp hmem
    have := List.length_take_le chunkSize.toNat (payload.drop (i * chunkSize.toNat))
    simp only [slice, maxPayloadSize, fragHeaderSize] at hle ⊢
    omega

/-- Where both sums wrap, the call returns with nothing sent. -/
theorem exec_sendFragmented_wrapped {target payload : Bytes} {chunkSize : UInt64} {c : Client}
    (hws : c.ws = none) (hpayload : payload.length ≤ maxPayloadSize)
    (hwraps : CountWraps payload chunkSize) (senvs : List SendEnv) :
    exec (sendFragmented lib target payload chunkSize senvs) c = some (.ok (), c.afterTake) := by
  have hzero : fragmentCount payload chunkSize = 0 := by
    apply UInt64.toNat_inj.mp
    rw [fragmentCount_wrapped hpayload hwraps.1, if_pos hwraps.2]
    rfl
  have haccepted : ¬ (chunkSize = 0 ∨
      chunkSize + UInt64.ofNat fragHeaderSize > UInt64.ofNat maxPayloadSize) := by
    have hlt := chunkSize.toNat_lt
    have hnear := hwraps.1
    simp only [fragHeaderSize] at hnear
    have hheader : (UInt64.ofNat fragHeaderSize).toNat = 10 := rfl
    have hmax : (UInt64.ofNat maxPayloadSize).toNat = 1048576 := rfl
    rintro (rfl | hbig)
    · simp at hnear
    · rw [gt_iff_lt, UInt64.lt_iff_toNat_lt, UInt64.toNat_add, hheader, hmax] at hbig
      omega
  rw [exec_sendFragmented hws hpayload haccepted (by rw [hzero]; decide), hzero, UInt64.toNat_zero,
    sendFragments]
  rfl

/-- A call that writes nothing splits nothing. -/
theorem not_splits_of_silent {payload : Bytes} {c c' : Client} {outcome : Except Exn Unit}
    (hsilent : c'.outbound = c.outbound) : ¬ Splits lib payload c outcome c' := by
  intro h
  obtain ⟨_, S, chunks, wires, _, hpos, _, _, _, hcarries, hout⟩ := h
  have hlen := hcarries.length_eq
  rw [List.length_range] at hlen
  have hnone : wires.flatten = [] := by
    rw [hsilent] at hout
    exact List.self_eq_append_right.mp hout
  obtain ⟨wire, wires, rfl⟩ := List.exists_cons_of_length_pos (l := wires) (by omega)
  obtain ⟨i, rest, hcarried, _, _⟩ := List.forall₂_cons_right_iff.mp hcarries
  have hheader := hcarried.delimited.header_le
  rw [List.flatten_cons, List.append_eq_nil_iff] at hnone
  rw [hnone.1] at hheader
  simp [frameHeaderSize] at hheader

end Client

open Client in
/-- **Which chunk sizes split without loss.**  For every payload, chunk size and
client whose counter is reachable, with all writes succeeding: either the call
throws with nothing changed, or what it sends is the payload; exactly unless the
socket is open, the payload is admissible, and the count wraps. -/
theorem send_fragmented_splits_iff (lib : WireLibs) (proto : ProtoLib) (hz : lib.ZstdRoundTrip)
    (target payload : Bytes) (chunkSize : UInt64) (c : Client) (senvs : List SendEnv)
    (hid : ReachableStreamId lib proto c.nextStreamId) (hopen : c.ws = none → c.fd.isSome)
    (hsteady : SteadySends (fragmentCount payload chunkSize).toNat senvs) :
    SplitsWithoutLoss lib target payload chunkSize senvs c ↔
      ¬ (c.ws = none ∧ payload.length ≤ maxPayloadSize ∧ CountWraps payload chunkSize) := by
  constructor
  · intro h hwraps
    obtain ⟨hws, hpayload, hwraps⟩ := hwraps
    obtain ⟨outcome, c', hexec, hlossless⟩ := h
    rw [exec_sendFragmented_wrapped hws hpayload hwraps] at hexec
    cases hexec
    rcases hlossless with ⟨⟨e, he⟩, _⟩ | hsplits
    · cases he
    · exact not_splits_of_silent rfl hsplits
  · intro hsafe
    by_cases hrejects : c.ws.isSome ∨ payload.length > maxPayloadSize ∨
        (chunkSize = 0 ∨ chunkSize + UInt64.ofNat fragHeaderSize > UInt64.ofNat maxPayloadSize) ∨
        fragmentCount payload chunkSize > 0xFFFF
    · obtain ⟨e, hexec⟩ : ∃ e, exec (sendFragmented lib target payload chunkSize senvs) c =
          some (.error e, c) := exec_sendFragmented_rejects hrejects
      exact ⟨.error e, c, hexec, Or.inl ⟨⟨e, rfl⟩, rfl⟩⟩
    · rw [not_or, not_or, not_or, Option.not_isSome_iff_eq_none] at hrejects
      obtain ⟨hws, hsize, haccepted, hcount⟩ := hrejects
      have hpayload := Nat.not_lt.mp hsize
      rcases chunkSize_cases haccepted with ⟨hpos, hle⟩ | hnear
      · exact splits_pieces proto hz hid.ne_zero hws (hopen hws) hpayload hpos hle hcount hsteady
      · have hfits : ¬ 2 ^ 64 < payload.length + chunkSize.toNat :=
          fun hlarge => hsafe ⟨hws, hpayload, hnear, hlarge⟩
        rw [fragmentCount_wrapped hpayload hnear, if_neg hfits] at hsteady
        exact splits_one hz hid.ne_zero hws (hopen hws) hpayload haccepted hnear
          (Nat.not_lt.mp hfits) hsteady

namespace Client

/-- A new client on an open socket. -/
def openClient : Client := { fd := some {} }

/-- The counter of a new client is reachable. -/
theorem openClient_reachable (proto : ProtoLib) :
    ReachableStreamId storingLibs proto openClient.nextStreamId :=
  ⟨openClient, [], openClient, rfl, rfl, rfl⟩

end Client

open Client in
/-- Three fragments. -/
theorem send_fragmented_splits_iff_three :
    SplitsWithoutLoss storingLibs (ascii "peer") (List.replicate 25 9) 10
      (List.replicate 3 slowSendEnv) openClient := by
  have hsteady : SteadySends (fragmentCount (List.replicate 25 9) 10).toNat
      (List.replicate 3 slowSendEnv) := by
    refine ⟨by decide, ?_⟩
    intro senv hsenv
    rw [(List.mem_replicate.mp hsenv).2]
    exact slowSendEnv_steady
  refine (send_fragmented_splits_iff storingLibs emptyProto storingLibs_roundTrip _ _ _ _ _
    (openClient_reachable emptyProto) (fun _ => rfl) hsteady).mpr ?_
  intro h
  exact absurd h.2.2.1 (by decide)

open Client in
/-- Two bytes at `SIZE_MAX`: the call returns, the stream id is gone, and nothing
has been sent. -/
theorem send_fragmented_sends_nothing :
    exec (sendFragmented storingLibs (ascii "peer") [1, 2] 0xFFFFFFFFFFFFFFFF []) openClient =
        some (.ok (), { openClient with nextStreamId := 2 }) ∧
      ¬ ∀ (lib : WireLibs) (proto : ProtoLib), lib.ZstdRoundTrip →
        ∀ (target payload : Bytes) (chunkSize : UInt64) (c : Client) (senvs : List SendEnv),
          ReachableStreamId lib proto c.nextStreamId → (c.ws = none → c.fd.isSome) →
          SteadySends (fragmentCount payload chunkSize).toNat senvs →
          SplitsWithoutLoss lib target payload chunkSize senvs c := by
  have hexec : exec (sendFragmented storingLibs (ascii "peer") [1, 2] 0xFFFFFFFFFFFFFFFF [])
      openClient = some (.ok (), openClient.afterTake) :=
    exec_sendFragmented_wrapped rfl (by decide) ⟨by decide, by decide⟩ []
  refine ⟨hexec, ?_⟩
  intro hall
  obtain ⟨outcome, c', hsent, hlossless⟩ := hall storingLibs emptyProto storingLibs_roundTrip
    (ascii "peer") [1, 2] 0xFFFFFFFFFFFFFFFF openClient [] (openClient_reachable emptyProto)
    (fun _ => rfl) ⟨by decide, by simp⟩
  rw [hexec] at hsent
  cases hsent
  rcases hlossless with ⟨⟨e, he⟩, _⟩ | hsplits
  · cases he
  · exact not_splits_of_silent rfl hsplits

end Vynkor
