import VynkorSdk.Client
import VynkorSdk.FrameRoundTrip
import VynkorSdk.ReassemblyDelivery

/-!
# From one client to another

Two clients share a byte stream and a session key, or have none.  Whatever the
first sends, successive `recv_frame` calls of the second return the payloads,
each once and in order.

The pieces meet here: a payload is cut into fragments, each fragment becomes a
frame that the codec round trip covers, the frames go through the read and
write loops, and the fragments of one send are absorbed into one set that the
last of them completes.
-/

namespace Vynkor

open ByteCodec KeyedTable Procedure

namespace Client

variable (lib : WireLibs) (proto : ProtoLib)

/-! ### What is sent -/

/-- The sending operations of the Unix-socket transport. -/
inductive SendOp
  | send (target : Bytes) (env : Envelope)
  | sendRaw (target payload : Bytes)
  | sendRawAudio (target data : Bytes)
  | sendFragmented (target payload : Bytes) (chunkSize : UInt64)

namespace SendOp

/-- The bytes the receiver is to get. -/
def payload : SendOp → Bytes
  | .send _ env => proto.serialize env
  | .sendRaw _ payload => payload
  | .sendRawAudio _ data => data
  | .sendFragmented _ payload _ => payload

def isAudio : SendOp → Bool
  | .sendRawAudio _ _ => true
  | _ => false

/-- Number of fragments a payload of `size` bytes is cut into. -/
def pieces (size chunkSize : Nat) : Nat :=
  if size = 0 then 1 else (size + chunkSize - 1) / chunkSize

/-- Number of wire frames the operation writes. -/
def frames : SendOp → Nat
  | .sendFragmented _ payload chunkSize => pieces payload.length chunkSize.toNat
  | _ => 1

/-- The operation is within the transport's bounds. -/
def Valid (op : SendOp) : Prop :=
  (op.payload proto).length ≤ maxPayloadSize ∧
  match op with
  | .sendFragmented _ payload chunkSize =>
      1 ≤ chunkSize.toNat ∧ chunkSize.toNat ≤ maxPayloadSize - fragHeaderSize ∧
        pieces payload.length chunkSize.toNat ≤ 65535
  | _ => True

/-- The operation on the client, with one environment for each frame. -/
def perform : SendOp → List SendEnv → Proc Exn Client Unit
  | .send target env, senv :: _ => Client.send lib proto target env senv
  | .sendRaw target payload, senv :: _ => Client.sendRaw lib target payload senv
  | .sendRawAudio target data, senv :: _ => Client.sendRawAudio lib target data senv
  | .sendFragmented target payload chunkSize, senvs =>
      Client.sendFragmented lib target payload chunkSize senvs
  | _, [] => waiting

end SendOp

/-- One send after another. -/
def sendAll : List (SendOp × List SendEnv) → Proc Exn Client Unit
  | [] => pure ()
  | (op, senvs) :: ops => do
      op.perform lib proto senvs
      sendAll ops

/-- One `recv_frame` after another. -/
def recvAll : List (List FrameEnv) → Proc Exn Client (List FrameResult)
  | [] => pure []
  | envs :: calls => do
      let result ← recvFrame lib envs
      let results ← recvAll calls
      return result :: results

/-! ### One frame -/

/-- The largest frame: header, payload, tag. -/
def maxFrameSize : Nat := frameHeaderSize + maxPayloadSize + macTagLen

/-- The flags a client with this key adds. -/
def baseFlags (key : Option Block32) : UInt16 := if key.isSome then flagMacPresent else 0

/-- The extra flags the sending operations use. -/
def SendFlags (extraFlags : UInt16) : Prop :=
  extraFlags = 0 ∨ extraFlags = flagRawBinary ∨ extraFlags = flagFragmented

/-- Together with the key's flag they announce a tag exactly under a key, and
nothing else that was not asked for. -/
theorem baseFlags_or (key : Option Block32) {extraFlags : UInt16} (h : SendFlags extraFlags) :
    hasFlag (baseFlags key ||| extraFlags) flagCompressed = false ∧
    hasFlag (baseFlags key ||| extraFlags) flagMacPresent = key.isSome ∧
    hasFlag (baseFlags key ||| extraFlags) flagRawBinary = hasFlag extraFlags flagRawBinary ∧
    hasFlag (baseFlags key ||| extraFlags) flagFragmented = hasFlag extraFlags flagFragmented := by
  cases key with
  | none => rcases h with rfl | rfl | rfl <;> decide
  | some k =>
      rw [show baseFlags (some k) = flagMacPresent from if_pos rfl, Option.isSome_some]
      rcases h with rfl | rfl | rfl <;> decide

/-- A wire frame that a reader with `key` takes for `payload` with the extra
flags the writer gave. -/
structure Carries (key : Option Block32) (extraFlags : UInt16) (payload frame : Bytes) : Prop where
  delimited : SelfDelimited frame
  size_le : frame.length ≤ maxFrameSize
  parses : ∃ r, parseFrameBytes lib frame key = .ok (r, frame.length) ∧ r.payload = payload ∧
    r.flags = baseFlags key ||| extraFlags

variable {lib proto}

/-- What parses as a whole frame is as long as its length field says. -/
theorem selfDelimited_of_parse {f : Bytes} {key : Option Block32} {r : FrameResult}
    (h : parseFrameBytes lib f key = .ok (r, f.length)) : SelfDelimited f :=
  have haccepts := Accepts.of_parse lib h
  ⟨haccepts.header_le, haccepts.length_le, haccepts.consumed_eq.symm⟩

/-- A self-delimited frame is within the size limit. -/
theorem size_le_of_delimited {f : Bytes} (h : SelfDelimited f) : f.length ≤ maxFrameSize := by
  have hlength := h.length_le
  rw [← h.extent_eq]
  unfold frameExtent maxFrameSize
  split <;> omega

/-- What `pack_frame_raw` writes carries the payload. -/
theorem carries_of_pack (hz : lib.ZstdRoundTrip) (target : Bytes) {payload : Bytes}
    {extraFlags : UInt16} (key : Option Block32) (hpayload : payload.length ≤ maxPayloadSize)
    (hextra : SendFlags extraFlags) :
    ∃ frame, packFrameRaw lib target (baseFlags key ||| extraFlags) payload key = .ok frame ∧
      Carries lib key extraFlags payload frame := by
  obtain ⟨hplain, hmac, _⟩ := baseFlags_or key hextra
  obtain ⟨frame, hpack, hparse⟩ :=
    packFrameRaw_parses lib hz target hpayload hplain hmac
  have hdelimited := selfDelimited_of_parse hparse
  exact ⟨frame, hpack, hdelimited, size_le_of_delimited hdelimited, _, hparse, rfl, rfl⟩

/-- A client whose socket is open, as a sender sees it: the state in which its
peer will also find `bytes` on the stream. -/
structure Sent (c : Client) (bytes : Bytes) (c' : Client) : Prop where
  outbound_eq : c'.outbound = c.outbound ++ bytes
  key_eq : c'.sessionKey = c.sessionKey
  ws_eq : c'.ws = none
  fd_open : c'.fd.isSome

/-- Two writes one after the other. -/
theorem Sent.trans {c₁ c₂ c₃ : Client} {bytes bytes' : Bytes} (h : Sent c₁ bytes c₂)
    (h' : Sent c₂ bytes' c₃) : Sent c₁ (bytes ++ bytes') c₃ :=
  ⟨by rw [h'.outbound_eq, h.outbound_eq, List.append_assoc], h'.key_eq.trans h.key_eq, h'.ws_eq,
    h'.fd_open⟩

/-- A packed frame goes out whole. -/
theorem sendRawWithFlags_packed {c : Client} (hws : c.ws = none) (hfd : c.fd.isSome)
    {target payload frame : Bytes} {extraFlags : UInt16} {senv : SendEnv}
    (hpack : packFrameRaw lib target (baseFlags c.sessionKey ||| extraFlags) payload c.sessionKey =
      .ok frame)
    (hwrites : SteadyWrites frame.length senv.writes) :
    ∃ c', exec (sendRawWithFlags lib target extraFlags payload senv) c = some (.ok (), c') ∧
      Sent c frame c' := by
  have hwrite := writeAll_steady frame c.outbound hwrites
  obtain ⟨sock, hsock⟩ := Option.isSome_iff_exists.mp hfd
  refine ⟨c.setOutbound (c.outbound ++ frame), ?_, ?_⟩
  · have hflags : (if c.sessionKey.isSome then flagMacPresent else 0) ||| extraFlags =
        baseFlags c.sessionKey ||| extraFlags := rfl
    unfold sendRawWithFlags
    rw [exec_bind_ok (exec_get _)]
    dsimp only
    rw [hws, hflags, hpack, if_neg (by simp), exec_bind_ok (exec_settle _ _)]
    unfold writeFrame
    rw [exec_bind_ok (exec_get _), if_pos hfd, exec_zoom, hwrite]
    rfl
  · exact ⟨by simp [outbound, setOutbound, hsock], rfl, hws, by simp [setOutbound, hsock]⟩

/-- One frame goes out whole. -/
theorem sendRawWithFlags_steady (hz : lib.ZstdRoundTrip) {c : Client} (hws : c.ws = none)
    (hfd : c.fd.isSome) (target : Bytes) {payload : Bytes} (extraFlags : UInt16) {senv : SendEnv}
    (hpayload : payload.length ≤ maxPayloadSize)
    (hextra : SendFlags extraFlags)
    (hwrites : SteadyWrites maxFrameSize senv.writes) :
    ∃ frame c', Carries lib c.sessionKey extraFlags payload frame ∧
      exec (sendRawWithFlags lib target extraFlags payload senv) c = some (.ok (), c') ∧
      Sent c frame c' := by
  obtain ⟨frame, hpack, hcarries⟩ :=
    carries_of_pack hz target c.sessionKey hpayload hextra
  obtain ⟨c', hsend, hsent⟩ :=
    sendRawWithFlags_packed hws hfd hpack (hwrites.mono hcarries.size_le)
  exact ⟨frame, c', hcarries, hsend, hsent⟩

/-! ### Cutting a payload -/

/-- The first `n` pieces of `size` bytes. -/
def cut (payload : Bytes) (size n : Nat) : List Bytes :=
  (List.range n).map (fun i => slice payload (i * size) size)

/-- A payload cut into `n` pieces has `n` pieces. -/
@[simp] theorem cut_length (payload : Bytes) (size n : Nat) : (cut payload size n).length = n := by
  simp [cut]

/-- Each piece is the slice at its place. -/
theorem cut_getD {payload : Bytes} {size n i : Nat} (hi : i < n) :
    (cut payload size n).getD i [] = slice payload (i * size) size := by
  simp [cut, hi]

/-- The pieces in order are a front of the payload. -/
theorem cut_flatten (payload : Bytes) (size n : Nat) :
    (cut payload size n).flatten = payload.take (n * size) := by
  induction n with
  | zero => simp [cut]
  | succ n ih =>
      rw [cut] at ih ⊢
      rw [List.range_succ, List.map_append, List.flatten_append, ih, Nat.succ_mul, List.take_add]
      simp [slice]

/-- Enough pieces hold all of it. -/
theorem cut_pieces {payload : Bytes} {size : Nat} (hsize : 1 ≤ size) :
    (cut payload size (SendOp.pieces payload.length size)).flatten = payload := by
  rw [cut_flatten]
  apply List.take_of_length_le
  unfold SendOp.pieces
  split
  · omega
  · have hdiv := Nat.div_add_mod (payload.length + size - 1) size
    have hmod := Nat.mod_lt (payload.length + size - 1) hsize
    rw [Nat.mul_comm]
    omega

/-- Without overflow the count the source computes is the number of pieces. -/
theorem fragmentCount_toNat {payload : Bytes} {chunkSize : UInt64}
    (hpayload : payload.length ≤ maxPayloadSize) (hpos : 1 ≤ chunkSize.toNat)
    (hle : chunkSize.toNat ≤ maxPayloadSize - fragHeaderSize) :
    (fragmentCount payload chunkSize).toNat = SendOp.pieces payload.length chunkSize.toNat := by
  simp only [maxPayloadSize, fragHeaderSize] at hpayload hle
  unfold fragmentCount SendOp.pieces
  by_cases hnil : payload = []
  · simp [hnil]
  · have hlen : payload.length ≠ 0 := fun h => hnil (List.length_eq_zero_iff.mp h)
    have hofNat : (UInt64.ofNat payload.length).toNat = payload.length :=
      UInt64.toNat_ofNat_of_lt' (by simp only [UInt64.size]; omega)
    have hsum : (UInt64.ofNat payload.length + chunkSize).toNat =
        payload.length + chunkSize.toNat := by
      rw [UInt64.toNat_add, hofNat, Nat.mod_eq_of_lt (by omega)]
    have hone : (1 : UInt64) ≤ UInt64.ofNat payload.length + chunkSize := by
      rw [UInt64.le_iff_toNat_le, hsum, UInt64.toNat_one]
      omega
    rw [if_neg hnil, if_neg hlen, UInt64.toNat_div, UInt64.toNat_sub_of_le _ _ hone, hsum,
      UInt64.toNat_one]

/-- Fragment `seq` as the source computes it is piece `seq` behind its header. -/
theorem fragmentPayload_eq {payload : Bytes} {chunkSize total seq : UInt64} {S : UInt32} {n : Nat}
    (hpayload : payload.length ≤ maxPayloadSize)
    (hle : chunkSize.toNat ≤ maxPayloadSize - fragHeaderSize) (htotal : total.toNat = n)
    (hn : n ≤ 65535) (hseq : seq.toNat < n) :
    fragmentPayload payload chunkSize total S seq =
      fragmentHeaderBytes S seq.toNat n ++ (cut payload chunkSize.toNat n).getD seq.toNat [] := by
  simp only [maxPayloadSize, fragHeaderSize] at hpayload hle
  have hstart : (seq * chunkSize).toNat = seq.toNat * chunkSize.toNat := by
    have hprod : seq.toNat * chunkSize.toNat ≤ 65535 * 1048566 :=
      Nat.mul_le_mul (by omega) (by omega)
    rw [UInt64.toNat_mul, Nat.mod_eq_of_lt (by omega)]
  have hofNat : (UInt64.ofNat payload.length).toNat = payload.length :=
    UInt64.toNat_ofNat_of_lt' (by simp only [UInt64.size]; omega)
  have hseq16 : seq.toUInt16 = UInt16.ofNat seq.toNat := rfl
  have htotal16 : total.toUInt16 = UInt16.ofNat n := by rw [← htotal]; rfl
  -- The length is cut to what is left, which is where the bytes end anyway.
  have hpiece : slice payload (seq * chunkSize).toNat
      (min chunkSize (UInt64.ofNat payload.length - seq * chunkSize)).toNat =
      slice payload (seq.toNat * chunkSize.toNat) chunkSize.toNat := by
    rw [hstart, slice, slice]
    by_cases hend : payload.length ≤ seq.toNat * chunkSize.toNat
    · rw [List.drop_eq_nil_of_le hend, List.take_nil, List.take_nil]
    · have hleft : (UInt64.ofNat payload.length - seq * chunkSize).toNat =
          payload.length - seq.toNat * chunkSize.toNat := by
        rw [UInt64.toNat_sub_of_le, hofNat, hstart]
        rw [UInt64.le_iff_toNat_le, hofNat, hstart]
        omega
      by_cases hmin : chunkSize ≤ UInt64.ofNat payload.length - seq * chunkSize
      · rw [show min chunkSize (UInt64.ofNat payload.length - seq * chunkSize) = chunkSize from
          if_pos hmin]
      · rw [show min chunkSize (UInt64.ofNat payload.length - seq * chunkSize) =
          UInt64.ofNat payload.length - seq * chunkSize from if_neg hmin, hleft]
        rw [UInt64.le_iff_toNat_le, hleft] at hmin
        rw [List.take_of_length_le (by rw [List.length_drop]),
          List.take_of_length_le (by rw [List.length_drop]; omega)]
  rw [fragmentPayload, fragmentHeaderBytes, cut_getD hseq, hseq16, htotal16, hpiece]

/-! ### Sending -/

/-- The frame carries fragment `i` of the payload cut into `chunks`. -/
def CarriesFragment (lib : WireLibs) (key : Option Block32) (S : UInt32) (chunks : List Bytes)
    (i : Nat) (frame : Bytes) : Prop :=
  Carries lib key flagFragmented
    (fragmentHeaderBytes S i chunks.length ++ chunks.getD i []) frame

/-- The wire frames of one send: one frame, or one for each fragment. -/
inductive Transmission (lib : WireLibs) (key : Option Block32) (payload : Bytes) (audio : Bool) :
    List Bytes → Prop
  | whole {extraFlags : UInt16} {frame : Bytes}
      (hflags : extraFlags = if audio then flagRawBinary else 0)
      (hcarries : Carries lib key extraFlags payload frame) :
      Transmission lib key payload audio [frame]
  | cut (S : UInt32) (chunks : List Bytes) {wires : List Bytes} (haudio : audio = false)
      (hcount : 1 ≤ chunks.length ∧ chunks.length ≤ 65535) (hjoin : chunks.flatten = payload)
      (hcarries : List.Forall₂ (CarriesFragment lib key S chunks) (List.range chunks.length)
        wires) :
      Transmission lib key payload audio wires

/-- What a sending operation needs of its environment. -/
def SteadySends (n : Nat) (senvs : List SendEnv) : Prop :=
  n ≤ senvs.length ∧ ∀ senv ∈ senvs, SteadyWrites maxFrameSize senv.writes

/-- Steady sends put every fragment on the stream, in sequence. -/
theorem sendFragments_steady (hz : lib.ZstdRoundTrip) (target : Bytes) {payload : Bytes}
    {chunkSize total : UInt64} (S : UInt32) {n : Nat}
    (hpayload : payload.length ≤ maxPayloadSize)
    (hle : chunkSize.toNat ≤ maxPayloadSize - fragHeaderSize) (htotal : total.toNat = n)
    (hn : n ≤ 65535) :
    ∀ (rounds : Nat) (seq : UInt64) (senvs : List SendEnv) (c : Client), c.ws = none →
      c.fd.isSome → seq.toNat + rounds = n → SteadySends rounds senvs →
      ∃ wires c', List.Forall₂
          (CarriesFragment lib c.sessionKey S (Client.cut payload chunkSize.toNat n))
          (List.range' seq.toNat rounds) wires ∧
        exec (sendFragments lib target payload chunkSize total S rounds seq senvs) c =
          some (.ok (), c') ∧ Sent c wires.flatten c' := by
  intro rounds
  induction rounds with
  | zero =>
      intro seq senvs c hws hfd _ _
      exact ⟨[], c, by simp, by simp [sendFragments], by simp, rfl, hws, hfd⟩
  | succ rounds ih =>
      intro seq senvs c hws hfd hseq hsteady
      rcases senvs with _ | ⟨senv, senvs⟩
      · exact absurd hsteady.1 (by simp)
      have hlen : (fragmentPayload payload chunkSize total S seq).length ≤ maxPayloadSize := by
        rw [fragmentPayload_eq hpayload hle htotal hn (by omega), List.length_append,
          fragmentHeaderBytes, packFragHeader_length, cut_getD (by omega), slice]
        have := List.length_take_le chunkSize.toNat
          (payload.drop (seq.toNat * chunkSize.toNat))
        simp only [maxPayloadSize, fragHeaderSize] at hle ⊢
        omega
      obtain ⟨frame, c₁, hcarries, hsend, hsent⟩ := sendRawWithFlags_steady hz hws hfd
        target flagFragmented hlen (Or.inr (Or.inr rfl)) (hsteady.2 senv (by simp))
      have hnext : (seq + 1).toNat = seq.toNat + 1 := by
        rw [UInt64.toNat_add, UInt64.toNat_one]
        omega
      obtain ⟨wires, c₂, hwires, hrest, hsent'⟩ := ih (seq + 1) senvs c₁ hsent.ws_eq hsent.fd_open
        (by omega) ⟨by simpa using hsteady.1, fun e he => hsteady.2 e (List.mem_cons_of_mem _ he)⟩
      rw [hnext, hsent.key_eq] at hwires
      refine ⟨frame :: wires, c₂, ?_, ?_, hsent.trans hsent'⟩
      · rw [List.range'_succ]
        refine List.Forall₂.cons ?_ hwires
        rw [fragmentPayload_eq hpayload hle htotal hn (by omega)] at hcarries
        simpa [CarriesFragment] using hcarries
      · rw [sendFragments, exec_bind_ok hsend]
        exact hrest

/-- The client once a stream id has been taken. -/
def afterTake (c : Client) : Client :=
  { c with nextStreamId := if c.nextStreamId + 1 = 0 then 1 else c.nextStreamId + 1 }

/-- Taking a stream id gives the next one and moves the counter on. -/
theorem exec_takeStreamId (c : Client) :
    exec takeStreamId c = some (.ok c.nextStreamId, c.afterTake) := rfl

/-- Past its checks, `send_fragmented` takes a stream id and sends. -/
theorem exec_sendFragmented {target payload : Bytes} {chunkSize : UInt64} {senvs : List SendEnv}
    {c : Client} (hws : c.ws = none) (hpayload : payload.length ≤ maxPayloadSize)
    (hchunk : ¬ (chunkSize = 0 ∨
      chunkSize + UInt64.ofNat fragHeaderSize > UInt64.ofNat maxPayloadSize))
    (hcount : ¬ fragmentCount payload chunkSize > 0xFFFF) :
    exec (sendFragmented lib target payload chunkSize senvs) c =
      exec (sendFragments lib target payload chunkSize (fragmentCount payload chunkSize)
        c.nextStreamId (fragmentCount payload chunkSize).toNat 0 senvs) c.afterTake := by
  unfold sendFragmented
  rw [exec_bind_ok (exec_get _), hws, if_neg (by simp), if_neg (Nat.not_lt.mpr hpayload),
    if_neg hchunk]
  dsimp only
  rw [if_neg hcount, exec_bind_ok (exec_takeStreamId c)]

/-- A positive chunk size that leaves room for the fragment header is accepted. -/
theorem chunkSize_accepted {chunkSize : UInt64} (hpos : 1 ≤ chunkSize.toNat)
    (hle : chunkSize.toNat ≤ maxPayloadSize - fragHeaderSize) :
    ¬ (chunkSize = 0 ∨
      chunkSize + UInt64.ofNat fragHeaderSize > UInt64.ofNat maxPayloadSize) := by
  simp only [maxPayloadSize, fragHeaderSize] at hle
  rintro (rfl | hbig)
  · simp at hpos
  · rw [gt_iff_lt, UInt64.lt_iff_toNat_lt, UInt64.toNat_add] at hbig
    simp [maxPayloadSize, fragHeaderSize] at hbig
    omega

/-- A payload is cut into at least one piece. -/
theorem pieces_pos {size chunkSize : Nat} (hpos : 1 ≤ chunkSize) :
    1 ≤ SendOp.pieces size chunkSize := by
  unfold SendOp.pieces
  split
  · exact Nat.le_refl 1
  · exact (Nat.one_le_div_iff (by omega)).mpr (by omega)

/-- The frames of one `send_fragmented`, under the stream id it takes. -/
theorem sendFragmented_cut (hz : lib.ZstdRoundTrip) {target payload : Bytes}
    {chunkSize : UInt64} (hop : (SendOp.sendFragmented target payload chunkSize).Valid proto)
    {c : Client} (hws : c.ws = none) (hfd : c.fd.isSome) {senvs : List SendEnv}
    (hsteady : SteadySends (SendOp.pieces payload.length chunkSize.toNat) senvs) :
    ∃ wires c', List.Forall₂ (CarriesFragment lib c.sessionKey c.nextStreamId
          (Client.cut payload chunkSize.toNat (SendOp.pieces payload.length chunkSize.toNat)))
        (List.range (SendOp.pieces payload.length chunkSize.toNat)) wires ∧
      exec (sendFragmented lib target payload chunkSize senvs) c = some (.ok (), c') ∧
      Sent c wires.flatten c' := by
  obtain ⟨hpayload, hpos, hle, hcount⟩ := hop
  simp only [SendOp.payload] at hpayload
  have htotal := fragmentCount_toNat hpayload hpos hle
  have hmax : ¬ fragmentCount payload chunkSize > 0xFFFF := by
    rw [gt_iff_lt, UInt64.lt_iff_toNat_lt, htotal]
    simp
    omega
  obtain ⟨wires, c', hwires, hsend, hsent⟩ := sendFragments_steady hz target
    c.nextStreamId hpayload hle htotal hcount _ 0 senvs c.afterTake hws hfd (by simp) hsteady
  refine ⟨wires, c', ?_, ?_, hsent.outbound_eq, hsent.key_eq, hsent.ws_eq, hsent.fd_open⟩
  · rw [UInt64.toNat_zero, ← List.range_eq_range'] at hwires
    exact hwires
  · rw [exec_sendFragmented hws hpayload (chunkSize_accepted hpos hle) hmax, htotal]
    exact hsend

/-- Steady sends put a whole fragmented payload on the stream. -/
theorem sendFragmented_steady (hz : lib.ZstdRoundTrip) {target payload : Bytes}
    {chunkSize : UInt64} (hop : (SendOp.sendFragmented target payload chunkSize).Valid proto)
    {c : Client} (hws : c.ws = none) (hfd : c.fd.isSome) {senvs : List SendEnv}
    (hsteady : SteadySends (SendOp.pieces payload.length chunkSize.toNat) senvs) :
    ∃ wires c', Transmission lib c.sessionKey payload false wires ∧
      wires.length = SendOp.pieces payload.length chunkSize.toNat ∧
      exec (sendFragmented lib target payload chunkSize senvs) c = some (.ok (), c') ∧
      Sent c wires.flatten c' := by
  obtain ⟨wires, c', hwires, hsend, hsent⟩ := sendFragmented_cut hz hop hws hfd hsteady
  have hlen := hwires.length_eq
  rw [List.length_range] at hlen
  obtain ⟨_, hpos, _, hcount⟩ := hop
  refine ⟨wires, c', ?_, hlen.symm, hsend, hsent⟩
  exact .cut _ (Client.cut payload chunkSize.toNat _) rfl (by simpa using ⟨pieces_pos hpos, hcount⟩)
    (cut_pieces hpos) (by simpa using hwires)

/-- **One send.**  The operation succeeds and puts its wire frames on the
stream, one behind the other. -/
theorem perform_steady (hz : lib.ZstdRoundTrip) {op : SendOp} (hop : op.Valid proto) {c : Client}
    (hws : c.ws = none) (hfd : c.fd.isSome) {senvs : List SendEnv}
    (hsteady : SteadySends op.frames senvs) :
    ∃ wires c', Transmission lib c.sessionKey (op.payload proto) op.isAudio wires ∧
      wires.length = op.frames ∧
      exec (op.perform lib proto senvs) c = some (.ok (), c') ∧ Sent c wires.flatten c' := by
  have hpayload := hop.1
  -- The three single-frame operations differ in the extra flags only.
  have hsingle : ∀ (target : Bytes) (audio : Bool) (payload : Bytes) (senv : SendEnv),
      payload.length ≤ maxPayloadSize → SteadyWrites maxFrameSize senv.writes →
      ∃ wires c', Transmission lib c.sessionKey payload audio wires ∧ wires.length = 1 ∧
        exec (sendRawWithFlags lib target (if audio then flagRawBinary else 0) payload senv) c =
          some (.ok (), c') ∧ Sent c wires.flatten c' := by
    intro target audio payload senv hlen hwrites
    obtain ⟨frame, c', hcarries, hsend, hsent⟩ := sendRawWithFlags_steady hz hws hfd
      target (if audio then flagRawBinary else 0) hlen
      (by cases audio; exacts [Or.inl rfl, Or.inr (Or.inl rfl)]) hwrites
    exact ⟨[frame], c', .whole rfl hcarries, rfl, hsend, by simpa using hsent⟩
  cases op with
  | send target env =>
      rcases senvs with _ | ⟨senv, senvs⟩
      · exact absurd hsteady.1 (by simp [SendOp.frames])
      exact hsingle target false _ senv hpayload (hsteady.2 senv (by simp))
  | sendRaw target payload =>
      rcases senvs with _ | ⟨senv, senvs⟩
      · exact absurd hsteady.1 (by simp [SendOp.frames])
      exact hsingle target false _ senv hpayload (hsteady.2 senv (by simp))
  | sendRawAudio target data =>
      rcases senvs with _ | ⟨senv, senvs⟩
      · exact absurd hsteady.1 (by simp [SendOp.frames])
      exact hsingle target true _ senv hpayload (hsteady.2 senv (by simp))
  | sendFragmented target payload chunkSize => exact sendFragmented_steady hz hop hws hfd hsteady

/-! ### Receiving -/

/-- A client on an open socket with `bytes` to read, and the table `t`. -/
structure Listening (key : Option Block32) (bytes : Bytes) (t : ReassemblyTable) (c : Client) :
    Prop where
  key_eq : c.sessionKey = key
  ws_eq : c.ws = none
  fd_open : c.fd.isSome
  inbound_eq : c.inbound = bytes
  table_eq : c.reassembly = t

/-- The next frame is read whole. -/
theorem readTransportFrame_steady {c : Client} {key : Option Block32} {t : ReassemblyTable}
    {extraFlags : UInt16} {payload frame rest : Bytes} {env : FrameEnv}
    (hc : Listening key (frame ++ rest) t c) (hcarries : Carries lib key extraFlags payload frame)
    (henv : Steady frameReadTimeoutMs maxFrameSize env) :
    ∃ r c', exec (readTransportFrame lib none env) c = some (.ok r, c') ∧ r.payload = payload ∧
      r.flags = baseFlags key ||| extraFlags ∧ Listening key rest t c' := by
  obtain ⟨r, hparse, hpayload, hflags⟩ := hcarries.parses
  have hread : exec (readFrameFull lib key env) c.inbound = some (.ok r, rest) := by
    rw [hc.inbound_eq, readFrameFull,
      readFrameFullWithTimeout_steady lib hcarries.delimited (henv.mono hcarries.size_le), hparse]
    rfl
  obtain ⟨sock, hsock⟩ := Option.isSome_iff_exists.mp hc.fd_open
  refine ⟨r, hear key r (c.setInbound rest), ?_, hpayload, hflags, ?_⟩
  · have hsocket : exec (readActiveFrame lib none env) c = some (.ok r, c.setInbound rest) := by
      unfold readActiveFrame
      rw [exec_bind_ok (exec_get _), hc.ws_eq, if_neg (by simp), readSocketFrame,
        exec_bind_ok (exec_get _), exec_zoom, if_pos hc.fd_open, hc.key_eq]
      dsimp only
      rw [hread]
      rfl
    unfold readTransportFrame
    rw [exec_bind_ok (exec_get _), exec_bind_ok hsocket, hc.key_eq,
      exec_bind_ok (exec_modify _ _)]
    rfl
  · exact ⟨hc.key_eq, hc.ws_eq, by simp [hear, setInbound, hsock],
      by simp [inbound, hear, setInbound, hsock], hc.table_eq⟩

/-- Only stream `S` can be open. -/
def OnlyStream (S : UInt32) (t : ReassemblyTable) : Prop := ∀ S', S' ≠ S → t.lookup S' = none

/-- A fragment of `S` opens no other stream. -/
theorem OnlyStream.absorb {S : UInt32} {chunks : List Bytes} {i : Nat} {call : AbsorbCall}
    {t : ReassemblyTable} (h : OnlyStream S t) (hcall : IsFragment S chunks i call) :
    OnlyStream S (absorbFragment call t).2 := by
  intro S' hS'
  have hother : OtherTraffic S' call := by
    intro hdr hhdr
    rw [hcall.header] at hhdr
    exact Option.some.inj hhdr ▸ hS'.symm
  rw [absorbFragment_other hother, prune, lookup_retain, h S' hS']
  rfl

/-- The empty table has room. -/
theorem prune_empty_room {now : Int} :
    size (prune now (∅ : ReassemblyTable)) < maxReassemblyStreams :=
  Nat.lt_of_le_of_lt (retain_size_le _ _) (by decide)

/-- The flags of a set opened by a client's fragment frame are empty. -/
theorem openedFlags (key : Option Block32) :
    (baseFlags key ||| flagFragmented) &&& ~~~(flagFragmented ||| flagMacPresent) = 0 := by
  cases key with
  | none => decide
  | some k =>
      rw [show baseFlags (some k) = flagMacPresent from if_pos rfl]
      decide

/-- One fragment of a set that only stream `S` has open: the call returns the
payload, or goes on to the next frame with the fragment stored. -/
theorem recvFragment_steady {key : Option Block32} {S : UInt32} {chunks : List Bytes} {i : Nat}
    {frame rest : Bytes} {t : ReassemblyTable} {c : Client} {env : FrameEnv} (seen : Int)
    (envs : List FrameEnv) (hi : i < chunks.length)
    (hcarries : CarriesFragment lib key S chunks i frame)
    (hc : Listening key (frame ++ rest) t c) (henv : Steady frameReadTimeoutMs maxFrameSize env)
    (ht : TableInv t) (honly : OnlyStream S t)
    (hdelivers : ∀ r : FrameResult, r.flags = baseFlags key ||| flagFragmented →
      IsFragment S chunks i ⟨env.absorbNow, env.absorbSeen, r⟩ →
      Delivers S chunks (· < i + 1) 0 seen
        (absorbFragment ⟨env.absorbNow, env.absorbSeen, r⟩ t)) :
    (i + 1 = chunks.length → ∃ c', exec (recvFrameWith lib none (env :: envs)) c =
        some (.ok { payload := chunks.flatten, flags := 0 }, c') ∧ Listening key rest ∅ c') ∧
    (i + 1 < chunks.length → ∃ c' t', exec (recvFrameWith lib none (env :: envs)) c =
        exec (recvFrameWith lib none envs) c' ∧ Listening key rest t' c' ∧
        Holding S chunks (· < i + 1) 0 seen t' ∧ TableInv t' ∧ OnlyStream S t') := by
  obtain ⟨r, c₁, hread, hpayload, hflags, hc₁⟩ := readTransportFrame_steady hc hcarries henv
  have hfrag : IsFragment S chunks i ⟨env.absorbNow, env.absorbSeen, r⟩ := ⟨hi, hpayload⟩
  obtain ⟨hwaits, hdone⟩ := hdelivers r hflags hfrag
  have hfragmented : hasFlag r.flags flagFragmented = true := by
    rw [hflags, (baseFlags_or key (Or.inr (Or.inr rfl))).2.2.2]
    decide
  have htable := absorbFragment_inv ⟨env.absorbNow, env.absorbSeen, r⟩ ht
  have honly' := honly.absorb hfrag
  have habsorb := exec_absorb env r c₁
  rw [hc₁.table_eq] at habsorb
  constructor
  · intro hlast
    obtain ⟨hout, hgone⟩ := hdone (fun j hj => by omega)
    have hempty : (absorbFragment ⟨env.absorbNow, env.absorbSeen, r⟩ t).2 = ∅ := by
      apply eq_empty_of_lookup_none
      intro S'
      by_cases hS' : S' = S
      · rw [hS', hgone]
      · exact honly' S' hS'
    dsimp only at habsorb
    rw [hout, hempty] at habsorb
    refine ⟨{ c₁ with reassembly := ∅ }, ?_, hc₁.key_eq, hc₁.ws_eq, hc₁.fd_open, hc₁.inbound_eq,
      rfl⟩
    rw [recvFrameWith, exec_bind_ok hread, if_pos hfragmented, exec_bind_ok habsorb]
    rfl
  · intro hmore
    obtain ⟨hout, hhold⟩ := hwaits ⟨i + 1, hmore, Nat.lt_irrefl _⟩
    dsimp only at habsorb
    rw [hout] at habsorb
    let t' := (absorbFragment ⟨env.absorbNow, env.absorbSeen, r⟩ t).2
    refine ⟨{ c₁ with reassembly := t' }, t', ?_,
      ⟨hc₁.key_eq, hc₁.ws_eq, hc₁.fd_open, hc₁.inbound_eq, rfl⟩, hhold, htable.1, honly'⟩
    rw [recvFrameWith, exec_bind_ok hread, if_pos hfragmented, exec_bind_ok habsorb]

/-- With the next fragment the first `i` become the first `i + 1`. -/
theorem withNumber_lt (i : Nat) : withNumber (· < i) i = (· < i + 1) := by
  funext j
  simp only [withNumber, eq_iff_iff]
  omega

/-- The rest of a set, from fragment `i` on. -/
theorem recvFragments_steady {key : Option Block32} {S : UInt32} {chunks : List Bytes}
    (hcount : 1 ≤ chunks.length ∧ chunks.length ≤ 65535)
    (hsize : chunks.flatten.length ≤ maxPayloadSize) {rest : Bytes} {seen : Int} :
    ∀ (left i : Nat) (wires : List Bytes) (envs : List FrameEnv) (c : Client)
      (t : ReassemblyTable), i + (left + 1) = chunks.length →
      List.Forall₂ (CarriesFragment lib key S chunks) (List.range' i (left + 1)) wires →
      left + 1 ≤ envs.length → (∀ env ∈ envs, Steady frameReadTimeoutMs maxFrameSize env) →
      (∀ env ∈ envs, env.absorbNow - seen < reassemblyTimeout) →
      Listening key (wires.flatten ++ rest) t c → Holding S chunks (· < i) 0 seen t →
      TableInv t → OnlyStream S t →
      ∃ c', exec (recvFrameWith lib none envs) c =
          some (.ok { payload := chunks.flatten, flags := 0 }, c') ∧ Listening key rest ∅ c' := by
  intro left
  induction left with
  | zero =>
      intro i wires envs c t hi hwires henvs hsteady hage hc hhold ht honly
      rcases envs with _ | ⟨env, envs⟩
      · exact absurd henvs (by simp)
      obtain ⟨frame, wires, hcarries, hnil, rfl⟩ := List.forall₂_cons_left_iff.mp hwires
      obtain rfl := List.forall₂_nil_left_iff.mp hnil
      refine (recvFragment_steady seen envs (by omega) hcarries (by simpa using hc)
        (hsteady env (by simp)) ht honly ?_).1 (by omega)
      intro r _ hfrag
      rw [← withNumber_lt]
      exact hhold.fragment hcount hsize ht hfrag (hage env (by simp))
  | succ left ih =>
      intro i wires envs c t hi hwires henvs hsteady hage hc hhold ht honly
      rcases envs with _ | ⟨env, envs⟩
      · exact absurd henvs (by simp)
      obtain ⟨frame, wires, hcarries, hrest, rfl⟩ := List.forall₂_cons_left_iff.mp hwires
      rw [List.flatten_cons, List.append_assoc] at hc
      obtain ⟨c', t', hrun, hc', hhold', ht', honly'⟩ :=
        (recvFragment_steady seen envs (by omega) hcarries hc (hsteady env (by simp)) ht
          honly (by
            intro r _ hfrag
            rw [← withNumber_lt]
            exact hhold.fragment hcount hsize ht hfrag (hage env (by simp)))).2 (by omega)
      rw [hrun]
      exact ih (i + 1) wires envs c' t' (by omega) hrest (by simpa using henvs)
        (fun e he => hsteady e (List.mem_cons_of_mem _ he))
        (fun e he => hage e (List.mem_cons_of_mem _ he)) hc' hhold' ht' honly'

/-- What a `recv_frame` call needs of its environment: one frame environment
for each wire frame, none of them 30 s after the first was absorbed. -/
structure SteadyCall (n : Nat) (envs : List FrameEnv) : Prop where
  enough : n ≤ envs.length
  steady : ∀ env ∈ envs, Steady frameReadTimeoutMs maxFrameSize env
  young : ∀ first ∈ envs.head?, ∀ env ∈ envs.tail,
    env.absorbNow - first.absorbSeen < reassemblyTimeout

/-- What the receiver is to return for a send. -/
structure Received (payload : Bytes) (audio : Bool) (r : FrameResult) : Prop where
  payload_eq : r.payload = payload
  raw_iff : hasFlag r.flags flagRawBinary = audio
  plain : hasFlag r.flags flagCompressed = false
  complete : hasFlag r.flags flagFragmented = false

/-- A payload that came in one frame. -/
theorem recvFrame_whole {key : Option Block32} {payload : Bytes} {audio : Bool}
    {extraFlags : UInt16} {frame rest : Bytes} {c : Client} {env : FrameEnv} (envs : List FrameEnv)
    (hflags : extraFlags = if audio then flagRawBinary else 0)
    (hcarries : Carries lib key extraFlags payload frame) (hc : Listening key (frame ++ rest) ∅ c)
    (henv : Steady frameReadTimeoutMs maxFrameSize env) :
    ∃ r c', exec (recvFrame lib (env :: envs)) c = some (.ok r, c') ∧ Received payload audio r ∧
      Listening key rest ∅ c' := by
  have hextra : SendFlags extraFlags := by
    rw [hflags]
    cases audio
    · exact Or.inl rfl
    · exact Or.inr (Or.inl rfl)
  obtain ⟨hplain, _, hraw, hfragmented⟩ := baseFlags_or key hextra
  have hbits : hasFlag extraFlags flagRawBinary = audio ∧
      hasFlag extraFlags flagFragmented = false := by
    rw [hflags]
    cases audio <;> decide
  obtain ⟨r, c', hread, hrpayload, hrflags, hc'⟩ := readTransportFrame_steady hc hcarries henv
  rw [← hrflags] at hplain hraw hfragmented
  refine ⟨r, c', ?_, ⟨hrpayload, by rw [hraw, hbits.1], hplain, by rw [hfragmented, hbits.2]⟩, hc'⟩
  rw [recvFrame, recvFrameWith, exec_bind_ok hread, if_neg (by rw [hfragmented, hbits.2]; simp)]
  rfl

/-- A payload that came in fragments. -/
theorem recvFrame_cut {key : Option Block32} {S : UInt32} {chunks wires : List Bytes} {rest : Bytes}
    {c : Client} {env : FrameEnv} {envs : List FrameEnv}
    (hcount : 1 ≤ chunks.length ∧ chunks.length ≤ 65535)
    (hsize : chunks.flatten.length ≤ maxPayloadSize)
    (hcarries : List.Forall₂ (CarriesFragment lib key S chunks) (List.range chunks.length) wires)
    (hc : Listening key (wires.flatten ++ rest) ∅ c)
    (henvs : SteadyCall wires.length (env :: envs)) :
    ∃ c', exec (recvFrame lib (env :: envs)) c =
        some (.ok { payload := chunks.flatten, flags := 0 }, c') ∧ Listening key rest ∅ c' := by
  obtain ⟨left, hleft⟩ : ∃ left, chunks.length = left + 1 := ⟨chunks.length - 1, by omega⟩
  rw [List.range_eq_range', hleft] at hcarries
  obtain ⟨frame, wires, hfirst, hrest, rfl⟩ := List.forall₂_cons_left_iff.mp hcarries
  rw [List.flatten_cons, List.append_assoc] at hc
  have honly : OnlyStream S ∅ := fun S' _ => rfl
  -- The first fragment opens the set; its numbers are those below 1.
  have hopens := recvFragment_steady env.absorbSeen envs (by omega) hfirst hc
    (henvs.steady env (by simp)) TableInv.empty honly (by
      intro r hrflags hfrag
      have hdelivers := hfrag.opens hcount hsize TableInv.empty rfl prune_empty_room
      rw [hrflags, openedFlags] at hdelivers
      simpa only [Nat.zero_add, Nat.lt_one_iff] using hdelivers)
  rcases left with _ | left
  · obtain rfl := List.forall₂_nil_left_iff.mp hrest
    exact hopens.1 hleft.symm
  · obtain ⟨c₁, t, hrun, hc₁, hhold, ht, honly'⟩ := hopens.2 (by omega)
    rw [recvFrame, hrun]
    have hlen := hrest.length_eq
    rw [List.length_range'] at hlen
    have henough := henvs.enough
    simp only [List.length_cons] at henough
    exact recvFragments_steady hcount hsize left 1 wires envs c₁ t (by omega) hrest
      (by omega) (fun e he => henvs.steady e (List.mem_cons_of_mem _ he))
      (fun e he => henvs.young env rfl e he) hc₁ hhold ht honly'

/-- A transmission has at least one frame. -/
theorem Transmission.length_pos {key : Option Block32} {payload : Bytes} {audio : Bool}
    {wires : List Bytes} (h : Transmission lib key payload audio wires) : 1 ≤ wires.length := by
  cases h with
  | whole => simp
  | cut S chunks haudio hcount hjoin hcarries =>
      have hlen := hcarries.length_eq
      rw [List.length_range] at hlen
      omega

/-- **One receive.**  From an empty table, `recv_frame` takes the frames of one
send off the stream and returns its payload, with the table empty again. -/
theorem recvFrame_steady {key : Option Block32} {payload : Bytes} {audio : Bool}
    {wires : List Bytes} {rest : Bytes} {c : Client} {envs : List FrameEnv}
    (hpayload : payload.length ≤ maxPayloadSize)
    (hwires : Transmission lib key payload audio wires)
    (hc : Listening key (wires.flatten ++ rest) ∅ c) (henvs : SteadyCall wires.length envs) :
    ∃ r c', exec (recvFrame lib envs) c = some (.ok r, c') ∧ Received payload audio r ∧
      Listening key rest ∅ c' := by
  rcases envs with _ | ⟨env, envs⟩
  · exact absurd (hwires.length_pos.trans henvs.enough) (by simp)
  cases hwires with
  | whole hflags hcarries =>
      rw [List.flatten_cons, List.flatten_nil, List.append_nil] at hc
      exact recvFrame_whole envs hflags hcarries hc (henvs.steady env (by simp))
  | cut S chunks haudio hcount hjoin hcarries =>
      obtain ⟨c', hrun, hc'⟩ := recvFrame_cut hcount (hjoin ▸ hpayload) hcarries hc henvs
      subst haudio
      exact ⟨_, c', hrun, ⟨hjoin, hasFlag_zero _, hasFlag_zero _, hasFlag_zero _⟩, hc'⟩

/-! ### Whole conversations -/

/-- All sends, one behind the other. -/
theorem sendAll_steady (hz : lib.ZstdRoundTrip) :
    ∀ (ops : List (SendOp × List SendEnv)) (c : Client), c.ws = none → c.fd.isSome →
      (∀ op ∈ ops, op.1.Valid proto ∧ SteadySends op.1.frames op.2) →
      ∃ wires c', List.Forall₂ (fun op ws => ws.length = op.1.frames ∧
          Transmission lib c.sessionKey (op.1.payload proto) op.1.isAudio ws) ops wires ∧
        exec (sendAll lib proto ops) c = some (.ok (), c') ∧ Sent c wires.flatten.flatten c' := by
  intro ops
  induction ops with
  | nil =>
      intro c hws hfd _
      exact ⟨[], c, .nil, rfl, by simp, rfl, hws, hfd⟩
  | cons op ops ih =>
      intro c hws hfd hops
      obtain ⟨op, senvs⟩ := op
      obtain ⟨hvalid, hsteady⟩ := hops (op, senvs) (by simp)
      obtain ⟨ws, c₁, htrans, hlen, hrun, hsent⟩ := perform_steady hz hvalid hws hfd hsteady
      obtain ⟨wires, c₂, hwires, hrest, hsent'⟩ := ih c₁ hsent.ws_eq hsent.fd_open
        (fun o ho => hops o (List.mem_cons_of_mem _ ho))
      rw [hsent.key_eq] at hwires
      refine ⟨ws :: wires, c₂, .cons ⟨hlen, htrans⟩ hwires, ?_, ?_⟩
      · rw [sendAll, exec_bind_ok hrun, hrest]
      · simpa using hsent.trans hsent'

/-- All receives, one behind the other. -/
theorem recvAll_steady {key : Option Block32} {rest : Bytes} :
    ∀ (ops : List (SendOp × List SendEnv)) (wires : List (List Bytes))
      (calls : List (List FrameEnv)) (c : Client),
      (∀ op ∈ ops, op.1.Valid proto) →
      List.Forall₂ (fun op ws => ws.length = op.1.frames ∧
        Transmission lib key (op.1.payload proto) op.1.isAudio ws) ops wires →
      List.Forall₂ (fun op envs => SteadyCall op.1.frames envs) ops calls →
      Listening key (wires.flatten.flatten ++ rest) ∅ c →
      ∃ results c', exec (recvAll lib calls) c = some (.ok results, c') ∧
        List.Forall₂ (fun op r => Received (op.1.payload proto) op.1.isAudio r) ops results ∧
        Listening key rest ∅ c' := by
  intro ops
  induction ops with
  | nil =>
      intro wires calls c _ hwires hcalls hc
      obtain rfl := List.forall₂_nil_left_iff.mp hwires
      obtain rfl := List.forall₂_nil_left_iff.mp hcalls
      exact ⟨[], c, rfl, .nil, by simpa using hc⟩
  | cons op ops ih =>
      intro wires calls c hvalid hwires hcalls hc
      obtain ⟨ws, wires, ⟨hlen, htrans⟩, hwires', rfl⟩ := List.forall₂_cons_left_iff.mp hwires
      obtain ⟨envs, calls, hcall, hcalls', rfl⟩ := List.forall₂_cons_left_iff.mp hcalls
      rw [List.flatten_cons, List.flatten_append, List.append_assoc] at hc
      obtain ⟨r, c₁, hrun, hreceived, hc₁⟩ :=
        recvFrame_steady (hvalid op (by simp)).1 htrans hc (hlen ▸ hcall)
      obtain ⟨results, c₂, hrest, hresults, hc₂⟩ :=
        ih wires calls c₁ (fun o ho => hvalid o (List.mem_cons_of_mem _ ho)) hwires' hcalls' hc₁
      refine ⟨r :: results, c₂, ?_, .cons hreceived hresults, hc₂⟩
      rw [recvAll, exec_bind_ok hrun, exec_bind_ok hrest]
      rfl

end Client

open Client in
/-- **End-to-end delivery.**  The sends succeed and put `wire` on the stream.
A client with the same key, an empty table and `wire` ahead of it returns the
payloads from as many `recv_frame` calls, each once and in order, whatever the
transfers; only those of `send_raw_audio` come back as raw binary, none as
compressed or fragmented, and the bytes behind are left on the stream. -/
theorem end_to_end_delivery (lib : WireLibs) (proto : ProtoLib) (hz : lib.ZstdRoundTrip)
    (sender : Client) (ops : List (SendOp × List SendEnv))
    (hsender : sender.ws = none ∧ sender.fd.isSome)
    (hops : ∀ op ∈ ops, op.1.Valid proto ∧ SteadySends op.1.frames op.2) :
    ∃ wire sender', exec (sendAll lib proto ops) sender = some (.ok (), sender') ∧
      sender'.outbound = sender.outbound ++ wire ∧
      ∀ (receiver : Client) (rest : Bytes) (calls : List (List FrameEnv)),
        receiver.ws = none → receiver.fd.isSome → receiver.sessionKey = sender.sessionKey →
        receiver.reassembly = ∅ → receiver.inbound = wire ++ rest →
        List.Forall₂ (fun op envs => SteadyCall op.1.frames envs) ops calls →
        ∃ results receiver', exec (recvAll lib calls) receiver = some (.ok results, receiver') ∧
          List.Forall₂ (fun op r => Received (op.1.payload proto) op.1.isAudio r) ops results ∧
          receiver'.inbound = rest ∧ receiver'.reassembly = ∅ := by
  obtain ⟨wires, sender', hwires, hsend, hsent⟩ :=
    sendAll_steady hz ops sender hsender.1 hsender.2 hops
  refine ⟨wires.flatten.flatten, sender', hsend, hsent.outbound_eq, ?_⟩
  intro receiver rest calls hws hfd hkey hempty hinbound hcalls
  obtain ⟨results, receiver', hrecv, hresults, hlistening⟩ :=
    recvAll_steady ops wires calls receiver (fun op hop => (hops op hop).1) hwires hcalls
      ⟨hkey, hws, hfd, hinbound, hempty⟩
  exact ⟨results, receiver', hrecv, hresults, hlistening.inbound_eq, hlistening.table_eq⟩

/-- Protobuf on the default envelope, which is encoded in no bytes. -/
def emptyProto : ProtoLib where
  serialize _ := []
  parse _ := some {}

/-- A stream that moves one byte at a time, each read interrupted once. -/
def slowFrameEnv : FrameEnv where
  waits := []
  waitEnd := 0
  firstReads := [.eintr, .data 0]
  start := 0
  ticks := List.replicate Client.maxFrameSize ⟨1, .ready, .data 0⟩
  message := .ok []
  absorbNow := 2
  absorbSeen := 2

def slowSendEnv : SendEnv where
  writes := .eintr :: List.replicate Client.maxFrameSize (.wrote 0)

/-- One byte a read, in time, is a steady read. -/
theorem slowFrameEnv_steady : Steady frameReadTimeoutMs Client.maxFrameSize slowFrameEnv := by
  refine ⟨⟨by decide, by decide⟩, ?_, ?_, ?_⟩
  · intro tick htick
    rw [(List.mem_replicate.mp htick).2]
    decide
  · intro tick htick
    rw [(List.mem_replicate.mp htick).2]
    exact Or.inr ⟨rfl, Or.inr rfl⟩
  · rw [slowFrameEnv, List.countP_replicate, if_pos (by decide)]

/-- One byte a write is a steady write. -/
theorem slowSendEnv_steady : SteadyWrites Client.maxFrameSize slowSendEnv.writes := by
  constructor
  · intro write hwrite
    rcases List.mem_cons.mp hwrite with rfl | hwrite
    · exact Or.inl rfl
    · rw [(List.mem_replicate.mp hwrite).2]
      exact Or.inr rfl
  · rw [slowSendEnv, List.countP_cons_of_neg (by decide), List.countP_replicate, if_pos (by decide)]

/-- A secured conversation: an envelope, three bytes in fragments of two, raw
audio and 64 KiB that are compressed, over a stream that moves one byte at a
time. -/
theorem end_to_end_delivery_three :
    ∃ wire results receiver',
      exec (Client.recvAll runLibs
          [[slowFrameEnv], [slowFrameEnv, slowFrameEnv], [slowFrameEnv], [slowFrameEnv]])
        { fd := some { inbound := wire }, sessionKey := some sampleKey } =
          some (.ok results, receiver') ∧
      results.map FrameResult.payload = [[], [1, 2, 3], [9], List.replicate 65536 0] ∧
      results.map (fun r => hasFlag r.flags flagRawBinary) = [false, false, true, false] ∧
      wirePayload runLibs flagMacPresent (List.replicate 65536 0) =
        .ok (flagMacPresent ||| flagCompressed, 0x52 :: 0 :: toBe 4 65536) := by
  let ops : List (Client.SendOp × List SendEnv) :=
    [(.send (ascii "kernel") {}, [slowSendEnv]),
      (.sendFragmented (ascii "kernel") [1, 2, 3] 2, [slowSendEnv, slowSendEnv]),
      (.sendRawAudio (ascii "peer") [9], [slowSendEnv]),
      (.sendRaw (ascii "peer") (List.replicate 65536 0), [slowSendEnv])]
  have hsends : ∀ n senvs, n ≤ senvs.length → (∀ senv ∈ senvs, senv = slowSendEnv) →
      Client.SteadySends n senvs :=
    fun n senvs hn hall => ⟨hn, fun senv hsenv => hall senv hsenv ▸ slowSendEnv_steady⟩
  have hlarge : (List.replicate 65536 (0 : UInt8)).length ≤ maxPayloadSize := by
    rw [List.length_replicate]
    decide
  obtain ⟨wire, sender', _, _, hreceive⟩ := end_to_end_delivery runLibs emptyProto
    runLibs_roundTrip { fd := some {}, sessionKey := some sampleKey } ops ⟨rfl, rfl⟩ (by
      simp only [ops, List.forall_mem_cons]
      exact ⟨⟨⟨by decide, trivial⟩, hsends _ _ (by decide) (by simp)⟩,
        ⟨⟨by decide, by decide, by decide, by decide⟩, hsends _ _ (by decide) (by simp)⟩,
        ⟨⟨by decide, trivial⟩, hsends _ _ (by decide) (by simp)⟩,
        ⟨⟨hlarge, trivial⟩, hsends _ _ (by decide) (by simp)⟩, by simp⟩)
  have hcall : ∀ n envs, n ≤ envs.length → (∀ env ∈ envs, env = slowFrameEnv) →
      Client.SteadyCall n envs := by
    intro n envs hn hall
    refine ⟨hn, fun env henv => hall env henv ▸ slowFrameEnv_steady, ?_⟩
    intro first hfirst env henv
    rw [hall first (List.mem_of_mem_head? hfirst), hall env (List.mem_of_mem_tail henv)]
    decide
  obtain ⟨results, receiver', hrun, hresults, _⟩ := hreceive
    { fd := some { inbound := wire }, sessionKey := some sampleKey } []
    [[slowFrameEnv], [slowFrameEnv, slowFrameEnv], [slowFrameEnv], [slowFrameEnv]] rfl rfl rfl rfl
    (by simp [Client.inbound])
    (.cons (hcall _ _ (by decide) (by simp)) (.cons (hcall _ _ (by decide) (by simp))
      (.cons (hcall _ _ (by decide) (by simp)) (.cons (hcall _ _ (by decide) (by simp)) .nil))))
  obtain ⟨r₁, _, h₁, htwo, rfl⟩ := List.forall₂_cons_left_iff.mp hresults
  obtain ⟨r₂, _, h₂, hone, rfl⟩ := List.forall₂_cons_left_iff.mp htwo
  obtain ⟨r₃, _, h₃, hlast, rfl⟩ := List.forall₂_cons_left_iff.mp hone
  obtain ⟨r₄, _, h₄, hnone, rfl⟩ := List.forall₂_cons_left_iff.mp hlast
  obtain rfl := List.forall₂_nil_left_iff.mp hnone
  refine ⟨wire, _, receiver', hrun, ?_, ?_, wirePayload_run 0 (by decide) (by decide) rfl rfl⟩
  · simp only [List.map_cons, List.map_nil, h₁.payload_eq, h₂.payload_eq, h₃.payload_eq,
      h₄.payload_eq]
    rfl
  · simp only [List.map_cons, List.map_nil, h₁.raw_iff, h₂.raw_iff, h₃.raw_iff, h₄.raw_iff]
    rfl

end Vynkor
