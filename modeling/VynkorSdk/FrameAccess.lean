import VynkorSdk.StreamIo
import VynkorSdk.WsDecoder

/-!
# The frame reader, access by access

`parse_frame_bytes`, `parse_frag_header` and the loops that fill the buffer they
read from, at the level of their memory accesses: the bytes of a header are
fetched by their index, `read(2)` stores into a buffer of a size fixed before,
and an access outside a buffer traps.  Sizes are the source's 32-bit and 64-bit
words.  Whatever is on the stream, however it arrives, nothing traps, and the
reader is the one of the modules before, which appends what it reads.
-/

namespace Vynkor

open ByteCodec Procedure

/-! ### Parsing -/

section Parsing

variable (lib : WireLibs)

/-- `FRAME_HEADER_SIZE + length + (has_mac ? MAC_TAG_LEN : 0)`. -/
def checkedTotal (length : UInt32) (hasMac : Bool) : UInt64 :=
  UInt64.ofNat frameHeaderSize + length.toUInt64 + if hasMac then UInt64.ofNat macTagLen else 0

/-- The header the tag covers, flags and payload without compression. -/
def checkedNormalize (buf : Bytes) (flags : UInt16) (payload : Bytes) :
    Except Trap (UInt16 × Bytes × RawHeader) := do
  let effectiveHeader ← fetchRange buf 0 frameHeaderSize
  if hasFlag flags flagCompressed then do
    let plain ← (zstdDecompressBounded lib payload).mapError .thrown
    let target ← fetchRange buf 8 32
    let flags := flags &&& ~~~flagCompressed
    return (flags, plain, buildHeader flags (fillArray 32 target) plain)
  else
    return (flags, payload, fillArray 44 effectiveHeader)

/-- The end of `parse_frame_bytes`, with the payload verified. -/
def checkedMac (buf : Bytes) (sessionKey : Option Block32) (length : UInt32) (hasMac : Bool)
    (flags : UInt16) (payload : Bytes) (header : RawHeader) : Except Trap (FrameResult × Nat) :=
  let total := (checkedTotal length hasMac).toNat
  if hasMac then do
    let mac ← fetchRange buf (UInt64.ofNat frameHeaderSize + length.toUInt64).toNat macTagLen
    let result : FrameResult :=
      { payload := payload, flags := flags, hasMac := true, mac := fillArray 32 mac,
        rawHeader := header }
    match sessionKey with
    | none => return (result, total)
    | some key =>
        if verifyTag lib key header.val payload result.mac.val then
          return (result, total)
        else
          .error (.thrown (.internal (ascii "frame MAC verification failed")))
  else
    match sessionKey with
    | none => return ({ payload := payload, flags := flags, rawHeader := header }, total)
    | some _ => .error (.thrown (.internal (ascii "frame MAC verification failed")))

/-- The middle of `parse_frame_bytes`, with the fields of the header known. -/
def checkedBody (buf : Bytes) (sessionKey : Option Block32) (flags : UInt16) (length : UInt32) :
    Except Trap (FrameResult × Nat) :=
  let hasMac := hasFlag flags flagMacPresent
  if buf.length < (checkedTotal length hasMac).toNat then
    .error (.thrown (.io (ascii "frame truncated")))
  else do
    let expectedCrc ← fetchRange buf 40 4
    let wire ← fetchRange buf frameHeaderSize length.toNat
    if vynkorCrc32 wire ≠ word32 expectedCrc then
      .error (.thrown .frameCrcMismatch)
    else do
      let (flags, payload, header) ← checkedNormalize lib buf flags wire
      checkedMac lib buf sessionKey length hasMac flags payload header

/-- `parse_frame_bytes`. -/
def parseFrameChecked (buf : Bytes) (sessionKey : Option Block32) :
    Except Trap (FrameResult × Nat) :=
  if buf.length < frameHeaderSize then
    .error (.thrown (.io (ascii "frame shorter than header")))
  else do
    let magic ← fetchRange buf 0 2
    if word16 magic ≠ frameMagic then
      .error (.thrown .frameMagicMismatch)
    else do
      let flags ← fetchRange buf 2 2
      let length ← fetchRange buf 4 4
      if (word32 length).toNat > maxPayloadSize then
        .error (.thrown (.payloadTooLarge (word32 length).toNat))
      else
        checkedBody lib buf sessionKey (word16 flags) (word32 length)

/-- `parse_frag_header`, and the chunk `absorb_fragment` copies from behind the
header. -/
def fragmentChecked (payload : Bytes) : Except Trap (Option (FragmentHeader × Bytes)) :=
  if payload.length < fragHeaderSize then
    return none
  else do
    let fragmentId ← fetchRange payload 0 2
    let sequence ← fetchRange payload 2 2
    let total ← fetchRange payload 4 2
    let streamId ← fetchRange payload 6 4
    let chunk ← fetchRange payload fragHeaderSize (payload.length - fragHeaderSize)
    return some ({ fragmentId := word16 fragmentId, sequence := word16 sequence,
                   total := word16 total, streamId := word32 streamId }, chunk)

end Parsing

variable {lib : WireLibs}

/-- A word of four bytes is the number they stand for. -/
theorem word32_toNat {bs : Bytes} (h : bs.length = 4) : (word32 bs).toNat = ofBe bs := by
  have hlt := ofBe_lt bs
  rw [h] at hlt
  rw [word32, UInt32.toNat_ofNat_of_lt' hlt]

/-- The word at the length field is the length field. -/
theorem toNat_lengthWord {buf : Bytes} (h : 8 ≤ buf.length) :
    (word32 (slice buf 4 4)).toNat = lengthField buf :=
  word32_toNat (slice_length h)

/-- No sum of sizes wraps around. -/
theorem macOffset_toNat {buf : Bytes} (h : 8 ≤ buf.length)
    (hlength : ¬ lengthField buf > maxPayloadSize) :
    (UInt64.ofNat frameHeaderSize + (word32 (slice buf 4 4)).toUInt64).toNat =
      frameHeaderSize + lengthField buf := by
  simp only [maxPayloadSize] at hlength
  rw [UInt64.toNat_add, UInt32.toNat_toUInt64, toNat_lengthWord h]
  simp only [frameHeaderSize, UInt64.toNat_ofNat']
  omega

/-- The checked total is the frame's extent: nothing wraps. -/
theorem checkedTotal_toNat {buf : Bytes} (h : 8 ≤ buf.length)
    (hlength : ¬ lengthField buf > maxPayloadSize) :
    (checkedTotal (word32 (slice buf 4 4)) (hasFlag (flagsField buf) flagMacPresent)).toNat =
      frameExtent buf := by
  rw [checkedTotal, frameExtent, UInt64.toNat_add, macOffset_toNat h hlength]
  simp only [maxPayloadSize] at hlength
  cases hasFlag (flagsField buf) flagMacPresent with
  | false =>
      simp only [Bool.false_eq_true, if_false, UInt64.toNat_zero, frameHeaderSize]
      omega
  | true =>
      simp only [if_true, macTagLen, UInt64.toNat_ofNat', frameHeaderSize]
      omega

/-- Copying an array from its first bytes is copying it from more. -/
theorem fillArray_slice {buf : Bytes} {off n : Nat} (h : off + n ≤ buf.length) :
    fillArray n (slice buf off n) = fillArray n (buf.drop off) := by
  apply Subtype.ext
  rw [fillArray_val (by rw [slice_length h]), fillArray_val (by rw [List.length_drop]; omega),
    slice, List.take_take, Nat.min_self]

/-- A computation that goes on with its result. -/
theorem ok_bind {α β : Type} (a : α) (f : α → Except Trap β) : (Except.ok a >>= f) = f a := rfl

/-- The checked normalization reads no byte outside the header. -/
theorem checkedNormalize_eq {buf : Bytes} (h : frameHeaderSize ≤ buf.length) (payload : Bytes) :
    checkedNormalize lib buf (flagsField buf) payload =
      (normalizeFrame lib buf payload).mapError Trap.thrown := by
  have htarget : fillArray 32 (slice buf 8 32) = targetField buf :=
    fillArray_slice (by simp only [frameHeaderSize] at h; omega)
  have hheader : fillArray 44 (slice buf 0 frameHeaderSize) = fillArray 44 buf :=
    fillArray_slice (by simp only [frameHeaderSize] at h; omega)
  rw [checkedNormalize, normalizeFrame, fetchRange_eq (by simpa using h), ok_bind, hheader,
    fetchRange_eq (by simp only [frameHeaderSize] at h; omega)]
  by_cases hcompressed : hasFlag (flagsField buf) flagCompressed = true
  · rw [if_pos hcompressed, if_pos hcompressed]
    cases zstdDecompressBounded lib payload with
    | error e => rfl
    | ok plain =>
        rw [← htarget]
        rfl
  · rw [if_neg hcompressed, if_neg hcompressed]
    rfl

/-- **The parser stays inside its buffer**, and is the parser. -/
theorem parseFrameChecked_eq (buf : Bytes) (sessionKey : Option Block32) :
    parseFrameChecked lib buf sessionKey =
      (parseFrameBytes lib buf sessionKey).mapError Trap.thrown := by
  rw [parseFrameChecked, parseFrameBytes]
  by_cases hshort : buf.length < frameHeaderSize
  · rw [if_pos hshort, if_pos hshort]
    rfl
  have hheader : 44 ≤ buf.length := Nat.le_of_not_lt hshort
  rw [if_neg hshort, if_neg hshort, fetchRange_eq (by omega), ok_bind,
    show word16 (slice buf 0 2) = magicField buf from rfl]
  by_cases hmagic : magicField buf ≠ frameMagic
  · rw [if_pos hmagic, if_pos hmagic]
    rfl
  rw [if_neg hmagic, if_neg hmagic, fetchRange_eq (by omega), ok_bind, fetchRange_eq (by omega),
    ok_bind, toNat_lengthWord (by omega)]
  by_cases hlarge : lengthField buf > maxPayloadSize
  · rw [if_pos hlarge, if_pos hlarge]
    rfl
  rw [if_neg hlarge, if_neg hlarge, checkedBody]
  have htotal := checkedTotal_toNat (by omega) hlarge
  rw [show word16 (slice buf 2 2) = flagsField buf from rfl]
  dsimp only
  rw [htotal]
  by_cases htruncated : buf.length < frameExtent buf
  · rw [if_pos htruncated, if_pos htruncated]
    rfl
  have hextent : frameHeaderSize + lengthField buf ≤ buf.length :=
    (Nat.le_add_right _ _).trans (Nat.le_of_not_lt htruncated)
  rw [if_neg htruncated, if_neg htruncated, fetchRange_eq (by omega), ok_bind,
    toNat_lengthWord (by omega), fetchRange_eq hextent, ok_bind,
    show word32 (slice buf 40 4) = crcField buf from rfl]
  by_cases hcrc : vynkorCrc32 (slice buf frameHeaderSize (lengthField buf)) ≠ crcField buf
  · rw [if_pos hcrc, if_pos hcrc]
    rfl
  rw [if_neg hcrc, if_neg hcrc, checkedNormalize_eq hheader]
  cases normalizeFrame lib buf (slice buf frameHeaderSize (lengthField buf)) with
  | error e => rfl
  | ok normal =>
      obtain ⟨flags, payload, header⟩ := normal
      show checkedMac lib buf sessionKey _ _ flags payload header = _
      unfold checkedMac
      dsimp only
      rw [htotal]
      by_cases hmac : hasFlag (flagsField buf) flagMacPresent = true
      · have hinside : frameHeaderSize + lengthField buf + macTagLen ≤ buf.length := by
          rw [frameExtent, if_pos hmac] at htruncated
          omega
        rw [if_pos hmac, if_pos hmac, macOffset_toNat (by omega) hlarge,
          fetchRange_eq hinside, ok_bind, show macTagLen = 32 from rfl,
          fillArray_slice (n := 32) hinside]
        cases sessionKey with
        | none => rfl
        | some key =>
            dsimp only
            split <;> rfl
      · rw [if_neg hmac, if_neg hmac]
        cases sessionKey <;> rfl

/-- The fragment header and the chunk behind it are inside the payload. -/
theorem fragmentChecked_eq (payload : Bytes) :
    fragmentChecked payload =
      .ok ((parseFragHeader payload).map (fun hdr => (hdr, payload.drop fragHeaderSize))) := by
  rw [fragmentChecked, parseFragHeader]
  by_cases hshort : payload.length < fragHeaderSize
  · rw [if_pos hshort, if_pos hshort]
    rfl
  · have hheader : 10 ≤ payload.length := Nat.le_of_not_lt hshort
    have hchunk : slice payload fragHeaderSize (payload.length - fragHeaderSize) =
        payload.drop fragHeaderSize := by
      rw [slice, List.take_of_length_le (by rw [List.length_drop])]
    rw [if_neg hshort, if_neg hshort, fetchRange_eq (by omega), ok_bind,
      fetchRange_eq (by omega), ok_bind, fetchRange_eq (by omega), ok_bind,
      fetchRange_eq (by omega), ok_bind, fetchRange_eq (by simp only [fragHeaderSize]; omega),
      ok_bind, hchunk]
    rfl

/-! ### Filling the buffer -/

/-- What `read(2)` stores from position `off` on. -/
def storeRange (buf : Bytes) (off : Nat) (bytes : Bytes) : Except Trap Bytes :=
  if off + bytes.length ≤ buf.length then
    .ok (buf.take off ++ bytes ++ buf.drop (off + bytes.length))
  else
    .error (.outOfBounds (max off buf.length))

/-- `recv_exact(fd, buf.data() + off, n)`, with `total` bytes stored so far. -/
def recvExactInto (off n : Nat) : List ReadResult → Bytes → Nat → Proc Trap Bytes Bytes
  | [], buf, total => if total < n then waiting else pure buf
  | read :: reads, buf, total =>
      if total < n then
        match read with
        | .eintr => recvExactInto off n reads buf total
        | .failed => throw (.thrown (.io (ascii "connection closed or recv error")))
        | .closed => throw (.thrown (.io (ascii "connection closed or recv error")))
        | .data k => do
            let bytes ← raising .thrown (readSome k (n - total))
            let buf ← settle (storeRange buf (off + total) bytes)
            recvExactInto off n reads buf (total + bytes.length)
      else
        pure buf

/-- `recv_exact_deadline(fd, buf.data() + off, n, deadline)`. -/
def recvExactDeadlineInto (deadline : Int) (off n : Nat) :
    List Tick → Bytes → Nat → Proc Trap Bytes (Bytes × List Tick)
  | [], buf, total => if total < n then waiting else pure (buf, [])
  | tick :: ticks, buf, total =>
      if total < n then
        if tick.now ≥ deadline then
          throw (.thrown .frameReadTimeout)
        else
          match tick.poll with
          | .eintr => recvExactDeadlineInto deadline off n ticks buf total
          | .failed => throw (.thrown (.io (ascii "poll failed during frame read")))
          | .timeout => throw (.thrown .frameReadTimeout)
          | .ready =>
              match tick.read with
              | .eintr => recvExactDeadlineInto deadline off n ticks buf total
              | .failed => throw (.thrown (.io (ascii "connection closed or recv error")))
              | .closed => throw (.thrown (.io (ascii "connection closed or recv error")))
              | .data k => do
                  let bytes ← raising .thrown (readSome k (n - total))
                  let buf ← settle (storeRange buf (off + total) bytes)
                  recvExactDeadlineInto deadline off n ticks buf (total + bytes.length)
      else
        pure (buf, tick :: ticks)

/-- `read_frame_full_with_timeout` on its buffer. -/
def readFrameChecked (lib : WireLibs) (key : Option Block32) (frameTimeoutMs : Int)
    (env : FrameEnv) : Proc Trap Bytes FrameResult := do
  let buf ← recvExactInto 0 1 env.firstReads (List.replicate frameHeaderSize 0) 0
  let deadline := env.start + frameTimeoutMs * millisecond
  let (buf, ticks) ← recvExactDeadlineInto deadline 1 (frameHeaderSize - 1) env.ticks buf 0
  let flags ← settle (fetchRange buf 2 2)
  let length ← settle (fetchRange buf 4 4)
  if (word32 length).toNat > maxPayloadSize then
    throw (.thrown (.payloadTooLarge (word32 length).toNat))
  else do
    let rest := (word32 length).toNat +
      if hasFlag (word16 flags) flagMacPresent then macTagLen else 0
    if rest > 0 then do
      let oldSize := buf.length
      let (buf, _) ← recvExactDeadlineInto deadline oldSize rest ticks
        (buf ++ List.replicate rest 0) 0
      let (result, _) ← settle (parseFrameChecked lib buf key)
      return result
    else do
      let (result, _) ← settle (parseFrameChecked lib buf key)
      return result

/-- What the buffer holds where the reader of the modules before has `got`:
behind it, what was there before. -/
theorem storeRange_front {buf : Bytes} (off : Nat) (bytes : Bytes) {n : Nat}
    (h : off + bytes.length ≤ n) (hn : n ≤ buf.length) :
    ∃ buf', storeRange buf off bytes = .ok buf' ∧ buf'.length = buf.length ∧
      buf'.take (off + bytes.length) = buf.take off ++ bytes ∧ buf'.drop n = buf.drop n := by
  refine ⟨_, if_pos (h.trans hn), ?_, ?_, ?_⟩
  · simp only [List.length_append, List.length_take, List.length_drop]
    omega
  · rw [List.take_left']
    rw [List.length_append, List.length_take]
    omega
  · rw [List.drop_append, List.drop_eq_nil_of_le (by
      rw [List.length_append, List.length_take]; omega), List.nil_append, List.drop_drop]
    congr 1
    rw [List.length_append, List.length_take]
    omega

/-- One `read` waits or brings at most as many bytes as asked for. -/
theorem readSome_cases (k need : Nat) (inbound : Bytes) :
    exec (readSome k need) inbound = none ∨
      ∃ bytes rest, exec (readSome k need) inbound = some (.ok bytes, rest) ∧
        bytes.length ≤ need := by
  unfold readSome
  rw [exec_bind_ok (exec_get _)]
  dsimp only
  split
  · exact Or.inl rfl
  · refine Or.inr ⟨_, _, rfl, ?_⟩
    rw [List.length_take]
    omega

/-- An answer passes the translation of errors unchanged. -/
theorem exec_raising_ok {ε ε' σ α : Type} {f : ε → ε'} {p : Proc ε σ α} {s s' : σ} {a : α}
    (h : exec p s = some (.ok a, s')) : exec (raising f p) s = some (.ok a, s') := by
  rw [exec_raising, h]
  rfl

/-- **One read into the buffer**: if what follows goes as it does behind the
appended bytes, so does the whole.  `seen` is what the outcome of the appending
reader is where the buffer ends in the bytes it is given. -/
theorem exec_readInto {α β : Type} {next : Bytes → Nat → Proc Trap Bytes α}
    {plain : Nat → Bytes → Proc Exn Bytes β} (seen : Bytes → Except Exn β → Except Trap α)
    {off n total need : Nat} {buf : Bytes} (hneed : n - total = need + 1)
    (hbuf : off + n ≤ buf.length)
    (hnext : ∀ (buf' : Bytes) (total' : Nat) (rest : Bytes), total' ≤ n → off + n ≤ buf'.length →
      exec (next buf' total') rest =
        (exec (plain (n - total') (buf'.take (off + total'))) rest).map
          (fun (r, left) => (seen (buf'.drop (off + n)) r, left))) (k : Nat) (inbound : Bytes) :
    exec (do
        let bytes ← raising .thrown (readSome k (need + 1))
        let buf ← settle (storeRange buf (off + total) bytes)
        next buf (total + bytes.length)) inbound =
      (exec (do
          let bytes ← readSome k (need + 1)
          plain (need + 1 - bytes.length) (buf.take (off + total) ++ bytes)) inbound).map
        (fun (r, left) => (seen (buf.drop (off + n)) r, left)) := by
  rcases readSome_cases k (need + 1) inbound with hnone | ⟨bytes, rest, hread, hle⟩
  · rw [exec_bind, exec_bind, exec_raising, hnone]
    rfl
  · rw [exec_bind_ok (exec_raising_ok hread), exec_bind_ok hread]
    obtain ⟨buf', hstore, hlength, htake, hdrop⟩ :=
      storeRange_front (off + total) bytes (n := off + n) (by omega) hbuf
    rw [hstore, exec_bind_ok (exec_settle _ _), hnext buf' _ rest (by omega) (by omega),
      ← Nat.add_assoc, htake, hdrop, ← Nat.sub_sub, hneed]

/-- **`recv_exact` on the buffer** is `recv_exact` on what it has read. -/
theorem exec_recvExactInto (off n : Nat) :
    ∀ (reads : List ReadResult) (buf : Bytes) (total : Nat) (inbound : Bytes), total ≤ n →
      off + n ≤ buf.length →
      exec (recvExactInto off n reads buf total) inbound =
        (exec (recvExact reads (n - total) (buf.take (off + total))) inbound).map
          (fun (r, left) => ((r.mapError Trap.thrown).map (· ++ buf.drop (off + n)), left)) := by
  intro reads
  induction reads with
  | nil =>
      intro buf total inbound htotal hbuf
      unfold recvExactInto
      by_cases hmore : total < n
      · obtain ⟨need, hneed⟩ : ∃ need, n - total = need + 1 := ⟨n - total - 1, by omega⟩
        rw [if_pos hmore, hneed]
        rfl
      · obtain rfl : total = n := by omega
        rw [if_neg hmore, Nat.sub_self]
        simp [recvExact, Except.map, Except.mapError]
  | cons read reads ih =>
      intro buf total inbound htotal hbuf
      unfold recvExactInto
      by_cases hmore : total < n
      · obtain ⟨need, hneed⟩ : ∃ need, n - total = need + 1 := ⟨n - total - 1, by omega⟩
        rw [if_pos hmore, hneed]
        cases read with
        | eintr =>
            rw [recvExact, ← hneed]
            exact ih buf total inbound htotal hbuf
        | failed => rfl
        | closed => rfl
        | data k =>
            exact exec_readInto (fun back r => (r.mapError Trap.thrown).map (· ++ back)) hneed hbuf
              ih k inbound
      · obtain rfl : total = n := by omega
        rw [if_neg hmore, Nat.sub_self]
        simp [recvExact, Except.map, Except.mapError]

/-- `recv_exact_deadline`, likewise. -/
theorem exec_recvExactDeadlineInto {deadline : Int} {off n : Nat} :
    ∀ (ticks : List Tick) (buf : Bytes) (total : Nat) (inbound : Bytes), total ≤ n →
      off + n ≤ buf.length →
      exec (recvExactDeadlineInto deadline off n ticks buf total) inbound =
        (exec (recvExactDeadline deadline ticks (n - total) (buf.take (off + total))) inbound).map
          (fun (r, left) => ((r.mapError Trap.thrown).map
            (fun (got, ticks) => (got ++ buf.drop (off + n), ticks)), left)) := by
  intro ticks
  induction ticks with
  | nil =>
      intro buf total inbound htotal hbuf
      unfold recvExactDeadlineInto
      by_cases hmore : total < n
      · obtain ⟨need, hneed⟩ : ∃ need, n - total = need + 1 := ⟨n - total - 1, by omega⟩
        rw [if_pos hmore, hneed]
        rfl
      · obtain rfl : total = n := by omega
        rw [if_neg hmore, Nat.sub_self]
        simp [recvExactDeadline, Except.map, Except.mapError]
  | cons tick ticks ih =>
      intro buf total inbound htotal hbuf
      unfold recvExactDeadlineInto
      by_cases hmore : total < n
      · obtain ⟨need, hneed⟩ : ∃ need, n - total = need + 1 := ⟨n - total - 1, by omega⟩
        have hagain := ih buf total inbound htotal hbuf
        rw [hneed] at hagain
        rw [if_pos hmore, hneed, recvExactDeadline]
        by_cases hlate : tick.now ≥ deadline
        · rw [if_pos hlate, if_pos hlate]
          rfl
        rw [if_neg hlate, if_neg hlate]
        cases tick.poll with
        | eintr => exact hagain
        | failed => rfl
        | timeout => rfl
        | ready =>
            cases tick.read with
            | eintr => exact hagain
            | failed => rfl
            | closed => rfl
            | data k =>
                exact exec_readInto (fun back r => (r.mapError Trap.thrown).map
                  (fun out : Bytes × List Tick => (out.1 ++ back, out.2))) hneed hbuf ih k inbound
      · obtain rfl : total = n := by omega
        rw [if_neg hmore, Nat.sub_self]
        simp [recvExactDeadline, Except.map, Except.mapError]

/-- Where the read fills the buffer, it holds what was read and nothing else. -/
theorem exec_recvExactDeadlineInto_full (deadline : Int) (off n : Nat) (ticks : List Tick)
    (buf inbound : Bytes) (hfull : off + n = buf.length) :
    exec (recvExactDeadlineInto deadline off n ticks buf 0) inbound =
      (exec (recvExactDeadline deadline ticks n (buf.take off)) inbound).map
        (fun (r, left) => (r.mapError Trap.thrown, left)) := by
  rw [exec_recvExactDeadlineInto ticks buf 0 inbound (Nat.zero_le n) (Nat.le_of_eq hfull), hfull,
    List.drop_length, Nat.sub_zero, Nat.add_zero]
  congr 1
  funext out
  obtain ⟨e | ⟨got, left⟩, rest⟩ := out
  · rfl
  · simp [Except.mapError, Except.map]

/-- What `recv_exact` returns is as long as it was asked for. -/
theorem recvExact_length :
    ∀ (reads : List ReadResult) (need : Nat) (got : Bytes) (inbound : Bytes),
      Post (recvExact reads need got) inbound
        (fun r _ => ∀ bytes, r = .ok bytes → bytes.length = got.length + need) := by
  intro reads need got inbound
  fun_induction recvExact reads need got generalizing inbound with
  | case1 reads got =>
      refine .pure ?_
      rintro bytes ⟨⟩
      rfl
  | case2 => exact .waiting
  | case3 reads need got ih => exact ih inbound
  | case4 => exact .throw (fun _ h => by cases h)
  | case5 => exact .throw (fun _ h => by cases h)
  | case6 reads need got k ih =>
      refine .bind ?_
      intro r rest hrun
      rcases readSome_cases k (need + 1) inbound with hnone | ⟨bytes, rest', hread, hle⟩
      · rw [hnone] at hrun
        cases hrun
      · rw [hread] at hrun
        cases hrun
        refine (ih bytes rest).mono ?_
        intro r s' hlength out hout
        rw [hlength out hout, List.length_append]
        omega

/-- A read that succeeds has as many bytes as needed. -/
theorem recvExactDeadline_length {deadline : Int} :
    ∀ (ticks : List Tick) (need : Nat) (got : Bytes) (inbound : Bytes),
      Post (recvExactDeadline deadline ticks need got) inbound
        (fun r _ => ∀ bytes left, r = .ok (bytes, left) → bytes.length = got.length + need) := by
  intro ticks need got inbound
  fun_induction recvExactDeadline deadline ticks need got generalizing inbound with
  | case1 ticks got =>
      refine .pure ?_
      rintro bytes left ⟨⟩
      rfl
  | case2 => exact .waiting
  | case3 => exact .throw (fun _ _ h => by cases h)
  | case4 tick ticks need got _ _ ih => exact ih inbound
  | case5 => exact .throw (fun _ _ h => by cases h)
  | case6 => exact .throw (fun _ _ h => by cases h)
  | case7 tick ticks need got _ _ _ ih => exact ih inbound
  | case8 => exact .throw (fun _ _ h => by cases h)
  | case9 => exact .throw (fun _ _ h => by cases h)
  | case10 tick ticks need got _ _ k _ ih =>
      refine .bind ?_
      intro r rest hrun
      rcases readSome_cases k (need + 1) inbound with hnone | ⟨bytes, rest', hread, hle⟩
      · rw [hnone] at hrun
        cases hrun
      · rw [hread] at hrun
        cases hrun
        refine (ih bytes rest).mono ?_
        intro r s' hlength out left hout
        rw [hlength out left hout, List.length_append]
        omega

/-- Parsing in the middle of a read may be replaced by its checked form. -/
theorem exec_settle_parse {lib : WireLibs} (buf : Bytes) (key : Option Block32) (inbound : Bytes) :
    exec (do
        let (result, _) ← settle (parseFrameChecked lib buf key)
        return result : Proc Trap Bytes FrameResult) inbound =
      (exec (do
        let (result, _) ← settle (parseFrameBytes lib buf key)
        return result : Proc Exn Bytes FrameResult) inbound).map
        (fun (r, left) => (r.mapError Trap.thrown, left)) := by
  rw [parseFrameChecked_eq]
  cases parseFrameBytes lib buf key <;> rfl

/-- Behind the header: the payload and the tag come into the grown buffer. -/
theorem exec_readRestChecked {lib : WireLibs} (key : Option Block32) {deadline : Int}
    {ticks : List Tick} {header : Bytes} (hheader : header.length = frameHeaderSize)
    (inbound : Bytes) :
    exec (do
        let flags ← settle (fetchRange header 2 2)
        let length ← settle (fetchRange header 4 4)
        if (word32 length).toNat > maxPayloadSize then
          throw (.thrown (.payloadTooLarge (word32 length).toNat))
        else do
          let rest := (word32 length).toNat +
            if hasFlag (word16 flags) flagMacPresent then macTagLen else 0
          if rest > 0 then do
            let oldSize := header.length
            let (buf, _) ← recvExactDeadlineInto deadline oldSize rest ticks
              (header ++ List.replicate rest 0) 0
            let (result, _) ← settle (parseFrameChecked lib buf key)
            return result
          else do
            let (result, _) ← settle (parseFrameChecked lib header key)
            return result) inbound =
      (exec (do
        let length := lengthField header
        if length > maxPayloadSize then
          throw (.payloadTooLarge length)
        else
          let rest := length + (if hasFlag (flagsField header) flagMacPresent then macTagLen else 0)
          let (buf, _) ← recvExactDeadline deadline ticks rest header
          let (result, _) ← settle (parseFrameBytes lib buf key)
          return result : Proc Exn Bytes FrameResult) inbound).map
        (fun (r, left) => (r.mapError Trap.thrown, left)) := by
  have hlong : 44 ≤ header.length := by simp only [hheader, frameHeaderSize, Nat.le_refl]
  rw [fetchRange_eq (by omega), fetchRange_eq (by omega), exec_bind_ok (exec_settle _ _),
    exec_bind_ok (exec_settle _ _), toNat_lengthWord (by omega),
    show word16 (slice header 2 2) = flagsField header from rfl]
  dsimp only
  by_cases hlarge : lengthField header > maxPayloadSize
  · rw [if_pos hlarge, if_pos hlarge]
    rfl
  rw [if_neg hlarge, if_neg hlarge]
  generalize (lengthField header +
    if hasFlag (flagsField header) flagMacPresent then macTagLen else 0) = rest
  by_cases hrest : rest > 0
  · have hgrown := exec_recvExactDeadlineInto_full deadline header.length rest ticks
      (header ++ List.replicate rest 0) inbound
      (by rw [List.length_append, List.length_replicate])
    rw [List.take_left] at hgrown
    rw [if_pos hrest, exec_bind, exec_bind, hgrown]
    cases exec (recvExactDeadline deadline ticks rest header) inbound with
    | none => rfl
    | some out =>
        obtain ⟨e | ⟨buf, left⟩, s⟩ := out
        · rfl
        · exact exec_settle_parse buf key s
  · obtain rfl : rest = 0 := by omega
    rw [if_neg hrest]
    have hnone : exec (recvExactDeadline deadline ticks 0 header) inbound =
        some (.ok (header, ticks), inbound) := by
      cases ticks <;> rfl
    rw [exec_bind_ok hnone]
    exact exec_settle_parse header key inbound

/-- **The reader on its buffer** is the reader of the modules before. -/
theorem exec_readFrameChecked {lib : WireLibs} (key : Option Block32) (frameTimeoutMs : Int)
    (env : FrameEnv) (inbound : Bytes) :
    exec (readFrameChecked lib key frameTimeoutMs env) inbound =
      (exec (readFrameFullWithTimeout lib key frameTimeoutMs env) inbound).map
        (fun (r, left) => (r.mapError Trap.thrown, left)) := by
  let zeros : Bytes := List.replicate frameHeaderSize 0
  have hzeros : zeros.length = frameHeaderSize := List.length_replicate ..
  have hone := exec_recvExactInto 0 1 env.firstReads zeros 0 inbound (by decide)
    (by rw [hzeros]; decide)
  rw [List.take_zero] at hone
  unfold readFrameChecked readFrameFullWithTimeout
  cases hfirst : exec (recvExact env.firstReads 1 []) inbound with
  | none =>
      rw [hfirst] at hone
      rw [exec_bind, exec_bind, hone, hfirst]
      rfl
  | some out =>
      obtain ⟨e | first, left⟩ := out
      · rw [hfirst] at hone
        rw [exec_bind_error hone, exec_bind_error hfirst]
        rfl
      have hlength : first.length = 1 := recvExact_length _ _ _ _ _ _ hfirst first rfl
      rw [hfirst] at hone
      rw [exec_bind_ok hone, exec_bind_ok hfirst]
      have hheader := exec_recvExactDeadlineInto_full
        (env.start + frameTimeoutMs * millisecond) 1 (frameHeaderSize - 1) env.ticks
        (first ++ zeros.drop 1) left
        (by rw [List.length_append, List.length_drop, hlength, hzeros])
      rw [show (first ++ zeros.drop 1).take 1 = first from List.take_left' hlength] at hheader
      dsimp only [Except.mapError, Except.map]
      rw [exec_bind, exec_bind, hheader]
      cases hread : exec (recvExactDeadline (env.start + frameTimeoutMs * millisecond) env.ticks
          (frameHeaderSize - 1) first) left with
      | none => rfl
      | some out =>
          obtain ⟨e | ⟨header, ticks⟩, left'⟩ := out
          · rfl
          have hsize : header.length = frameHeaderSize := by
            have hlen := recvExactDeadline_length _ _ _ _ _ _ hread header ticks rfl
            rw [hlen, hlength]
            decide
          exact exec_readRestChecked key hsize left'

/-- An exception of the code is no access out of bounds. -/
theorem mapError_thrown_ne_outOfBounds {α : Type} (r : Except Exn α) (i : Nat) :
    r.mapError Trap.thrown ≠ .error (.outOfBounds i) := by
  cases r with
  | error e =>
      intro h
      injection h with h
      cases h
  | ok a =>
      intro h
      cases h

/-- **No access outside a buffer.** Whatever bytes are on the stream and however
they arrive, the reader that stores into its buffer and fetches the header by
index is the reader that appends, and never traps; nor do the parser, on any
buffer, and the fragment header with its chunk, on any payload. -/
theorem frame_reader_stays_in_bounds (lib : WireLibs) (key : Option Block32)
    (frameTimeoutMs : Int) (env : FrameEnv) (inbound buf payload : Bytes) :
    exec (readFrameChecked lib key frameTimeoutMs env) inbound =
        (exec (readFrameFullWithTimeout lib key frameTimeoutMs env) inbound).map
          (fun (r, left) => (r.mapError Trap.thrown, left)) ∧
      (∀ i left, exec (readFrameChecked lib key frameTimeoutMs env) inbound ≠
        some (.error (.outOfBounds i), left)) ∧
      parseFrameChecked lib buf key = (parseFrameBytes lib buf key).mapError Trap.thrown ∧
      (∀ i, parseFrameChecked lib buf key ≠ .error (.outOfBounds i)) ∧
      fragmentChecked payload =
        .ok ((parseFragHeader payload).map (fun hdr => (hdr, payload.drop fragHeaderSize))) := by
  refine ⟨exec_readFrameChecked key frameTimeoutMs env inbound, ?_, parseFrameChecked_eq buf key,
    ?_, fragmentChecked_eq payload⟩
  · intro i left htrap
    rw [exec_readFrameChecked, Option.map_eq_some_iff] at htrap
    obtain ⟨⟨r, left'⟩, -, hout⟩ := htrap
    injection hout with hr
    exact mapError_thrown_ne_outOfBounds r i hr
  · intro i
    rw [parseFrameChecked_eq]
    exact mapError_thrown_ne_outOfBounds _ i

end Vynkor
