import VynkorSdk.PrefixCode
import VynkorSdk.WsAssembly
import VynkorSdk.WsDecoder
import VynkorSdk.WsRoundTrip

/-!
# What a WebSocket connection writes

`send_binary`, the pongs and the close reply inside `receive_binary`, and
`close` all write to one stream.  Whatever the server sends and in whatever
order the calls come, the stream is one whole masked frame behind the other,
the binary ones being the messages and the control frames the answers to the
server's, and only a write that fails leaves a torn frame, behind which nothing
more is promised.  The frames are a prefix code, so the server has one way to
read them.
-/

namespace Vynkor

open ByteCodec Procedure PrefixCode

/-! ### Client frames -/

/-- A frame as the client writes it: final, masked, its length in the shortest
form. -/
structure ClientFrame where
  opcode : UInt8
  mask : FixedBytes 4
  payload : Bytes
  opcode_le : opcode.toNat ≤ 15
  fits : payload.length < 2 ^ 64

namespace ClientFrame

def bytes (f : ClientFrame) : Bytes :=
  (0x80 ||| f.opcode) ::
    (clientLength f.payload.length ++ f.mask.val ++ xorKey f.mask.val f.payload)

/-- What a server takes from the frame. -/
def content (f : ClientFrame) : UInt8 × Bytes := (f.opcode, f.payload)

/-- The length determines itself and where it ends. -/
theorem clientLength_unique {n m : Nat} (hn : n < 2 ^ 64) (hm : m < 2 ^ 64) {r r' : Bytes}
    (h : clientLength n ++ r = clientLength m ++ r') : n = m ∧ r = r' := by
  -- Each form starts with a byte of its own.
  have hinline : ∀ k < 126, (0x80 ||| UInt8.ofNat k) ≠ 0x80 ||| 126 ∧
      (0x80 ||| UInt8.ofNat k) ≠ 0x80 ||| 127 ∧
      ((0x80 ||| UInt8.ofNat k) &&& 0x7F).toNat = k := by decide
  have hextended : ∀ {k : Nat}, n < 256 ^ k → m < 256 ^ k →
      toBe k n ++ r = toBe k m ++ r' → n = m ∧ r = r' := by
    intro k hnk hmk heq
    obtain ⟨hbytes, hrest⟩ := List.append_inj heq (by simp)
    refine ⟨?_, hrest⟩
    rw [← ofBe_toBe hnk, hbytes, ofBe_toBe hmk]
  unfold clientLength at h
  split at h
  · rename_i hn'
    split at h
    · rename_i hm'
      simp only [List.cons_append, List.nil_append, List.cons.injEq] at h
      refine ⟨?_, h.2⟩
      rw [← (hinline n hn').2.2, h.1, (hinline m hm').2.2]
    · split at h
      · exact absurd (List.cons.inj h).1 (hinline n hn').1
      · exact absurd (List.cons.inj h).1 (hinline n hn').2.1
  · rename_i hn'
    split at h
    · rename_i hnw
      split at h
      · rename_i hm'
        exact absurd (List.cons.inj h).1.symm (hinline m hm').1
      · split at h
        · exact hextended (by omega) (by omega) (List.cons.inj h).2
        · exact absurd (List.cons.inj h).1 (by decide)
    · split at h
      · rename_i hm'
        exact absurd (List.cons.inj h).1.symm (hinline m hm').2.1
      · split at h
        · exact absurd (List.cons.inj h).1 (by decide)
        · exact hextended (by omega) (by omega) (List.cons.inj h).2

/-- **Client frames delimit themselves.** -/
theorem isPrefixCode : IsPrefixCode bytes where
  ne_nil f := by simp [bytes]
  unique := by
    rintro ⟨op, mask, payload, hop, hfits⟩ ⟨op', mask', payload', hop', hfits'⟩ r r' h
    simp only [bytes, List.cons_append, List.cons.injEq, List.append_assoc] at h
    obtain ⟨hfirst, hlength⟩ := h
    have hopcode : op = op' := by
      rw [← (first_byte hop).2, hfirst, (first_byte hop').2]
    obtain ⟨hsame, hbody⟩ := clientLength_unique hfits hfits' hlength
    obtain ⟨hmask, hdata⟩ := List.append_inj hbody (by rw [mask.2, mask'.2])
    obtain ⟨hxor, _⟩ := List.append_inj hdata (by simp [xorKey, hsame])
    have hpayload : payload = payload' := by
      rw [← xorKey_xorKey mask.val payload, hxor, hmask, xorKey_xorKey]
    obtain rfl := Subtype.ext hmask
    subst hopcode hpayload
    rfl

end ClientFrame

/-! ### Writes -/

/-- No write of these fails. -/
def WritesGoOn (writes : List WsWrite) : Prop := ∀ detail, WsWrite.failed detail ∉ writes

/-- The frame has this opcode and payload. -/
def ClientFrame.Tells (f : ClientFrame) (content : UInt8 × Bytes) : Prop := f.content = content

namespace WsImpl

/-- More bytes on the stream. -/
def put (bytes : Bytes) (s : WsImpl) : WsImpl := { s with outbound := s.outbound ++ bytes }

/-- What one write is to the loop: made again, a front on the stream, or the end. -/
theorem streamWriteAll_transfers (write : WsWrite) :
    Transfers streamWriteAll put (fun write => ∃ detail, write = .failed detail) write := by
  cases write with
  | again => exact .again (fun _ _ _ _ => rfl)
  | wrote k => exact .on k (fun _ _ _ _ => rfl)
  | failed detail =>
      refine .off ⟨detail, rfl⟩ ?_
      intro writes b frame s
      rw [streamWriteAll, exec_bind_ok (exec_get _)]
      cases s.tls with
      | true => exact ⟨_, rfl⟩
      | false => exact ⟨_, rfl⟩

/-- **One frame written**: all of it, or it is torn and the call throws. -/
theorem streamWriteAll_frame (f : ClientFrame) (writes : List WsWrite) (s : WsImpl) :
    Post (streamWriteAll writes f.bytes) s (fun r s' => s'.ahead = s.ahead ∧
      (r = .ok () ∧ Emitted ClientFrame.bytes ClientFrame.Tells s.outbound s'.outbound
          [f.content] True ∨
        (∃ e, r = .error e) ∧ ¬ WritesGoOn writes ∧
          Emitted ClientFrame.bytes ClientFrame.Tells s.outbound s'.outbound [] False)) := by
  refine (Post.transfers (fun _ _ => by simp [streamWriteAll]) (fun _ _ _ => rfl)
    (fun s => by simp [put]) (fun _ _ _ => by simp [put]) streamWriteAll_transfers writes f.bytes
    s).mono ?_
  rintro r s' ⟨k, hk, rfl, ⟨hr, rfl⟩ | ⟨hr, hlt, write, hmem, detail, rfl⟩⟩
  · refine ⟨rfl, .inl ⟨hr, ?_⟩⟩
    rw [List.take_length]
    exact .one rfl
  · exact ⟨rfl, .inr ⟨hr, fun hgoes => hgoes detail hmem, .broken f hlt id⟩⟩

/-! ### Frames taken off the stream -/

/-- These frames are the front of the stream, and `rest` is behind them. -/
inductive Taken : Bytes → List WsIncomingFrame → Bytes → Prop
  | nil (bytes : Bytes) : Taken bytes [] bytes
  | cons {bytes rest : Bytes} {frame : WsIncomingFrame} {frames : List WsIncomingFrame} {n : Nat}
      (hdecode : wsTryDecodeServerFrame bytes = .ok (some (frame, n)))
      (hrest : Taken (bytes.drop n) frames rest) : Taken bytes (frame :: frames) rest

/-- Frames taken in two stretches. -/
theorem Taken.trans {bytes bytes' rest : Bytes} {frames frames' : List WsIncomingFrame}
    (h : Taken bytes frames bytes') (h' : Taken bytes' frames' rest) :
    Taken bytes (frames ++ frames') rest := by
  induction h with
  | nil => exact h'
  | cons hdecode _ ih => exact .cons hdecode (ih h')

/-- Where no frame is taken, the bytes are the same. -/
theorem Taken.eq_of_nil {bytes rest : Bytes} (h : Taken bytes [] rest) : rest = bytes := by
  cases h
  rfl

/-- What a frame of the server is answered with. -/
def answer (frame : WsIncomingFrame) : Option (UInt8 × Bytes) :=
  if frame.opcode = opPing then some (opPong, frame.payload)
  else if frame.opcode = opClose then some (opClose, frame.payload.take 125)
  else none

/-- Reading writes nothing. -/
theorem streamFill_outbound (deadline : Option Int) (s : WsImpl) :
    ∀ fill : List FillRound,
      Post (streamFill deadline fill) s (fun _ s' => s'.outbound = s.outbound) := by
  intro fill
  induction fill with
  | nil => exact .waiting
  | cons round rounds ih =>
      have hpoll : Post (awaitData deadline round) s (fun _ s' => s' = s) :=
        .get_bind (.ite (fun _ => .pure rfl) (fun _ => pollReadable_keeps deadline s round.waits))
      refine .bind (hpoll.mono ?_)
      rintro (e | u) s' rfl
      · rfl
      refine .get_bind ?_
      cases round.read with
      | again => exact ih
      | closed => exact .throw rfl
      | failed detail => exact .ite (fun _ => .throw rfl) (fun _ => .throw rfl)
      | data k =>
          refine .get_bind (.ite (fun _ => .waiting) (fun _ => ?_))
          intro r s'' hset
          cases hset
          rfl

/-- What a call that looks for a frame leaves: nothing written, and the frame
taken if there is one. -/
def Looked (s : WsImpl) (found : Option WsIncomingFrame) (s' : WsImpl) : Prop :=
  s'.outbound = s.outbound ∧ Taken s.ahead found.toList s'.ahead

/-- A look into the buffer takes at most one frame and writes nothing. -/
theorem bufferedFrame_looked (s : WsImpl) :
    Post bufferedFrame s (fun r s' => Looked s (r.toOption.bind id) s') := by
  unfold bufferedFrame
  refine .get_bind (.bind (.settle ?_))
  cases hdecode : wsTryDecodeServerFrame s.readBuf with
  | error e => exact ⟨rfl, .nil _⟩
  | ok decoded =>
      cases decoded with
      | none =>
          refine .ite (fun _ => .throw ⟨rfl, .nil _⟩) (fun _ => .pure ⟨rfl, .nil _⟩)
      | some found =>
          obtain ⟨frame, consumed⟩ := found
          intro r s' hset
          cases hset
          refine ⟨rfl, .cons (decode_append s.inbound hdecode (by simp)) ?_⟩
          rw [ahead, List.drop_append_of_le_length (decode_some_le hdecode)]
          exact .nil _

/-- The next frame is the one taken; nothing is written. -/
theorem nextFrame_looked (deadline : Option Int) :
    ∀ (fills : List (List FillRound)) (s : WsImpl),
      Post (nextFrame deadline fills) s (fun r s' => Looked s r.toOption s') := by
  intro fills
  induction fills with
  | nil =>
      intro s
      refine .bind ((bufferedFrame_looked s).mono ?_)
      rintro (e | _ | frame) s' hlooked
      · exact hlooked
      · exact .waiting
      · exact .pure hlooked
  | cons fill fills ih =>
      intro s
      refine .bind ((bufferedFrame_looked s).mono ?_)
      rintro (e | _ | frame) s' hlooked
      · exact hlooked
      · obtain ⟨hout, htaken⟩ := hlooked
        have hsame : s'.ahead = s.ahead := htaken.eq_of_nil
        have hfill := (streamFill_keeps deadline s' fill).and (streamFill_outbound deadline s' fill)
        refine .bind (hfill.mono ?_)
        rintro (e | _) s₁ ⟨hahead, hout₁⟩
        · exact ⟨hout₁.trans hout, by rw [hahead, hsame]; exact .nil _⟩
        · refine (ih s₁).mono ?_
          rintro r s₂ ⟨hout₂, htaken₂⟩
          rw [hahead, hsame] at htaken₂
          exact ⟨hout₂.trans (hout₁.trans hout), htaken₂⟩
      · exact .pure hlooked

/-! ### One call -/

/-- From `s` to `s'` these frames were taken, and what was `due` has been
written, or a front of it where a write may have failed. -/
structure Exchange (s s' : WsImpl) (taken : List WsIncomingFrame) (due : List (UInt8 × Bytes))
    (whole : Prop) : Prop where
  taken : Taken s.ahead taken s'.ahead
  written : Emitted ClientFrame.bytes ClientFrame.Tells s.outbound s'.outbound due whole

/-- A stretch in which nothing is sent. -/
theorem Exchange.quiet {s s' : WsImpl} {taken : List WsIncomingFrame} {whole : Prop}
    (htaken : Taken s.ahead taken s'.ahead) (hout : s'.outbound = s.outbound) :
    Exchange s s' taken [] whole :=
  ⟨htaken, by rw [hout]; exact .nil⟩

/-- Behind an exchange in which everything was written comes the next. -/
theorem Exchange.trans {s₁ s₂ s₃ : WsImpl} {taken taken' : List WsIncomingFrame}
    {due due' : List (UInt8 × Bytes)} {whole : Prop} (h : Exchange s₁ s₂ taken due True)
    (h' : Exchange s₂ s₃ taken' due' whole) :
    Exchange s₁ s₃ (taken ++ taken') (due ++ due') whole :=
  ⟨h.taken.trans h'.taken, h.written.trans h'.written⟩

/-- Less is known of when the writes were whole. -/
theorem Exchange.mono {s s' : WsImpl} {taken : List WsIncomingFrame} {due : List (UInt8 × Bytes)}
    {whole whole' : Prop} (h : Exchange s s' taken due whole) (himp : whole' → whole) :
    Exchange s s' taken due whole' :=
  ⟨h.taken, h.written.mono himp⟩

/-- A writer that broke off may as well have had this to write. -/
theorem Exchange.failed {s s' : WsImpl} {taken : List WsIncomingFrame} {due : List (UInt8 × Bytes)}
    {whole : Prop} (h : Exchange s s' taken [] False) (hbroken : ¬ whole) :
    Exchange s s' taken due whole :=
  ⟨h.taken, (h.written.mono hbroken).more List.nil_prefix hbroken⟩

/-- Encoding a frame and writing it, as every sender does: the frame, or no
frame and an exception. -/
theorem writeFrame_written {opcode : UInt8} {payload : Bytes} (hopcode : opcode.toNat ≤ 15)
    (hsize : payload.length < 2 ^ 64) (rand : Option (FixedBytes 4)) (writes : List WsWrite)
    (s : WsImpl) :
    Post (do
        let frame ← settle (wsEncodeClientFrame opcode rand payload)
        streamWriteAll writes frame : Proc Exn WsImpl Unit) s (fun r s' =>
      r = .ok () ∧ Exchange s s' [] [(opcode, payload)] True ∨
        (∃ e, r = .error e) ∧ ¬ (rand.isSome ∧ WritesGoOn writes) ∧
          Exchange s s' [] [] False) := by
  refine .bind (.settle ?_)
  cases rand with
  | none => exact .inr ⟨⟨_, rfl⟩, fun hgoes => absurd hgoes.1 (by decide), .quiet (.nil _) rfl⟩
  | some mask =>
      let f : ClientFrame := ⟨opcode, mask, payload, hopcode, hsize⟩
      refine (streamWriteAll_frame f writes s).mono ?_
      rintro r s' ⟨hahead, ⟨rfl, hwritten⟩ | ⟨he, hbroken, hwritten⟩⟩
      · exact .inl ⟨rfl, by rw [hahead]; exact .nil _, hwritten⟩
      · exact .inr ⟨he, fun h => hbroken h.2, by rw [hahead]; exact .nil _, hwritten⟩

/-- The same, with the frame due in either case. -/
theorem writeFrame_exchange {opcode : UInt8} {payload : Bytes} (hopcode : opcode.toNat ≤ 15)
    (hsize : payload.length < 2 ^ 64) (rand : Option (FixedBytes 4)) (writes : List WsWrite)
    (s : WsImpl) :
    Post (do
        let frame ← settle (wsEncodeClientFrame opcode rand payload)
        streamWriteAll writes frame : Proc Exn WsImpl Unit) s (fun r s' =>
      Exchange s s' [] [(opcode, payload)] (rand.isSome ∧ WritesGoOn writes) ∧
        (r = .ok () → Exchange s s' [] [(opcode, payload)] True)) := by
  refine (writeFrame_written hopcode hsize rand writes s).mono ?_
  rintro r s' (⟨rfl, hall⟩ | ⟨⟨e, rfl⟩, hbroken, hfront⟩)
  · exact ⟨hall.mono (fun _ => trivial), fun _ => hall⟩
  · exact ⟨hfront.failed hbroken, fun h => by cases h⟩

/-- A decoded frame's payload has fewer than 2^64 bytes. -/
theorem decode_payload_lt {buf : Bytes} {frame : WsIncomingFrame} {n : Nat}
    (h : wsTryDecodeServerFrame buf = .ok (some (frame, n))) : frame.payload.length < 2 ^ 64 := by
  have hattempt := attempt_decode buf
  rw [h] at hattempt
  cases hattempt with
  | whole _ _ _ hfits _ =>
      simp only [slice, List.length_take, wsMaxMessageSize] at hfits ⊢
      omega

/-- `RAND_bytes` works and no write fails. -/
def FrameRun.GoesOn (run : FrameRun) : Prop := run.rand.isSome ∧ WritesGoOn run.writes

/-- **One frame handled**: it is answered, if it is to be. -/
theorem handleFrame_exchange {frame : WsIncomingFrame} (hsize : frame.payload.length < 2 ^ 64)
    (run : FrameRun) (asm : Assembly) (s : WsImpl) :
    Post (handleFrame frame run asm) s (fun r s' =>
      Exchange s s' [] (answer frame).toList run.GoesOn ∧
        (∀ handled, r = .ok handled → Exchange s s' [] (answer frame).toList True)) := by
  have hquiet : answer frame = none → ∀ whole, Exchange s s [] (answer frame).toList whole := by
    intro hnone whole
    rw [hnone]
    exact .quiet (.nil _) rfl
  unfold handleFrame
  by_cases hping : frame.opcode = opPing
  · have hanswer : answer frame = some (opPong, frame.payload) := by rw [answer, if_pos hping]
    rw [hanswer, hping, if_neg (by decide), if_neg (by decide), if_neg (by decide), if_pos rfl]
    refine .bind ((writeFrame_exchange (by decide) hsize run.rand run.writes s).mono ?_)
    rintro (e | _) s' ⟨hfront, hall⟩
    · exact ⟨hfront, fun _ h => by cases h⟩
    · exact .pure ⟨hfront, fun _ _ => hall rfl⟩
  by_cases hclose : frame.opcode = opClose
  · have hanswer : answer frame = some (opClose, frame.payload.take 125) := by
      rw [answer, if_neg hping, if_pos hclose]
    have htake : (frame.payload.take 125).length < 2 ^ 64 := by
      rw [List.length_take]
      omega
    rw [hanswer, hclose, if_neg (by decide), if_neg (by decide), if_neg (by decide),
      if_neg (by decide), if_neg (by decide), if_pos rfl]
    refine .bind (.tryCatch ((writeFrame_exchange (by decide) htake run.rand run.writes s).mono ?_))
    rintro (e | _) s' ⟨hfront, hall⟩
    · exact .pure (.throw ⟨hfront, fun _ h => by cases h⟩)
    · exact .throw ⟨hfront, fun _ h => by cases h⟩
  · have hnone : answer frame = none := by rw [answer, if_neg hping, if_neg hclose]
    have hend : ∀ r : Except Exn (Bytes ⊕ Assembly),
        Exchange s s [] (answer frame).toList run.GoesOn ∧
          (∀ handled, r = .ok handled → Exchange s s [] (answer frame).toList True) :=
      fun _ => ⟨hquiet hnone _, fun _ _ => hquiet hnone _⟩
    rw [if_neg hping, if_neg hclose]
    refine .ite (fun _ => .ite (fun _ => .throw (hend _)) (fun _ =>
      .ite (fun _ => .pure (hend _)) (fun _ => .pure (hend _)))) (fun _ => ?_)
    refine .ite (fun _ => .ite (fun _ => .ite (fun _ => .throw (hend _)) (fun _ =>
      .ite (fun _ => .pure (hend _)) (fun _ => .pure (hend _)))) (fun _ => .throw (hend _)))
      (fun _ => ?_)
    exact .ite (fun _ => .pure (hend _)) (fun _ =>
      .ite (fun _ => .pure (hend _)) (fun _ => .throw (hend _)))

/-! ### One receive -/

/-- What a frame adds to the message under assembly. -/
def dataOf (frame : WsIncomingFrame) : Bytes :=
  if frame.opcode = opBinary ∨ frame.opcode = opCont then frame.payload else []

/-- Nothing is held outside a message. -/
def Assembly.Tidy (asm : Assembly) : Prop := asm.inMessage = false → asm.message = []

/-- **One frame handled**: its data is behind what was held before. -/
theorem handleFrame_data (frame : WsIncomingFrame) (run : FrameRun) {asm : Assembly}
    (htidy : asm.Tidy) (s : WsImpl) :
    Post (handleFrame frame run asm) s (fun r _ =>
      (∀ message, r = .ok (.inl message) → message = asm.message ++ dataOf frame) ∧
        (∀ asm', r = .ok (.inr asm') →
          asm'.Tidy ∧ asm'.message = asm.message ++ dataOf frame)) := by
  have hthrow : ∀ e, (∀ message, (.error e : Except Exn (Bytes ⊕ Assembly)) = .ok (.inl message) →
      message = asm.message ++ dataOf frame) ∧
      (∀ asm', (.error e : Except Exn (Bytes ⊕ Assembly)) = .ok (.inr asm') →
        asm'.Tidy ∧ asm'.message = asm.message ++ dataOf frame) :=
    fun _ => ⟨nofun, nofun⟩
  unfold handleFrame
  by_cases hbinary : frame.opcode = opBinary
  · have hdata : dataOf frame = frame.payload := if_pos (.inl hbinary)
    rw [if_pos hbinary]
    refine .ite (fun _ => .throw (hthrow _)) (fun hout => ?_)
    have hempty : asm.message = [] := htidy (Bool.eq_false_iff.mpr hout)
    rw [hdata, hempty]
    refine .ite (fun _ => .pure ⟨?_, nofun⟩)
      (fun _ => .pure ⟨nofun, ?_⟩)
    · rintro message ⟨⟩
      rfl
    · rintro asm' ⟨⟩
      exact ⟨nofun, rfl⟩
  rw [if_neg hbinary]
  by_cases hcont : frame.opcode = opCont
  · have hdata : dataOf frame = frame.payload := if_pos (.inr hcont)
    rw [if_pos hcont, hdata]
    refine .ite (fun hin => ?_) (fun _ => .throw ⟨nofun, nofun⟩)
    refine .ite (fun _ => .throw ⟨nofun, nofun⟩) (fun _ => ?_)
    refine .ite (fun _ => .pure ⟨?_, nofun⟩)
      (fun _ => .pure ⟨nofun, ?_⟩)
    · rintro message ⟨⟩
      rfl
    · rintro asm' ⟨⟩
      exact ⟨fun h => absurd hin (by rw [h]; decide), rfl⟩
  -- Any other frame leaves the message under assembly alone.
  rw [if_neg hcont]
  have hdata : dataOf frame = [] := if_neg (not_or.mpr ⟨hbinary, hcont⟩)
  have hsame : (∀ message, (.ok (.inr asm) : Except Exn (Bytes ⊕ Assembly)) = .ok (.inl message) →
      message = asm.message ++ dataOf frame) ∧
      (∀ asm', (.ok (.inr asm) : Except Exn (Bytes ⊕ Assembly)) = .ok (.inr asm') →
        asm'.Tidy ∧ asm'.message = asm.message ++ dataOf frame) := by
    refine ⟨nofun, ?_⟩
    rintro asm' ⟨⟩
    exact ⟨htidy, by rw [hdata, List.append_nil]⟩
  refine .ite (fun _ => .pure hsame) (fun _ => .ite (fun _ => .bind (.trivial ?_)) (fun _ =>
    .ite (fun _ => .pure hsame) (fun _ => .ite (fun _ => .bind (.trivial ?_))
      (fun _ => .throw (hthrow _)))))
  · rintro (e | _) s'
    · exact hthrow e
    · exact .pure hsame
  · rintro (e | _) s'
    · exact hthrow e
    · exact .throw (hthrow _)

/-- **One receive**: the frames it took are answered, each in its turn, and the
message it returns is their data. -/
theorem receiveLoop_exchange (deadline : Option Int) :
    ∀ (runs : List FrameRun) {asm : Assembly}, asm.Tidy → ∀ s : WsImpl,
      Post (receiveLoop deadline runs asm) s (fun r s' => ∃ taken,
        Exchange s s' taken (taken.filterMap answer) (∀ run ∈ runs, run.GoesOn) ∧
          ∀ message, r = .ok message → Exchange s s' taken (taken.filterMap answer) True ∧
            message = asm.message ++ taken.flatMap dataOf) := by
  intro runs
  induction runs with
  | nil =>
      intro asm _ s
      exact .waiting
  | cons run runs ih =>
      intro asm htidy s
      have hgoes : (∀ other ∈ run :: runs, other.GoesOn) → run.GoesOn :=
        fun h => h run List.mem_cons_self
      have hrest : (∀ other ∈ run :: runs, other.GoesOn) → ∀ other ∈ runs, other.GoesOn :=
        fun h other hother => h other (List.mem_cons_of_mem _ hother)
      refine .bind ((nextFrame_looked deadline run.fills s).mono ?_)
      rintro (e | frame) s₁ ⟨hout, htaken⟩
      · exact ⟨[], .quiet htaken hout, fun _ h => by cases h⟩
      have hlooked : Exchange s s₁ [frame] [] True := .quiet htaken hout
      have hsize : frame.payload.length < 2 ^ 64 := by
        cases htaken with
        | cons hdecode _ => exact decode_payload_lt hdecode
      have hdue : [frame].filterMap answer = (answer frame).toList := by
        cases hanswer : answer frame <;> simp [hanswer]
      refine .bind (((handleFrame_exchange hsize run asm s₁).and
        (handleFrame_data frame run htidy s₁)).mono ?_)
      rintro (e | handled) s₂ ⟨⟨hfront, hall⟩, hmessage, hheld⟩
      · exact ⟨[frame], by rw [hdue]; exact hlooked.trans (hfront.mono hgoes), nofun⟩
      have hwhole : Exchange s s₂ [frame] ([frame].filterMap answer) True := by
        rw [hdue]
        exact hlooked.trans (hall _ rfl)
      cases handled with
      | inl message =>
          refine .pure ⟨[frame], hwhole.mono (fun _ => trivial), ?_⟩
          rintro _ ⟨⟩
          exact ⟨hwhole, by rw [hmessage message rfl, List.flatMap_singleton]⟩
      | inr asm' =>
          obtain ⟨htidy', hasm'⟩ := hheld asm' rfl
          refine (ih htidy' s₂).mono ?_
          rintro r s₃ ⟨taken, hexchange, hreturn⟩
          have hjoin : ∀ {whole : Prop}, Exchange s₂ s₃ taken (taken.filterMap answer) whole →
              Exchange s s₃ (frame :: taken) ((frame :: taken).filterMap answer) whole := by
            intro whole h
            have hjoined := hwhole.trans h
            rwa [← List.filterMap_append, List.singleton_append] at hjoined
          refine ⟨frame :: taken, hjoin (hexchange.mono hrest), ?_⟩
          intro message hr
          obtain ⟨hall', hcontent⟩ := hreturn message hr
          exact ⟨hjoin hall', by rw [hcontent, hasm', List.append_assoc, List.flatMap_cons]⟩

/-! ### Runs of calls -/

/-- `send_binary`. -/
def sendBinary (data : Bytes) (rand : Option (FixedBytes 4)) (writes : List WsWrite) :
    Proc Exn WsImpl Unit := do
  let frame ← settle (wsEncodeClientFrame opBinary rand data)
  streamWriteAll writes frame

/-- `close`, up to the teardown. -/
def close (rand : Option (FixedBytes 4)) (writes : List WsWrite) : Proc Exn WsImpl Unit :=
  tryCatch
    (do
      let frame ← settle (wsEncodeClientFrame opClose rand [])
      streamWriteAll writes frame)
    (fun _ => pure ())

/-- A call, with what the environment does during it; the length of a message
is a `size_t`. -/
inductive WsCall
  | sendBinary (data : Bytes) (hsize : data.length < 2 ^ 64) (rand : Option (FixedBytes 4))
      (writes : List WsWrite)
  | receiveBinary (deadline : Option Int) (runs : List FrameRun)
  | close (rand : Option (FixedBytes 4)) (writes : List WsWrite)

namespace WsCall

def perform : WsCall → Proc Exn WsImpl Unit
  | .sendBinary data _ rand writes => WsImpl.sendBinary data rand writes
  | .receiveBinary deadline runs => do let _ ← receiveBinaryDeadline deadline runs
  | .close rand writes => WsImpl.close rand writes

/-- The frames the call owes the stream, having taken these. -/
def due (taken : List WsIncomingFrame) : WsCall → List (UInt8 × Bytes)
  | .sendBinary data _ _ _ => [(opBinary, data)]
  | .receiveBinary _ _ => taken.filterMap answer
  | .close _ _ => [(opClose, [])]

/-- `RAND_bytes` works and no write of the call fails. -/
def GoesOn : WsCall → Prop
  | .sendBinary _ _ rand writes => rand.isSome ∧ WritesGoOn writes
  | .receiveBinary _ runs => ∀ run ∈ runs, run.GoesOn
  | .close rand writes => rand.isSome ∧ WritesGoOn writes

/-- The connection is there for another call. -/
def KeepsOpen : WsCall → Prop
  | .close _ _ => False
  | _ => True

/-- **One call.**  It takes frames, and sends what is due for them and for itself. -/
theorem perform_exchange (call : WsCall) (s : WsImpl) :
    Post call.perform s (fun _ s' => ∃ taken,
      Exchange s s' taken (call.due taken) call.GoesOn) := by
  cases call with
  | sendBinary data hsize rand writes =>
      exact (writeFrame_exchange (by decide) hsize rand writes s).mono
        (fun _ _ h => ⟨[], h.1⟩)
  | receiveBinary deadline runs =>
      exact .bind_return ((receiveLoop_exchange deadline runs (fun _ => rfl) s).mono
        (fun _ _ ⟨taken, hexchange, _⟩ => ⟨taken, hexchange⟩))
  | close rand writes =>
      refine .tryCatch ((writeFrame_exchange (by decide) (by simp) rand writes s).mono ?_)
      rintro (e | _) s' ⟨hfront, _⟩
      · exact .pure ⟨[], hfront⟩
      · exact ⟨[], hfront⟩

end WsCall

/-- Call after call; whether one throws is the application's affair. -/
def runCalls : List WsCall → WsImpl → Option WsImpl
  | [], s => some s
  | call :: calls, s =>
      match exec call.perform s with
      | none => none
      | some (_, s') => runCalls calls s'

/-- **A run** in which everything was written but at its very end. -/
theorem runCalls_exchange :
    ∀ (calls : List WsCall) (last : WsCall) (s s' : WsImpl), (∀ call ∈ calls, call.GoesOn) →
      runCalls (calls ++ [last]) s = some s' →
      ∃ (takens : List (List WsIncomingFrame)) (taken : List WsIncomingFrame),
        takens.length = calls.length ∧
        Exchange s s' (takens.flatten ++ taken)
          ((List.zipWith WsCall.due takens calls).flatten ++ last.due taken) last.GoesOn := by
  intro calls
  induction calls with
  | nil =>
      intro last s s' _ hrun
      rw [List.nil_append, runCalls] at hrun
      cases hexec : exec last.perform s with
      | none => rw [hexec] at hrun; cases hrun
      | some out =>
          obtain ⟨r, s₁⟩ := out
          rw [hexec] at hrun
          cases hrun
          obtain ⟨taken, hexchange⟩ := last.perform_exchange s r s' hexec
          exact ⟨[], taken, rfl, hexchange⟩
  | cons call calls ih =>
      intro last s s' hcalls hrun
      rw [List.cons_append, runCalls] at hrun
      cases hexec : exec call.perform s with
      | none => rw [hexec] at hrun; cases hrun
      | some out =>
          obtain ⟨r, s₁⟩ := out
          rw [hexec] at hrun
          obtain ⟨taken₁, hfirst⟩ := call.perform_exchange s r s₁ hexec
          have hfirst : Exchange _ _ _ _ True :=
            hfirst.mono (fun _ => hcalls call List.mem_cons_self)
          obtain ⟨takens, taken, hlength, hexchange⟩ := ih last s₁ s'
            (fun other hother => hcalls other (List.mem_cons_of_mem _ hother)) hrun
          refine ⟨taken₁ :: takens, taken, by simp [hlength], ?_⟩
          rw [List.flatten_cons, List.zipWith_cons_cons, List.flatten_cons, List.append_assoc,
            List.append_assoc]
          exact hfirst.trans hexchange

/-- **Whole frames on the WebSocket stream.**  In a run of calls on an open
connection of which only the last may see a write fail: the client has taken
frames off the server's stream, and written, as whole masked frames and in
order, the messages of `send_binary` and a pong or a close for each ping or
close it took; if the last call was cut short, a front of these and what is left
of one frame.  And however much of it has arrived, a server that reads frames
off the stream finds the first of these and no others. -/
theorem ws_writes_whole_frames (calls : List WsCall) (last : WsCall) (s s' : WsImpl)
    (hcalls : ∀ call ∈ calls, call.GoesOn ∧ call.KeepsOpen)
    (hrun : runCalls (calls ++ [last]) s = some s') :
    ∃ (takens : List (List WsIncomingFrame)) (taken : List WsIncomingFrame)
      (frames : List ClientFrame) (torn : Bytes),
      takens.length = calls.length ∧ Taken s.ahead (takens.flatten ++ taken) s'.ahead ∧
      s'.outbound = s.outbound ++ (encode ClientFrame.bytes frames ++ torn) ∧
      Torn ClientFrame.bytes torn ∧
      frames.map ClientFrame.content <+:
        (List.zipWith WsCall.due takens calls).flatten ++ last.due taken ∧
      (last.GoesOn → torn = [] ∧ frames.map ClientFrame.content =
        (List.zipWith WsCall.due takens calls).flatten ++ last.due taken) ∧
      ∀ (read : List ClientFrame) (left : Bytes),
        encode ClientFrame.bytes read ++ left <+: encode ClientFrame.bytes frames ++ torn →
        read <+: frames := by
  obtain ⟨takens, taken, hlength, htaken, frames, torn, said, hout, htorn, htells, hfront, hall⟩ :=
    runCalls_exchange calls last s s' (fun call hcall => (hcalls call hcall).1) hrun
  have hsaid : List.Forall₂ (· = ·) (frames.map ClientFrame.content) said :=
    List.forall₂_map_left_iff.mpr htells
  rw [List.forall₂_eq_eq_eq] at hsaid
  subst hsaid
  exact ⟨takens, taken, frames, torn, hlength, htaken, hout, htorn, hfront,
    fun hgoes => (hall hgoes).symm,
    fun read left hread => ClientFrame.isPrefixCode.reads_front htorn hread⟩

def sampleMask : FixedBytes 4 := ⟨ascii "mask", by decide⟩

/-- A ping and a binary message are there to be received. -/
def pingedStream : WsImpl := { readBuf := [0x89, 1, 7, 0x82, 1, 9] }

def readyRun : FrameRun where
  fills := []
  rand := some sampleMask
  writes := [.wrote 0, .again, .wrote 100]

/-- The ping is answered before the message is sent, in three writes. -/
theorem ws_writes_whole_frames_pinged :
    ∃ s' frames, runCalls [.receiveBinary none [readyRun, readyRun],
        .sendBinary [1, 2] (by decide) (some sampleMask) [.wrote 100]] pingedStream = some s' ∧
      s'.outbound = encode ClientFrame.bytes frames ∧
      frames = [⟨opPong, sampleMask, [7], by decide, by decide⟩,
        ⟨opBinary, sampleMask, [1, 2], by decide, by decide⟩] := by
  have hout : (runCalls [.receiveBinary none [readyRun, readyRun],
      .sendBinary [1, 2] (by decide) (some sampleMask) [.wrote 100]] pingedStream).map outbound =
        some (encode ClientFrame.bytes [⟨opPong, sampleMask, [7], by decide, by decide⟩,
          ⟨opBinary, sampleMask, [1, 2], by decide, by decide⟩]) := by decide +kernel
  obtain ⟨s', hrun, hbytes⟩ := Option.map_eq_some_iff.mp hout
  obtain ⟨_, _, frames, torn, _, _, hwritten, _, _, hwhole, _⟩ := ws_writes_whole_frames
    [.receiveBinary none [readyRun, readyRun]]
    (.sendBinary [1, 2] (by decide) (some sampleMask) [.wrote 100]) pingedStream s'
    (by simp [WsCall.GoesOn, WsCall.KeepsOpen, FrameRun.GoesOn, WritesGoOn, readyRun]) hrun
  obtain ⟨rfl, _⟩ := hwhole (by simp [WsCall.GoesOn, WritesGoOn])
  rw [show pingedStream.outbound = [] from rfl, List.nil_append] at hwritten
  refine ⟨s', frames, hrun, by rw [hwritten, List.append_nil], ?_⟩
  exact (ClientFrame.isPrefixCode.one_reading torn_nil torn_nil
    (hwritten.symm.trans (hbytes.trans (List.append_nil _).symm))).1

end WsImpl

end Vynkor
