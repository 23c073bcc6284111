import Mathlib.Data.List.Forall2
import VynkorSdk.FrameCodec
import VynkorSdk.Procedure

/-!
# Frames over a byte stream

The read and write loops of the Unix-socket transport.  What the operating
system does is given from outside: every `read(2)`, `write(2)` and `poll(2)`
takes the next result of a list, and a call that finds its list empty is still
waiting.  The bytes themselves are a queue; a read takes a non-empty piece of
its front, as long as the result says and never more than was asked for.

Quantifying over these lists is quantifying over every way the stream is cut
into short transfers, interrupted, delayed or torn down.
-/

namespace Vynkor

open ByteCodec Procedure

/-- Result of one `read(2)`; `data k` transfers `k + 1` bytes, or fewer if
fewer are wanted or there. -/
inductive ReadResult
  | eintr
  | failed
  | closed
  | data (k : Nat)
  deriving DecidableEq

/-- Result of one `write(2)`; `wrote k` transfers `k + 1` bytes at most, and
`stuck` is a return value of 0. -/
inductive WriteResult
  | eintr
  | failed
  | stuck
  | wrote (k : Nat)
  deriving DecidableEq

/-- Result of one `poll(2)` on the socket. -/
inductive PollResult
  | eintr
  | failed
  | timeout
  | ready
  deriving DecidableEq

/-- One round of `recv_exact_deadline`: clock, `poll`, `read`. -/
structure Tick where
  now : Int
  poll : PollResult
  read : ReadResult

/-- One round of the wait in `read_frame_full_with_deadline`. -/
structure Wait where
  now : Int
  poll : PollResult

/-- Everything the environment supplies while one wire frame is received.
`message` is the outcome of `receive_binary_deadline` on the WebSocket
transport; `absorbNow` and `absorbSeen` are the clock readings of
`absorb_fragment`. -/
structure FrameEnv where
  waits : List Wait
  waitEnd : Int
  firstReads : List ReadResult
  start : Int
  ticks : List Tick
  message : Except Exn Bytes
  absorbNow : Int
  absorbSeen : Int

/-! ### Reading -/

/-- The bytes one successful `read(2)` transfers; on an empty stream there is
no such read yet. -/
def readSome (k need : Nat) : Proc Exn Bytes Bytes := do
  let inbound ← get
  let n := min (k + 1) (min need inbound.length)
  if n = 0 then
    waiting
  else do
    set (inbound.drop n)
    return inbound.take n

/-- `recv_exact`: `need` more bytes behind `got`. -/
def recvExact : List ReadResult → Nat → Bytes → Proc Exn Bytes Bytes
  | _, 0, got => pure got
  | [], _+1, _ => waiting
  | read :: reads, need+1, got =>
      match read with
      | .eintr => recvExact reads (need + 1) got
      | .failed => throw (.io (ascii "connection closed or recv error"))
      | .closed => throw (.io (ascii "connection closed or recv error"))
      | .data k => do
          let bytes ← readSome k (need + 1)
          recvExact reads (need + 1 - bytes.length) (got ++ bytes)

/-- `recv_exact_deadline`; also returns the rounds that are left. -/
def recvExactDeadline (deadline : Int) :
    List Tick → Nat → Bytes → Proc Exn Bytes (Bytes × List Tick)
  | ticks, 0, got => pure (got, ticks)
  | [], _+1, _ => waiting
  | tick :: ticks, need+1, got =>
      if tick.now ≥ deadline then
        throw .frameReadTimeout
      else
        match tick.poll with
        | .eintr => recvExactDeadline deadline ticks (need + 1) got
        | .failed => throw (.io (ascii "poll failed during frame read"))
        | .timeout => throw .frameReadTimeout
        | .ready =>
            match tick.read with
            | .eintr => recvExactDeadline deadline ticks (need + 1) got
            | .failed => throw (.io (ascii "connection closed or recv error"))
            | .closed => throw (.io (ascii "connection closed or recv error"))
            | .data k => do
                let bytes ← readSome k (need + 1)
                recvExactDeadline deadline ticks (need + 1 - bytes.length) (got ++ bytes)

/-- `FRAME_READ_TIMEOUT_MS`. -/
def frameReadTimeoutMs : Int := 10000

variable (lib : WireLibs)

/-- One frame off the stream.  The first byte may take forever; the rest is
bounded by `frameTimeoutMs` from there. -/
def readFrameFullWithTimeout (key : Option Block32) (frameTimeoutMs : Int) (env : FrameEnv) :
    Proc Exn Bytes FrameResult := do
  let first ← recvExact env.firstReads 1 []
  let deadline := env.start + frameTimeoutMs * millisecond
  let (header, ticks) ← recvExactDeadline deadline env.ticks (frameHeaderSize - 1) first
  let length := lengthField header
  if length > maxPayloadSize then
    throw (.payloadTooLarge length)
  else
    let rest := length + (if hasFlag (flagsField header) flagMacPresent then macTagLen else 0)
    let (buf, _) ← recvExactDeadline deadline ticks rest header
    let (result, _) ← settle (parseFrameBytes lib buf key)
    return result

def readFrameFull (key : Option Block32) (env : FrameEnv) : Proc Exn Bytes FrameResult :=
  readFrameFullWithTimeout lib key frameReadTimeoutMs env

/-- The wait for the first byte, bounded by the caller's deadline. -/
def awaitReadable (deadline : Int) : List Wait → Proc Exn Bytes Unit
  | [] => waiting
  | wait :: waits =>
      if wait.now ≥ deadline then
        throw .timeout
      else
        match wait.poll with
        | .eintr => awaitReadable deadline waits
        | .failed => throw (.io (ascii "poll failed during frame read"))
        | .timeout => throw .timeout
        | .ready => pure ()

/-- `static_cast<int>`. -/
def toInt32 (n : Int) : Int := n.bmod (2 ^ 32)

def readFrameFullWithDeadline (key : Option Block32) (deadline : Int) (env : FrameEnv) :
    Proc Exn Bytes FrameResult := do
  awaitReadable deadline env.waits
  let remaining := (deadline - env.waitEnd).tdiv millisecond
  let remaining := if remaining < 1 then 1 else remaining
  readFrameFullWithTimeout lib key (toInt32 remaining) env

/-! ### Writing -/

/-- `write_all`: the state is what the peer will find on the stream. -/
def writeAll : List WriteResult → Bytes → Proc Exn Bytes Unit
  | _, [] => pure ()
  | [], _ :: _ => waiting
  | write :: writes, b :: frame =>
      match write with
      | .eintr => writeAll writes (b :: frame)
      | .failed => throw (.io (ascii "write() failed"))
      | .stuck => throw (.io (ascii "write() failed"))
      | .wrote k => do
          modify (· ++ (b :: frame).take (k + 1))
          writeAll writes ((b :: frame).drop (k + 1))

/-! ### Streams that keep going

No error, no end of stream, no deadline missed, and enough transfers for the
bytes in question: each of them moves one byte at least. -/

def ReadResult.progress : ReadResult → Bool
  | .data _ => true
  | _ => false

def Tick.progress (tick : Tick) : Bool :=
  tick.poll == .ready && tick.read.progress

def WriteResult.progress : WriteResult → Bool
  | .wrote _ => true
  | _ => false

/-- Only interruptions and transfers, at least `n` of the latter. -/
structure SteadyReads (n : Nat) (reads : List ReadResult) : Prop where
  sound : ∀ read ∈ reads, read = .eintr ∨ read.progress = true
  enough : n ≤ reads.countP ReadResult.progress

structure SteadyTicks (deadline : Int) (n : Nat) (ticks : List Tick) : Prop where
  in_time : ∀ tick ∈ ticks, tick.now < deadline
  sound : ∀ tick ∈ ticks, tick.poll = .eintr ∨
    tick.poll = .ready ∧ (tick.read = .eintr ∨ tick.read.progress = true)
  enough : n ≤ ticks.countP Tick.progress

structure SteadyWrites (n : Nat) (writes : List WriteResult) : Prop where
  sound : ∀ write ∈ writes, write = .eintr ∨ write.progress = true
  enough : n ≤ writes.countP WriteResult.progress

/-- Writes that are steady for more bytes are steady for fewer. -/
theorem SteadyWrites.mono {n m : Nat} {writes : List WriteResult} (h : SteadyWrites m writes)
    (hle : n ≤ m) : SteadyWrites n writes :=
  ⟨h.sound, hle.trans h.enough⟩

/-- One transfer cuts a non-empty front off the piece that is wanted. -/
theorem readSome_cut (k : Nat) (b : UInt8) (piece rest : Bytes) :
    ∃ front back, b :: piece = front ++ back ∧ 1 ≤ front.length ∧
      exec (readSome k (piece.length + 1)) ((b :: piece) ++ rest) =
        some (.ok front, back ++ rest) := by
  let n := min (k + 1) (piece.length + 1)
  have hn : min (k + 1) (min (piece.length + 1) ((b :: piece) ++ rest).length) = n := by
    simp only [List.length_append, List.length_cons, n]
    omega
  have hle : n ≤ (b :: piece).length := by
    simp only [List.length_cons, n]
    omega
  refine ⟨(b :: piece).take n, (b :: piece).drop n, (List.take_append_drop n _).symm, ?_, ?_⟩
  · rw [List.length_take]
    omega
  · unfold readSome
    rw [exec_bind_ok (exec_get _), hn, if_neg (by omega), exec_bind_ok (exec_set _ _), exec_pure,
      List.drop_append_of_le_length hle, List.take_append_of_le_length hle]

/-- `n` bytes off the stream arrive whole, however they are cut. -/
theorem recvExact_steady {reads : List ReadResult} :
    ∀ (piece rest got : Bytes), SteadyReads piece.length reads →
      exec (recvExact reads piece.length got) (piece ++ rest) =
        some (.ok (got ++ piece), rest) := by
  induction reads with
  | nil =>
      intro piece rest got h
      have hnil : piece = [] := List.length_eq_zero_iff.mp (Nat.le_zero.mp h.enough)
      subst hnil
      simp [recvExact]
  | cons read reads ih =>
      intro piece rest got h
      rcases piece with _ | ⟨b, piece⟩
      · simp [recvExact]
      have hsound : ∀ r ∈ reads, r = .eintr ∨ r.progress = true :=
        fun r hr => h.sound r (List.mem_cons_of_mem _ hr)
      have henough := h.enough
      cases read with
      | eintr =>
          rw [List.countP_cons_of_neg (by simp [ReadResult.progress])] at henough
          exact ih _ _ _ ⟨hsound, henough⟩
      | failed => simpa [ReadResult.progress] using h.sound .failed (by simp)
      | closed => simpa [ReadResult.progress] using h.sound .closed (by simp)
      | data k =>
          rw [List.countP_cons_of_pos rfl] at henough
          obtain ⟨front, back, hcut, hpos, hread⟩ := readSome_cut k b piece rest
          have hlen : back.length = piece.length + 1 - front.length := by
            rw [← List.length_cons (a := b), hcut, List.length_append]
            omega
          have hih := ih back rest (got ++ front)
            ⟨hsound, by simp only [List.length_cons] at henough; omega⟩
          rw [List.append_assoc, ← hcut, hlen] at hih
          simp only [recvExact, List.length_cons]
          rw [exec_bind_ok hread]
          exact hih

/-- Off an empty stream nothing is read: the call waits. -/
theorem recvExact_empty (need : Nat) (got : Bytes) :
    ∀ reads : List ReadResult, (∀ read ∈ reads, read = .eintr ∨ read.progress = true) →
      exec (recvExact reads (need + 1) got) [] = none := by
  intro reads
  induction reads with
  | nil => exact fun _ => rfl
  | cons read reads ih =>
      intro hsound
      have hrest := ih (fun r hr => hsound r (List.mem_cons_of_mem _ hr))
      cases read with
      | eintr => exact hrest
      | failed => simpa [ReadResult.progress] using hsound .failed (by simp)
      | closed => simpa [ReadResult.progress] using hsound .closed (by simp)
      | data k => rfl

/-- The same with a deadline that does not pass; the rounds left over are
enough for whatever the list was enough for beyond these bytes. -/
theorem recvExactDeadline_steady {deadline : Int} {ticks : List Tick} :
    ∀ (piece rest got : Bytes) (more : Nat), SteadyTicks deadline (piece.length + more) ticks →
      ∃ left, exec (recvExactDeadline deadline ticks piece.length got) (piece ++ rest) =
          some (.ok (got ++ piece, left), rest) ∧ SteadyTicks deadline more left := by
  induction ticks with
  | nil =>
      intro piece rest got more h
      have hzero : piece.length + more = 0 := Nat.le_zero.mp h.enough
      have hnil : piece = [] := List.length_eq_zero_iff.mp (by omega)
      have hmore : more = 0 := by omega
      subst hnil hmore
      exact ⟨[], by simp [recvExactDeadline], h⟩
  | cons tick ticks ih =>
      intro piece rest got more h
      rcases piece with _ | ⟨b, piece⟩
      · exact ⟨tick :: ticks, by simp [recvExactDeadline], by simpa using h⟩
      have hrest : ∀ n, n ≤ ticks.countP Tick.progress → SteadyTicks deadline n ticks :=
        fun n hn => ⟨fun t ht => h.in_time t (List.mem_cons_of_mem _ ht),
          fun t ht => h.sound t (List.mem_cons_of_mem _ ht), hn⟩
      have henough := h.enough
      have hintime : ¬ tick.now ≥ deadline := Int.not_le.mpr (h.in_time tick (by simp))
      obtain ⟨now, poll, read⟩ := tick
      simp only at hintime
      rcases h.sound _ (List.mem_cons_self) with hpoll | ⟨hpoll, hread⟩
      · simp only at hpoll
        subst hpoll
        rw [List.countP_cons_of_neg (by simp [Tick.progress])] at henough
        simpa [recvExactDeadline, hintime] using ih (b :: piece) rest got more (hrest _ henough)
      · simp only at hpoll hread
        subst hpoll
        rcases hread with hread | hread
        · subst hread
          rw [List.countP_cons_of_neg (by simp [Tick.progress, ReadResult.progress])] at henough
          simpa [recvExactDeadline, hintime] using ih (b :: piece) rest got more (hrest _ henough)
        · cases read with
          | eintr => cases hread
          | failed => cases hread
          | closed => cases hread
          | data k =>
              rw [List.countP_cons_of_pos rfl] at henough
              obtain ⟨front, back, hcut, hpos, hread⟩ := readSome_cut k b piece rest
              have hlen : back.length = piece.length + 1 - front.length := by
                rw [← List.length_cons (a := b), hcut, List.length_append]
                omega
              obtain ⟨left, hrun, hleft⟩ := ih back rest (got ++ front) more
                (hrest _ (by simp only [List.length_cons] at henough; omega))
              rw [List.append_assoc, ← hcut, hlen] at hrun
              refine ⟨left, ?_, hleft⟩
              simp only [recvExactDeadline, List.length_cons, if_neg hintime]
              rw [exec_bind_ok hread]
              exact hrun

/-- Short writes put the whole frame on the stream. -/
theorem writeAll_steady {writes : List WriteResult} (frame out : Bytes)
    (h : SteadyWrites frame.length writes) :
    exec (writeAll writes frame) out = some (.ok (), out ++ frame) := by
  have hdrains : ∀ write ∈ writes,
      Drains writeAll (fun written out => out ++ written) WriteResult.progress write := by
    intro write hwrite
    rcases h.sound write hwrite with rfl | hprogress
    · exact ⟨fun _ _ _ _ _ => rfl, fun hmoves => by cases hmoves⟩
    · refine ⟨fun hretry => absurd (hretry.symm.trans hprogress) (by simp), fun _ => ?_⟩
      cases write with
      | wrote k => exact ⟨k, fun _ _ _ _ => rfl⟩
      | _ => cases hprogress
  refine exec_drain (fun writes out => ?_) (fun _ _ _ => List.append_assoc _ _ _) hdrains frame out
    h.enough
  simp [writeAll]

/-- A byte string that delimits itself: its size is what its header says. -/
structure SelfDelimited (f : Bytes) : Prop where
  header_le : frameHeaderSize ≤ f.length
  length_le : lengthField f ≤ maxPayloadSize
  extent_eq : frameExtent f = f.length

/-- The environment lets a frame of `n` bytes through. -/
structure Steady (frameTimeoutMs : Int) (n : Nat) (env : FrameEnv) : Prop where
  first : SteadyReads 1 env.firstReads
  body : SteadyTicks (env.start + frameTimeoutMs * millisecond) n env.ticks

/-- Reads that are steady for a longer frame are steady for a shorter one. -/
theorem Steady.mono {frameTimeoutMs : Int} {n m : Nat} {env : FrameEnv}
    (h : Steady frameTimeoutMs m env) (hle : n ≤ m) : Steady frameTimeoutMs n env :=
  ⟨h.first, h.body.in_time, h.body.sound, hle.trans h.body.enough⟩

/-- A slice of the front is a slice of the whole. -/
theorem slice_take {bs : Bytes} {n pos len : Nat} (h : pos + len ≤ n) :
    slice (bs.take n) pos len = slice bs pos len := by
  rw [slice, slice, List.drop_take, List.take_take, Nat.min_eq_left (by omega)]

/-- **The stream reader takes exactly one frame.**  It has the outcome of the
buffer parser on that frame and leaves the bytes behind it alone. -/
theorem readFrameFullWithTimeout_steady {f rest : Bytes} {key : Option Block32}
    {frameTimeoutMs : Int} {env : FrameEnv} (hf : SelfDelimited f)
    (henv : Steady frameTimeoutMs f.length env) :
    exec (readFrameFullWithTimeout lib key frameTimeoutMs env) (f ++ rest) =
      some ((parseFrameBytes lib f key).map Prod.fst, rest) := by
  have hlen44 := hf.header_le
  simp only [frameHeaderSize] at hlen44
  -- First byte, rest of the header, rest of the frame.
  obtain ⟨b, tail, rfl⟩ : ∃ b tail, f = b :: tail := by
    rcases f with _ | ⟨b, tail⟩
    · simp at hlen44
    · exact ⟨b, tail, rfl⟩
  simp only [List.length_cons] at hlen44
  let header := b :: tail.take 43
  have hheader : header = (b :: tail).take 44 := rfl
  have hsplit : tail = tail.take 43 ++ tail.drop 43 := (List.take_append_drop 43 tail).symm
  have hlen43 : (tail.take 43).length = 43 := by
    rw [List.length_take]
    omega
  have hbody : (tail.drop 43).length = tail.length - 43 := List.length_drop
  have hfirst := recvExact_steady [b] (tail ++ rest) [] henv.first
  obtain ⟨left, hrun, hleft⟩ := recvExactDeadline_steady (tail.take 43)
    (tail.drop 43 ++ rest) [b] (tail.length - 43)
    ⟨henv.body.in_time, henv.body.sound,
      le_trans (by simp only [List.length_cons]; omega) henv.body.enough⟩
  rw [hlen43, ← List.append_assoc, ← hsplit] at hrun
  obtain ⟨_, hrun', _⟩ := recvExactDeadline_steady (tail.drop 43) rest
    header 0 (by simpa [hbody] using hleft)
  have hflags : flagsField header = flagsField (b :: tail) := by
    rw [hheader, flagsField, slice_take (by omega), flagsField]
  have hlength : lengthField header = lengthField (b :: tail) := by
    rw [hheader, lengthField, slice_take (by omega), lengthField]
  have hextent := hf.extent_eq
  simp only [frameExtent, frameHeaderSize, List.length_cons] at hextent
  have hrest : lengthField header +
      (if hasFlag (flagsField header) flagMacPresent then macTagLen else 0) =
        (tail.drop 43).length := by
    rw [hflags, hlength, hbody]
    omega
  have hwhole : header ++ tail.drop 43 = b :: tail := by
    simp only [header, List.cons_append, ← hsplit]
  have hfits : ¬ lengthField header > maxPayloadSize := by
    rw [hlength]
    exact Nat.not_lt.mpr hf.length_le
  unfold readFrameFullWithTimeout
  rw [List.length_singleton, List.singleton_append, List.nil_append] at hfirst
  rw [List.cons_append, exec_bind_ok hfirst]
  dsimp only
  rw [show frameHeaderSize - 1 = 43 from rfl, exec_bind_ok hrun]
  dsimp only
  rw [show [b] ++ tail.take 43 = header from rfl, if_neg hfits, hrest, exec_bind_ok hrun', hwhole]
  dsimp only
  cases hparse : parseFrameBytes lib (b :: tail) key with
  | error e => rfl
  | ok r => rfl

/-! ### Many frames -/

/-- Outcomes of one `read_frame_full` after another on the same descriptor; a
call that throws does not keep the next from being made. -/
def readFrames (key : Option Block32) :
    List FrameEnv → Bytes → Option (List (Except Exn FrameResult) × Bytes)
  | [], inbound => some ([], inbound)
  | env :: envs, inbound => do
      let (outcome, inbound) ← exec (readFrameFull lib key env) inbound
      let (outcomes, inbound) ← readFrames key envs inbound
      return (outcome :: outcomes, inbound)

/-- **The stream reader stays aligned.**  On frames written back to back, each
delimiting itself and otherwise arbitrary, the i-th call has the outcome of the
buffer parser on the i-th frame, however many calls before it threw. -/
theorem read_frames_as_parsed (key : Option Block32) (rest : Bytes) :
    ∀ (frames : List Bytes) (envs : List FrameEnv), (∀ f ∈ frames, SelfDelimited f) →
      List.Forall₂ (fun f env => Steady frameReadTimeoutMs f.length env) frames envs →
      readFrames lib key envs (frames.flatten ++ rest) =
        some (frames.map (fun f => (parseFrameFromBuffer lib f key).map Prod.fst), rest) := by
  intro frames
  induction frames with
  | nil =>
      intro envs _ henvs
      obtain rfl := List.forall₂_nil_left_iff.mp henvs
      rfl
  | cons f frames ih =>
      intro envs hframes henvs
      obtain ⟨env, envs, henv, henvs', rfl⟩ := List.forall₂_cons_left_iff.mp henvs
      have hread : exec (readFrameFull lib key env) (f ++ (frames.flatten ++ rest)) =
          some ((parseFrameBytes lib f key).map Prod.fst, frames.flatten ++ rest) :=
        readFrameFullWithTimeout_steady lib (hframes f (by simp)) henv
      have hnext := ih envs (fun g hg => hframes g (List.mem_cons_of_mem _ hg)) henvs'
      rw [List.flatten_cons, List.append_assoc, readFrames, hread]
      simp only [Option.bind_eq_bind, Option.bind_some, hnext, List.map_cons, parseFrameFromBuffer]
      rfl

/-- One byte at a time, behind an interrupted read. -/
def byteEnv : FrameEnv where
  waits := []
  waitEnd := 0
  firstReads := [.eintr, .data 0]
  start := 0
  ticks := List.replicate 44 ⟨0, .ready, .data 0⟩
  message := .ok []
  absorbNow := 0
  absorbSeen := 0

/-- One byte a read, in time, is a steady read. -/
theorem byteEnv_steady : Steady frameReadTimeoutMs 44 byteEnv := by
  refine ⟨⟨by decide, by decide⟩, ?_, ?_, by decide⟩
  · intro tick htick
    rw [(List.mem_replicate.mp htick).2]
    decide
  · intro tick htick
    rw [(List.mem_replicate.mp htick).2]
    exact Or.inr ⟨rfl, Or.inr rfl⟩

def zeroFrame : Bytes := List.replicate 44 0

def emptyFrame : Bytes := (buildHeader 0 (targetToBytes []) []).val

/-- A frame with the wrong magic, an empty frame, and a byte behind them. -/
theorem read_frames_as_parsed_two :
    readFrames storingLibs none [byteEnv, byteEnv] (zeroFrame ++ emptyFrame ++ [7]) =
      some ([.error .frameMagicMismatch,
        .ok { payload := [], rawHeader := buildHeader 0 (targetToBytes []) [] }], [7]) := by
  have hframes : ∀ f ∈ [zeroFrame, emptyFrame], SelfDelimited f := by
    intro f hf
    rcases List.mem_pair.mp hf with rfl | rfl
    · exact ⟨by decide, by decide, by decide⟩
    · exact ⟨by decide, by decide, by decide⟩
  have hread := read_frames_as_parsed storingLibs none [7] [zeroFrame, emptyFrame]
    [byteEnv, byteEnv] hframes (.cons byteEnv_steady (.cons byteEnv_steady .nil))
  have hparsed : [zeroFrame, emptyFrame].map
      (fun f => (parseFrameFromBuffer storingLibs f none).map Prod.fst) =
        [.error .frameMagicMismatch,
          .ok { payload := [], rawHeader := buildHeader 0 (targetToBytes []) [] }] := by
    decide +kernel
  rw [hparsed] at hread
  simpa using hread

end Vynkor
