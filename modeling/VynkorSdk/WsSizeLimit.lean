import VynkorSdk.WsAssembly

/-!
# The WebSocket size limit

`WS_MAX_MESSAGE_SIZE` is checked on three quantities: the length a frame declares,
the bytes in the buffer while a frame is incomplete, and the assembled message.
The second one counts the header, so a frame whose payload is within the limit can
still be refused while its last bytes are on their way.  Whether that happens
depends on where a read ends: on no reads at all exactly when no frame, with its
header, is more than one byte beyond the limit.

A message over the limit is always refused.
-/

namespace Vynkor

open ByteCodec Procedure WsImpl

/-- A binary message as its data frames, with nothing in between. -/
structure BinaryFrames where
  first : ServerFrame
  rest : List ServerFrame
  binary : first.opcode = opBinary
  final : if rest = [] then first.fin = true
    else first.fin = false ∧ Continues (rest.map WsPiece.alone)

namespace BinaryFrames

variable (m : BinaryFrames)

def frames : List ServerFrame := m.first :: m.rest

def content : Bytes := (m.frames.map ServerFrame.payload).flatten

end BinaryFrames

/-- The environment lets a message of `n` bytes through, in reads of any size. -/
structure SteadyFills (n : Nat) (run : FrameRun) : Prop where
  fills : ∀ fill ∈ run.fills, SteadyFill none fill
  enough : n ≤ run.fills.length

/-- The next `receive_binary` decides by the size of the message: it returns a
message within the limit and throws on a larger one, however the bytes arrive. -/
def SizeDecided (m : BinaryFrames) : Prop :=
  ∀ (rest : Bytes) (runs : List FrameRun) (s : WsImpl), s.ahead = wireBytes m.frames ++ rest →
    m.frames.length ≤ runs.length → (∀ run ∈ runs, SteadyFills (wireBytes m.frames).length run) →
    (m.content.length ≤ wsMaxMessageSize →
      ∃ s', exec (receiveBinary runs) s = some (.ok m.content, s')) ∧
    (wsMaxMessageSize < m.content.length →
      ∃ n s', exec (receiveBinary runs) s = some (.error (.payloadTooLarge n), s'))

/-! ### One frame -/

/-- A frame's header has at most ten bytes. -/
theorem ServerFrame.headerSize_le (f : ServerFrame) : f.headerSize ≤ 10 := by
  unfold ServerFrame.headerSize
  cases f.form <;> decide

/-- The checks on the frame in front, in the order the loop makes them. -/
theorem exec_bufferedFrame_front {f : ServerFrame} {rest : Bytes} {s : WsImpl}
    (hahead : s.ahead = f.bytes ++ rest) :
    exec bufferedFrame s =
      if s.readBuf.length < f.headerSize then some (.ok none, s)
      else if f.payload.length > wsMaxMessageSize then
        some (.error (.payloadTooLarge f.payload.length), s)
      else if s.readBuf.length < f.bytes.length then
        if s.readBuf.length > wsMaxMessageSize then
          some (.error (.payloadTooLarge (wsMaxMessageSize + 1)), s)
        else some (.ok none, s)
      else some (.ok (some f.incoming), { s with readBuf := s.readBuf.drop f.bytes.length }) := by
  have hheader := f.headerSize_le
  rw [bufferedFrame, exec_bind_ok (exec_get _), decode_front f hahead]
  split
  · rw [exec_bind_ok (exec_settle _ _)]
    dsimp only
    rw [if_neg (by simp only [wsMaxMessageSize]; omega)]
    rfl
  · split
    · rw [exec_bind_error (exec_settle _ _)]
    · split
      · rw [exec_bind_ok (exec_settle _ _)]
        dsimp only
        split <;> rfl
      · rfl

/-- What may come of a frame in front: it is taken, or it is refused, and then its
payload is too large or it is more than a byte beyond the limit with its header. -/
def FrameDecided (f : ServerFrame) (rest : Bytes)
    (o : Option (Except Exn WsIncomingFrame × WsImpl)) : Prop :=
  (∃ s', o = some (.ok f.incoming, s') ∧ s'.ahead = rest ∧ f.payload.length ≤ wsMaxMessageSize) ∨
    ∃ n s', o = some (.error (.payloadTooLarge n), s') ∧
      (wsMaxMessageSize < f.payload.length ∨ wsMaxMessageSize + 1 < f.bytes.length)

/-- A frame that is not waited for is decided without a read. -/
theorem bufferedFrame_cases {f : ServerFrame} {rest : Bytes} {s : WsImpl}
    (hahead : s.ahead = f.bytes ++ rest) :
    (exec bufferedFrame s = some (.ok none, s) ∧ s.readBuf.length < f.bytes.length) ∨
      ∀ fills, FrameDecided f rest (exec (nextFrame none fills) s) := by
  have hlen := f.bytes_length
  have hframe := exec_bufferedFrame_front hahead
  by_cases hheader : s.readBuf.length < f.headerSize
  · rw [if_pos hheader] at hframe
    exact Or.inl ⟨hframe, by omega⟩
  rw [if_neg hheader] at hframe
  by_cases hlarge : f.payload.length > wsMaxMessageSize
  · rw [if_pos hlarge] at hframe
    refine Or.inr (fun fills => Or.inr ⟨f.payload.length, s, ?_, Or.inl hlarge⟩)
    cases fills <;> rw [nextFrame, exec_bind_error hframe]
  rw [if_neg hlarge] at hframe
  by_cases hpart : s.readBuf.length < f.bytes.length
  · rw [if_pos hpart] at hframe
    by_cases hfull : s.readBuf.length > wsMaxMessageSize
    · rw [if_pos hfull] at hframe
      refine Or.inr (fun fills => Or.inr ⟨wsMaxMessageSize + 1, s, ?_, Or.inr (by omega)⟩)
      cases fills <;> rw [nextFrame, exec_bind_error hframe]
    · rw [if_neg hfull] at hframe
      exact Or.inl ⟨hframe, hpart⟩
  · rw [if_neg hpart] at hframe
    refine Or.inr (fun fills => Or.inl ⟨{ s with readBuf := s.readBuf.drop f.bytes.length }, ?_, ?_,
      by omega⟩)
    · cases fills <;> rw [nextFrame, exec_bind_ok hframe] <;> rfl
    · have hdrop := congrArg (List.drop f.bytes.length) hahead
      rw [ahead, List.drop_append_of_le_length (by omega), List.drop_left] at hdrop
      exact hdrop

/-- **The next frame** is taken or refused, however its bytes arrive. -/
theorem nextFrame_decided {f : ServerFrame} {rest : Bytes} :
    ∀ (fills : List (List FillRound)) (s : WsImpl), s.ahead = f.bytes ++ rest →
      (∀ fill ∈ fills, SteadyFill none fill) →
      f.bytes.length ≤ s.readBuf.length + fills.length →
      FrameDecided f rest (exec (nextFrame none fills) s) := by
  intro fills
  induction fills with
  | nil =>
      intro s hahead _ henough
      obtain ⟨_, hpart⟩ | hdecided := bufferedFrame_cases hahead
      · rw [List.length_nil] at henough
        omega
      · exact hdecided []
  | cons fill fills ih =>
      intro s hahead hfills henough
      obtain ⟨hframe, hpart⟩ | hdecided := bufferedFrame_cases hahead
      · obtain ⟨s₁, hfill, hahead₁, hmore, _⟩ := streamFill_steady
          (inbound_ne_nil hahead (Nat.not_le.mpr hpart)) fill (hfills fill (by simp))
        have hnext : exec (nextFrame none (fill :: fills)) s = exec (nextFrame none fills) s₁ := by
          rw [nextFrame, exec_bind_ok hframe]
          exact exec_bind_ok hfill
        rw [hnext]
        rw [List.length_cons] at henough
        exact ih s₁ (hahead₁.trans hahead) (fun g hg => hfills g (List.mem_cons_of_mem _ hg))
          (by omega)
      · exact hdecided (fill :: fills)

/-! ### One message -/

/-- What may come of a message: it is returned, or it is refused, and then it is
too large or one of its frames is with its header. -/
def MessageDecided (frames : List ServerFrame) (content : Bytes)
    (o : Option (Except Exn Bytes × WsImpl)) : Prop :=
  (content.length ≤ wsMaxMessageSize ∧ ∃ s', o = some (.ok content, s')) ∨
    ((wsMaxMessageSize < content.length ∨ ∃ f ∈ frames, wsMaxMessageSize + 1 < f.bytes.length) ∧
      ∃ n s', o = some (.error (.payloadTooLarge n), s'))

/-- What is decided behind a frame is decided with it in front. -/
theorem MessageDecided.cons {f : ServerFrame} {frames : List ServerFrame} {content : Bytes}
    {o : Option (Except Exn Bytes × WsImpl)} (h : MessageDecided frames content o) :
    MessageDecided (f :: frames) content o := by
  rcases h with hok | ⟨hcause, herror⟩
  · exact Or.inl hok
  · refine Or.inr ⟨?_, herror⟩
    rcases hcause with hcontent | ⟨g, hg, hlarge⟩
    · exact Or.inl hcontent
    · exact Or.inr ⟨g, List.mem_cons_of_mem _ hg, hlarge⟩

/-- A frame is taken and handled, or the call throws. -/
theorem receiveLoop_decided {f : ServerFrame} {frames : List ServerFrame} {rest content : Bytes}
    {run : FrameRun} {runs : List FrameRun} {asm : Assembly} {s : WsImpl}
    (hahead : s.ahead = f.bytes ++ rest) (hrun : SteadyFills f.bytes.length run)
    (hpayload : f.payload.length ≤ content.length)
    (hhandled : ∀ s₁ : WsImpl, s₁.ahead = rest → f.payload.length ≤ wsMaxMessageSize →
      MessageDecided (f :: frames) content (exec (do
        let handled ← handleFrame f.incoming run asm
        match handled with
        | .inl message => pure message
        | .inr asm => WsImpl.receiveLoop none runs asm) s₁)) :
    MessageDecided (f :: frames) content (exec (WsImpl.receiveLoop none (run :: runs) asm) s) := by
  obtain ⟨s₁, hnext, hrest, hfits⟩ | ⟨n, s₁, hnext, hcause⟩ :=
    nextFrame_decided run.fills s hahead hrun.fills (Nat.le_add_left_of_le hrun.enough)
  · have hloop := hhandled s₁ hrest hfits
    rw [WsImpl.receiveLoop, exec_bind_ok hnext]
    exact hloop
  · refine Or.inr ⟨?_, n, s₁, by rw [WsImpl.receiveLoop, exec_bind_error hnext]⟩
    rcases hcause with hlarge | hlarge
    · exact Or.inl (by omega)
    · exact Or.inr ⟨f, List.mem_cons_self, hlarge⟩

/-- A continuation that takes the message over the limit is refused. -/
theorem handleFrame_cont_large {f : ServerFrame} (hcont : f.opcode = opCont) (run : FrameRun)
    {acc : Bytes} (hlarge : wsMaxMessageSize < (acc ++ f.payload).length) :
    handleFrame f.incoming run ⟨acc, true⟩ =
      throw (.payloadTooLarge (acc ++ f.payload).length) := by
  have hopcode : f.incoming.opcode = f.opcode := rfl
  have hpayload : f.incoming.payload = f.payload := rfl
  rw [handleFrame, hopcode, hcont, if_neg (by decide), if_pos rfl]
  dsimp only
  rw [if_pos rfl, hpayload, if_pos hlarge]

/-- Fewer fills than are steady are steady. -/
theorem SteadyFills.mono {n k : Nat} {run : FrameRun} (h : SteadyFills n run) (hle : k ≤ n) :
    SteadyFills k run :=
  ⟨h.fills, hle.trans h.enough⟩

/-- The environment of a list of frames serves the first one and the others. -/
theorem steadyFills_cons {f : ServerFrame} {fs : List ServerFrame} {run : FrameRun}
    (h : SteadyFills (wireBytes (f :: fs)).length run) :
    SteadyFills f.bytes.length run ∧ SteadyFills (wireBytes fs).length run := by
  have hlen : (wireBytes (f :: fs)).length = f.bytes.length + (wireBytes fs).length := by
    rw [wireBytes_cons, List.length_append]
  exact ⟨h.mono (by omega), h.mono (by omega)⟩

/-- **The rest of a message.** -/
theorem receiveLoop_continues_decided {rest : Bytes} :
    ∀ (fs : List ServerFrame) (acc : Bytes) (runs : List FrameRun) (s : WsImpl),
      Continues (fs.map WsPiece.alone) → s.ahead = wireBytes fs ++ rest →
      fs.length ≤ runs.length → (∀ run ∈ runs, SteadyFills (wireBytes fs).length run) →
      MessageDecided fs (acc ++ (fs.map ServerFrame.payload).flatten)
        (exec (WsImpl.receiveLoop none runs ⟨acc, true⟩) s) := by
  intro fs
  induction fs with
  | nil =>
      intro acc runs s hcontinues
      cases hcontinues
  | cons f fs ih =>
      intro acc runs s hcontinues hahead henough hruns
      rcases runs with _ | ⟨run, runs⟩
      · simp at henough
      rw [wireBytes_cons, List.append_assoc] at hahead
      rw [List.map_cons, List.flatten_cons, ← List.append_assoc]
      refine receiveLoop_decided hahead (steadyFills_cons (hruns run (by simp))).1
        (by simp only [List.length_append]; omega) ?_
      intro s₁ hahead₁ _
      have hcont : f.opcode = opCont := hcontinues.head_cont
      by_cases hlarge : wsMaxMessageSize < (acc ++ f.payload).length
      · rw [handleFrame_cont_large hcont run hlarge]
        refine Or.inr ⟨Or.inl ?_, _, s₁, rfl⟩
        rw [List.length_append]
        omega
      · rw [handleFrame_cont hcont run (Nat.le_of_not_lt hlarge)]
        cases fs with
        | nil =>
            have hfin : f.fin = true := hcontinues.2
            rw [hfin, if_pos rfl, List.map_nil, List.flatten_nil, List.append_nil]
            exact Or.inl ⟨Nat.le_of_not_lt hlarge, s₁, rfl⟩
        | cons g fs =>
            have hfin : f.fin = false := hcontinues.2.1
            rw [hfin, if_neg (by simp)]
            exact (ih (acc ++ f.payload) runs s₁ hcontinues.2.2 hahead₁ (by simpa using henough)
              (fun r hr => (steadyFills_cons (hruns r (List.mem_cons_of_mem _ hr))).2)).cons

/-- **One message**: returned, or refused for a reason. -/
theorem receiveBinary_decided (m : BinaryFrames) {rest : Bytes} {runs : List FrameRun} {s : WsImpl}
    (hahead : s.ahead = wireBytes m.frames ++ rest) (henough : m.frames.length ≤ runs.length)
    (hruns : ∀ run ∈ runs, SteadyFills (wireBytes m.frames).length run) :
    MessageDecided m.frames m.content (exec (receiveBinary runs) s) := by
  have hfinal := m.final
  rw [BinaryFrames.frames] at hahead henough hruns ⊢
  rw [BinaryFrames.content, BinaryFrames.frames, List.map_cons, List.flatten_cons, receiveBinary,
    receiveBinaryDeadline]
  rcases runs with _ | ⟨run, runs⟩
  · simp at henough
  rw [wireBytes_cons, List.append_assoc] at hahead
  refine receiveLoop_decided hahead (steadyFills_cons (hruns run (by simp))).1
    (by simp only [List.length_append]; omega) ?_
  intro s₁ hahead₁ hfits
  rw [handleFrame_binary m.binary]
  split at hfinal
  · rename_i hnil
    rw [hfinal, if_pos rfl, hnil, List.map_nil, List.flatten_nil, List.append_nil]
    exact Or.inl ⟨hfits, s₁, rfl⟩
  · rw [hfinal.1, if_neg (by simp)]
    exact (receiveLoop_continues_decided m.rest m.first.payload runs s₁ hfinal.2 hahead₁
      (by simpa using henough)
      (fun r hr => (steadyFills_cons (hruns r (List.mem_cons_of_mem _ hr))).2)).cons

/-- The size decides for a message that is over the limit or has no over-long frame. -/
theorem sizeDecided_of_small_frames {m : BinaryFrames}
    (h : wsMaxMessageSize < m.content.length ∨
      ∀ f ∈ m.frames, f.bytes.length ≤ wsMaxMessageSize + 1) : SizeDecided m := by
  intro rest runs s hahead henough hruns
  obtain ⟨hfits, s', hok⟩ | ⟨hcause, n, s', herror⟩ := receiveBinary_decided m hahead henough hruns
  · exact ⟨fun _ => ⟨s', hok⟩, fun hlarge => absurd hlarge (by omega)⟩
  · refine ⟨fun hfits => ?_, fun _ => ⟨n, s', herror⟩⟩
    rcases hcause with hlarge | ⟨f, hf, hlarge⟩
    · omega
    · rcases h with hcontent | hframes
      · omega
      · have := hframes f hf
        omega

/-! ### Reads of one byte -/

/-- A fill of one byte. -/
def byteFill : List FillRound := [{ waits := [⟨0, .ready⟩], read := .data 0 }]

def byteFills (n : Nat) : FrameRun := { fills := List.replicate n byteFill }

/-- The fill that reads one byte is steady. -/
theorem byteFill_steady : SteadyFill none byteFill where
  polls := by
    intro round hround
    obtain rfl := List.mem_singleton.mp hround
    exact ⟨[], ⟨0, .ready⟩, [], rfl, by simp, rfl, rfl⟩
  reads := by
    intro round hround
    obtain rfl := List.mem_singleton.mp hround
    exact Or.inr ⟨0, rfl⟩
  enough := ⟨_, List.mem_singleton_self _, 0, rfl⟩

/-- So is any number of them. -/
theorem byteFills_steady (n : Nat) : SteadyFills n (byteFills n) := by
  refine ⟨?_, by simp [byteFills]⟩
  intro fill hfill
  obtain rfl := List.eq_of_mem_replicate hfill
  exact byteFill_steady

/-- One such fill moves one byte from the stream to the buffer. -/
theorem exec_byteFill {s : WsImpl} {b : UInt8} {tail : Bytes} (h : s.inbound = b :: tail) :
    exec (streamFill none byteFill) s =
      some (.ok (), { s with inbound := tail, readBuf := s.readBuf ++ [b] }) := by
  have hone : min (0 + 1) (min chunkSize s.inbound.length) = 1 := by
    rw [h, List.length_cons]
    simp only [chunkSize]
    omega
  have hwait := awaitData_steady s (byteFill_steady.polls _ (List.mem_singleton_self _))
  rw [byteFill, streamFill, exec_bind_ok hwait, exec_bind_ok (exec_get _)]
  dsimp only
  rw [readChunk, exec_bind_ok (exec_get _)]
  dsimp only
  rw [hone, if_neg (by decide), exec_set, h]
  rfl

/-- `k` bytes of the frame are in the buffer, the others on their way. -/
def midFrame (s : WsImpl) (f : ServerFrame) (rest : Bytes) (k : Nat) : WsImpl :=
  { s with readBuf := f.bytes.take k, inbound := f.bytes.drop k ++ rest }

/-- In the middle of a frame the frame is still ahead. -/
theorem ahead_midFrame (s : WsImpl) (f : ServerFrame) (rest : Bytes) (k : Nat) :
    (midFrame s f rest k).ahead = f.bytes ++ rest := by
  rw [ahead, midFrame, ← List.append_assoc, List.take_append_drop]

/-- One fill takes the next byte of the frame. -/
theorem exec_byteFill_midFrame {s : WsImpl} {f : ServerFrame} {rest : Bytes} {k : Nat}
    (hk : k < f.bytes.length) :
    exec (streamFill none byteFill) (midFrame s f rest k) =
      some (.ok (), midFrame s f rest (k + 1)) := by
  have hnext : (midFrame s f rest k).inbound = f.bytes[k] :: (f.bytes.drop (k + 1) ++ rest) := by
    rw [midFrame, List.drop_eq_getElem_cons hk, List.cons_append]
  rw [exec_byteFill hnext]
  simp only [midFrame, List.take_append_getElem hk]

/-- With the whole frame in the buffer the frame is taken. -/
theorem nextFrame_midFrame_whole {s : WsImpl} {f : ServerFrame} {rest : Bytes}
    (hpayload : f.payload.length ≤ wsMaxMessageSize) (fills : List (List FillRound)) :
    exec (nextFrame none fills) (midFrame s f rest f.bytes.length) =
      some (.ok f.incoming, { s with readBuf := [], inbound := rest }) := by
  have hlen := f.bytes_length
  have hframe := exec_bufferedFrame_front (ahead_midFrame s f rest f.bytes.length)
  have hbuf : (midFrame s f rest f.bytes.length).readBuf.length = f.bytes.length := by
    rw [midFrame, List.take_length]
  have hstate : { midFrame s f rest f.bytes.length with
      readBuf := (midFrame s f rest f.bytes.length).readBuf.drop f.bytes.length } =
        { s with readBuf := [], inbound := rest } := by
    simp [midFrame]
  rw [hbuf, if_neg (by omega), if_neg (by omega), if_neg (Nat.lt_irrefl _), hstate] at hframe
  cases fills <;> rw [nextFrame, exec_bind_ok hframe] <;> rfl

/-- With the buffer over the limit before the frame is whole, the read fails. -/
theorem nextFrame_midFrame_full {s : WsImpl} {f : ServerFrame} {rest : Bytes}
    (hpayload : f.payload.length ≤ wsMaxMessageSize)
    (hlarge : wsMaxMessageSize + 1 < f.bytes.length) (fills : List (List FillRound)) :
    exec (nextFrame none fills) (midFrame s f rest (wsMaxMessageSize + 1)) =
      some (.error (.payloadTooLarge (wsMaxMessageSize + 1)),
        midFrame s f rest (wsMaxMessageSize + 1)) := by
  have hheader := f.headerSize_le
  have hframe := exec_bufferedFrame_front (ahead_midFrame s f rest (wsMaxMessageSize + 1))
  have hbuf : (midFrame s f rest (wsMaxMessageSize + 1)).readBuf.length = wsMaxMessageSize + 1 := by
    rw [midFrame, List.length_take]
    omega
  rw [hbuf, if_neg (by simp only [wsMaxMessageSize]; omega), if_neg (by omega), if_pos hlarge,
    if_pos (Nat.lt_succ_self _)] at hframe
  cases fills <;> rw [nextFrame, exec_bind_error hframe]

/-- With part of the frame in the buffer, under the limit, there is no frame yet. -/
theorem bufferedFrame_midFrame_part {s : WsImpl} {f : ServerFrame} {rest : Bytes} {k : Nat}
    (hpayload : f.payload.length ≤ wsMaxMessageSize) (hpart : k < f.bytes.length)
    (hlimit : k ≤ wsMaxMessageSize) :
    exec bufferedFrame (midFrame s f rest k) = some (.ok none, midFrame s f rest k) := by
  have hframe := exec_bufferedFrame_front (ahead_midFrame s f rest k)
  have hbuf : (midFrame s f rest k).readBuf.length = k := by
    rw [midFrame, List.length_take]
    omega
  rw [hbuf] at hframe
  by_cases hheader : k < f.headerSize
  · rwa [if_pos hheader] at hframe
  · rwa [if_neg hheader, if_neg (Nat.not_lt.mpr hpayload), if_pos hpart,
      if_neg (Nat.not_lt.mpr hlimit)] at hframe

/-- **Byte by byte** a frame is taken up to one byte beyond the limit, and refused
at that byte if it is longer. -/
theorem nextFrame_bytes (s : WsImpl) {f : ServerFrame} (rest : Bytes)
    (hpayload : f.payload.length ≤ wsMaxMessageSize) :
    ∀ n k, k ≤ f.bytes.length → k ≤ wsMaxMessageSize + 1 → f.bytes.length ≤ k + n →
      exec (nextFrame none (List.replicate n byteFill)) (midFrame s f rest k) =
        if f.bytes.length ≤ wsMaxMessageSize + 1 then
          some (.ok f.incoming, { s with readBuf := [], inbound := rest })
        else
          some (.error (.payloadTooLarge (wsMaxMessageSize + 1)),
            midFrame s f rest (wsMaxMessageSize + 1)) := by
  intro n
  induction n with
  | zero =>
      intro k hk hlimit henough
      obtain rfl : k = f.bytes.length := by omega
      rw [if_pos hlimit]
      exact nextFrame_midFrame_whole hpayload _
  | succ n ih =>
      intro k hk hlimit henough
      by_cases hwhole : k = f.bytes.length
      · subst hwhole
        rw [if_pos hlimit]
        exact nextFrame_midFrame_whole hpayload _
      by_cases hfull : k = wsMaxMessageSize + 1
      · subst hfull
        rw [if_neg (by omega)]
        exact nextFrame_midFrame_full hpayload (by omega) _
      · have hpart : exec bufferedFrame (midFrame s f rest k) =
          some (.ok none, midFrame s f rest k) :=
          bufferedFrame_midFrame_part hpayload (by omega) (by omega)
        have hnext := ih (k + 1) (by omega) (by omega) (by omega)
        rw [List.replicate_succ, nextFrame, exec_bind_ok hpart]
        exact (exec_bind_ok (exec_byteFill_midFrame (by omega))).trans hnext

/-- Byte by byte, a frame is taken exactly when it is not longer than the buffer may get. -/
theorem nextFrame_bytes_start {s : WsImpl} {f : ServerFrame} {rest : Bytes} {n : Nat}
    (hpayload : f.payload.length ≤ wsMaxMessageSize) (hbuf : s.readBuf = [])
    (hinbound : s.inbound = f.bytes ++ rest) (henough : f.bytes.length ≤ n) :
    exec (nextFrame none (byteFills n).fills) s =
      if f.bytes.length ≤ wsMaxMessageSize + 1 then
        some (.ok f.incoming, { s with readBuf := [], inbound := rest })
      else
        some (.error (.payloadTooLarge (wsMaxMessageSize + 1)),
          midFrame s f rest (wsMaxMessageSize + 1)) := by
  have hstart : s = midFrame s f rest 0 := by
    rw [midFrame, List.take_zero, List.drop_zero, ← hbuf, ← hinbound]
  have hbytes := nextFrame_bytes s rest hpayload n 0 (Nat.zero_le _) (Nat.zero_le _) (by omega)
  rw [← hstart] at hbytes
  exact hbytes

/-- **The rest of a message, byte by byte**: refused at its first frame that is too
large with its header. -/
theorem receiveLoop_bytes (rest : Bytes) {n : Nat} :
    ∀ (fs : List ServerFrame) (acc : Bytes) (c : Nat) (s : WsImpl),
      Continues (fs.map WsPiece.alone) → s.readBuf = [] → s.inbound = wireBytes fs ++ rest →
      fs.length ≤ c → (wireBytes fs).length ≤ n →
      (acc ++ (fs.map ServerFrame.payload).flatten).length ≤ wsMaxMessageSize →
      (∃ f ∈ fs, wsMaxMessageSize + 1 < f.bytes.length) →
      ∃ s', exec (WsImpl.receiveLoop none (List.replicate c (byteFills n)) ⟨acc, true⟩) s =
        some (.error (.payloadTooLarge (wsMaxMessageSize + 1)), s') := by
  intro fs
  induction fs with
  | nil =>
      intro acc c s hcontinues
      cases hcontinues
  | cons f fs ih =>
      intro acc c s hcontinues hbuf hinbound hcalls henough hfits hlarge
      obtain ⟨c, rfl⟩ := Nat.exists_eq_succ_of_ne_zero (show c ≠ 0 by simp at hcalls; omega)
      rw [wireBytes_cons, List.append_assoc] at hinbound
      rw [wireBytes_cons, List.length_append] at henough
      rw [List.map_cons, List.flatten_cons, ← List.append_assoc, List.length_append] at hfits
      have hacc : (acc ++ f.payload).length ≤ wsMaxMessageSize := by omega
      have hpayload : f.payload.length ≤ wsMaxMessageSize := by
        rw [List.length_append] at hacc
        omega
      have hnext := nextFrame_bytes_start hpayload hbuf hinbound (n := n) (by omega)
      rw [List.replicate_succ, WsImpl.receiveLoop]
      by_cases hframe : f.bytes.length ≤ wsMaxMessageSize + 1
      · rw [if_pos hframe] at hnext
        rw [exec_bind_ok hnext]
        have hcont : f.opcode = opCont := hcontinues.head_cont
        have hrest : ∃ g ∈ fs, wsMaxMessageSize + 1 < g.bytes.length := by
          simpa [Nat.not_lt.mpr hframe] using hlarge
        rw [handleFrame_cont hcont _ hacc]
        cases fs with
        | nil => simp at hrest
        | cons g fs =>
            have hfin : f.fin = false := hcontinues.2.1
            rw [hfin, if_neg (by simp)]
            refine ih (acc ++ f.payload) c _ hcontinues.2.2 rfl rfl (by simpa using hcalls)
              (by omega) ?_ hrest
            rw [List.length_append]
            exact hfits
      · rw [if_neg hframe] at hnext
        rw [exec_bind_error hnext]
        exact ⟨_, rfl⟩

/-- **One message, byte by byte.** -/
theorem receiveBinary_bytes {m : BinaryFrames} (hfits : m.content.length ≤ wsMaxMessageSize)
    (hlarge : ∃ f ∈ m.frames, wsMaxMessageSize + 1 < f.bytes.length) :
    ∃ s', exec (receiveBinary (List.replicate m.frames.length
        (byteFills (wireBytes m.frames).length))) { inbound := wireBytes m.frames } =
      some (.error (.payloadTooLarge (wsMaxMessageSize + 1)), s') := by
  have hfinal := m.final
  generalize hn : (wireBytes m.frames).length = n
  rw [BinaryFrames.content, BinaryFrames.frames, List.map_cons, List.flatten_cons,
    List.length_append] at hfits
  rw [BinaryFrames.frames] at hlarge hn ⊢
  rw [wireBytes_cons, List.length_append] at hn
  have hnext := nextFrame_bytes_start (f := m.first) (n := n) (by omega)
    (show ({ inbound := wireBytes (m.first :: m.rest) } : WsImpl).readBuf = [] from rfl)
    (wireBytes_cons m.first m.rest) (by omega)
  rw [receiveBinary, receiveBinaryDeadline, List.length_cons, List.replicate_succ,
    WsImpl.receiveLoop]
  by_cases hframe : m.first.bytes.length ≤ wsMaxMessageSize + 1
  · rw [if_pos hframe] at hnext
    rw [exec_bind_ok hnext, handleFrame_binary m.binary]
    have hrest : ∃ g ∈ m.rest, wsMaxMessageSize + 1 < g.bytes.length := by
      simpa [Nat.not_lt.mpr hframe] using hlarge
    have hne : m.rest ≠ [] := by
      obtain ⟨g, hg, _⟩ := hrest
      exact List.ne_nil_of_mem hg
    rw [if_neg hne] at hfinal
    rw [hfinal.1, if_neg (by simp)]
    refine receiveLoop_bytes [] m.rest m.first.payload _ _ hfinal.2 rfl
      (List.append_nil _).symm (Nat.le_refl _) (by omega) ?_ hrest
    rw [List.length_append]
    exact hfits
  · rw [if_neg hframe] at hnext
    rw [exec_bind_error hnext]
    exact ⟨_, rfl⟩

/-- The size does not decide for a message within the limit that has an over-long frame. -/
theorem not_sizeDecided_of_large_frame {m : BinaryFrames}
    (hfits : m.content.length ≤ wsMaxMessageSize)
    (hlarge : ∃ f ∈ m.frames, wsMaxMessageSize + 1 < f.bytes.length) : ¬ SizeDecided m := by
  intro h
  obtain ⟨s, hbytes⟩ := receiveBinary_bytes hfits hlarge
  obtain ⟨s', hok⟩ := (h [] _ { inbound := wireBytes m.frames } (by simp [ahead])
    (Nat.le_of_eq List.length_replicate.symm)
    (fun run hrun => List.eq_of_mem_replicate hrun ▸ byteFills_steady _)).1 hfits
  rw [hbytes] at hok
  simp at hok

/-- **The size limit is a limit on the message** exactly when the message is over it
or none of its frames, with its header, is more than a byte beyond it. -/
theorem size_limit_iff (m : BinaryFrames) :
    SizeDecided m ↔ wsMaxMessageSize < m.content.length ∨
      ∀ f ∈ m.frames, f.bytes.length ≤ wsMaxMessageSize + 1 := by
  refine ⟨fun h => ?_, sizeDecided_of_small_frames⟩
  by_cases hfits : m.content.length ≤ wsMaxMessageSize
  · refine Or.inr (fun f hf => ?_)
    by_contra hbig
    exact not_sizeDecided_of_large_frame hfits ⟨f, hf, Nat.lt_of_not_le hbig⟩ h
  · exact Or.inl (Nat.lt_of_not_le hfits)

/-- A message in one frame, its length in the long form. -/
def longMessage (payload : Bytes) (fits : payload.length < 2 ^ 64) : BinaryFrames where
  first := { first := 0x82, form := .long, payload := payload, fits := fits }
  rest := []
  binary := show (0x82 : UInt8) &&& 0x0F = opBinary by decide
  final := by
    rw [if_pos rfl]
    exact show ((0x82 : UInt8) &&& 0x80 != 0) = true by decide

/-- The content of a message of one frame is its payload. -/
theorem longMessage_content (payload : Bytes) (fits : payload.length < 2 ^ 64) :
    (longMessage payload fits).content = payload := by
  simp [longMessage, BinaryFrames.content, BinaryFrames.frames]

/-- Its frame has ten bytes of header. -/
theorem longMessage_bytes_length (payload : Bytes) (fits : payload.length < 2 ^ 64) :
    (longMessage payload fits).first.bytes.length = 10 + payload.length :=
  ServerFrame.bytes_length _

/-- A message of exactly the limit. -/
def limitMessage : BinaryFrames :=
  longMessage (List.replicate wsMaxMessageSize 0) (by rw [List.length_replicate]; decide)

/-- The sample message is exactly as long as the limit allows. -/
theorem limitMessage_content_length : limitMessage.content.length = wsMaxMessageSize := by
  rw [limitMessage, longMessage_content, List.length_replicate]

/-- Its only frame is over-long. -/
theorem limitMessage_large_frame :
    ∃ f ∈ limitMessage.frames, wsMaxMessageSize + 1 < f.bytes.length := by
  refine ⟨limitMessage.first, List.mem_cons_self, ?_⟩
  rw [limitMessage, longMessage_bytes_length, List.length_replicate]
  omega

/-- It is refused when its bytes come one at a time, so its size does not decide. -/
theorem size_limit_counts_header :
    limitMessage.content.length = wsMaxMessageSize ∧
      (∃ s', exec (receiveBinary (List.replicate limitMessage.frames.length
          (byteFills (wireBytes limitMessage.frames).length)))
        { inbound := wireBytes limitMessage.frames } =
          some (.error (.payloadTooLarge (wsMaxMessageSize + 1)), s')) ∧
      ¬ SizeDecided limitMessage := by
  have hfits := Nat.le_of_eq limitMessage_content_length
  exact ⟨limitMessage_content_length, receiveBinary_bytes hfits limitMessage_large_frame,
    not_sizeDecided_of_large_frame hfits limitMessage_large_frame⟩

end Vynkor
