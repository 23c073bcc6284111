import VynkorSdk.Inbox
import VynkorSdk.WsAssembly

/-!
# Deadlines that pass

A receive bounded by a deadline may fail when part of a message is there.  Some
of what it has taken outlives the call: the bytes of an incomplete WebSocket
frame stay in `read_buf`, the fragments of a message in the reassembly table.
The rest are locals that go with it: the bytes of an incomplete wire frame on
the Unix socket, and the message under assembly on the WebSocket.

So a run of bounded receives loses nothing as long as each deadline passes
before the first byte of a wire frame on the socket, or before the first data
frame of a message on the WebSocket.  One that passes later tears the message.
-/

namespace Vynkor

open ByteCodec Procedure

/-- The wait ends because the deadline has passed. -/
def Overdue (deadline : Int) (waits : List Wait) : Prop :=
  ∃ (early : List Wait) (last : Wait) (late : List Wait), waits = early ++ last :: late ∧
    (∀ wait ∈ early, wait.now < deadline ∧ wait.poll = .eintr) ∧
    (last.now ≥ deadline ∨ last.now < deadline ∧ last.poll = .timeout)

/-- A wait that is overdue times out and takes nothing. -/
theorem awaitReadable_overdue {deadline : Int} (s : Bytes) (waits : List Wait)
    (h : Overdue deadline waits) :
    exec (awaitReadable deadline waits) s = some (.error .timeout, s) := by
  obtain ⟨early, last, late, rfl, hearly, hlast⟩ := h
  rw [exec_retry Client.awaitReadable_eintr hearly, awaitReadable]
  rcases hlast with hnow | ⟨hnow, hpoll⟩
  · rw [if_pos hnow]
    rfl
  · rw [if_neg (by omega), hpoll]
    rfl

namespace WsImpl

/-! ### Receives on the WebSocket -/

/-- So does the poll of a WebSocket. -/
theorem pollReadable_overdue {deadline : Int} (s : WsImpl) (waits : List Wait)
    (h : Overdue deadline waits) :
    exec (pollReadable (some deadline) waits) s = some (.error .timeout, s) := by
  obtain ⟨early, last, late, rfl, hearly, hlast⟩ := h
  have hagain : ∀ wait ∈ early, (some deadline).any (wait.now ≥ ·) = false ∧ wait.poll = .eintr :=
    fun wait hwait => ⟨by simpa using (hearly wait hwait).1, (hearly wait hwait).2⟩
  rw [exec_retry pollReadable_eintr hagain, pollReadable]
  rcases hlast with hnow | ⟨hnow, hpoll⟩
  · rw [if_pos (by simpa using hnow)]
    rfl
  · rw [if_neg (by simpa using hnow), hpoll]
    rfl

/-- The fill ends because the deadline has passed. -/
def OverdueFill (deadline : Option Int) (fill : List FillRound) : Prop :=
  ∃ (d : Int) (early : List FillRound) (last : FillRound) (late : List FillRound),
    deadline = some d ∧ fill = early ++ last :: late ∧
    (∀ round ∈ early, WsReadable deadline round.waits ∧ round.read = .again) ∧
    last.pending = false ∧ Overdue d last.waits

/-- A fill cut short by the deadline changes nothing. -/
theorem streamFill_overdue {deadline : Option Int} (s : WsImpl) (fill : List FillRound)
    (h : OverdueFill deadline fill) :
    exec (streamFill deadline fill) s = some (.error .timeout, s) := by
  obtain ⟨d, early, last, late, rfl, rfl, hearly, hpending, hlast⟩ := h
  have hagain : ∀ (round : FillRound) (rounds : List FillRound),
      WsReadable (some d) round.waits ∧ round.read = .again →
      exec (streamFill (some d) (round :: rounds)) s = exec (streamFill (some d) rounds) s := by
    intro round rounds ⟨hwaits, hread⟩
    rw [streamFill, exec_bind_ok (awaitData_steady s hwaits), exec_bind_ok (exec_get _), hread]
  have hawait : exec (awaitData (some d) last) s = some (.error .timeout, s) := by
    rw [awaitData, exec_bind_ok (exec_get _), hpending, Bool.and_false, if_neg (by simp)]
    exact pollReadable_overdue s _ hlast
  rw [exec_retry hagain hearly, streamFill]
  exact exec_bind_error hawait

/-- A fill that moves bytes is not cut short. -/
theorem steadyFill_not_overdue {deadline : Option Int} {fill : List FillRound}
    (h : SteadyFill deadline fill) : ¬ OverdueFill deadline fill := by
  intro hoverdue
  have hbytes : ({ inbound := [0] } : WsImpl).inbound ≠ [] := List.cons_ne_nil _ _
  obtain ⟨s', hexec, _⟩ := streamFill_steady hbytes fill h
  rw [streamFill_overdue _ fill hoverdue] at hexec
  cases hexec

/-- On an empty stream no fill moves bytes. -/
theorem streamFill_empty {deadline : Option Int} {s : WsImpl} (hempty : s.inbound = []) :
    ∀ fill : List FillRound, SteadyFill deadline fill →
      exec (streamFill deadline fill) s = none := by
  intro fill
  induction fill with
  | nil => exact fun _ => rfl
  | cons round rounds ih =>
      intro h
      rw [streamFill, exec_bind_ok (awaitData_steady s (h.polls round (by simp))),
        exec_bind_ok (exec_get _)]
      rcases h.reads round (by simp) with hagain | ⟨k, hdata⟩
      · rw [hagain]
        refine ih ⟨fun r hr => h.polls r (List.mem_cons_of_mem _ hr),
          fun r hr => h.reads r (List.mem_cons_of_mem _ hr), ?_⟩
        obtain ⟨r, hr, k, hk⟩ := h.enough
        rcases List.mem_cons.mp hr with rfl | hr
        · rw [hagain] at hk
          cases hk
        · exact ⟨r, hr, k, hk⟩
      · rw [hdata]
        dsimp only
        rw [readChunk, exec_bind_ok (exec_get _), hempty]
        simp

/-- The deadline passes in one of these fills. -/
def Expires (deadline : Option Int) (runs : List FrameRun) : Prop :=
  ∃ run ∈ runs, ∃ fill ∈ run.fills, OverdueFill deadline fill

/-- Runs that expire are not all steady. -/
theorem Expires.not_steady {deadline : Option Int} {runs : List FrameRun}
    (h : Expires deadline runs) : ¬ ∀ run ∈ runs, SteadyRun deadline run := by
  intro hsteady
  obtain ⟨run, hrun, fill, hfill, hoverdue⟩ := h
  exact steadyFill_not_overdue ((hsteady run hrun).fills fill hfill) hoverdue

/-- What expires later expires. -/
theorem Expires.cons {deadline : Option Int} {run : FrameRun} {runs : List FrameRun}
    (h : Expires deadline runs) : Expires deadline (run :: runs) := by
  obtain ⟨other, hother, hfill⟩ := h
  exact ⟨other, List.mem_cons_of_mem _ hother, hfill⟩

/-- The environment of a frame without failures; the deadline may pass. -/
structure CalmRun (deadline : Option Int) (run : FrameRun) : Prop where
  fills : ∀ fill ∈ run.fills, SteadyFill deadline fill ∨ OverdueFill deadline fill
  fills_enough : wsMaxMessageSize ≤ run.fills.length ∨
    ∃ fill ∈ run.fills, OverdueFill deadline fill
  rand : run.rand.isSome
  writes : ∀ write ∈ run.writes, write = .again ∨ write.progress = true
  writes_enough : wsMaxMessageSize + clientOverhead ≤ run.writes.countP WsWrite.progress

/-- A steady run is calm. -/
theorem CalmRun.of_steady {deadline : Option Int} {run : FrameRun} (h : SteadyRun deadline run) :
    CalmRun deadline run :=
  ⟨fun fill hfill => .inl (h.fills fill hfill), .inl h.fills_enough, h.rand, h.writes,
    h.writes_enough⟩

/-- **The next frame or the deadline.**  The frame is taken whole, or the stream
stays as it is. -/
theorem nextFrame_calm {deadline : Option Int} {f : ServerFrame} {rest : Bytes}
    (hsize : f.bytes.length ≤ wsMaxMessageSize) :
    ∀ (fills : List (List FillRound)) (s : WsImpl), s.ahead = f.bytes ++ rest →
      (∀ fill ∈ fills, SteadyFill deadline fill ∨ OverdueFill deadline fill) →
      (f.bytes.length ≤ s.readBuf.length + fills.length ∨
        ∃ fill ∈ fills, OverdueFill deadline fill) →
      (∃ s', exec (nextFrame deadline fills) s = some (.ok f.incoming, s') ∧ s'.ahead = rest) ∨
      ∃ s', exec (nextFrame deadline fills) s = some (.error .timeout, s') ∧
        s'.ahead = s.ahead ∧ ∃ fill ∈ fills, OverdueFill deadline fill := by
  intro fills
  induction fills with
  | nil =>
      intro s hahead _ henough
      have hwhole : f.bytes.length ≤ s.readBuf.length := by simpa using henough
      obtain ⟨s', hexec, hrest, _⟩ := nextFrame_buffered hsize [] hahead hwhole
      exact .inl ⟨s', hexec, hrest⟩
  | cons fill fills ih =>
      intro s hahead hfills henough
      by_cases hwhole : f.bytes.length ≤ s.readBuf.length
      · obtain ⟨s', hexec, hrest, _⟩ := nextFrame_buffered hsize (fill :: fills) hahead hwhole
        exact .inl ⟨s', hexec, hrest⟩
      have hframe := exec_bufferedFrame hsize hahead
      rw [if_neg hwhole] at hframe
      rcases hfills fill (by simp) with hfill | hfill
      · obtain ⟨s₁, hexec, hahead₁, hmore, _, _⟩ :=
          streamFill_steady (inbound_ne_nil hahead hwhole) fill hfill
        have hnext : exec (nextFrame deadline (fill :: fills)) s =
            exec (nextFrame deadline fills) s₁ := by
          rw [nextFrame, exec_bind_ok hframe]
          exact exec_bind_ok hexec
        rw [hnext, ← hahead₁]
        have hlater : f.bytes.length ≤ s₁.readBuf.length + fills.length ∨
            ∃ g ∈ fills, OverdueFill deadline g := ?_
        · obtain hwhole | ⟨s', hdue, hkeep, g, hg, hover⟩ := ih s₁ (hahead₁.trans hahead)
            (fun g hg => hfills g (List.mem_cons_of_mem _ hg)) hlater
          · exact .inl hwhole
          · exact .inr ⟨s', hdue, hkeep, g, List.mem_cons_of_mem _ hg, hover⟩
        rcases henough with hlong | ⟨g, hg, hover⟩
        · left
          simp only [List.length_cons] at hlong
          omega
        · rcases List.mem_cons.mp hg with rfl | hg
          · rw [streamFill_overdue s _ hover] at hexec
            cases hexec
          · exact .inr ⟨g, hg, hover⟩
      · refine .inr ⟨s, ?_, rfl, fill, by simp, hfill⟩
        rw [nextFrame, exec_bind_ok hframe]
        exact exec_bind_error (streamFill_overdue s fill hfill)

/-- With nothing ahead the deadline passes, or the call waits on. -/
theorem nextFrame_empty {deadline : Option Int} {s : WsImpl} (hempty : s.ahead = []) :
    ∀ fills : List (List FillRound),
      (∀ fill ∈ fills, SteadyFill deadline fill ∨ OverdueFill deadline fill) →
      exec (nextFrame deadline fills) s = none ∨
        exec (nextFrame deadline fills) s = some (.error .timeout, s) ∧
          ∃ fill ∈ fills, OverdueFill deadline fill := by
  obtain ⟨hbuf, hinbound⟩ := List.append_eq_nil_iff.mp hempty
  have hframe : exec bufferedFrame s = some (.ok none, s) := by
    rw [bufferedFrame, exec_bind_ok (exec_get _), hbuf]
    rfl
  intro fills hfills
  cases fills with
  | nil =>
      left
      rw [nextFrame, exec_bind_ok hframe]
      rfl
  | cons fill fills =>
      rw [nextFrame, exec_bind_ok hframe]
      rcases hfills fill (by simp) with hfill | hfill
      · left
        show exec (streamFill deadline fill >>= _) s = none
        rw [exec_bind, streamFill_empty hinbound fill hfill]
      · exact .inr ⟨exec_bind_error (streamFill_overdue s fill hfill), fill, by simp, hfill⟩

/-- One frame of a receive call, or its deadline. -/
theorem receiveLoop_calm {deadline : Option Int} {f : ServerFrame} {rest : Bytes} {run : FrameRun}
    (hsize : f.bytes.length ≤ wsMaxMessageSize) (hrun : CalmRun deadline run)
    (runs : List FrameRun) (asm : Assembly) {s : WsImpl} (hahead : s.ahead = f.bytes ++ rest) :
    (∃ s₁, s₁.ahead = rest ∧
      exec (receiveLoop deadline (run :: runs) asm) s =
        exec (do
          let handled ← handleFrame f.incoming run asm
          match handled with
          | .inl message => pure message
          | .inr asm => receiveLoop deadline runs asm) s₁) ∨
    ∃ s', exec (receiveLoop deadline (run :: runs) asm) s = some (.error .timeout, s') ∧
      s'.ahead = s.ahead ∧ Expires deadline (run :: runs) := by
  obtain ⟨s₁, hnext, hrest⟩ | ⟨s', hnext, hkeep, hdue⟩ := nextFrame_calm hsize run.fills s hahead
    hrun.fills (hrun.fills_enough.imp_left fun h => le_trans (hsize.trans h) (Nat.le_add_left _ _))
  · refine .inl ⟨s₁, hrest, ?_⟩
    rw [receiveLoop]
    exact exec_bind_ok hnext
  · refine .inr ⟨s', ?_, hkeep, run, by simp, hdue⟩
    rw [receiveLoop]
    exact exec_bind_error hnext

/-- The inserted frames before a message: they are taken, or the deadline passes
among them. -/
theorem receiveLoop_calm_inserts {deadline : Option Int} {rest : Bytes} (asm : Assembly) :
    ∀ (inserts : List ServerFrame) (runs : List FrameRun) (s : WsImpl),
      (∀ f ∈ inserts, f.IsInsert ∧ f.bytes.length ≤ wsMaxMessageSize) →
      (∀ run ∈ runs, CalmRun deadline run) → inserts.length ≤ runs.length →
      s.ahead = wireBytes inserts ++ rest →
      (∃ s', s'.ahead = rest ∧ exec (receiveLoop deadline runs asm) s =
        exec (receiveLoop deadline (runs.drop inserts.length) asm) s') ∨
      ∃ j s', exec (receiveLoop deadline runs asm) s = some (.error .timeout, s') ∧
        s'.ahead = wireBytes (inserts.drop j) ++ rest ∧ Expires deadline runs := by
  intro inserts
  induction inserts with
  | nil =>
      intro runs s _ _ _ hahead
      exact .inl ⟨s, by simpa using hahead, rfl⟩
  | cons f inserts ih =>
      intro runs s hinserts hruns henough hahead
      rcases runs with _ | ⟨run, runs⟩
      · simp at henough
      obtain ⟨hinsert, hsize⟩ := hinserts f (by simp)
      have hcalm := hruns run (by simp)
      have hahead' := hahead
      rw [wireBytes_cons, List.append_assoc] at hahead'
      obtain ⟨s₁, hs₁, hexec⟩ | ⟨s', hexec, hkeep, hdue⟩ :=
        receiveLoop_calm hsize hcalm runs asm hahead'
      · obtain ⟨s₂, hhandle, hs₂⟩ := handleFrame_insert hinsert hsize hcalm.rand hcalm.writes
          hcalm.writes_enough asm s₁
        have hnext : exec (receiveLoop deadline (run :: runs) asm) s =
            exec (receiveLoop deadline runs asm) s₂ := hexec.trans (exec_bind_ok hhandle)
        rw [hnext]
        obtain ⟨s', hrest, hexec'⟩ | ⟨j, s', hexec', hrest, hdue⟩ := ih runs s₂
          (fun g hg => hinserts g (List.mem_cons_of_mem _ hg))
          (fun r hr => hruns r (List.mem_cons_of_mem _ hr)) (by simpa using henough)
          (hs₂.ahead_eq.trans hs₁)
        · exact .inl ⟨s', hrest, hexec'⟩
        · exact .inr ⟨j + 1, s', hexec', hrest, hdue.cons⟩
      · exact .inr ⟨0, s', hexec, hkeep.trans hahead, hdue⟩

/-- Inserted frames with no message behind them: the deadline passes, or the
call waits on. -/
theorem receiveLoop_calm_tail {deadline : Option Int} (asm : Assembly) :
    ∀ (tail : List ServerFrame) (runs : List FrameRun) (s : WsImpl),
      (∀ f ∈ tail, f.IsInsert ∧ f.bytes.length ≤ wsMaxMessageSize) →
      (∀ run ∈ runs, CalmRun deadline run) → s.ahead = wireBytes tail →
      exec (receiveLoop deadline runs asm) s = none ∨
      ∃ j s', exec (receiveLoop deadline runs asm) s = some (.error .timeout, s') ∧
        s'.ahead = wireBytes (tail.drop j) ∧ Expires deadline runs := by
  intro tail
  induction tail with
  | nil =>
      intro runs s _ hruns hahead
      rcases runs with _ | ⟨run, runs⟩
      · exact .inl rfl
      obtain hwaits | ⟨hexec, hdue⟩ := nextFrame_empty hahead run.fills (hruns run (by simp)).fills
      · left
        rw [receiveLoop, exec_bind, hwaits]
      · refine .inr ⟨0, s, ?_, hahead, run, by simp, hdue⟩
        rw [receiveLoop]
        exact exec_bind_error hexec
  | cons f tail ih =>
      intro runs s htail hruns hahead
      rcases runs with _ | ⟨run, runs⟩
      · exact .inl rfl
      obtain ⟨hinsert, hsize⟩ := htail f (by simp)
      have hcalm := hruns run (by simp)
      have hahead' := hahead
      rw [wireBytes_cons] at hahead'
      obtain ⟨s₁, hs₁, hexec⟩ | ⟨s', hexec, hkeep, hdue⟩ :=
        receiveLoop_calm hsize hcalm runs asm hahead'
      · obtain ⟨s₂, hhandle, hs₂⟩ := handleFrame_insert hinsert hsize hcalm.rand hcalm.writes
          hcalm.writes_enough asm s₁
        have hnext : exec (receiveLoop deadline (run :: runs) asm) s =
            exec (receiveLoop deadline runs asm) s₂ := hexec.trans (exec_bind_ok hhandle)
        rw [hnext]
        obtain hwaits | ⟨j, s', hexec', hrest, hdue⟩ := ih runs s₂
          (fun g hg => htail g (List.mem_cons_of_mem _ hg))
          (fun r hr => hruns r (List.mem_cons_of_mem _ hr)) (hs₂.ahead_eq.trans hs₁)
        · exact .inl hwaits
        · exact .inr ⟨j + 1, s', hexec', hrest, hdue.cons⟩
      · exact .inr ⟨0, s', hexec, hkeep.trans hahead, hdue⟩

end WsImpl

/-- The message without the first `j` of the frames inserted before it. -/
def WsMessage.skip (m : WsMessage) (j : Nat) : WsMessage where
  first :=
    { m.first with
      inserts := m.first.inserts.drop j
      inserted := fun f hf => m.first.inserted f (List.mem_of_mem_drop hf) }
  rest := m.rest
  binary := m.binary
  final := m.final

/-- A message's frames: what is inserted first, its first piece, the rest. -/
theorem WsMessage.frames_eq (m : WsMessage) :
    m.frames = m.first.inserts ++ m.first.data :: m.rest.flatMap WsPiece.frames := by
  simp [WsMessage.frames, WsPiece.frames]

/-- The frames of a message without the first inserted ones. -/
theorem WsMessage.skip_frames (m : WsMessage) (j : Nat) :
    (m.skip j).frames = m.first.inserts.drop j ++ m.first.data ::
      m.rest.flatMap WsPiece.frames := by
  rw [WsMessage.frames_eq]
  rfl

/-- Skipping inserted frames keeps a message within its bounds. -/
theorem WsMessage.Bounded.skip {m : WsMessage} (h : m.Bounded) (j : Nat) : (m.skip j).Bounded := by
  refine ⟨fun f hf => h.frames_le f ?_, h.content_le⟩
  rw [m.skip_frames] at hf
  rw [m.frames_eq]
  rcases List.mem_append.mp hf with hf | hf
  · exact List.mem_append_left _ (List.mem_of_mem_drop hf)
  · exact List.mem_append_right _ hf

namespace WsImpl

/-- **One message or the deadline.**  If the deadline passes only before the
first data frame has come, the call returns the message or leaves it ahead. -/
theorem receiveBinaryDeadline_calm {deadline : Option Int} {m : WsMessage} (hm : m.Bounded)
    {rest : Bytes} {runs : List FrameRun} {s : WsImpl} (hcalm : ∀ run ∈ runs, CalmRun deadline run)
    (hsteady : ∀ run ∈ runs.drop m.first.frames.length, SteadyRun deadline run)
    (henough : m.frames.length ≤ runs.length) (hahead : s.ahead = wireBytes m.frames ++ rest) :
    (∃ s', exec (receiveBinaryDeadline deadline runs) s = some (.ok m.content, s') ∧
      s'.ahead = rest) ∨
    ∃ j s', exec (receiveBinaryDeadline deadline runs) s = some (.error .timeout, s') ∧
      s'.ahead = wireBytes (m.skip j).frames ++ rest ∧ Expires deadline runs := by
  have hsize := hm.frames_le
  have hfirst : m.first.frames.length = m.first.inserts.length + 1 := by simp [WsPiece.frames]
  rw [m.frames_eq] at hsize henough hahead
  rw [hfirst] at hsteady
  simp only [List.length_append, List.length_cons] at henough
  rw [wireBytes_append, wireBytes_cons, List.append_assoc, List.append_assoc] at hahead
  unfold receiveBinaryDeadline
  obtain ⟨s₁, hs₁, hexec₁⟩ | ⟨j, s', hexec, hleft, hdue⟩ :=
    receiveLoop_calm_inserts {} m.first.inserts
    runs s (fun f hf => ⟨m.first.inserted f hf, hsize f (List.mem_append_left _ hf)⟩) hcalm
    (by omega) hahead
  rotate_left
  · refine .inr ⟨j, s', hexec, ?_, hdue⟩
    rw [hleft, m.skip_frames, wireBytes_append, wireBytes_cons, List.append_assoc,
      List.append_assoc]
  obtain ⟨run, hrun⟩ : ∃ run, runs.drop m.first.inserts.length =
      run :: runs.drop (m.first.inserts.length + 1) := ⟨_, List.drop_eq_getElem_cons (by omega)⟩
  have hrunCalm : CalmRun deadline run :=
    hcalm run (List.mem_of_mem_drop (hrun ▸ List.mem_cons_self))
  rw [hexec₁, hrun]
  obtain ⟨s₂, hs₂, hexec₂⟩ | ⟨s', hexec, hkeep, hdue⟩ :=
    receiveLoop_calm (hsize m.first.data (by simp)) hrunCalm _ {} hs₁
  rotate_left
  · obtain ⟨late, hlate, hover⟩ := hdue
    rw [← hrun] at hlate
    refine .inr ⟨m.first.inserts.length, s', hexec, ?_, late, List.mem_of_mem_drop hlate, hover⟩
    rw [hkeep, hs₁, m.skip_frames, List.drop_length, List.nil_append, wireBytes_cons,
      List.append_assoc]
  -- The first data frame has come: from here on nothing is overdue.
  left
  have hfinal := m.final
  rw [hexec₂, handleFrame_binary m.binary]
  split at hfinal
  · rename_i hnil
    rw [hfinal, if_pos rfl]
    rw [hnil] at hs₂
    exact ⟨s₂, by simp [WsMessage.content, hnil], by simpa using hs₂⟩
  · rw [hfinal.1, if_neg (by simp)]
    obtain ⟨s', hexec, hs'⟩ := receiveLoop_continues m.rest m.first.data.payload
      (runs.drop (m.first.inserts.length + 1)) s₂ hfinal.2
      (fun f hf => hsize f (List.mem_append_right _ (List.mem_cons_of_mem _ hf)))
      hm.content_le hsteady (by rw [List.length_drop]; omega) hs₂
    exact ⟨s', hexec, hs'.ahead_eq⟩

/-! ### Where the frames of a stream end -/

/-- How many frames of the stream come up to the first one that `stop` holds of,
by the decoder. -/
def framesUntil (stop : WsIncomingFrame → Bool) : Nat → Bytes → Nat
  | 0, _ => 0
  | fuel + 1, stream =>
      match wsTryDecodeServerFrame stream with
      | .ok (some (frame, consumed)) =>
          if stop frame then 1 else framesUntil stop fuel (stream.drop consumed) + 1
      | _ => 0

/-- The frames up to the first data frame. -/
def leadIn (stream : Bytes) : Nat :=
  framesUntil (fun frame => frame.opcode == opBinary) stream.length stream

/-- The last frame of a message. -/
def endsMessage (frame : WsIncomingFrame) : Bool :=
  frame.fin && (frame.opcode == opBinary || frame.opcode == opCont)

def messageSpan (stream : Bytes) : Nat := framesUntil endsMessage stream.length stream

/-- Counting frames stops at the first one that the caller looks for. -/
theorem framesUntil_wire {stop : WsIncomingFrame → Bool} {f : ServerFrame} {rest : Bytes}
    (hstop : stop f.incoming = true) :
    ∀ (before : List ServerFrame) (fuel : Nat), (∀ g ∈ before, stop g.incoming = false) →
      (∀ g ∈ before ++ [f], g.bytes.length ≤ wsMaxMessageSize) → before.length < fuel →
      framesUntil stop fuel (wireBytes (before ++ [f]) ++ rest) = before.length + 1 := by
  intro before
  induction before with
  | nil =>
      intro fuel _ hsize hfuel
      obtain ⟨fuel, rfl⟩ : ∃ n, fuel = n + 1 := ⟨fuel - 1, by simp at hfuel; omega⟩
      have hdecode := decode_buffer f (hsize f (by simp)) (List.append_nil (f.bytes ++ rest))
      rw [if_pos (by simp)] at hdecode
      simp only [List.nil_append, wireBytes_cons, wireBytes_nil, List.append_nil, framesUntil]
      rw [hdecode]
      simp [hstop]
  | cons g before ih =>
      intro fuel hbefore hsize hfuel
      obtain ⟨fuel, rfl⟩ : ∃ n, fuel = n + 1 := ⟨fuel - 1, by omega⟩
      have hdecode := decode_buffer g (hsize g (by simp))
        (List.append_nil (g.bytes ++ (wireBytes (before ++ [f]) ++ rest)))
      rw [if_pos (by simp)] at hdecode
      rw [List.cons_append, wireBytes_cons, List.append_assoc, framesUntil, hdecode]
      simp only [hbefore g (by simp), List.drop_left]
      rw [if_neg (by simp), ih fuel (fun h hh => hbefore h (List.mem_cons_of_mem _ hh))
        (fun h hh => hsize h (List.mem_cons_of_mem _ hh))
        (by simp only [List.length_cons] at hfuel; omega)]
      rfl

/-- Each frame takes at least one byte. -/
theorem length_le_wireBytes : ∀ frames : List ServerFrame,
    frames.length ≤ (wireBytes frames).length := by
  intro frames
  induction frames with
  | nil => simp
  | cons f frames ih =>
      rw [wireBytes_cons, List.length_append, List.length_cons]
      have : 1 ≤ f.bytes.length := by simp [ServerFrame.bytes]
      omega

/-- Text frames, pings and pongs carry no data. -/
theorem opcode_insert {f : ServerFrame} (h : f.IsInsert) :
    (f.opcode == opBinary) = false ∧ (f.opcode == opCont) = false := by
  rcases h with ⟨h, _⟩ | h | h <;> rw [h] <;> decide

/-- An inserted frame ends no message. -/
theorem endsMessage_insert {f : ServerFrame} (h : f.IsInsert) : endsMessage f.incoming = false := by
  obtain ⟨hbinary, hcont⟩ := opcode_insert h
  show (f.fin && (f.opcode == opBinary || f.opcode == opCont)) = false
  rw [hbinary, hcont, Bool.or_self, Bool.and_false]

/-- The lead-in of a message is the frames up to its first piece. -/
theorem leadIn_message {m : WsMessage} (hm : m.Bounded) (rest : Bytes) :
    leadIn (wireBytes m.frames ++ rest) = m.first.frames.length := by
  have hframes : m.frames = m.first.frames ++ m.rest.flatMap WsPiece.frames := by
    rw [WsMessage.frames, List.flatMap_cons]
  have hsize := hm.frames_le
  have hlong := length_le_wireBytes m.first.frames
  have hdata : (m.first.data.incoming.opcode == opBinary) = true := beq_iff_eq.mpr m.binary
  rw [leadIn, hframes, wireBytes_append, List.append_assoc]
  rw [hframes] at hsize
  rw [WsPiece.frames] at hlong hsize ⊢
  rw [List.length_append, List.length_singleton] at hlong
  have hcount : (m.first.inserts ++ [m.first.data]).length = m.first.inserts.length + 1 :=
    List.length_append
  rw [hcount]
  refine framesUntil_wire hdata _ _ (fun g hg => (opcode_insert (m.first.inserted g hg)).1)
    (fun g hg => hsize g (List.mem_append_left _ hg)) ?_
  rw [List.length_append]
  omega

/-- The last frame of a message, and no earlier one, ends it. -/
theorem continues_last : ∀ ps : List WsPiece, Continues ps →
    ∃ (before : List ServerFrame) (last : ServerFrame),
      ps.flatMap WsPiece.frames = before ++ [last] ∧
      endsMessage last.incoming = true ∧ ∀ g ∈ before, endsMessage g.incoming = false := by
  intro ps
  induction ps with
  | nil =>
      intro h
      cases h
  | cons p ps ih =>
      intro h
      have hinserts : ∀ g ∈ p.inserts, endsMessage g.incoming = false :=
        fun g hg => endsMessage_insert (p.inserted g hg)
      rcases ps with _ | ⟨q, ps⟩
      · obtain ⟨hcont, hfin⟩ := h
        refine ⟨p.inserts, p.data, by simp [WsPiece.frames], ?_, hinserts⟩
        show (p.data.fin && (p.data.opcode == opBinary || p.data.opcode == opCont)) = true
        simp [hfin, hcont]
      · obtain ⟨_, hfin, hrest⟩ := h
        obtain ⟨before, last, hsplit, hlast, hbefore⟩ := ih hrest
        refine ⟨p.frames ++ before, last, by rw [List.flatMap_cons, hsplit, List.append_assoc],
          hlast, ?_⟩
        intro g hg
        simp only [WsPiece.frames, List.mem_append, List.mem_singleton] at hg
        rcases hg with (hg | rfl) | hg
        · exact hinserts g hg
        · show (p.data.fin && _) = false
          rw [hfin, Bool.false_and]
        · exact hbefore g hg

/-- The span of a message is all of its frames. -/
theorem messageSpan_message {m : WsMessage} (hm : m.Bounded) (rest : Bytes) :
    messageSpan (wireBytes m.frames ++ rest) = m.frames.length := by
  obtain ⟨before, last, hsplit, hlast, hbefore⟩ :
      ∃ (before : List ServerFrame) (last : ServerFrame), m.frames = before ++ [last] ∧
      endsMessage last.incoming = true ∧ ∀ g ∈ before, endsMessage g.incoming = false := by
    have hinserts : ∀ g ∈ m.first.inserts, endsMessage g.incoming = false :=
      fun g hg => endsMessage_insert (m.first.inserted g hg)
    have hdata : endsMessage m.first.data.incoming = m.first.data.fin := by
      show (m.first.data.fin && (m.first.data.opcode == opBinary || _)) = _
      simp [m.binary]
    have hfinal := m.final
    rw [m.frames_eq]
    split at hfinal
    · rename_i hnil
      exact ⟨m.first.inserts, m.first.data, by simp [hnil], hdata.trans hfinal, hinserts⟩
    · obtain ⟨before, last, hrest, hlast, hbefore⟩ := continues_last m.rest hfinal.2
      refine ⟨m.first.inserts ++ m.first.data :: before, last, by simp [hrest], hlast, ?_⟩
      intro g hg
      rcases List.mem_append.mp hg with hg | hg
      · exact hinserts g hg
      · rcases List.mem_cons.mp hg with rfl | hg
        · rw [hdata, hfinal.1]
        · exact hbefore g hg
  have hsize := hm.frames_le
  have hlong := length_le_wireBytes m.frames
  rw [hsplit] at hsize hlong
  rw [List.length_append, List.length_singleton] at hlong
  have hcount : (before ++ [last]).length = before.length + 1 := List.length_append
  rw [messageSpan, hsplit, hcount]
  refine framesUntil_wire hlast before _ hbefore hsize ?_
  rw [List.length_append]
  omega

end WsImpl

end Vynkor
