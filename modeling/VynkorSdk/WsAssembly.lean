import VynkorSdk.WsConnection

/-!
# Assembling WebSocket messages

A server sends binary messages, each cut into a binary frame and continuation
frames, with text frames, pings and pongs in between.  However the bytes arrive,
and whatever of them came with the handshake response, successive
`receive_binary` calls return the messages, and each ping met on the way has
been answered.

What is in `read_buf` and what is still on its way are together the rest of the
stream; every step of the receive loop keeps that.
-/

namespace Vynkor

open ByteCodec Procedure

/-! ### What a server sends -/

namespace ServerFrame

/-- An unfragmented text frame, a ping or a pong. -/
def IsInsert (f : ServerFrame) : Prop :=
  (f.opcode = opText ∧ f.fin = true) ∨ f.opcode = opPing ∨ f.opcode = opPong

/-- The payload of a ping. -/
def ping? (f : ServerFrame) : Option Bytes := if f.opcode = opPing then some f.payload else none

end ServerFrame

/-- A data frame behind the frames inserted before it. -/
structure WsPiece where
  inserts : List ServerFrame
  data : ServerFrame
  inserted : ∀ f ∈ inserts, f.IsInsert

namespace WsPiece

/-- A data frame with nothing before it. -/
def alone (data : ServerFrame) : WsPiece := ⟨[], data, by simp⟩

def frames (p : WsPiece) : List ServerFrame := p.inserts ++ [p.data]

def pings (p : WsPiece) : List Bytes := p.inserts.filterMap ServerFrame.ping?

end WsPiece

/-- The continuation frames of a message: the last one, and only it, is final. -/
def Continues : List WsPiece → Prop
  | [] => False
  | [p] => p.data.opcode = opCont ∧ p.data.fin = true
  | p :: ps => p.data.opcode = opCont ∧ p.data.fin = false ∧ Continues ps

/-- The next piece of a message continues it. -/
theorem Continues.head_cont {p : WsPiece} {ps : List WsPiece} (h : Continues (p :: ps)) :
    p.data.opcode = opCont := by
  cases ps with
  | nil => exact h.1
  | cons q ps => exact h.1

/-- A binary message: one final binary frame, or a binary frame and its
continuation. -/
structure WsMessage where
  first : WsPiece
  rest : List WsPiece
  binary : first.data.opcode = opBinary
  final : if rest = [] then first.data.fin = true else first.data.fin = false ∧ Continues rest

namespace WsMessage

variable (m : WsMessage)

def frames : List ServerFrame := (m.first :: m.rest).flatMap WsPiece.frames

def bytes : Bytes := (m.frames.map ServerFrame.bytes).flatten

def content : Bytes := ((m.first :: m.rest).map (fun p => p.data.payload)).flatten

def pings : List Bytes := (m.first :: m.rest).flatMap WsPiece.pings

/-- Neither a frame nor the message exceeds `WS_MAX_MESSAGE_SIZE`. -/
structure Bounded : Prop where
  frames_le : ∀ f ∈ m.frames, f.bytes.length ≤ wsMaxMessageSize
  content_le : m.content.length ≤ wsMaxMessageSize

end WsMessage

/-! ### Streams that keep going -/

/-- The poll ends with a readable stream, before the deadline if there is one. -/
def WsReadable (deadline : Option Int) (waits : List Wait) : Prop :=
  ∃ (early : List Wait) (ready : Wait) (late : List Wait), waits = early ++ ready :: late ∧
    (∀ wait ∈ early, deadline.any (wait.now ≥ ·) = false ∧ wait.poll = .eintr) ∧
    deadline.any (ready.now ≥ ·) = false ∧ ready.poll = .ready

/-- The fill moves bytes: only interruptions before a read of one byte at
least. -/
structure SteadyFill (deadline : Option Int) (fill : List FillRound) : Prop where
  polls : ∀ round ∈ fill, WsReadable deadline round.waits
  reads : ∀ round ∈ fill, round.read = .again ∨ ∃ k, round.read = .data k
  enough : ∃ round ∈ fill, ∃ k, round.read = .data k

def WsWrite.progress : WsWrite → Bool
  | .wrote _ => true
  | _ => false

/-- The environment lets a frame through, and a reply of the same size. -/
structure SteadyRun (deadline : Option Int) (run : WsImpl.FrameRun) : Prop where
  fills : ∀ fill ∈ run.fills, SteadyFill deadline fill
  fills_enough : wsMaxMessageSize ≤ run.fills.length
  rand : run.rand.isSome
  writes : ∀ write ∈ run.writes, write = .again ∨ write.progress = true
  writes_enough : wsMaxMessageSize + clientOverhead ≤ run.writes.countP WsWrite.progress

namespace WsImpl

/-- What of the stream the client has not taken yet. -/
def ahead (s : WsImpl) : Bytes := s.readBuf ++ s.inbound

/-- An interrupted poll is made again. -/
theorem pollReadable_eintr {deadline : Option Int} {s : WsImpl} (wait : Wait) (waits : List Wait)
    (h : deadline.any (wait.now ≥ ·) = false ∧ wait.poll = .eintr) :
    exec (pollReadable deadline (wait :: waits)) s = exec (pollReadable deadline waits) s := by
  obtain ⟨hnow, hpoll⟩ := h
  rw [pollReadable, hnow, if_neg (by simp), hpoll]

/-- A steady wait ends with the socket readable. -/
theorem pollReadable_steady {deadline : Option Int} (s : WsImpl) (waits : List Wait)
    (h : WsReadable deadline waits) :
    exec (pollReadable deadline waits) s = some (.ok (), s) := by
  obtain ⟨early, ready, late, rfl, hearly, hnow, hpoll⟩ := h
  rw [exec_retry pollReadable_eintr hearly, pollReadable, hnow, if_neg (by simp), hpoll]
  rfl

/-- So does the wait of a fill. -/
theorem awaitData_steady {deadline : Option Int} {round : FillRound} (s : WsImpl)
    (h : WsReadable deadline round.waits) :
    exec (awaitData deadline round) s = some (.ok (), s) := by
  rw [awaitData, exec_bind_ok (exec_get _)]
  split
  · rfl
  · exact pollReadable_steady s round.waits h

/-- A read moves a non-empty front of what is on its way. -/
theorem readChunk_some (k : Nat) {s : WsImpl} (h : s.inbound ≠ []) :
    ∃ s', exec (readChunk k) s = some (.ok (), s') ∧ s'.ahead = s.ahead ∧
      s.readBuf.length < s'.readBuf.length ∧ s'.outbound = s.outbound ∧ s'.tls = s.tls := by
  have hpos : 0 < s.inbound.length := List.length_pos_iff.mpr h
  let n := min (k + 1) (min chunkSize s.inbound.length)
  have hn : n ≠ 0 := by
    simp only [n, chunkSize]
    omega
  refine ⟨{ s with inbound := s.inbound.drop n, readBuf := s.readBuf ++ s.inbound.take n }, ?_, ?_,
    ?_, rfl, rfl⟩
  · rw [readChunk, exec_bind_ok (exec_get _)]
    dsimp only
    rw [if_neg hn, exec_set]
  · simp [ahead]
  · simp only [List.length_append, List.length_take]
    omega

/-- **One fill**: some bytes come into the buffer, none is lost. -/
theorem streamFill_steady {deadline : Option Int} {s : WsImpl} (hinbound : s.inbound ≠ []) :
    ∀ fill : List FillRound, SteadyFill deadline fill →
      ∃ s', exec (streamFill deadline fill) s = some (.ok (), s') ∧ s'.ahead = s.ahead ∧
        s.readBuf.length < s'.readBuf.length ∧ s'.outbound = s.outbound ∧ s'.tls = s.tls := by
  intro fill
  induction fill with
  | nil =>
      intro h
      obtain ⟨round, hmem, _⟩ := h.enough
      cases hmem
  | cons round rounds ih =>
      intro h
      rw [streamFill, exec_bind_ok (awaitData_steady s (h.polls round (by simp))),
        exec_bind_ok (exec_get _)]
      rcases h.reads round (by simp) with hagain | ⟨k, hdata⟩
      · rw [hagain]
        refine ih ⟨fun r hr => h.polls r (List.mem_cons_of_mem _ hr),
          fun r hr => h.reads r (List.mem_cons_of_mem _ hr), ?_⟩
        obtain ⟨r, hr, k, hk⟩ := h.enough
        rcases List.mem_cons.mp hr with rfl | hr
        · rw [hagain] at hk
          cases hk
        · exact ⟨r, hr, k, hk⟩
      · rw [hdata]
        exact readChunk_some k hinbound

/-- The frame in front comes off the buffer once it is there. -/
theorem exec_bufferedFrame {f : ServerFrame} {rest : Bytes} {s : WsImpl}
    (hsize : f.bytes.length ≤ wsMaxMessageSize) (hahead : s.ahead = f.bytes ++ rest) :
    exec bufferedFrame s =
      if f.bytes.length ≤ s.readBuf.length then
        some (.ok (some f.incoming), { s with readBuf := s.readBuf.drop f.bytes.length })
      else
        some (.ok none, s) := by
  rw [bufferedFrame, exec_bind_ok (exec_get _), decode_buffer f hsize hahead]
  split
  · rfl
  · rw [exec_bind_ok (exec_settle _ _)]
    dsimp only
    rw [if_neg (by omega)]
    rfl

/-- A frame that is in the buffer does not need the fills. -/
theorem nextFrame_buffered {deadline : Option Int} {f : ServerFrame} {rest : Bytes}
    (hsize : f.bytes.length ≤ wsMaxMessageSize) (fills : List (List FillRound)) {s : WsImpl}
    (hahead : s.ahead = f.bytes ++ rest) (hwhole : f.bytes.length ≤ s.readBuf.length) :
    ∃ s', exec (nextFrame deadline fills) s = some (.ok f.incoming, s') ∧ s'.ahead = rest ∧
      s'.outbound = s.outbound ∧ s'.tls = s.tls := by
  have hframe := exec_bufferedFrame hsize hahead
  rw [if_pos hwhole] at hframe
  refine ⟨{ s with readBuf := s.readBuf.drop f.bytes.length }, ?_, ?_, rfl, rfl⟩
  · cases fills <;> rw [nextFrame, exec_bind_ok hframe] <;> rfl
  · have hdrop := congrArg (List.drop f.bytes.length) hahead
    rw [ahead, List.drop_append_of_le_length hwhole, List.drop_left] at hdrop
    exact hdrop

/-- Bytes of an incomplete frame are still on their way. -/
theorem inbound_ne_nil {f : ServerFrame} {rest : Bytes} {s : WsImpl}
    (hahead : s.ahead = f.bytes ++ rest) (hpart : ¬ f.bytes.length ≤ s.readBuf.length) :
    s.inbound ≠ [] := by
  intro hnil
  have hlen := congrArg List.length hahead
  rw [ahead, hnil] at hlen
  simp only [List.append_nil, List.length_append] at hlen
  omega

/-- **The next frame** is taken whole, however its bytes arrive. -/
theorem nextFrame_steady {deadline : Option Int} {f : ServerFrame} {rest : Bytes}
    (hsize : f.bytes.length ≤ wsMaxMessageSize) :
    ∀ (fills : List (List FillRound)) (s : WsImpl), s.ahead = f.bytes ++ rest →
      (∀ fill ∈ fills, SteadyFill deadline fill) →
      f.bytes.length ≤ s.readBuf.length + fills.length →
      ∃ s', exec (nextFrame deadline fills) s = some (.ok f.incoming, s') ∧ s'.ahead = rest ∧
        s'.outbound = s.outbound ∧ s'.tls = s.tls := by
  intro fills
  induction fills with
  | nil =>
      intro s hahead _ henough
      exact nextFrame_buffered hsize [] hahead (by simpa using henough)
  | cons fill fills ih =>
      intro s hahead hfills henough
      by_cases hwhole : f.bytes.length ≤ s.readBuf.length
      · exact nextFrame_buffered hsize (fill :: fills) hahead hwhole
      · have hframe := exec_bufferedFrame hsize hahead
        rw [if_neg hwhole] at hframe
        obtain ⟨s₁, hfill, hahead₁, hmore, hout₁, htls₁⟩ :=
          streamFill_steady (inbound_ne_nil hahead hwhole) fill (hfills fill (by simp))
        obtain ⟨s', hrun, hrest, hout, htls⟩ := ih s₁ (hahead₁.trans hahead)
          (fun g hg => hfills g (List.mem_cons_of_mem _ hg))
          (by simp only [List.length_cons] at henough; omega)
        refine ⟨s', ?_, hrest, hout.trans hout₁, htls.trans htls₁⟩
        rw [nextFrame, exec_bind_ok hframe]
        exact (exec_bind_ok hfill).trans hrun

/-- Short writes put the whole reply on the stream. -/
theorem streamWriteAll_steady {writes : List WsWrite} (frame : Bytes) (s : WsImpl)
    (hsound : ∀ write ∈ writes, write = .again ∨ write.progress = true)
    (henough : frame.length ≤ writes.countP WsWrite.progress) :
    exec (streamWriteAll writes frame) s =
      some (.ok (), { s with outbound := s.outbound ++ frame }) := by
  have hdrains : ∀ write ∈ writes, Drains streamWriteAll
      (fun written s => { s with outbound := s.outbound ++ written }) WsWrite.progress write := by
    intro write hwrite
    rcases hsound write hwrite with rfl | hprogress
    · exact ⟨fun _ _ _ _ _ => rfl, fun hmoves => by cases hmoves⟩
    · refine ⟨fun hretry => absurd (hretry.symm.trans hprogress) (by simp), fun _ => ?_⟩
      cases write with
      | wrote k => exact ⟨k, fun _ _ _ _ => rfl⟩
      | _ => cases hprogress
  refine exec_drain (fun writes s => ?_) (fun _ _ s => ?_) hdrains frame s henough
  · simp [streamWriteAll]
  · simp [List.append_assoc]

/-! ### Frame by frame -/

/-- One pong for each ping, with its payload and in order. -/
def PongsFor (pings : List Bytes) (out : Bytes) : Prop :=
  ∃ pongs, List.Forall₂ (fun payload pong =>
    ∃ mask, wsEncodeClientFrame opPong (some mask) payload = .ok pong) pings pongs ∧
    out = pongs.flatten

/-- The client has come to `rest`, with the pings on the way answered. -/
structure Answered (s : WsImpl) (pings : List Bytes) (rest : Bytes) (s' : WsImpl) : Prop where
  ahead_eq : s'.ahead = rest
  pongs : ∃ out, PongsFor pings out ∧ s'.outbound = s.outbound ++ out

/-- Pings answered one stretch after another are answered in order. -/
theorem Answered.trans {s₁ s₂ s₃ : WsImpl} {pings pings' : List Bytes} {rest rest' : Bytes}
    (h : Answered s₁ pings rest s₂) (h' : Answered s₂ pings' rest' s₃) :
    Answered s₁ (pings ++ pings') rest' s₃ := by
  obtain ⟨_, ⟨pongs, hpongs, rfl⟩, hout⟩ := h.pongs
  obtain ⟨_, ⟨pongs', hpongs', rfl⟩, hout'⟩ := h'.pongs
  refine ⟨h'.ahead_eq, (pongs ++ pongs').flatten, ⟨pongs ++ pongs', List.rel_append hpongs hpongs',
    rfl⟩, ?_⟩
  rw [hout', hout, List.append_assoc, List.flatten_append]

/-- Where nothing is sent, no ping was answered. -/
theorem Answered.of_quiet {s s' : WsImpl} {rest : Bytes} (hahead : s'.ahead = rest)
    (hout : s'.outbound = s.outbound) : Answered s [] rest s' :=
  ⟨hahead, [], ⟨[], .nil, rfl⟩, by simp [hout]⟩

/-- A frame is taken and handled. -/
theorem receiveLoop_frame {deadline : Option Int} {f : ServerFrame} {rest : Bytes} {run : FrameRun}
    (hsize : f.bytes.length ≤ wsMaxMessageSize) (hrun : SteadyRun deadline run)
    (runs : List FrameRun) (asm : Assembly) {s : WsImpl} (hahead : s.ahead = f.bytes ++ rest) :
    ∃ s₁, Answered s [] rest s₁ ∧
      exec (receiveLoop deadline (run :: runs) asm) s =
        exec (do
          let handled ← handleFrame f.incoming run asm
          match handled with
          | .inl message => pure message
          | .inr asm => receiveLoop deadline runs asm) s₁ := by
  obtain ⟨s₁, hnext, hrest, hout, _⟩ := nextFrame_steady hsize run.fills s hahead hrun.fills
    (le_trans (hsize.trans hrun.fills_enough) (Nat.le_add_left _ _))
  refine ⟨s₁, .of_quiet hrest hout, ?_⟩
  rw [receiveLoop]
  exact exec_bind_ok hnext

/-- **An inserted frame** changes nothing about the message; a ping is
answered. -/
theorem handleFrame_insert {f : ServerFrame} {run : FrameRun} (hinsert : f.IsInsert)
    (hsize : f.bytes.length ≤ wsMaxMessageSize) (hrand : run.rand.isSome)
    (hwrites : ∀ write ∈ run.writes, write = .again ∨ write.progress = true)
    (henough : wsMaxMessageSize + clientOverhead ≤ run.writes.countP WsWrite.progress)
    (asm : Assembly) (s : WsImpl) :
    ∃ s', exec (handleFrame f.incoming run asm) s = some (.ok (.inr asm), s') ∧
      Answered s f.ping?.toList s.ahead s' := by
  have hopcode : f.incoming.opcode = f.opcode := rfl
  have hquiet : Answered s [] s.ahead s := .of_quiet rfl rfl
  rcases hinsert with ⟨htext, _⟩ | hping | hpong
  · refine ⟨s, ?_, by simpa [ServerFrame.ping?, htext, opText, opPing] using hquiet⟩
    rw [handleFrame, hopcode, htext]
    rfl
  · obtain ⟨mask, hmask⟩ := Option.isSome_iff_exists.mp hrand
    obtain ⟨pong, hencode⟩ : ∃ pong, wsEncodeClientFrame opPong (some mask) f.payload = .ok pong :=
      ⟨_, rfl⟩
    have hlen : pong.length ≤ run.writes.countP WsWrite.progress := by
      have hpayload := f.bytes_length
      have hframe := wsEncodeClientFrame_length_le hencode
      omega
    let s' : WsImpl := { s with outbound := s.outbound ++ pong }
    have hanswer : Answered s [f.payload] s.ahead s' :=
      ⟨rfl, pong, ⟨[pong], .cons ⟨mask, hencode⟩ .nil, by simp⟩, rfl⟩
    have hreply : exec (reply opPong f.incoming.payload run) s = some (.ok (), s') := by
      rw [reply, hmask, show f.incoming.payload = f.payload from rfl, hencode,
        exec_bind_ok (exec_settle _ _)]
      exact streamWriteAll_steady pong s hwrites hlen
    have hhandle : handleFrame f.incoming run asm =
        (do reply opPong f.incoming.payload run; return .inr asm) := by
      rw [handleFrame, hopcode, hping]
      rfl
    refine ⟨s', ?_, by simpa [ServerFrame.ping?, hping] using hanswer⟩
    rw [hhandle]
    exact exec_bind_ok hreply
  · refine ⟨s, ?_, by simpa [ServerFrame.ping?, hpong, opPong, opPing] using hquiet⟩
    rw [handleFrame, hopcode, hpong]
    rfl

/-- A frame between the pieces is passed over, a ping with its pong. -/
theorem receiveLoop_insert {deadline : Option Int} {f : ServerFrame} {rest : Bytes} {run : FrameRun}
    (hinsert : f.IsInsert) (hsize : f.bytes.length ≤ wsMaxMessageSize)
    (hrun : SteadyRun deadline run) (runs : List FrameRun) (asm : Assembly) {s : WsImpl}
    (hahead : s.ahead = f.bytes ++ rest) :
    ∃ s', Answered s f.ping?.toList rest s' ∧
      exec (receiveLoop deadline (run :: runs) asm) s =
        exec (receiveLoop deadline runs asm) s' := by
  obtain ⟨s₁, hs₁, hexec⟩ := receiveLoop_frame hsize hrun runs asm hahead
  obtain ⟨s', hhandle, hs'⟩ :=
    handleFrame_insert hinsert hsize hrun.rand hrun.writes hrun.writes_enough asm s₁
  rw [hs₁.ahead_eq] at hs'
  exact ⟨s', hs₁.trans hs', hexec.trans (exec_bind_ok hhandle)⟩

/-- The bytes of frames, one behind the other. -/
def wireBytes (frames : List ServerFrame) : Bytes := (frames.map ServerFrame.bytes).flatten

/-- No frame, no byte. -/
@[simp] theorem wireBytes_nil : wireBytes [] = [] := rfl

/-- The first frame's bytes come first. -/
@[simp] theorem wireBytes_cons (f : ServerFrame) (frames : List ServerFrame) :
    wireBytes (f :: frames) = f.bytes ++ wireBytes frames := rfl

/-- Frames in a row are written in a row. -/
@[simp] theorem wireBytes_append (frames frames' : List ServerFrame) :
    wireBytes (frames ++ frames') = wireBytes frames ++ wireBytes frames' := by
  simp [wireBytes]

/-- All inserted frames before a data frame. -/
theorem receiveLoop_inserts {deadline : Option Int} {rest : Bytes} (asm : Assembly) :
    ∀ (inserts : List ServerFrame) (runs : List FrameRun) (s : WsImpl),
      (∀ f ∈ inserts, f.IsInsert ∧ f.bytes.length ≤ wsMaxMessageSize) →
      (∀ run ∈ runs, SteadyRun deadline run) → inserts.length ≤ runs.length →
      s.ahead = wireBytes inserts ++ rest →
      ∃ s', Answered s (inserts.filterMap ServerFrame.ping?) rest s' ∧
        exec (receiveLoop deadline runs asm) s =
          exec (receiveLoop deadline (runs.drop inserts.length) asm) s' := by
  intro inserts
  induction inserts with
  | nil =>
      intro runs s _ _ _ hahead
      exact ⟨s, .of_quiet (by simpa using hahead) rfl, rfl⟩
  | cons f inserts ih =>
      intro runs s hinserts hruns henough hahead
      rcases runs with _ | ⟨run, runs⟩
      · simp at henough
      obtain ⟨hinsert, hsize⟩ := hinserts f (by simp)
      rw [wireBytes_cons, List.append_assoc] at hahead
      obtain ⟨s₁, hs₁, hexec⟩ :=
        receiveLoop_insert hinsert hsize (hruns run (by simp)) runs asm hahead
      obtain ⟨s₂, hs₂, hexec'⟩ := ih runs s₁ (fun g hg => hinserts g (List.mem_cons_of_mem _ hg))
        (fun r hr => hruns r (List.mem_cons_of_mem _ hr)) (by simpa using henough) hs₁.ahead_eq
      refine ⟨s₂, ?_, hexec.trans hexec'⟩
      have hboth := hs₁.trans hs₂
      rw [List.filterMap_cons]
      cases hping : f.ping? <;> simpa [hping] using hboth

/-! ### Message by message -/

/-- A continuation frame in a message. -/
theorem handleFrame_cont {f : ServerFrame} (hcont : f.opcode = opCont) (run : FrameRun)
    {acc : Bytes} (hsize : (acc ++ f.payload).length ≤ wsMaxMessageSize) :
    handleFrame f.incoming run ⟨acc, true⟩ =
      pure (if f.fin then .inl (acc ++ f.payload) else .inr ⟨acc ++ f.payload, true⟩) := by
  have hopcode : f.incoming.opcode = f.opcode := rfl
  have hpayload : f.incoming.payload = f.payload := rfl
  rw [handleFrame, hopcode, hcont, if_neg (by decide), if_pos rfl]
  dsimp only
  rw [if_pos rfl, hpayload, if_neg (Nat.not_lt.mpr hsize)]
  show (if f.fin then _ else _) = _
  split <;> rfl

/-- A binary frame outside a message. -/
theorem handleFrame_binary {f : ServerFrame} (hbinary : f.opcode = opBinary) (run : FrameRun) :
    handleFrame f.incoming run {} =
      pure (if f.fin then .inl f.payload else .inr ⟨f.payload, true⟩) := by
  have hopcode : f.incoming.opcode = f.opcode := rfl
  rw [handleFrame, hopcode, hbinary, if_pos rfl, if_neg (by simp)]
  show (if f.fin then _ else _) = _
  split <;> rfl

/-- The data frame of a piece is handled once its inserted frames are. -/
theorem receiveLoop_data {deadline : Option Int} {p : WsPiece} {rest : Bytes}
    (hsize : ∀ f ∈ p.frames, f.bytes.length ≤ wsMaxMessageSize) (asm : Assembly)
    {runs : List FrameRun} {s : WsImpl} (hruns : ∀ run ∈ runs, SteadyRun deadline run)
    (henough : p.frames.length ≤ runs.length) (hahead : s.ahead = wireBytes p.frames ++ rest) :
    ∃ run s', Answered s p.pings rest s' ∧
      exec (receiveLoop deadline runs asm) s =
        exec (do
          let handled ← handleFrame p.data.incoming run asm
          match handled with
          | .inl message => pure message
          | .inr asm => receiveLoop deadline (runs.drop p.frames.length) asm) s' := by
  rw [WsPiece.frames, List.length_append, List.length_singleton] at henough
  rw [WsPiece.frames, wireBytes_append, List.append_assoc] at hahead
  obtain ⟨s₁, hs₁, hexec₁⟩ := receiveLoop_inserts asm p.inserts runs s
    (fun f hf => ⟨p.inserted f hf, hsize f (List.mem_append_left _ hf)⟩) hruns (by omega) hahead
  obtain ⟨run, hrun⟩ : ∃ run, runs.drop p.inserts.length =
      run :: runs.drop (p.inserts.length + 1) := ⟨_, List.drop_eq_getElem_cons (by omega)⟩
  have hsteady : SteadyRun deadline run :=
    hruns run (List.mem_of_mem_drop (hrun ▸ List.mem_cons_self))
  obtain ⟨s₂, hs₂, hexec₂⟩ := receiveLoop_frame
    (hsize p.data (List.mem_append_right _ (List.mem_singleton_self _))) hsteady
    (runs.drop (p.inserts.length + 1)) asm (by simpa using hs₁.ahead_eq)
  refine ⟨run, s₂, by simpa [WsPiece.pings] using hs₁.trans hs₂, ?_⟩
  rw [hexec₁, hrun, hexec₂, WsPiece.frames, List.length_append, List.length_singleton]

/-- The data frame of a piece, behind its inserted frames: it ends the message
or the loop goes on with it. -/
theorem receiveLoop_piece {deadline : Option Int} {p : WsPiece} {rest : Bytes}
    (hsize : ∀ f ∈ p.frames, f.bytes.length ≤ wsMaxMessageSize) {asm : Assembly}
    {out : Bytes ⊕ Assembly} (hhandle : ∀ run, handleFrame p.data.incoming run asm = pure out)
    {runs : List FrameRun} {s : WsImpl} (hruns : ∀ run ∈ runs, SteadyRun deadline run)
    (henough : p.frames.length ≤ runs.length) (hahead : s.ahead = wireBytes p.frames ++ rest) :
    ∃ s', Answered s p.pings rest s' ∧
      exec (receiveLoop deadline runs asm) s =
        match out with
        | .inl message => some (.ok message, s')
        | .inr asm => exec (receiveLoop deadline (runs.drop p.frames.length) asm) s' := by
  obtain ⟨run, s', hs', hexec⟩ := receiveLoop_data hsize asm hruns henough hahead
  refine ⟨s', hs', ?_⟩
  rw [hexec, hhandle]
  cases out <;> rfl

/-- **The rest of a message.** -/
theorem receiveLoop_continues {deadline : Option Int} {rest : Bytes} :
    ∀ (ps : List WsPiece) (acc : Bytes) (runs : List FrameRun) (s : WsImpl), Continues ps →
      (∀ f ∈ ps.flatMap WsPiece.frames, f.bytes.length ≤ wsMaxMessageSize) →
      (acc ++ (ps.map (fun p => p.data.payload)).flatten).length ≤ wsMaxMessageSize →
      (∀ run ∈ runs, SteadyRun deadline run) →
      (ps.flatMap WsPiece.frames).length ≤ runs.length →
      s.ahead = wireBytes (ps.flatMap WsPiece.frames) ++ rest →
      ∃ s', exec (receiveLoop deadline runs ⟨acc, true⟩) s =
          some (.ok (acc ++ (ps.map (fun p => p.data.payload)).flatten), s') ∧
        Answered s (ps.flatMap WsPiece.pings) rest s' := by
  intro ps
  induction ps with
  | nil =>
      intro acc runs s hcontinues
      cases hcontinues
  | cons p ps ih =>
      intro acc runs s hcontinues hsize hcontent hruns henough hahead
      rw [List.flatMap_cons, List.length_append] at henough
      rw [List.flatMap_cons, wireBytes_append, List.append_assoc] at hahead
      rw [List.map_cons, List.flatten_cons, ← List.append_assoc] at hcontent
      have hfits : (acc ++ p.data.payload).length ≤ wsMaxMessageSize := by
        rw [List.length_append] at hcontent
        omega
      have hframes : ∀ f ∈ p.frames, f.bytes.length ≤ wsMaxMessageSize :=
        fun f hf => hsize f (by rw [List.flatMap_cons]; exact List.mem_append_left _ hf)
      rcases ps with _ | ⟨q, ps⟩
      · obtain ⟨hcont, hfin⟩ := hcontinues
        obtain ⟨s', hs', hexec⟩ := receiveLoop_piece hframes
          (fun run => (handleFrame_cont hcont run hfits).trans (by rw [hfin, if_pos rfl])) hruns
          (by omega) hahead
        exact ⟨s', by simpa using hexec, by simpa using hs'⟩
      · obtain ⟨hcont, hfin, hrest⟩ := hcontinues
        obtain ⟨s₁, hs₁, hexec⟩ := receiveLoop_piece hframes
          (fun run => (handleFrame_cont hcont run hfits).trans (by rw [hfin, if_neg (by simp)]))
          hruns (by omega) hahead
        obtain ⟨s', hexec', hs'⟩ := ih (acc ++ p.data.payload) (runs.drop p.frames.length) s₁ hrest
          (fun f hf => hsize f (by rw [List.flatMap_cons]; exact List.mem_append_right _ hf))
          hcontent (fun run hrun => hruns run (List.mem_of_mem_drop hrun))
          (by rw [List.length_drop]; omega) hs₁.ahead_eq
        refine ⟨s', ?_, hs₁.trans hs'⟩
        rw [hexec]
        dsimp only
        rw [hexec', List.append_assoc]
        rfl

/-- What a receive call needs of its environment. -/
structure SteadyReceive (deadline : Option Int) (m : WsMessage) (runs : List FrameRun) : Prop where
  steady : ∀ run ∈ runs, SteadyRun deadline run
  enough : m.frames.length ≤ runs.length

/-- **One message.** -/
theorem receiveBinaryDeadline_steady {deadline : Option Int} {m : WsMessage} (hm : m.Bounded)
    {rest : Bytes} {runs : List FrameRun} {s : WsImpl} (hruns : SteadyReceive deadline m runs)
    (hahead : s.ahead = wireBytes m.frames ++ rest) :
    ∃ s', exec (receiveBinaryDeadline deadline runs) s = some (.ok m.content, s') ∧
      Answered s m.pings rest s' := by
  have hfinal := m.final
  have henough := hruns.enough
  rw [WsMessage.frames, List.flatMap_cons, List.length_append] at henough
  rw [WsMessage.frames, List.flatMap_cons, wireBytes_append, List.append_assoc] at hahead
  have hframes : ∀ f ∈ m.first.frames, f.bytes.length ≤ wsMaxMessageSize :=
    fun f hf => hm.frames_le f (by
      rw [WsMessage.frames, List.flatMap_cons]
      exact List.mem_append_left _ hf)
  have hhandle := handleFrame_binary m.binary
  rw [receiveBinaryDeadline, WsMessage.content, WsMessage.pings, List.map_cons, List.flatten_cons,
    List.flatMap_cons]
  split at hfinal
  · rename_i hnil
    rw [hnil] at hahead henough ⊢
    obtain ⟨s', hs', hexec⟩ := receiveLoop_piece hframes
      (fun run => (hhandle run).trans (by rw [hfinal, if_pos rfl])) hruns.steady (by omega) hahead
    exact ⟨s', by simpa using hexec, by simpa using hs'⟩
  · obtain ⟨s₁, hs₁, hexec⟩ := receiveLoop_piece hframes
      (fun run => (hhandle run).trans (by rw [hfinal.1, if_neg (by simp)])) hruns.steady (by omega)
      hahead
    obtain ⟨s', hexec', hs'⟩ := receiveLoop_continues m.rest m.first.data.payload
      (runs.drop m.first.frames.length) s₁ hfinal.2
      (fun f hf => hm.frames_le f (by
        rw [WsMessage.frames, List.flatMap_cons]
        exact List.mem_append_right _ hf))
      hm.content_le (fun run hrun => hruns.steady run (List.mem_of_mem_drop hrun))
      (by rw [List.length_drop]; omega) hs₁.ahead_eq
    exact ⟨s', hexec.trans hexec', hs₁.trans hs'⟩

/-- One `receive_binary` after another. -/
def receiveAll : List (List FrameRun) → Proc Exn WsImpl (List Bytes)
  | [] => pure []
  | runs :: calls => do
      let message ← receiveBinary runs
      let messages ← receiveAll calls
      return message :: messages

/-- **Any number of messages.**  Steady calls deliver the messages in order and
answer every ping. -/
theorem receiveAll_steady {rest : Bytes} :
    ∀ (messages : List WsMessage) (calls : List (List FrameRun)) (s : WsImpl),
      (∀ m ∈ messages, m.Bounded) → List.Forall₂ (SteadyReceive none) messages calls →
      s.ahead = wireBytes (messages.flatMap WsMessage.frames) ++ rest →
      ∃ s', exec (receiveAll calls) s = some (.ok (messages.map WsMessage.content), s') ∧
        Answered s (messages.flatMap WsMessage.pings) rest s' := by
  intro messages
  induction messages with
  | nil =>
      intro calls s _ hcalls hahead
      obtain rfl := List.forall₂_nil_left_iff.mp hcalls
      exact ⟨s, rfl, .of_quiet (by simpa using hahead) rfl⟩
  | cons m messages ih =>
      intro calls s hbounded hcalls hahead
      obtain ⟨runs, calls, hruns, hcalls', rfl⟩ := List.forall₂_cons_left_iff.mp hcalls
      rw [List.flatMap_cons, wireBytes_append, List.append_assoc] at hahead
      obtain ⟨s₁, hexec, hs₁⟩ :=
        receiveBinaryDeadline_steady (hbounded m (by simp)) hruns hahead
      obtain ⟨s', hexec', hs'⟩ :=
        ih calls s₁ (fun m' hm' => hbounded m' (List.mem_cons_of_mem _ hm')) hcalls' hs₁.ahead_eq
      refine ⟨s', ?_, hs₁.trans hs'⟩
      rw [receiveAll, receiveBinary, exec_bind_ok hexec, exec_bind_ok hexec']
      rfl

/-! ### From the handshake on -/

/-- Writing leaves what is ahead as it is. -/
theorem streamWriteAll_keeps :
    ∀ (writes : List WsWrite) (frame : Bytes) (s : WsImpl),
      Post (streamWriteAll writes frame) s (fun _ s' => s'.ahead = s.ahead) := by
  intro writes frame s
  fun_induction streamWriteAll writes frame generalizing s with
  | case1 => exact .pure rfl
  | case2 => exact .waiting
  | case3 writes b frame ih => exact ih s
  | case4 => exact .get_bind (.ite (fun _ => .throw rfl) (fun _ => .throw rfl))
  | case5 writes b frame k ih => exact .bind (.modify (ih _))

/-- Polling changes nothing. -/
theorem pollReadable_keeps (deadline : Option Int) (s : WsImpl) :
    ∀ waits : List Wait, Post (pollReadable deadline waits) s (fun _ s' => s' = s) := by
  intro waits
  induction waits with
  | nil => exact .waiting
  | cons wait waits ih =>
      rw [pollReadable]
      refine .ite (fun _ => .throw rfl) (fun _ => ?_)
      cases wait.poll with
      | eintr => exact ih
      | failed => exact .throw rfl
      | timeout => exact .ite (fun _ => .throw rfl) (fun _ => .pure rfl)
      | ready => exact .pure rfl

/-- A fill that fails leaves the stream as it is, too. -/
theorem streamFill_keeps (deadline : Option Int) (s : WsImpl) :
    ∀ fill : List FillRound,
      Post (streamFill deadline fill) s (fun _ s' => s'.ahead = s.ahead) := by
  intro fill
  induction fill with
  | nil => exact .waiting
  | cons round rounds ih =>
      have hpoll : Post (awaitData deadline round) s (fun _ s' => s' = s) :=
        .get_bind (.ite (fun _ => .pure rfl) (fun _ => pollReadable_keeps deadline s round.waits))
      refine .bind (hpoll.mono ?_)
      rintro (e | u) s' rfl
      · rfl
      refine .get_bind ?_
      cases round.read with
      | again => exact ih
      | closed => exact .throw rfl
      | failed detail => exact .ite (fun _ => .throw rfl) (fun _ => .throw rfl)
      | data k =>
          refine .get_bind (.ite (fun _ => .waiting) (fun _ => ?_))
          intro r s'' hset
          cases hset
          simp [ahead]

/-- A pattern that is found fits into the buffer. -/
theorem search_le {pat : Bytes} :
    ∀ {buf : Bytes} {n : Nat}, search pat buf = some n → n + pat.length ≤ buf.length := by
  intro buf
  induction buf with
  | nil =>
      intro n h
      rw [search] at h
      split at h
      · rename_i hpat
        simp [hpat, ← Option.some.inj h]
      · cases h
  | cons b bs ih =>
      intro n h
      rw [search] at h
      split at h
      · rename_i hpre
        simpa [← Option.some.inj h] using hpre.length_le
      · obtain ⟨m, hm, rfl⟩ := Option.map_eq_some_iff.mp h
        have := ih hm
        simp only [List.length_cons]
        omega

/-- An occurrence stays the first one when bytes are added behind. -/
theorem search_append {pat : Bytes} (more : Bytes) :
    ∀ {buf : Bytes} {n : Nat}, search pat buf = some n → search pat (buf ++ more) = some n := by
  intro buf
  induction buf with
  | nil =>
      intro n h
      rw [search] at h
      split at h
      · rename_i hpat
        obtain rfl : 0 = n := Option.some.inj h
        cases more <;> simp [search, hpat]
      · cases h
  | cons b bs ih =>
      intro n h
      have hprefix : b :: bs <+: b :: (bs ++ more) := List.prefix_append (b :: bs) more
      rw [search] at h
      rw [List.cons_append, search]
      split at h
      · rename_i hpre
        rw [if_pos (hpre.trans hprefix), h]
      · rename_i hpre
        obtain ⟨m, hm, rfl⟩ := Option.map_eq_some_iff.mp h
        have hfits : pat.length ≤ (b :: bs).length := by
          have := search_le hm
          simp only [List.length_cons]
          omega
        rw [if_neg (fun hlong => hpre (List.prefix_of_prefix_length_le hlong hprefix hfits)), ih hm]
        rfl

/-- The head ends where the marker first is in the buffer. -/
theorem readHead_keeps (fills : List (Int × List FillRound)) :
    ∀ s : WsImpl, Post (readHead fills) s (fun r s' => s'.ahead = s.ahead ∧
      ∀ headEnd, r = .ok headEnd → search headMarker s'.readBuf = some headEnd) := by
  induction fills with
  | nil =>
      intro s
      refine .get_bind ?_
      cases hsearch : search headMarker s.readBuf with
      | none => exact .waiting
      | some headEnd =>
          refine .pure ⟨rfl, ?_⟩
          rintro _ ⟨⟩
          exact hsearch
  | cons fill fills ih =>
      intro s
      refine .get_bind ?_
      cases hsearch : search headMarker s.readBuf with
      | none =>
          refine .ite (fun _ => .throw ⟨rfl, by simp⟩) (fun _ => ?_)
          refine .bind ((streamFill_keeps _ s fill.2).mono ?_)
          rintro (e | u) s₁ hahead
          · exact ⟨hahead, by simp⟩
          · exact (ih s₁).mono (fun r s' ⟨hkeep, hfound⟩ => ⟨hkeep.trans hahead, hfound⟩)
      | some headEnd =>
          refine .pure ⟨rfl, ?_⟩
          rintro _ ⟨⟩
          exact hsearch

/-- **The leftover.**  After `connect` the client stands right behind the
response head, whatever came in the same read. -/
theorem connect_ahead {sha1Base64 : Bytes → Bytes} {url : WsUrl} {protocol key : Bytes}
    {writes : List WsWrite} {fills : List (Int × List FillRound)} {s₀ s₁ : WsImpl}
    {head more : Bytes}
    (hstream : s₀.ahead = head ++ headMarker ++ more)
    (hhead : search headMarker (head ++ headMarker) = some head.length)
    (hconnect : exec (connect sha1Base64 url protocol key writes fills) s₀ = some (.ok (), s₁)) :
    s₁.ahead = more := by
  have hpost : Post (connect sha1Base64 url protocol key writes fills) s₀
      (fun r s' => r = .ok () → s'.ahead = more) := by
    refine .bind ((streamWriteAll_keeps writes _ s₀).mono ?_)
    rintro (e | u) s hwritten
    · simp
    refine .bind ((readHead_keeps fills s).mono ?_)
    rintro (e | headEnd) s ⟨hread, hfound⟩
    · simp
    have hahead : s.ahead = head ++ headMarker ++ more := (hread.trans hwritten).trans hstream
    -- The buffer is a front of the stream, so the marker found in it is the first one.
    have hend : headEnd = head.length := by
      have h₁ := search_append s.inbound (hfound headEnd rfl)
      have h₂ := search_append more hhead
      rw [← hahead] at h₂
      exact Option.some.inj (h₁.symm.trans h₂)
    have hfits := search_le (hfound headEnd rfl)
    refine .get_bind ?_
    have hleft : s.readBuf.drop (headEnd + headMarker.length) ++ s.inbound = more := by
      rw [← List.drop_append_of_le_length hfits]
      show s.ahead.drop _ = more
      rw [hahead, hend, ← List.length_append, List.drop_left]
    refine .bind ?_
    intro r s' hset
    cases hset
    exact .settle (fun _ => hleft)
  exact hpost _ _ hconnect rfl

/-- **Message assembly.**  On a connection made by `connect`, whatever of the
stream came with the response and however the rest arrives, `receive_binary`
returns one message after the other, and when it has returned `n` of them one
pong is written for each ping before. -/
theorem receive_binary_assembles_messages {sha1Base64 : Bytes → Bytes} {url : WsUrl}
    {protocol key : Bytes} {writes : List WsWrite} {fills : List (Int × List FillRound)}
    {s₀ s₁ : WsImpl} {head rest : Bytes} {messages : List WsMessage}
    {calls : List (List FrameRun)}
    (hstream : s₀.ahead =
      head ++ headMarker ++ (wireBytes (messages.flatMap WsMessage.frames) ++ rest))
    (hhead : search headMarker (head ++ headMarker) = some head.length)
    (hconnect : exec (connect sha1Base64 url protocol key writes fills) s₀ = some (.ok (), s₁))
    (hbounded : ∀ m ∈ messages, m.Bounded)
    (hcalls : List.Forall₂ (SteadyReceive none) messages calls) (n : Nat) :
    ∃ s', exec (receiveAll (calls.take n)) s₁ =
        some (.ok ((messages.take n).map WsMessage.content), s') ∧
      Answered s₁ ((messages.take n).flatMap WsMessage.pings)
        (wireBytes ((messages.drop n).flatMap WsMessage.frames) ++ rest) s' := by
  have hahead := connect_ahead hstream hhead hconnect
  refine receiveAll_steady (messages.take n) (calls.take n) s₁
    (fun m hm => hbounded m (List.mem_of_mem_take hm)) (List.forall₂_take n hcalls) ?_
  rw [hahead, ← List.append_assoc, ← wireBytes_append, ← List.flatMap_append,
    List.take_append_drop]

/-- A message in two fragments, a ping between them; each length is written in
another way. -/
def pingedMessage : WsMessage where
  first := .alone ⟨0x02, .inline, [1, 2], by decide⟩
  rest := [⟨[⟨0x89, .word, [7], by decide⟩],
    ⟨0x80, .long, [3], by decide⟩, by simp [ServerFrame.IsInsert]; decide⟩]
  binary := rfl
  final := by simp [Continues]; decide

/-- The sample message is within the limits. -/
theorem pingedMessage_bounded : pingedMessage.Bounded :=
  ⟨by decide +kernel, by decide +kernel⟩

/-- The response to the sample key of the WebSocket specification, without the
marker. -/
def sampleHead : Bytes :=
  ascii "HTTP/1.1 101 Switching Protocols\r\n" ++ ascii "Upgrade: websocket\r\n" ++
  ascii "Sec-WebSocket-Accept: s3pPLMBiTxaQ9kYGzzhZRbK+xOo="

/-- A handshake with the sample key; its one read takes the first fragment, too. -/
def sampleConnect : Proc Exn WsImpl Unit :=
  connect (fun _ => ascii "s3pPLMBiTxaQ9kYGzzhZRbK+xOo=") {} [] (ascii "dGhlIHNhbXBsZSBub25jZQ==")
    (List.replicate 200 (.wrote 0))
    [(0, [{ waits := [⟨1, .ready⟩], read := .data (sampleHead.length + 8) }])]

def sampleStream : WsImpl :=
  { inbound := sampleHead ++ headMarker ++
      (wireBytes ([pingedMessage].flatMap WsMessage.frames) ++ []) }

/-- The connection behind it, four bytes of the message and one of the ping in
the buffer. -/
def sampleConnected : WsImpl where
  readBuf := [0x02, 2, 1, 2, 0x89]
  inbound := [126, 0, 1, 7, 0x80, 127, 0, 0, 0, 0, 0, 0, 0, 1, 3]
  outbound := handshakeRequest {} [] (ascii "dGhlIHNhbXBsZSBub25jZQ==")

/-- The sample handshake succeeds. -/
theorem exec_sampleConnect : exec sampleConnect sampleStream = some (.ok (), sampleConnected) := by
  decide +kernel

/-- One byte a read, one byte a write. -/
def byteRun (now : Int) : FrameRun where
  fills := List.replicate wsMaxMessageSize [{ waits := [⟨now, .ready⟩], read := .data 0 }]
  rand := some ⟨[1, 2, 3, 4], rfl⟩
  writes := List.replicate (wsMaxMessageSize + clientOverhead) (.wrote 0)

/-- The run that reads byte by byte is steady before the deadline. -/
theorem byteRun_steady {deadline : Option Int} {now : Int}
    (htime : deadline.any (now ≥ ·) = false) : SteadyRun deadline (byteRun now) where
  fills := by
    intro fill hfill
    obtain rfl := List.eq_of_mem_replicate hfill
    refine ⟨?_, ?_, ?_⟩
    · intro round hround
      obtain rfl := List.mem_singleton.mp hround
      exact ⟨[], ⟨now, .ready⟩, [], rfl, by simp, htime, rfl⟩
    · intro round hround
      obtain rfl := List.mem_singleton.mp hround
      exact .inr ⟨0, rfl⟩
    · exact ⟨_, List.mem_singleton_self _, 0, rfl⟩
  fills_enough := by simp [byteRun]
  rand := rfl
  writes := by
    intro write hwrite
    obtain rfl := List.eq_of_mem_replicate hwrite
    exact .inr rfl
  writes_enough := by simp [byteRun, List.countP_replicate, WsWrite.progress]

/-- The sample message, with a ping between its pieces. -/
theorem receive_binary_assembles_messages_pinged :
    ∃ s' out, exec sampleConnect sampleStream = some (.ok (), sampleConnected) ∧
      exec (receiveAll [List.replicate 3 (byteRun 0)]) sampleConnected =
        some (.ok [[1, 2, 3]], s') ∧
      PongsFor [[7]] out ∧ s'.outbound = sampleConnected.outbound ++ out := by
  have hcalls : List.Forall₂ (SteadyReceive none) [pingedMessage]
      [List.replicate 3 (byteRun 0)] := by
    refine .cons ⟨?_, by simp [pingedMessage, WsMessage.frames, WsPiece.alone, WsPiece.frames]⟩ .nil
    intro run hrun
    obtain rfl := List.eq_of_mem_replicate hrun
    exact byteRun_steady rfl
  obtain ⟨s', hexec, _, out, hpongs, hout⟩ := receive_binary_assembles_messages rfl
    (by decide +kernel) exec_sampleConnect (by simpa using pingedMessage_bounded) hcalls 1
  exact ⟨s', out, exec_sampleConnect, hexec, hpongs, hout⟩

end WsImpl

end Vynkor
