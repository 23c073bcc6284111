import VynkorSdk.WsAssembly

/-!
# Text messages between binary messages

`receive_binary` skips text.  A text frame is passed over without a trace in the
locals of the call, so a continuation frame of a text message is taken for a
continuation that nothing started.  Binary messages come through exactly when
every text message before them is a single frame.

The streams here have control frames, and unfragmented text frames as well,
before any data frame; that is more than the protocol allows a server.
-/

namespace Vynkor

open ByteCodec Procedure WsImpl

/-- A text message: one final text frame, or a text frame and its continuation. -/
structure WsTextMessage where
  first : WsPiece
  rest : List WsPiece
  text : first.data.opcode = opText
  final : if rest = [] then first.data.fin = true else first.data.fin = false ∧ Continues rest

def WsTextMessage.frames (t : WsTextMessage) : List ServerFrame :=
  (t.first :: t.rest).flatMap WsPiece.frames

/-- A binary message behind the text messages sent before it. -/
structure WsSegment where
  texts : List WsTextMessage
  message : WsMessage

namespace WsSegment

variable (g : WsSegment)

def frames : List ServerFrame := g.texts.flatMap WsTextMessage.frames ++ g.message.frames

/-- The size limits: on each frame, and on the binary message. -/
structure Bounded : Prop where
  frames_le : ∀ f ∈ g.frames, f.bytes.length ≤ wsMaxMessageSize
  content_le : g.message.content.length ≤ wsMaxMessageSize

/-- Every text message is a single frame. -/
def Unsplit : Prop := ∀ t ∈ g.texts, t.rest = []

end WsSegment

/-- A text message of one frame is a series of inserted frames. -/
theorem WsTextMessage.inserts_of_unsplit {t : WsTextMessage} (h : t.rest = []) :
    ∀ f ∈ t.frames, f.IsInsert := by
  have hfinal := t.final
  rw [if_pos h] at hfinal
  intro f hf
  rw [frames, h, List.flatMap_cons, List.flatMap_nil, List.append_nil, WsPiece.frames,
    List.mem_append, List.mem_singleton] at hf
  rcases hf with hinsert | rfl
  · exact t.first.inserted f hinsert
  · exact Or.inl ⟨t.text, hfinal⟩

/-- Unsplit text messages are only inserted frames. -/
theorem inserts_of_unsplit_texts {texts : List WsTextMessage} (h : ∀ t ∈ texts, t.rest = []) :
    ∀ f ∈ texts.flatMap WsTextMessage.frames, f.IsInsert := by
  intro f hf
  obtain ⟨t, ht, hft⟩ := List.mem_flatMap.mp hf
  exact WsTextMessage.inserts_of_unsplit (h t ht) f hft

/-- A piece with more frames before it. -/
def WsPiece.behind (p : WsPiece) (inserts : List ServerFrame) (h : ∀ f ∈ inserts, f.IsInsert) :
    WsPiece :=
  ⟨inserts ++ p.inserts, p.data, fun f hf => (List.mem_append.mp hf).elim (h f) (p.inserted f)⟩

/-- A piece with further frames in front of it. -/
theorem WsPiece.behind_frames {p : WsPiece} {inserts : List ServerFrame}
    (h : ∀ f ∈ inserts, f.IsInsert) : (p.behind inserts h).frames = inserts ++ p.frames := by
  rw [frames, frames, behind, List.append_assoc]

/-- Single text frames in front of a binary message are a part of it. -/
def WsSegment.asMessage (g : WsSegment) (h : g.Unsplit) : WsMessage where
  first := g.message.first.behind _ (inserts_of_unsplit_texts h)
  rest := g.message.rest
  binary := g.message.binary
  final := g.message.final

/-- A segment of unsplit texts is a message with the same frames. -/
theorem WsSegment.asMessage_frames {g : WsSegment} (h : g.Unsplit) :
    (g.asMessage h).frames = g.frames := by
  rw [WsMessage.frames, frames, WsMessage.frames, List.flatMap_cons, List.flatMap_cons,
    asMessage, WsPiece.behind_frames, List.append_assoc]

/-- What a receive call needs of its environment. -/
structure SteadySegment (g : WsSegment) (runs : List FrameRun) : Prop where
  steady : ∀ run ∈ runs, SteadyRun none run
  enough : g.frames.length ≤ runs.length

/-- **Single text frames are skipped.** -/
theorem receiveBinary_unsplit {g : WsSegment} (hg : g.Bounded) (hunsplit : g.Unsplit) {rest : Bytes}
    {runs : List FrameRun} {s : WsImpl} (hruns : SteadySegment g runs)
    (hahead : s.ahead = wireBytes g.frames ++ rest) :
    ∃ s', exec (receiveBinary runs) s = some (.ok g.message.content, s') ∧ s'.ahead = rest := by
  have hbounded : (g.asMessage hunsplit).Bounded := by
    refine ⟨?_, hg.content_le⟩
    rw [WsSegment.asMessage_frames]
    exact hg.frames_le
  have hreceive : SteadyReceive none (g.asMessage hunsplit) runs := by
    refine ⟨hruns.steady, ?_⟩
    rw [WsSegment.asMessage_frames]
    exact hruns.enough
  rw [← WsSegment.asMessage_frames hunsplit] at hahead
  obtain ⟨s', hexec, hs'⟩ := receiveBinaryDeadline_steady hbounded hreceive hahead
  exact ⟨s', hexec, hs'.ahead_eq⟩

/-! ### Text messages in several frames -/

/-- The exception of a continuation that nothing started. -/
def strayContinuation : Exn :=
  .internal (ascii "websocket: continuation without a started message")

/-- A text frame is skipped. -/
theorem handleFrame_text {f : ServerFrame} (htext : f.opcode = opText) (run : FrameRun)
    (asm : Assembly) : handleFrame f.incoming run asm = pure (.inr asm) := by
  have hopcode : f.incoming.opcode = f.opcode := rfl
  rw [handleFrame, hopcode, htext]
  rfl

/-- A continuation without a start is an error. -/
theorem handleFrame_stray {f : ServerFrame} (hcont : f.opcode = opCont) (run : FrameRun) :
    handleFrame f.incoming run {} = throw strayContinuation := by
  have hopcode : f.incoming.opcode = f.opcode := rfl
  rw [handleFrame, hopcode, hcont]
  rfl

/-- A continuation frame outside a message, behind its inserted frames. -/
theorem receiveLoop_stray {p : WsPiece} {rest : Bytes} {runs : List FrameRun} {s : WsImpl}
    (hcont : p.data.opcode = opCont) (hsize : ∀ f ∈ p.frames, f.bytes.length ≤ wsMaxMessageSize)
    (hruns : ∀ run ∈ runs, SteadyRun none run) (henough : p.frames.length ≤ runs.length)
    (hahead : s.ahead = wireBytes p.frames ++ rest) :
    ∃ s', exec (WsImpl.receiveLoop none runs {}) s = some (.error strayContinuation, s') := by
  obtain ⟨run, s', _, hexec⟩ := receiveLoop_data hsize {} hruns henough hahead
  refine ⟨s', ?_⟩
  rw [hexec, handleFrame_stray hcont]
  rfl

/-- The first text message that is not a single frame. -/
theorem exists_first_split :
    ∀ {texts : List WsTextMessage}, (¬ ∀ t ∈ texts, t.rest = []) →
      ∃ front t back, texts = front ++ t :: back ∧ (∀ u ∈ front, u.rest = []) ∧ t.rest ≠ [] := by
  intro texts
  induction texts with
  | nil =>
      intro h
      exact absurd (by simp) h
  | cons t texts ih =>
      intro h
      by_cases ht : t.rest = []
      · have hrest : ¬ ∀ u ∈ texts, u.rest = [] := by
          intro hall
          exact h (List.forall_mem_cons.mpr ⟨ht, hall⟩)
        obtain ⟨front, u, back, rfl, hfront, hu⟩ := ih hrest
        exact ⟨t :: front, u, back, rfl, List.forall_mem_cons.mpr ⟨ht, hfront⟩, hu⟩
      · exact ⟨[], t, texts, rfl, by simp, ht⟩

/-- **A split text message fails the call**, at its second frame. -/
theorem receiveBinary_split {g : WsSegment} (hg : g.Bounded) (hsplit : ¬ g.Unsplit) {rest : Bytes}
    {runs : List FrameRun} {s : WsImpl} (hruns : SteadySegment g runs)
    (hahead : s.ahead = wireBytes g.frames ++ rest) :
    ∃ s', exec (receiveBinary runs) s = some (.error strayContinuation, s') := by
  obtain ⟨front, t, back, htexts, hfront, hrest⟩ := exists_first_split hsplit
  obtain ⟨q, qs, hqs⟩ := List.exists_cons_of_ne_nil hrest
  have hfinal := t.final
  rw [if_neg hrest, hqs] at hfinal
  let p := t.first.behind _ (inserts_of_unsplit_texts hfront)
  let later := qs.flatMap WsPiece.frames ++ (back.flatMap WsTextMessage.frames ++ g.message.frames)
  have hframes : g.frames = p.frames ++ (q.frames ++ later) := by
    simp only [p, later, WsSegment.frames, htexts, WsPiece.behind_frames, WsTextMessage.frames, hqs,
      List.flatMap_append, List.flatMap_cons, List.append_assoc]
  have hle := hg.frames_le
  have henough := hruns.enough
  rw [hframes] at hahead hle henough
  rw [wireBytes_append, wireBytes_append, List.append_assoc, List.append_assoc] at hahead
  rw [List.length_append, List.length_append] at henough
  obtain ⟨s₁, hs₁, hexec⟩ := receiveLoop_piece
    (fun f hf => hle f (List.mem_append_left _ hf))
    (fun run => handleFrame_text t.text run {}) hruns.steady (by omega) hahead
  have hleft : q.frames.length ≤ (runs.drop p.frames.length).length := by
    rw [List.length_drop]
    omega
  obtain ⟨s', hstray⟩ := receiveLoop_stray hfinal.2.head_cont
    (fun f hf => hle f (List.mem_append_right _ (List.mem_append_left _ hf)))
    (fun run hrun => hruns.steady run (List.mem_of_mem_drop hrun)) hleft hs₁.ahead_eq
  exact ⟨s', hexec.trans hstray⟩

/-! ### Call after call -/

/-- With unsplit texts between them the messages are delivered. -/
theorem receiveAll_unsplit {rest : Bytes} :
    ∀ (segments : List WsSegment) (calls : List (List FrameRun)) (s : WsImpl),
      (∀ g ∈ segments, g.Bounded) → (∀ g ∈ segments, g.Unsplit) →
      List.Forall₂ SteadySegment segments calls →
      s.ahead = wireBytes (segments.flatMap WsSegment.frames) ++ rest →
      ∃ s', exec (receiveAll calls) s =
        some (.ok (segments.map (fun g => g.message.content)), s') := by
  intro segments
  induction segments with
  | nil =>
      intro calls s _ _ hcalls _
      obtain rfl := List.forall₂_nil_left_iff.mp hcalls
      exact ⟨s, rfl⟩
  | cons g segments ih =>
      intro calls s hbounded hunsplit hcalls hahead
      obtain ⟨runs, calls, hruns, hcalls', rfl⟩ := List.forall₂_cons_left_iff.mp hcalls
      rw [List.flatMap_cons, wireBytes_append, List.append_assoc] at hahead
      obtain ⟨s₁, hexec, hs₁⟩ :=
        receiveBinary_unsplit (hbounded g (by simp)) (hunsplit g (by simp)) hruns hahead
      obtain ⟨s', hexec'⟩ := ih calls s₁ (fun g' hg' => hbounded g' (List.mem_cons_of_mem _ hg'))
        (fun g' hg' => hunsplit g' (List.mem_cons_of_mem _ hg')) hcalls' hs₁
      refine ⟨s', ?_⟩
      rw [receiveAll, exec_bind_ok hexec, exec_bind_ok hexec']
      rfl

/-- With a split text among them the calls fail at its continuation. -/
theorem receiveAll_split {rest : Bytes} :
    ∀ (segments : List WsSegment) (calls : List (List FrameRun)) (s : WsImpl),
      (∀ g ∈ segments, g.Bounded) → (¬ ∀ g ∈ segments, g.Unsplit) →
      List.Forall₂ SteadySegment segments calls →
      s.ahead = wireBytes (segments.flatMap WsSegment.frames) ++ rest →
      ∃ s', exec (receiveAll calls) s = some (.error strayContinuation, s') := by
  intro segments
  induction segments with
  | nil =>
      intro calls s _ hsplit
      exact absurd (by simp) hsplit
  | cons g segments ih =>
      intro calls s hbounded hsplit hcalls hahead
      obtain ⟨runs, calls, hruns, hcalls', rfl⟩ := List.forall₂_cons_left_iff.mp hcalls
      rw [List.flatMap_cons, wireBytes_append, List.append_assoc] at hahead
      by_cases hg : g.Unsplit
      · have hlater : ¬ ∀ g' ∈ segments, g'.Unsplit := by
          intro hall
          exact hsplit (List.forall_mem_cons.mpr ⟨hg, hall⟩)
        obtain ⟨s₁, hexec, hs₁⟩ := receiveBinary_unsplit (hbounded g (by simp)) hg hruns hahead
        obtain ⟨s', hexec'⟩ := ih calls s₁
          (fun g' hg' => hbounded g' (List.mem_cons_of_mem _ hg')) hlater hcalls' hs₁
        refine ⟨s', ?_⟩
        rw [receiveAll, exec_bind_ok hexec, exec_bind_error hexec']
      · obtain ⟨s', hexec⟩ := receiveBinary_split (hbounded g (by simp)) hg hruns hahead
        exact ⟨s', by rw [receiveAll, exec_bind_error hexec]⟩

/-- **When text messages are skipped**: `receive_binary` returns the binary
messages in order exactly when each text message before one of them is a single
frame. -/
theorem text_messages_skipped_iff {segments : List WsSegment} {calls : List (List FrameRun)}
    {s : WsImpl} {rest : Bytes} (hbounded : ∀ g ∈ segments, g.Bounded)
    (hcalls : List.Forall₂ SteadySegment segments calls)
    (hahead : s.ahead = wireBytes (segments.flatMap WsSegment.frames) ++ rest) :
    (∃ s', exec (receiveAll calls) s =
        some (.ok (segments.map (fun g => g.message.content)), s')) ↔
      ∀ g ∈ segments, ∀ t ∈ g.texts, t.rest = [] := by
  constructor
  · rintro ⟨s', hok⟩
    by_contra hsplit
    obtain ⟨s'', herror⟩ := receiveAll_split segments calls s hbounded hsplit hcalls hahead
    cases hok.symm.trans herror
  · intro hunsplit
    exact receiveAll_unsplit segments calls s hbounded hunsplit hcalls hahead

/-- A text frame in front of a binary frame. -/
def greetedSegment : WsSegment where
  texts := [⟨.alone ⟨0x81, .inline, ascii "hi", by decide⟩, [], by decide, by simp; decide⟩]
  message := ⟨.alone ⟨0x82, .inline, [3], by decide⟩, [], by decide, by simp; decide⟩

/-- A greeting in one frame is skipped. -/
theorem text_messages_skipped_iff_greeted :
    ∃ s', exec (receiveAll [List.replicate 2 (byteRun 0)])
      { inbound := wireBytes greetedSegment.frames } = some (.ok [[3]], s') := by
  have hsteady : SteadySegment greetedSegment (List.replicate 2 (byteRun 0)) := by
    refine ⟨?_, by decide +kernel⟩
    intro run hrun
    obtain rfl := List.eq_of_mem_replicate hrun
    exact byteRun_steady rfl
  have hbounded : ∀ g ∈ [greetedSegment], g.Bounded := by
    intro g hg
    obtain rfl := List.mem_singleton.mp hg
    exact ⟨by decide +kernel, by decide +kernel⟩
  have hahead : ahead { inbound := wireBytes greetedSegment.frames } =
      wireBytes ([greetedSegment].flatMap WsSegment.frames) ++ [] := by simp [ahead]
  exact (text_messages_skipped_iff hbounded (.cons hsteady .nil) hahead).mpr
    (by simp [greetedSegment])

/-- The same text in two frames. -/
def splitSegment : WsSegment where
  texts := [⟨.alone ⟨0x01, .inline, ascii "h", by decide⟩,
    [.alone ⟨0x80, .inline, ascii "i", by decide⟩], by decide, by simp [Continues]; decide⟩]
  message := ⟨.alone ⟨0x82, .inline, [3], by decide⟩, [], by decide, by simp; decide⟩

/-- **A split text message in front of a binary message**: the call throws. -/
theorem split_text_fails_receive :
    splitSegment.Bounded ∧ (exec (receiveAll [List.replicate 3 { fills := [] }])
      { readBuf := wireBytes splitSegment.frames }).map Prod.fst =
        some (.error strayContinuation) := by
  refine ⟨⟨by decide +kernel, by decide +kernel⟩, by decide +kernel⟩

end Vynkor
