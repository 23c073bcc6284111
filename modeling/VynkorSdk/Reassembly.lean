import VynkorSdk.FrameCodec
import VynkorSdk.KeyedTable

/-!
# Fragment reassembly

`VynkorClient::absorb_fragment` as a function from the reassembly table to an
outcome and a table.  A call reads the steady clock twice: once before it
prunes the table, and once more if it opens a new fragment set.

`absorbFragment_cases` lists everything one call can do, throwing calls
included.  The invariant of the table and the meaning of its entries are both
derived from it: an entry holds, for every sequence number, the chunk most
recently absorbed for it since the entry was opened (`Opened`), and a completed
set is the concatenation of those chunks.
-/

namespace Vynkor

open ByteCodec KeyedTable

/-- 30 s.  Steady-clock time points and durations are integers, in
nanoseconds. -/
def reassemblyTimeout : Int := 30 * 1000000000

def maxReassemblyStreams : Nat := 64

/-- One open fragment set. -/
structure ReassemblyBuf where
  fragments : Table UInt16 Bytes
  total : UInt16
  flags : UInt16
  firstSeen : Int
  bufferedBytes : Nat
  deriving DecidableEq

abbrev ReassemblyTable := Table UInt32 ReassemblyBuf

/-- `size_t` subtraction. -/
def sizeSub (a b : Nat) : Nat := (a + 2 ^ 64 - b % 2 ^ 64) % 2 ^ 64

namespace ReassemblyBuf

/-- The constructor; `now` is its own clock reading. -/
def opened (total flags : UInt16) (now : Int) : ReassemblyBuf :=
  { fragments := ∅, total := total, flags := flags, firstSeen := now, bufferedBytes := 0 }

def isComplete (b : ReassemblyBuf) : Bool := size b.fragments == b.total.toNat

/-- The loop `for (uint16_t seq = 0; seq < total; ++seq)` from `seq` on.  The
counter has 2^16 values, so 2^16 rounds are enough for any `total`; `none` is
the `std::out_of_range` of `fragments.at`. -/
def reassembleFrom (b : ReassemblyBuf) : Nat → UInt16 → Bytes → Option Bytes
  | 0, _, _ => none
  | rounds+1, seq, out =>
      if seq < b.total then
        match b.fragments.lookup seq with
        | none => none
        | some chunk => reassembleFrom b rounds (seq + 1) (out ++ chunk)
      else
        some out

def reassemble (b : ReassemblyBuf) : Option Bytes := reassembleFrom b 65536 0 []

/-- Bytes the arriving chunk replaces. -/
def replacedLen (b : ReassemblyBuf) (sequence : UInt16) : Nat :=
  match b.fragments.lookup sequence with
  | none => 0
  | some old => old.length

/-- `buffered_bytes - replaced_len + chunk.size()`. -/
def newTotal (b : ReassemblyBuf) (sequence : UInt16) (chunk : Bytes) : Nat :=
  sizeSub b.bufferedBytes (b.replacedLen sequence) + chunk.length

/-- The entry with `chunk` stored under `sequence`. -/
def store (b : ReassemblyBuf) (sequence : UInt16) (chunk : Bytes) : ReassemblyBuf :=
  { b with
    bufferedBytes := b.newTotal sequence chunk
    fragments := b.fragments.insert sequence chunk }

/-- Storing a chunk keeps the set's total. -/
@[simp] theorem store_total (b : ReassemblyBuf) (sequence : UInt16) (chunk : Bytes) :
    (b.store sequence chunk).total = b.total := rfl

/-- Storing a chunk keeps the set's age. -/
@[simp] theorem store_firstSeen (b : ReassemblyBuf) (sequence : UInt16) (chunk : Bytes) :
    (b.store sequence chunk).firstSeen = b.firstSeen := rfl

/-- Storing a chunk puts it under its sequence number. -/
@[simp] theorem store_fragments (b : ReassemblyBuf) (sequence : UInt16) (chunk : Bytes) :
    (b.store sequence chunk).fragments = b.fragments.insert sequence chunk := rfl

end ReassemblyBuf

/-- Drop the fragment sets that have reached the timeout. -/
def prune (now : Int) (t : ReassemblyTable) : ReassemblyTable :=
  retain (fun _ b => !decide (now - b.firstSeen ≥ reassemblyTimeout)) t

/-- The part of `absorb_fragment` behind `try_emplace`: `b` is the entry of the
fragment's stream, already in the table or just opened. -/
def absorbInto (hdr : FragmentHeader) (chunk : Bytes) (b : ReassemblyBuf)
    (t : ReassemblyTable) : Except Exn (Option FrameResult) × ReassemblyTable :=
  if b.newTotal hdr.sequence chunk > maxPayloadSize then
    (.error (.payloadTooLarge (maxPayloadSize + 1)), t.erase hdr.streamId)
  else
    let b' := b.store hdr.sequence chunk
    if b'.isComplete then
      match b'.reassemble with
      | some payload =>
          (.ok (some { payload := payload, flags := b'.flags }), t.erase hdr.streamId)
      | none => (.error (.stdOutOfRange []), t.insert hdr.streamId b')
    else
      (.ok none, t.insert hdr.streamId b')

/-- One call of `absorb_fragment`: the frame and the two clock readings. -/
structure AbsorbCall where
  now : Int
  seen : Int
  frame : FrameResult

def absorbFragment (call : AbsorbCall) (t : ReassemblyTable) :
    Except Exn (Option FrameResult) × ReassemblyTable :=
  let t := prune call.now t
  match parseFragHeader call.frame.payload with
  | none => (.error (.internal (ascii "fragment header too short")), t)
  | some hdr =>
      if hdr.total = 0 ∨ hdr.sequence ≥ hdr.total then
        (.error (.internal (ascii "invalid fragment header: seq " ++
          decimal hdr.sequence.toNat ++ ascii " / total " ++ decimal hdr.total.toNat)), t)
      else
        let chunk := call.frame.payload.drop fragHeaderSize
        match t.lookup hdr.streamId with
        | some b =>
            if b.total ≠ hdr.total then
              (.error (.internal (ascii "fragment total mismatch within stream")),
                t.erase hdr.streamId)
            else
              absorbInto hdr chunk b t
        | none =>
            if size t ≥ maxReassemblyStreams then
              (.error (.internal (ascii "too many concurrent fragment streams")), t)
            else
              absorbInto hdr chunk
                (.opened hdr.total
                  (call.frame.flags &&& ~~~(flagFragmented ||| flagMacPresent)) call.seen) t

/-- The table after a sequence of calls. -/
def absorbAll (t : ReassemblyTable) (calls : List AbsorbCall) : ReassemblyTable :=
  calls.foldl (fun t call => (absorbFragment call t).2) t

/-- No frame, no change. -/
@[simp] theorem absorbAll_nil (t : ReassemblyTable) : absorbAll t [] = t := rfl

/-- The last frame works on the table the others left. -/
@[simp] theorem absorbAll_snoc (t : ReassemblyTable) (calls : List AbsorbCall)
    (call : AbsorbCall) :
    absorbAll t (calls ++ [call]) = (absorbFragment call (absorbAll t calls)).2 := by
  simp [absorbAll]

/-- Two stretches of frames work one after the other. -/
theorem absorbAll_append (t : ReassemblyTable) (past calls : List AbsorbCall) :
    absorbAll t (past ++ calls) = absorbAll (absorbAll t past) calls := by
  simp [absorbAll]

/-- A sweep keeps exactly the sets younger than the timeout. -/
theorem lookup_prune {now : Int} {t : ReassemblyTable} {S : UInt32} {b : ReassemblyBuf} :
    (prune now t).lookup S = some b ↔
      t.lookup S = some b ∧ now - b.firstSeen < reassemblyTimeout := by
  rw [prune, lookup_retain, Option.filter_eq_some_iff]
  simp

/-! ### What one call can do -/

/-- The call's fragment goes into the entry `b` of the pruned table `t`: its
header is valid, and `b` is either the buffered entry with the same total or a
new one for which there is room. -/
structure Joins (call : AbsorbCall) (t : ReassemblyTable) (hdr : FragmentHeader)
    (b : ReassemblyBuf) : Prop where
  header : parseFragHeader call.frame.payload = some hdr
  total_ne : hdr.total ≠ 0
  sequence_lt : hdr.sequence < hdr.total
  total_eq : b.total = hdr.total
  entry : t.lookup hdr.streamId = some b ∨
    (t.lookup hdr.streamId = none ∧ size t < maxReassemblyStreams ∧
      b = .opened hdr.total
        (call.frame.flags &&& ~~~(flagFragmented ||| flagMacPresent)) call.seen)

/-- A fragment that joins a set is taken up into it. -/
theorem absorbFragment_of_joins {call : AbsorbCall} {t : ReassemblyTable}
    {hdr : FragmentHeader} {b : ReassemblyBuf} (h : Joins call (prune call.now t) hdr b) :
    absorbFragment call t =
      absorbInto hdr (call.frame.payload.drop fragHeaderSize) b (prune call.now t) := by
  have hvalid : ¬ (hdr.total = 0 ∨ hdr.sequence ≥ hdr.total) := by
    rintro (h0 | hge)
    · exact h.total_ne h0
    · exact absurd h.sequence_lt (UInt16.not_lt.mpr hge)
  unfold absorbFragment
  simp only [h.header, if_neg hvalid]
  rcases h.entry with hsome | ⟨hnone, hroom, rfl⟩
  · simp only [hsome, if_neg (not_not.mpr h.total_eq)]
  · simp only [hnone, if_neg (Nat.not_le.mpr hroom)]

/-- A call whose fragment joins no entry throws.  It leaves the pruned table
alone, or drops the entry of its stream if the totals differ. -/
theorem absorbFragment_of_not_joins {call : AbsorbCall} {t : ReassemblyTable}
    (h : ∀ hdr b, ¬ Joins call (prune call.now t) hdr b) :
    ∃ text, absorbFragment call t = (.error (.internal text), prune call.now t) ∨
      ∃ hdr, parseFragHeader call.frame.payload = some hdr ∧
        absorbFragment call t = (.error (.internal text),
          (prune call.now t).erase hdr.streamId) := by
  unfold absorbFragment
  cases hhdr : parseFragHeader call.frame.payload with
  | none => exact ⟨_, Or.inl rfl⟩
  | some hdr =>
      dsimp only
      split
      · exact ⟨_, Or.inl rfl⟩
      rename_i hvalid
      obtain ⟨htotal, hsequence⟩ := not_or.mp hvalid
      split
      · rename_i b hb
        split
        · exact ⟨_, Or.inr ⟨hdr, rfl, rfl⟩⟩
        · rename_i heq
          exact absurd ⟨hhdr, htotal, UInt16.not_le.mp hsequence, not_not.mp heq, Or.inl hb⟩
            (h hdr b)
      · rename_i hnone
        split
        · exact ⟨_, Or.inl rfl⟩
        · rename_i hroom
          exact absurd ⟨hhdr, htotal, UInt16.not_le.mp hsequence, rfl,
            Or.inr ⟨hnone, Nat.not_le.mp hroom, rfl⟩⟩ (h hdr _)

/-- **What one call can do.**  Its fragment joins no entry and the call throws;
or it joins an entry, which overflows, stays incomplete, or is complete (where
`reassemble` could in principle miss a fragment). -/
theorem absorbFragment_cases (call : AbsorbCall) (t : ReassemblyTable) :
    ((∀ hdr b, ¬ Joins call (prune call.now t) hdr b) ∧
      ∃ text, absorbFragment call t = (.error (.internal text), prune call.now t) ∨
        ∃ hdr, parseFragHeader call.frame.payload = some hdr ∧
          absorbFragment call t =
            (.error (.internal text), (prune call.now t).erase hdr.streamId)) ∨
    ∃ hdr b, Joins call (prune call.now t) hdr b ∧
      let chunk := call.frame.payload.drop fragHeaderSize
      let b' := b.store hdr.sequence chunk
      (maxPayloadSize < b.newTotal hdr.sequence chunk ∧
        absorbFragment call t = (.error (.payloadTooLarge (maxPayloadSize + 1)),
          (prune call.now t).erase hdr.streamId)) ∨
      (b.newTotal hdr.sequence chunk ≤ maxPayloadSize ∧ b'.isComplete = false ∧
        absorbFragment call t = (.ok none, (prune call.now t).insert hdr.streamId b')) ∨
      (b.newTotal hdr.sequence chunk ≤ maxPayloadSize ∧ b'.isComplete = true ∧
        ((∃ payload, b'.reassemble = some payload ∧
          absorbFragment call t = (.ok (some { payload := payload, flags := b'.flags }),
            (prune call.now t).erase hdr.streamId)) ∨
        (b'.reassemble = none ∧ absorbFragment call t =
          (.error (.stdOutOfRange []), (prune call.now t).insert hdr.streamId b')))) := by
  by_cases h : ∃ hdr b, Joins call (prune call.now t) hdr b
  · obtain ⟨hdr, b, hjoin⟩ := h
    refine Or.inr ⟨hdr, b, hjoin, ?_⟩
    rw [absorbFragment_of_joins hjoin]
    unfold absorbInto
    dsimp only
    split
    · rename_i hover
      exact Or.inl ⟨hover, rfl⟩
    · rename_i hfits
      have hle := Nat.le_of_not_lt hfits
      cases hcomplete : (b.store hdr.sequence _).isComplete with
      | false => exact Or.inr (Or.inl ⟨hle, rfl, rfl⟩)
      | true =>
          refine Or.inr (Or.inr ⟨hle, rfl, ?_⟩)
          cases hresult : (b.store hdr.sequence _).reassemble with
          | none => exact Or.inr ⟨rfl, by simp⟩
          | some payload => exact Or.inl ⟨payload, rfl, by simp⟩
  · have hno : ∀ hdr b, ¬ Joins call (prune call.now t) hdr b :=
      fun hdr b hjoin => h ⟨hdr, b, hjoin⟩
    exact Or.inl ⟨hno, absorbFragment_of_not_joins hno⟩

end Vynkor
