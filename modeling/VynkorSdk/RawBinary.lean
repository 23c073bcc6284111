import VynkorSdk.FrameWait
import VynkorSdk.RequestMatching

/-!
# Raw-binary frames during a request

`FLAG_RAW_BINARY` marks payloads that are not protobuf.  `recv` and
`recv_timeout` refuse such a message, but the waiting loop of `publish_event`
and `send_action` decodes whatever is delivered.  Here a sequence of inbound
frames is compared with the same sequence without the raw-binary frames inserted
into it.

The two waits stay together as long as each inserted frame is a fragment that
opens or extends a fragment set of its own and leaves it incomplete; an inserted
frame that is delivered or refused while the wait is on separates them.
-/

namespace Vynkor

open ByteCodec KeyedTable Procedure

namespace Client

/-! ### Two tables -/

/-- What `absorb_fragment` throws when the table is full. -/
def noRoom : Exn := .internal (ascii "too many concurrent fragment streams")

/-- A fragment that opens a set finds room for it in one table if it does in the
other. -/
def SameRoom (call : AbsorbCall) (t t₀ : ReassemblyTable) : Prop :=
  hasFlag call.frame.flags flagFragmented = true →
    ∀ hdr, parseFragHeader call.frame.payload = some hdr → hdr.total ≠ 0 →
      hdr.sequence < hdr.total → (prune call.now t).lookup hdr.streamId = none →
      (size (prune call.now t) < maxReassemblyStreams ↔
        size (prune call.now t₀) < maxReassemblyStreams)

/-- What a chunk does to its own set depends on that set only, not on the rest of the table. -/
theorem absorbInto_congr (hdr : FragmentHeader) (chunk : Bytes) (b : ReassemblyBuf)
    (t t₀ : ReassemblyTable) :
    (absorbInto hdr chunk b t).1 = (absorbInto hdr chunk b t₀).1 ∧
      (absorbInto hdr chunk b t).2.lookup hdr.streamId =
        (absorbInto hdr chunk b t₀).2.lookup hdr.streamId := by
  unfold absorbInto
  dsimp only
  split
  · simp
  · split
    · split <;> simp
    · simp

/-- What a fragment does depends on the set of its stream and on the room for a
new one. -/
theorem absorbFragment_same_set {call : AbsorbCall} {t t₀ : ReassemblyTable} {hdr : FragmentHeader}
    (hfragmented : hasFlag call.frame.flags flagFragmented = true)
    (hhdr : parseFragHeader call.frame.payload = some hdr)
    (hlookup : (prune call.now t).lookup hdr.streamId = (prune call.now t₀).lookup hdr.streamId)
    (hroom : SameRoom call t t₀) :
    (absorbFragment call t).1 = (absorbFragment call t₀).1 ∧
      (absorbFragment call t).2.lookup hdr.streamId =
        (absorbFragment call t₀).2.lookup hdr.streamId := by
  unfold absorbFragment
  rw [hhdr]
  dsimp only
  by_cases hvalid : hdr.total = 0 ∨ hdr.sequence ≥ hdr.total
  · rw [if_pos hvalid, if_pos hvalid]
    exact ⟨rfl, hlookup⟩
  rw [if_neg hvalid, if_neg hvalid, ← hlookup]
  cases hentry : (prune call.now t).lookup hdr.streamId with
  | some b =>
      dsimp only
      split
      · simp
      · exact absorbInto_congr _ _ _ _ _
  | none =>
      have hsame := hroom hfragmented hdr hhdr (fun h => hvalid (.inl h))
        (UInt16.not_le.mp fun h => hvalid (.inr h)) hentry
      dsimp only
      by_cases hspace : size (prune call.now t) < maxReassemblyStreams
      · rw [if_neg (by omega), if_neg (by have := hsame.mp hspace; omega)]
        exact absorbInto_congr _ _ _ _ _
      · rw [if_pos (by omega), if_pos (by have := mt hsame.mpr hspace; omega)]
        exact ⟨rfl, hlookup⟩

/-- Taking up a chunk into an open set never lacks room. -/
theorem absorbInto_ne_noRoom (hdr : FragmentHeader) (chunk : Bytes) (b : ReassemblyBuf)
    (t : ReassemblyTable) : (absorbInto hdr chunk b t).1 ≠ .error noRoom := by
  unfold absorbInto
  dsimp only
  split
  · simp [noRoom]
  · split
    · split <;> simp [noRoom]
    · simp

/-- A valid fragment without a set is refused for lack of room exactly if there
is none. -/
theorem absorbFragment_noRoom_iff {call : AbsorbCall} {t : ReassemblyTable} {hdr : FragmentHeader}
    (hhdr : parseFragHeader call.frame.payload = some hdr) (htotal : hdr.total ≠ 0)
    (hsequence : hdr.sequence < hdr.total)
    (hentry : (prune call.now t).lookup hdr.streamId = none) :
    (absorbFragment call t).1 = .error noRoom ↔
      ¬ size (prune call.now t) < maxReassemblyStreams := by
  have hvalid : ¬ (hdr.total = 0 ∨ hdr.sequence ≥ hdr.total) := by
    rintro (h | h)
    · exact htotal h
    · exact absurd hsequence (UInt16.not_lt.mpr h)
  unfold absorbFragment
  rw [hhdr]
  dsimp only
  rw [if_neg hvalid, hentry]
  dsimp only
  by_cases hspace : size (prune call.now t) < maxReassemblyStreams
  · rw [if_neg (by omega)]
    exact iff_of_false (absorbInto_ne_noRoom _ _ _ _) (not_not.mpr hspace)
  · rw [if_pos (by omega)]
    exact iff_of_true rfl hspace

/-! ### Streams of their own -/

/-- Outside the streams in `own` the tables hold the same sets, but for those
that have reached the timeout by `last`. -/
def Shadows (own : UInt32 → Bool) (last : Int) (t t₀ : ReassemblyTable) : Prop :=
  ∀ S, own S = false → ∀ now, last ≤ now → (prune now t).lookup S = (prune now t₀).lookup S

/-- A stream that two tables agree on is swept alike in both. -/
theorem lookup_prune_congr {t t' : ReassemblyTable} {S : UInt32} (h : t.lookup S = t'.lookup S)
    (now : Int) : (prune now t).lookup S = (prune now t').lookup S := by
  rw [prune, prune, lookup_retain, lookup_retain, h]

/-- An earlier pruning makes no difference. -/
theorem lookup_prune_prune {last now : Int} (h : last ≤ now) (t : ReassemblyTable) (S : UInt32) :
    (prune now (prune last t)).lookup S = (prune now t).lookup S := by
  apply Option.ext
  intro b
  simp only [lookup_prune]
  constructor
  · rintro ⟨⟨hb, _⟩, halive⟩
    exact ⟨hb, halive⟩
  · rintro ⟨hb, halive⟩
    exact ⟨⟨hb, by omega⟩, halive⟩

/-- Traffic on other streams leaves a set to the pruning. -/
theorem lookup_accept_other {call : AbsorbCall} {S : UInt32} {now : Int}
    (hother : hasFlag call.frame.flags flagFragmented = true → OtherTraffic S call)
    (hnow : call.now ≤ now) (t : ReassemblyTable) :
    (prune now (accept call t).2).lookup S = (prune now t).lookup S := by
  unfold accept
  split
  · rename_i hfragmented
    rw [lookup_prune_congr (absorbFragment_other (hother hfragmented) t), lookup_prune_prune hnow]
  · rfl

/-- The streams of a frame's fragment are the inserted ones, or the others. -/
def StreamIs (own : UInt32 → Bool) (inserted : Bool) (call : AbsorbCall) : Prop :=
  hasFlag call.frame.flags flagFragmented = true →
    ∀ hdr, parseFragHeader call.frame.payload = some hdr → own hdr.streamId = inserted

/-- A fragment that belongs to the other side is foreign traffic for a stream. -/
theorem StreamIs.other {own : UInt32 → Bool} {inserted : Bool} {call : AbsorbCall} {S : UInt32}
    (h : StreamIs own inserted call) (hS : own S = !inserted) :
    hasFlag call.frame.flags flagFragmented = true → OtherTraffic S call := by
  intro hfragmented hdr hhdr heq
  have hown := h hfragmented hdr hhdr
  rw [heq, hS] at hown
  cases inserted <;> cases hown

/-- An inserted frame leaves the streams that are not its own as they were. -/
theorem Shadows.inserted {own : UInt32 → Bool} {last : Int} {t t₀ : ReassemblyTable}
    {call : AbsorbCall} (h : Shadows own last t t₀) (hnow : last ≤ call.now)
    (hown : StreamIs own true call) : Shadows own call.now (accept call t).2 t₀ := by
  intro S hS now hle
  rw [lookup_accept_other (hown.other hS) hle]
  exact h S hS now (hnow.trans hle)

/-- A frame that is in both sequences does the same in both. -/
theorem Shadows.kept {own : UInt32 → Bool} {last : Int} {t t₀ : ReassemblyTable}
    {call : AbsorbCall} (h : Shadows own last t t₀) (hnow : last ≤ call.now)
    (hown : StreamIs own false call) (hroom : SameRoom call t t₀) :
    (accept call t).1 = (accept call t₀).1 ∧
      Shadows own call.now (accept call t).2 (accept call t₀).2 := by
  by_cases hfragmented : hasFlag call.frame.flags flagFragmented = true
  · cases hhdr : parseFragHeader call.frame.payload with
    | none =>
        have hother : ∀ S, OtherTraffic S call := by
          intro S hdr hsome
          rw [hhdr] at hsome
          cases hsome
        refine ⟨?_, fun S hS now hle => ?_⟩
        · unfold accept absorbFragment
          rw [if_pos hfragmented, if_pos hfragmented, hhdr]
        · rw [lookup_accept_other (fun _ => hother S) hle,
            lookup_accept_other (fun _ => hother S) hle]
          exact h S hS now (hnow.trans hle)
    | some hdr =>
        have hkept : own hdr.streamId = false := hown hfragmented hdr hhdr
        obtain ⟨hsame, hlookup⟩ := absorbFragment_same_set hfragmented hhdr
          (h hdr.streamId hkept call.now hnow) hroom
        refine ⟨?_, fun S hS now hle => ?_⟩
        · rw [accept, accept, if_pos hfragmented, if_pos hfragmented]
          exact hsame
        · by_cases hS' : S = hdr.streamId
          · apply lookup_prune_congr
            rw [accept, accept, if_pos hfragmented, if_pos hfragmented, hS']
            exact hlookup
          · have hother : OtherTraffic S call := by
              intro hdr' hhdr' heq
              rw [hhdr] at hhdr'
              cases hhdr'
              exact hS' heq.symm
            rw [lookup_accept_other (fun _ => hother) hle,
              lookup_accept_other (fun _ => hother) hle]
            exact h S hS now (hnow.trans hle)
  · rw [accept, accept, if_neg hfragmented, if_neg hfragmented]
    exact ⟨rfl, fun S hS now hle => h S hS now (hnow.trans hle)⟩

/-- The sets of the inserted streams are raw-binary ones. -/
def RawSets (own : UInt32 → Bool) (t : ReassemblyTable) : Prop :=
  ∀ S b, own S = true → t.lookup S = some b → hasFlag b.flags flagRawBinary = true

/-- Sweeping keeps the inserted sets raw. -/
theorem RawSets.prune {own : UInt32 → Bool} {t : ReassemblyTable} (h : RawSets own t) (now : Int) :
    RawSets own (prune now t) := by
  intro S b hS hb
  exact h S b hS (lookup_prune.mp hb).1

/-- Dropping a set keeps the others raw. -/
theorem RawSets.erase {own : UInt32 → Bool} {t : ReassemblyTable} (h : RawSets own t) (S : UInt32) :
    RawSets own (t.erase S) :=
  fun S' b hS' hb => h S' b hS' (lookup_erase_some hb).2

/-- A raw set may be added. -/
theorem RawSets.insert {own : UInt32 → Bool} {t : ReassemblyTable} (h : RawSets own t) (S : UInt32)
    {b : ReassemblyBuf} (hraw : hasFlag b.flags flagRawBinary = true) :
    RawSets own (t.insert S b) := by
  intro S' b' hS' hb
  rcases lookup_insert_some hb with ⟨_, rfl⟩ | hold
  · exact hraw
  · exact h S' b' hS' hold

/-- A frame of the kept traffic leaves the inserted sets alone. -/
theorem RawSets.kept {own : UInt32 → Bool} {t : ReassemblyTable} {call : AbsorbCall}
    (h : RawSets own t) (hown : StreamIs own false call) : RawSets own (accept call t).2 := by
  intro S b hS hb
  rw [accept] at hb
  split at hb
  · rename_i hfragmented
    rw [absorbFragment_other (hown.other hS hfragmented)] at hb
    exact h.prune call.now S b hS hb
  · exact h S b hS hb

/-- An inserted frame leaves raw-binary sets, and what it delivers is
raw-binary. -/
theorem RawSets.inserted {own : UInt32 → Bool} {t : ReassemblyTable} {call : AbsorbCall}
    (h : RawSets own t) (hown : StreamIs own true call)
    (hraw : hasFlag call.frame.flags flagRawBinary = true) :
    RawSets own (accept call t).2 ∧
      ∀ r, (accept call t).1 = .ok (some r) → hasFlag r.flags flagRawBinary = true := by
  unfold accept
  split
  · rename_i hfragmented
    have hp := h.prune call.now
    obtain ⟨_, _, hout | ⟨hdr, _, hout⟩⟩ | ⟨hdr, b, hjoin, hcases⟩ := absorbFragment_cases call t
    · rw [hout]
      exact ⟨hp, by simp⟩
    · rw [hout]
      exact ⟨hp.erase _, by simp⟩
    · have hflags : hasFlag b.flags flagRawBinary = true := by
        rcases hjoin.entry with hb | ⟨_, _, rfl⟩
        · exact hp _ b (hown hfragmented hdr hjoin.header) hb
        · exact (hasFlag_clear_other _ (by decide)).trans hraw
      obtain ⟨_, hout⟩ | ⟨_, _, hout⟩ | ⟨_, _, ⟨payload, _, hout⟩ | ⟨_, hout⟩⟩ := hcases
      · rw [hout]
        exact ⟨hp.erase _, by simp⟩
      · rw [hout]
        exact ⟨hp.insert _ hflags, by simp⟩
      · rw [hout]
        refine ⟨hp.erase _, ?_⟩
        rintro _ ⟨⟩
        exact hflags
      · rw [hout]
        exact ⟨hp.insert _ hflags, by simp⟩
  · refine ⟨h, ?_⟩
    rintro _ ⟨⟩
    exact hraw

/-! ### Insertions -/

/-- The sequence without the inserted frames, which are the marked ones. -/
def kept (mixed : List (AbsorbCall × Bool)) : List AbsorbCall :=
  (mixed.filter (fun x => !x.2)).map Prod.fst

/-- The inserted frames are raw-binary ones and their fragments have streams of
their own; the clock does not run backwards. -/
structure Insertion (own : UInt32 → Bool) (last : Int) (mixed : List (AbsorbCall × Bool)) :
    Prop where
  streams : ∀ x ∈ mixed, StreamIs own x.2 x.1
  raw : ∀ x ∈ mixed, x.2 = true → hasFlag x.1.frame.flags flagRawBinary = true
  clock : (last :: mixed.map (fun x => x.1.now)).Pairwise (· ≤ ·)

/-- What holds of an insertion holds behind its first frame. -/
theorem Insertion.tail {own : UInt32 → Bool} {last : Int} {x : AbsorbCall × Bool}
    {mixed : List (AbsorbCall × Bool)} (h : Insertion own last (x :: mixed)) :
    last ≤ x.1.now ∧ Insertion own x.1.now mixed := by
  obtain ⟨hlast, hclock⟩ := List.pairwise_cons.mp h.clock
  exact ⟨hlast _ (by simp), fun y hy => h.streams y (List.mem_cons_of_mem _ hy),
    fun y hy => h.raw y (List.mem_cons_of_mem _ hy), hclock⟩

section Wait

variable {β : Type} (judge : Except Exn (Option FrameResult) → Option β)

/-- The wait is where it is without the inserted frames, and has decoded no
raw-binary message. -/
structure Inert (mixed : List (AbsorbCall × Bool)) (t t₀ : ReassemblyTable) : Prop where
  same : waitOn judge (mixed.map Prod.fst) t = waitOn judge (kept mixed) t₀
  not_decoded : ∀ r ∈ decodedOn judge (mixed.map Prod.fst) t,
    hasFlag r.flags flagRawBinary = false

/-- While the wait is on, every inserted frame is a fragment that is taken and
leaves its set incomplete; the others deliver no raw-binary message, and find
the same room. -/
def Unobtrusive : List (AbsorbCall × Bool) → ReassemblyTable → ReassemblyTable → Prop
  | [], _, _ => True
  | (call, true) :: mixed, t, t₀ =>
      (accept call t).1 = .ok none ∧ Unobtrusive mixed (accept call t).2 t₀
  | (call, false) :: mixed, t, t₀ =>
      SameRoom call t t₀ ∧
        (∀ r, (accept call t).1 = .ok (some r) → hasFlag r.flags flagRawBinary = false) ∧
        (judge (accept call t).1 = none → Unobtrusive mixed (accept call t).2 (accept call t₀).2)

variable {judge}

/-- No frame at all does nothing. -/
theorem Inert.nil (t t₀ : ReassemblyTable) : Inert judge [] t t₀ := ⟨rfl, by simp [decodedOn]⟩

/-- A frame is delivered exactly when the step answered with it. -/
theorem mem_delivered {o : Except Exn (Option FrameResult)} {r : FrameResult} :
    r ∈ delivered o ↔ o = .ok (some r) := by
  cases o with
  | error e => simp [delivered]
  | ok complete => cases complete <;> simp [delivered, eq_comm]

/-- A frame at which the wait goes on in both sequences. -/
theorem inert_cons_iff {call : AbsorbCall} {inserted : Bool} {mixed : List (AbsorbCall × Bool)}
    {t t₀ t₀' : ReassemblyTable} (hgoes : judge (accept call t).1 = none)
    (hkept : waitOn judge (kept ((call, inserted) :: mixed)) t₀ = waitOn judge (kept mixed) t₀')
    (hfresh : ∀ r, (accept call t).1 = .ok (some r) → hasFlag r.flags flagRawBinary = false) :
    Inert judge ((call, inserted) :: mixed) t t₀ ↔ Inert judge mixed (accept call t).2 t₀' := by
  have hwait : waitOn judge (((call, inserted) :: mixed).map Prod.fst) t =
      waitOn judge (mixed.map Prod.fst) (accept call t).2 := by
    rw [List.map_cons, waitOn, hgoes]
  have hdecoded : decodedOn judge (((call, inserted) :: mixed).map Prod.fst) t =
      delivered (accept call t).1 ++ decodedOn judge (mixed.map Prod.fst) (accept call t).2 := by
    rw [List.map_cons, decodedOn, hgoes]
  constructor
  · rintro ⟨hsame, hnot⟩
    rw [hwait, hkept] at hsame
    rw [hdecoded] at hnot
    exact ⟨hsame, fun r hr => hnot r (List.mem_append_right _ hr)⟩
  · rintro ⟨hsame, hnot⟩
    refine ⟨by rw [hwait, hkept, hsame], ?_⟩
    rw [hdecoded]
    intro r hr
    rcases List.mem_append.mp hr with hr | hr
    · exact hfresh r (mem_delivered.mp hr)
    · exact hnot r hr

/-- Waiting on one frame is judging what accepting it gives. -/
theorem waitOn_one (call : AbsorbCall) (t : ReassemblyTable) :
    waitOn judge [call] t = judge (accept call t).1 := by
  simp only [waitOn]
  cases judge (accept call t).1 <;> rfl

/-- The wait on one frame. -/
theorem inert_one {call : AbsorbCall} {inserted : Bool} {t t₀ : ReassemblyTable}
    (h : Inert judge [(call, inserted)] t t₀) :
    judge (accept call t).1 = waitOn judge (kept [(call, inserted)]) t₀ ∧
      ∀ r, (accept call t).1 = .ok (some r) → hasFlag r.flags flagRawBinary = false := by
  have hnot := h.not_decoded
  simp only [List.map_cons, List.map_nil, decodedOn] at hnot
  exact ⟨(waitOn_one call t).symm.trans h.same,
    fun r hr => hnot r (List.mem_append_left _ (mem_delivered.mpr hr))⟩

/-- A frame that ends the wait in both sequences. -/
theorem inert_decided {call : AbsorbCall} {mixed : List (AbsorbCall × Bool)}
    {t t₀ : ReassemblyTable} {b : β} (hends : judge (accept call t).1 = some b)
    (hsame : (accept call t).1 = (accept call t₀).1)
    (hfresh : ∀ r, (accept call t).1 = .ok (some r) → hasFlag r.flags flagRawBinary = false) :
    Inert judge ((call, false) :: mixed) t t₀ := by
  refine ⟨?_, ?_⟩
  · show waitOn judge (call :: mixed.map Prod.fst) t = waitOn judge (call :: kept mixed) t₀
    rw [waitOn, waitOn, ← hsame, hends]
  · intro r hr
    rw [List.map_cons, decodedOn, hends, List.append_nil] at hr
    exact hfresh r (mem_delivered.mp hr)

/-- A frame on which the waits agree finds the same room. -/
theorem sameRoom_of_judge (hfull : ∀ o, judge o = judge (.error noRoom) → o = .error noRoom)
    {own : UInt32 → Bool} {last : Int} {t t₀ : ReassemblyTable} {call : AbsorbCall}
    (hshadows : Shadows own last t t₀) (hlast : last ≤ call.now) (hstream : StreamIs own false call)
    (hjudge : judge (accept call t).1 = judge (accept call t₀).1) : SameRoom call t t₀ := by
  intro hfragmented hdr hhdr htotal hsequence hentry
  have hentry₀ := hentry
  rw [hshadows hdr.streamId (hstream hfragmented hdr hhdr) call.now hlast] at hentry₀
  have hrefused := absorbFragment_noRoom_iff hhdr htotal hsequence hentry
  have hrefused₀ := absorbFragment_noRoom_iff hhdr htotal hsequence hentry₀
  rw [accept, accept, if_pos hfragmented, if_pos hfragmented] at hjudge
  rw [← not_iff_not, ← hrefused, ← hrefused₀]
  constructor
  · intro h
    rw [h] at hjudge
    exact hfull _ hjudge.symm
  · intro h
    rw [h] at hjudge
    exact hfull _ hjudge

/-- The prefixes of a sequence are the empty one and those behind its first
frame. -/
theorem inert_take_iff {x : AbsorbCall × Bool} {mixed : List (AbsorbCall × Bool)}
    {t t₀ : ReassemblyTable} :
    (∀ n, Inert judge ((x :: mixed).take n) t t₀) ↔ ∀ n, Inert judge (x :: mixed.take n) t t₀ := by
  constructor
  · intro h n
    exact h (n + 1)
  · intro h n
    cases n with
    | zero => exact .nil t t₀
    | succ n => exact h n

/-- An inserted frame in front. -/
theorem inert_inserted_iff (hopen : judge (.ok none) = none) (herror : ∀ e, judge (.error e) ≠ none)
    {call : AbsorbCall} {mixed : List (AbsorbCall × Bool)} {t t₀ : ReassemblyTable}
    (hdelivers : ∀ r, (accept call t).1 = .ok (some r) → hasFlag r.flags flagRawBinary = true) :
    (∀ n, Inert judge ((call, true) :: mixed.take n) t t₀) ↔
      (accept call t).1 = .ok none ∧ ∀ n, Inert judge (mixed.take n) (accept call t).2 t₀ := by
  have hstep : (accept call t).1 = .ok none → ∀ n,
      (Inert judge ((call, true) :: mixed.take n) t t₀ ↔
        Inert judge (mixed.take n) (accept call t).2 t₀) := by
    intro hacc n
    exact inert_cons_iff (by rw [hacc, hopen]) rfl (by simp [hacc])
  constructor
  · intro h
    -- The frame alone must not end the wait, and must not be delivered.
    obtain ⟨hgoes, hfresh⟩ := inert_one (h 0)
    have hacc : (accept call t).1 = .ok none := by
      cases hacc : (accept call t).1 with
      | error e =>
          rw [hacc] at hgoes
          exact absurd hgoes (herror e)
      | ok complete =>
          cases complete with
          | none => rfl
          | some r =>
              have hnot := hfresh r hacc
              rw [hdelivers r hacc] at hnot
              cases hnot
    exact ⟨hacc, fun n => (hstep hacc n).mp (h n)⟩
  · rintro ⟨hacc, h⟩ n
    exact (hstep hacc n).mpr (h n)

/-- A frame of the sequence itself in front. -/
theorem inert_kept_iff {call : AbsorbCall} {mixed : List (AbsorbCall × Bool)}
    {t t₀ : ReassemblyTable}
    (hroom : judge (accept call t).1 = judge (accept call t₀).1 → SameRoom call t t₀)
    (hsame : SameRoom call t t₀ → (accept call t).1 = (accept call t₀).1) :
    (∀ n, Inert judge ((call, false) :: mixed.take n) t t₀) ↔
      SameRoom call t t₀ ∧
        (∀ r, (accept call t).1 = .ok (some r) → hasFlag r.flags flagRawBinary = false) ∧
        (judge (accept call t).1 = none →
          ∀ n, Inert judge (mixed.take n) (accept call t).2 (accept call t₀).2) := by
  have hstep : SameRoom call t t₀ →
      (∀ r, (accept call t).1 = .ok (some r) → hasFlag r.flags flagRawBinary = false) →
      judge (accept call t).1 = none → ∀ n,
      (Inert judge ((call, false) :: mixed.take n) t t₀ ↔
        Inert judge (mixed.take n) (accept call t).2 (accept call t₀).2) := by
    intro hroom hfresh hgoes n
    refine inert_cons_iff hgoes ?_ hfresh
    show waitOn judge (call :: kept (mixed.take n)) t₀ = _
    rw [waitOn, ← hsame hroom, hgoes]
  constructor
  · intro h
    obtain ⟨hjudge, hfresh⟩ := inert_one (h 0)
    have hroom' := hroom (hjudge.trans (waitOn_one call t₀))
    exact ⟨hroom', hfresh, fun hgoes n => (hstep hroom' hfresh hgoes n).mp (h n)⟩
  · rintro ⟨hroom', hfresh, h⟩ n
    cases hgoes : judge (accept call t).1 with
    | none => exact (hstep hroom' hfresh hgoes n).mpr (h hgoes n)
    | some b => exact inert_decided hgoes (hsame hroom') hfresh

/-- **Inserted frames are inert exactly while they are unobtrusive.** -/
theorem inert_iff (hopen : judge (.ok none) = none) (herror : ∀ e, judge (.error e) ≠ none)
    (hfull : ∀ o, judge o = judge (.error noRoom) → o = .error noRoom) {own : UInt32 → Bool} :
    ∀ (mixed : List (AbsorbCall × Bool)) (last : Int) (t t₀ : ReassemblyTable),
      Insertion own last mixed → RawSets own t → Shadows own last t t₀ →
      ((∀ n, Inert judge (mixed.take n) t t₀) ↔ Unobtrusive judge mixed t t₀) := by
  intro mixed
  induction mixed with
  | nil =>
      intro last t t₀ _ _ _
      simp only [List.take_nil]
      exact ⟨fun _ => trivial, fun _ _ => .nil t t₀⟩
  | cons x mixed ih =>
      intro last t t₀ hins hsets hshadows
      obtain ⟨hlast, htail⟩ := hins.tail
      have hstream := hins.streams x (by simp)
      have hraw := hins.raw x (by simp)
      obtain ⟨call, inserted⟩ := x
      rw [inert_take_iff]
      cases inserted with
      | true =>
          obtain ⟨hsets', hdelivers⟩ := hsets.inserted hstream (hraw rfl)
          rw [inert_inserted_iff hopen herror hdelivers,
            ih call.now _ t₀ htail hsets' (hshadows.inserted hlast hstream)]
          exact Iff.rfl
      | false =>
          rw [inert_kept_iff (sameRoom_of_judge hfull hshadows hlast hstream)
            (fun hroom => (hshadows.kept hlast hstream hroom).1)]
          refine and_congr_right (fun hroom =>
            and_congr_right (fun _ => imp_congr_right (fun _ => ?_)))
          exact ih call.now _ _ htail (hsets.kept hstream) (hshadows.kept hlast hstream hroom).2

end Wait

/-! ### The two requests -/

variable (lib : WireLibs) (proto : ProtoLib)

/-- The request goes out. -/
def GoesOut (env : Envelope) (senv : SendEnv) (c : Client) : Prop :=
  ∃ c', exec (send lib proto (ascii "kernel") env senv) c = some (.ok (), c')

/-- The outcome of `publish_event` when these frames come in, `none` if it is
still waiting behind them. -/
def publishOn (eventType payloadJson : Bytes) (timeoutMs : UInt32) (renv : RequestEnv) (c : Client)
    (ws : List WireFrame) : Option (Except Exn EventPublishAck) :=
  (exec (publishEvent lib proto eventType payloadJson timeoutMs
    { renv with frames := groups ws c.reassembly }) (c.feed ws)).map Prod.fst

/-- The outcome of `send_action` when these frames come in. -/
def sendActionOn (action paramsJson : Bytes) (timeoutMs : UInt32) (renv : RequestEnv) (p : Process)
    (ws : List WireFrame) : Option (Except Exn ActionResponse) :=
  (exec (sendAction lib proto action paramsJson timeoutMs
    { renv with frames := groups ws p.client.reassembly })
    { p with client := p.client.feed ws }).map Prod.fst

/-- The frames as the reassembly sees them. -/
def asCalls (mixed : List (WireFrame × Bool)) : List (AbsorbCall × Bool) :=
  mixed.map (fun x => (x.1.call, x.2))

/-- The frames that are not inserted. -/
def keptFrames (mixed : List (WireFrame × Bool)) : List WireFrame :=
  (mixed.filter (fun x => !x.2)).map Prod.fst

/-- Keeping frames and turning them into calls can be done in either order. -/
theorem kept_asCalls (mixed : List (WireFrame × Bool)) :
    kept (asCalls mixed) = (keptFrames mixed).map WireFrame.call := by
  rw [kept, asCalls, keptFrames, List.filter_map, List.map_map, List.map_map]
  rfl

/-- The calls of mixed traffic are the calls of its frames. -/
theorem asCalls_map_fst (mixed : List (WireFrame × Bool)) :
    (asCalls mixed).map Prod.fst = (mixed.map Prod.fst).map WireFrame.call := by
  rw [asCalls, List.map_map, List.map_map]
  rfl

/-- At every moment the request stands where it does without the inserted
frames, and it decodes no raw-binary message. -/
def IgnoresRaw {α : Type} (outcomeOn : List WireFrame → Option (Except Exn α))
    (judge : Except Exn (Option FrameResult) → Option (Except Exn α)) (sent : Prop)
    (mixed : List (WireFrame × Bool)) (t : ReassemblyTable) : Prop :=
  ∀ n, outcomeOn ((mixed.take n).map Prod.fst) = outcomeOn (keptFrames (mixed.take n)) ∧
    (sent → ∀ r ∈ decodedOn judge ((asCalls (mixed.take n)).map Prod.fst) t,
      hasFlag r.flags flagRawBinary = false)

variable {lib proto}

/-- Only the full table itself is judged like a full table. -/
theorem verdict_noRoom {α : Type} {isTerminal : Envelope → Bool} {finish : Envelope → Except Exn α}
    (hfinish : ∀ e, finish e ≠ .error noRoom) (o : Except Exn (Option FrameResult))
    (h : verdict proto isTerminal finish o = verdict proto isTerminal finish (.error noRoom)) :
    o = .error noRoom := by
  cases o with
  | error e =>
      simp only [verdict, Option.some.injEq, Except.error.injEq] at h
      rw [h]
  | ok complete =>
      cases complete with
      | none => cases h
      | some r =>
          unfold verdict at h
          dsimp only at h
          cases hparse : proto.parse r.payload with
          | none => simp [hparse, noRoom] at h
          | some env =>
              rw [hparse] at h
              dsimp only at h
              split at h
              · exact absurd (Option.some.inj h) (hfinish env)
              · cases h

/-- The texts differ in their first letter. -/
theorem internal_ne_noRoom {text rest : Bytes}
    (h : text.head? = some 0x6B ∨ text.head? = some 0x73) :
    Exn.internal (text ++ rest) ≠ noRoom := by
  intro heq
  have hhead := congrArg List.head? (Exn.internal.inj heq)
  have htoo : (ascii "too many concurrent fragment streams").head? = some 0x74 := rfl
  rw [List.head?_append, htoo] at hhead
  rcases h with h | h <;> rw [h] at hhead <;> exact absurd (Option.some.inj hhead) (by decide)

/-- An error the kernel reports is no full table. -/
theorem kernelError_ne_noRoom (error : ErrorMessage) : kernelError error ≠ noRoom := by
  rw [kernelError, List.append_assoc, List.append_assoc, List.append_assoc]
  exact internal_ne_noRoom (.inl rfl)

/-- The outcome of a publish is never that of a full table. -/
theorem publishOutcome_ne_noRoom (e : Envelope) : publishOutcome e ≠ .error noRoom := by
  unfold publishOutcome
  split
  · simpa using kernelError_ne_noRoom _
  · simp
  · simp

/-- The outcome of an action is never that of a full table. -/
theorem actionOutcome_ne_noRoom (e : Envelope) : actionOutcome e ≠ .error noRoom := by
  unfold actionOutcome
  split
  · simpa using kernelError_ne_noRoom _
  · simpa using internal_ne_noRoom (.inr rfl)
  · simp
  · simp

/-- A request and the frames that come in, with and without the inserted ones. -/
theorem exchange_ignores_iff {α : Type} {env : Envelope} {timeoutMs : UInt32}
    {isTerminal : Envelope → Bool} {finish : Envelope → Except Exn α}
    (hfinish : ∀ e, finish e ≠ .error noRoom) {renv : RequestEnv} {c : Client}
    {outcomeOn : List WireFrame → Option (Except Exn α)}
    (houtcome : ∀ ws, outcomeOn ws = (exec (do
      let resp ← exchange lib proto env timeoutMs isTerminal
        { renv with frames := groups ws c.reassembly }
      settle (finish resp)) (c.feed ws)).map Prod.fst)
    {mixed : List (WireFrame × Bool)} {own : UInt32 → Bool} {last : Int}
    (hincoming : Incoming lib (some (requestDeadline timeoutMs renv.start)) (mixed.map Prod.fst)
      (c.feed (mixed.map Prod.fst)))
    (hins : Insertion own last (asCalls mixed)) (hsets : RawSets own c.reassembly) :
    IgnoresRaw outcomeOn (verdict proto isTerminal finish) (GoesOut lib proto env renv.senv c) mixed
        c.reassembly ↔
      (GoesOut lib proto env renv.senv c →
        Unobtrusive (verdict proto isTerminal finish) (asCalls mixed) c.reassembly
          c.reassembly) := by
  have hin : ∀ ws, (∀ w ∈ ws, w ∈ mixed.map Prod.fst) →
      Incoming lib (some (requestDeadline timeoutMs renv.start)) ws (c.feed ws) := by
    intro ws hsub
    exact hincoming.of_subset ⟨rfl, rfl, rfl, rfl, rfl⟩ hsub
  have hall : ∀ n, ∀ w ∈ (mixed.take n).map Prod.fst, w ∈ mixed.map Prod.fst := by
    intro n w hw
    obtain ⟨x, hx, rfl⟩ := List.mem_map.mp hw
    exact List.mem_map_of_mem (List.mem_of_mem_take hx)
  have hsome : ∀ n, ∀ w ∈ keptFrames (mixed.take n), w ∈ mixed.map Prod.fst := by
    intro n w hw
    obtain ⟨x, hx, rfl⟩ := List.mem_map.mp hw
    exact List.mem_map_of_mem (List.mem_of_mem_take (List.mem_of_mem_filter hx))
  have hinert := inert_iff (show verdict proto isTerminal finish (.ok none) = none from rfl)
    (by simp [verdict]) (verdict_noRoom hfinish) (asCalls mixed) last c.reassembly c.reassembly hins
    hsets (fun S _ now _ => rfl)
  by_cases hout : GoesOut lib proto env renv.senv c
  · obtain ⟨c', hsend⟩ := id hout
    have hwait : ∀ ws, (∀ w ∈ ws, w ∈ mixed.map Prod.fst) → outcomeOn ws =
        waitOn (verdict proto isTerminal finish) (ws.map WireFrame.call) c.reassembly := by
      intro ws hsub
      rw [houtcome, exchange_outcome (hin ws hsub), hsend]
    rw [forall_prop_of_true hout, ← hinert]
    refine forall_congr' (fun n => ?_)
    have htake : (asCalls mixed).take n = asCalls (mixed.take n) := List.map_take.symm
    rw [hwait _ (hall n), hwait _ (hsome n), forall_prop_of_true hout, htake, ← kept_asCalls,
      ← asCalls_map_fst]
    exact ⟨fun h => ⟨h.1, h.2⟩, fun h => ⟨h.same, h.not_decoded⟩⟩
  · refine iff_of_true (fun n => ⟨?_, fun h => absurd h hout⟩) (fun h => absurd h hout)
    rw [houtcome, houtcome (keptFrames _), exchange_outcome (hin _ (hall n)),
      exchange_outcome (hin _ (hsome n))]
    cases hsend : exec (send lib proto (ascii "kernel") env renv.senv) c with
    | none => rfl
    | some out =>
        obtain ⟨e | _, c'⟩ := out
        · rfl
        · exact absurd ⟨c', hsend⟩ hout

/-- **Raw-binary frames and requests.**  `publish_event` and `send_action` stand,
after every frame, where they do without the inserted frames and decode no
raw-binary message, exactly if the request does not go out or the inserted
frames are unobtrusive while the call waits. -/
theorem requests_ignore_raw_iff {mixed : List (WireFrame × Bool)} {own : UInt32 → Bool}
    {last : Int} {timeoutMs : UInt32} {renv : RequestEnv} {p : Process}
    (hincoming : Incoming lib (some (requestDeadline timeoutMs renv.start)) (mixed.map Prod.fst)
      (p.client.feed (mixed.map Prod.fst)))
    (hins : Insertion own last (asCalls mixed)) (hsets : RawSets own p.client.reassembly)
    (eventType payloadJson action paramsJson : Bytes) :
    (IgnoresRaw (publishOn lib proto eventType payloadJson timeoutMs renv p.client)
        (verdict proto publishTerminal publishOutcome)
        (GoesOut lib proto (publishRequest eventType payloadJson) renv.senv p.client) mixed
        p.client.reassembly ↔
      (GoesOut lib proto (publishRequest eventType payloadJson) renv.senv p.client →
        Unobtrusive (verdict proto publishTerminal publishOutcome) (asCalls mixed)
          p.client.reassembly p.client.reassembly)) ∧
    ∀ actionId, actionId = actionIdText renv.nowMs p.actionSeq →
      (IgnoresRaw (sendActionOn lib proto action paramsJson timeoutMs renv p)
          (verdict proto (actionTerminal actionId) actionOutcome)
          (GoesOut lib proto (actionRequest actionId action paramsJson timeoutMs false) renv.senv
            p.client) mixed p.client.reassembly ↔
        (GoesOut lib proto (actionRequest actionId action paramsJson timeoutMs false) renv.senv
            p.client →
          Unobtrusive (verdict proto (actionTerminal actionId) actionOutcome) (asCalls mixed)
            p.client.reassembly p.client.reassembly)) := by
  refine ⟨exchange_ignores_iff publishOutcome_ne_noRoom (fun ws => rfl) hincoming hins hsets, ?_⟩
  rintro actionId rfl
  refine exchange_ignores_iff actionOutcome_ne_noRoom (fun ws => ?_) hincoming hins hsets
  rw [sendActionOn, exec_sendAction, Option.map_map]
  rfl

/-- A wire frame on the WebSocket. -/
def wireOf (flags : UInt16) (payload : Bytes) : WireFrame :=
  let bytes := ((packFrameRaw storingLibs [] flags payload none).toOption).getD []
  let header := buildHeader flags (targetToBytes []) payload
  ⟨bytes, { payload := payload, flags := flags, rawHeader := header },
    { byteEnv with message := .ok bytes }⟩

def wsClient : Client := { ws := some {} }

/-- Nothing but the frames that come in. -/
def quietEnv : RequestEnv := ⟨0, 0, ⟨[], .ok ()⟩, []⟩

/-- The first of two raw-binary fragments comes before the acknowledgement. -/
def fragmentThenAck : List (WireFrame × Bool) :=
  [(wireOf (flagRawBinary ||| flagFragmented) (fragmentHeaderBytes 9 0 2 ++ [1]), true),
    (wireOf 0 (ackBytes (ascii "e0")), false)]

/-- Whole messages that parse are incoming frames for the sample client. -/
theorem wireOf_incoming {ws : List WireFrame}
    (hmessage : ∀ w ∈ ws, w.env.message = .ok w.bytes)
    (hparse : ∀ w ∈ ws, parseFrameBytes storingLibs w.bytes none = .ok (w.frame, w.bytes.length)) :
    Incoming storingLibs (some (requestDeadline 150 0)) ws (wsClient.feed ws) :=
  .webSocket rfl (fun w hw => ⟨hmessage w hw, _, hparse w hw⟩)

/-- The fragment makes no difference to the call. -/
theorem requests_ignore_raw_iff_fragment :
    publishOn storingLibs publishProto (ascii "t") [] 150 quietEnv wsClient
        (fragmentThenAck.map Prod.fst) =
      publishOn storingLibs publishProto (ascii "t") [] 150 quietEnv wsClient
        (keptFrames fragmentThenAck) ∧
    publishOn storingLibs publishProto (ascii "t") [] 150 quietEnv wsClient
        (keptFrames fragmentThenAck) = some (.ok ⟨ascii "e0", .ok, []⟩) := by
  have hincoming : Incoming storingLibs (some (requestDeadline 150 0))
      (fragmentThenAck.map Prod.fst) (wsClient.feed (fragmentThenAck.map Prod.fst)) :=
    wireOf_incoming (by decide +kernel) (by decide +kernel)
  have hins : Insertion (· == 9) 0 (asCalls fragmentThenAck) := by
    refine ⟨?_, by decide +kernel, by decide +kernel⟩
    intro x hx hfragmented hdr hhdr
    rcases List.mem_pair.mp hx with rfl | rfl
    · have hparsed : parseFragHeader (fragmentHeaderBytes 9 0 2 ++ [1]) = some ⟨9, 0, 2, 9⟩ := by
        decide +kernel
      cases hhdr.symm.trans hparsed
      rfl
    · exact absurd hfragmented (by decide +kernel)
  have hunobtrusive : Unobtrusive (verdict publishProto publishTerminal publishOutcome)
      (asCalls fragmentThenAck) ∅ ∅ := by
    refine ⟨by decide +kernel, ?_, ?_, ?_⟩
    · intro hfragmented
      exact absurd hfragmented (by decide +kernel)
    · rintro _ ⟨⟩
      decide +kernel
    · exact fun hgoes => absurd hgoes (by decide +kernel)
  have hiff := @requests_ignore_raw_iff storingLibs publishProto fragmentThenAck (· == 9) 0 150
    quietEnv ⟨0, wsClient⟩ hincoming hins (fun S b _ hb => by cases hb) (ascii "t") [] [] []
  exact ⟨(hiff.1.mpr (fun _ => hunobtrusive) 2).1, by decide +kernel⟩

/-- **A raw-binary frame answers `publish_event`**: its payload is the encoded
acknowledgement of another event. -/
theorem raw_frame_answers_publish :
    Incoming storingLibs (some (requestDeadline 150 0))
        [wireOf flagRawBinary (ackBytes (ascii "e0"))]
        (wsClient.feed [wireOf flagRawBinary (ackBytes (ascii "e0"))]) ∧
      publishOn storingLibs publishProto (ascii "t") [] 150 quietEnv wsClient
        [wireOf flagRawBinary (ackBytes (ascii "e0"))] = some (.ok ⟨ascii "e0", .ok, []⟩) ∧
      publishOn storingLibs publishProto (ascii "t") [] 150 quietEnv wsClient [] = none :=
  ⟨wireOf_incoming (by decide +kernel) (by decide +kernel), by decide +kernel, by decide +kernel⟩

end Client

end Vynkor
