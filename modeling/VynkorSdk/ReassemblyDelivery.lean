import VynkorSdk.ReassemblyInvariant

/-!
# A fragmented payload survives any order and any other traffic

The fragments of one stream may arrive in any order, each of them any number
of times, among arbitrary calls on other streams and on frames that are not
fragments at all.  While the set is incomplete its entry holds exactly the
fragments that have arrived (`Holding`), other traffic cannot touch it, and the
call that brings the last missing fragment returns the payload.
-/

namespace Vynkor

open ByteCodec KeyedTable

/-- The header `send_fragmented` writes before chunk `i` of `n` on stream `S`. -/
def fragmentHeaderBytes (S : UInt32) (i n : Nat) : Bytes :=
  packFragHeader (S &&& 0xFFFF).toUInt16 (UInt16.ofNat i) (UInt16.ofNat n) S

/-- The call's frame is fragment `i` of the payload cut into `chunks`. -/
def IsFragment (S : UInt32) (chunks : List Bytes) (i : Nat) (call : AbsorbCall) : Prop :=
  i < chunks.length ∧
    call.frame.payload = fragmentHeaderBytes S i chunks.length ++ chunks.getD i []

/-- The call's frame has no fragment header, or one of another stream. -/
def OtherTraffic (S : UInt32) (call : AbsorbCall) : Prop :=
  ∀ hdr, parseFragHeader call.frame.payload = some hdr → hdr.streamId ≠ S

/-- A fragment header survives packing and parsing. -/
theorem parseFragHeader_pack (fragmentId sequence total : UInt16) (streamId : UInt32)
    (rest : Bytes) :
    parseFragHeader (packFragHeader fragmentId sequence total streamId ++ rest) =
      some ⟨fragmentId, sequence, total, streamId⟩ := by
  have hlen : ¬ (packFragHeader fragmentId sequence total streamId ++ rest).length <
      fragHeaderSize := by
    simp only [packFragHeader, fragHeaderSize, List.length_append, toBe_length]
    omega
  have h0 : slice (packFragHeader fragmentId sequence total streamId ++ rest) 0 2 =
      toBe 2 fragmentId.toNat := by
    simp [packFragHeader, slice]
  have h2 : slice (packFragHeader fragmentId sequence total streamId ++ rest) 2 2 =
      toBe 2 sequence.toNat := by
    simp only [packFragHeader, List.append_assoc]
    rw [slice_append_right (by simp)]
    simp
  have h4 : slice (packFragHeader fragmentId sequence total streamId ++ rest) 4 2 =
      toBe 2 total.toNat := by
    simp only [packFragHeader, List.append_assoc]
    rw [← List.append_assoc, slice_append_right (by simp)]
    simp
  have h6 : slice (packFragHeader fragmentId sequence total streamId ++ rest) 6 4 =
      toBe 4 streamId.toNat := by
    rw [packFragHeader, List.append_assoc, slice_append_right (by simp)]
    simp
  simp only [parseFragHeader, if_neg hlen, h0, h2, h4, h6, word16_toBe, word32_toBe]

/-- A packed fragment header has its fixed size. -/
theorem packFragHeader_length (fragmentId sequence total : UInt16) (streamId : UInt32) :
    (packFragHeader fragmentId sequence total streamId).length = fragHeaderSize := by
  simp [packFragHeader, fragHeaderSize]

section Stream

variable {S : UInt32} {chunks : List Bytes}

/-- The header of the `i`-th fragment. -/
theorem IsFragment.header {i : Nat} {call : AbsorbCall} (h : IsFragment S chunks i call) :
    parseFragHeader call.frame.payload =
      some ⟨(S &&& 0xFFFF).toUInt16, UInt16.ofNat i, UInt16.ofNat chunks.length, S⟩ := by
  rw [h.2]
  exact parseFragHeader_pack _ _ _ _ _

/-- The chunk of the `i`-th fragment. -/
theorem IsFragment.chunk {i : Nat} {call : AbsorbCall} (h : IsFragment S chunks i call) :
    call.frame.payload.drop fragHeaderSize = chunks.getD i [] := by
  rw [h.2]
  exact List.drop_left' (packFragHeader_length _ _ _ _)

/-- A sequence number up to 65535 is not cut. -/
theorem ofNat_toNat_of_le {i : Nat} (h : i ≤ 65535) : (UInt16.ofNat i).toNat = i :=
  UInt16.toNat_ofNat_of_lt' (by simp only [UInt16.size]; omega)

/-- A call is a fragment for one sequence number only. -/
theorem IsFragment.index_eq (hcount : chunks.length ≤ 65535) {i j : Nat} {call : AbsorbCall}
    (hi : IsFragment S chunks i call) (hj : IsFragment S chunks j call) : i = j := by
  have hsame := hi.header.symm.trans hj.header
  have hseq : UInt16.ofNat i = UInt16.ofNat j := congrArg FragmentHeader.sequence
    (Option.some.inj hsame)
  have hlt_i := hi.1
  have hlt_j := hj.1
  rw [← ofNat_toNat_of_le (i := i) (by omega), hseq, ofNat_toNat_of_le (by omega)]

/-- Fragments for exactly the numbers in `got`. -/
def HoldsChunks (chunks : List Bytes) (got : Nat → Prop) (f : Table UInt16 Bytes) : Prop :=
  ∀ (seq : UInt16) (v : Bytes),
    f.lookup seq = some v ↔ got seq.toNat ∧ chunks[seq.toNat]? = some v

/-- What is stored lies below the total. -/
theorem HoldsChunks.keys_lt {got : Nat → Prop} {f : Table UInt16 Bytes}
    (h : HoldsChunks chunks got f) : ∀ k ∈ f, k.toNat < chunks.length := by
  intro k hk
  obtain ⟨v, hv⟩ := Option.isSome_iff_exists.mp (AList.lookup_isSome.mpr hk)
  exact (List.getElem?_eq_some_iff.mp ((h k v).mp hv).2).1

/-- The chunks' lengths add up to that of the payload. -/
theorem sum_getD_length (chunks : List Bytes) :
    ∑ i ∈ Finset.range chunks.length, (chunks.getD i []).length = chunks.flatten.length := by
  induction chunks with
  | nil => rfl
  | cons chunk chunks ih =>
      rw [List.length_cons, Finset.sum_range_succ', List.flatten_cons, List.length_append, ← ih]
      simp [Nat.add_comm]

/-- What is held of a payload is no longer than the payload. -/
theorem HoldsChunks.total_le {got : Nat → Prop} {f : Table UInt16 Bytes}
    (h : HoldsChunks chunks got f) : total List.length f ≤ chunks.flatten.length := by
  have hle := total_le_sum_range (f := List.length) (g := fun i => (chunks.getD i []).length)
    toNat_injective h.keys_lt (by
      rintro ⟨k, v⟩ hmem
      have hv := ((h k v).mp (mem_entries_iff.mp hmem)).2
      simp [hv])
  calc total List.length f
      ≤ ∑ i ∈ Finset.range chunks.length, (chunks.getD i []).length := hle
    _ = chunks.flatten.length := sum_getD_length chunks

/-- The fragments count as complete exactly when every number is there. -/
theorem HoldsChunks.size_eq_iff (hcount : chunks.length ≤ 65535) {got : Nat → Prop}
    {f : Table UInt16 Bytes} (h : HoldsChunks chunks got f) :
    size f = chunks.length ↔ ∀ i < chunks.length, got i := by
  constructor
  · intro hsize i hi
    obtain ⟨k, hk, rfl⟩ := covers_of_size toNat_injective h.keys_lt hsize i hi
    obtain ⟨v, hv⟩ := Option.isSome_iff_exists.mp (AList.lookup_isSome.mpr hk)
    exact ((h k v).mp hv).1
  · intro hall
    apply Nat.le_antisymm (size_le_of_index toNat_injective h.keys_lt)
    apply le_size_of_covers UInt16.toNat
    intro i hi
    have hnat := ofNat_toNat_of_le (i := i) (by omega)
    refine ⟨UInt16.ofNat i, ?_, hnat⟩
    have hv := (h (UInt16.ofNat i) chunks[i]).mpr (by
      rw [hnat]
      exact ⟨hall i hi, List.getElem?_eq_getElem hi⟩)
    exact AList.lookup_isSome.mp (by rw [hv]; rfl)

/-- All fragments in order are the payload. -/
theorem HoldsChunks.joined_eq (hcount : chunks.length ≤ 65535) {got : Nat → Prop}
    {b : ReassemblyBuf} (h : HoldsChunks chunks got b.fragments)
    (htotal : b.total.toNat = chunks.length) (hall : ∀ i < chunks.length, got i) :
    b.joined = chunks.flatten := by
  have hmap : (List.range chunks.length).map
      (fun i => (b.fragments.lookup (UInt16.ofNat i)).getD []) = chunks := by
    apply List.ext_getElem
    · simp
    · intro i hi hi'
      have hnat := ofNat_toNat_of_le (i := i) (by omega)
      have hv := (h (UInt16.ofNat i) chunks[i]).mpr (by
        rw [hnat]
        exact ⟨hall i hi', List.getElem?_eq_getElem hi'⟩)
      rw [List.getElem_map, List.getElem_range, hv, Option.getD_some]
  rw [ReassemblyBuf.joined, htotal, List.flatMap, hmap]

/-- The numbers that have arrived once fragment `i` is in. -/
def withNumber (got : Nat → Prop) (i : Nat) : Nat → Prop := fun j => got j ∨ j = i

/-- Storing fragment `i` adds its number. -/
theorem HoldsChunks.insert (hcount : chunks.length ≤ 65535) {got : Nat → Prop}
    {f : Table UInt16 Bytes} (h : HoldsChunks chunks got f) {i : Nat} (hi : i < chunks.length) :
    HoldsChunks chunks (withNumber got i) (f.insert (UInt16.ofNat i) (chunks.getD i [])) := by
  have hnat := ofNat_toNat_of_le (i := i) (by omega)
  intro seq v
  by_cases hseq : seq = UInt16.ofNat i
  · subst hseq
    simp [withNumber, hnat, hi]
  · have hne : seq.toNat ≠ i := fun heq => hseq (by rw [← heq, UInt16.ofNat_toNat])
    rw [AList.lookup_insert_ne hseq, h seq v]
    simp [withNumber, hne]

/-- The entry of stream `S` while its set is incomplete: opened at `seen` with
`flags`, and holding the fragments whose numbers are in `got`. -/
def Holding (S : UInt32) (chunks : List Bytes) (got : Nat → Prop) (flags : UInt16) (seen : Int)
    (t : ReassemblyTable) : Prop :=
  ∃ b, t.lookup S = some b ∧ b.total = UInt16.ofNat chunks.length ∧ b.flags = flags ∧
    b.firstSeen = seen ∧ HoldsChunks chunks got b.fragments

/-- What a call on fragment `i` does, given the numbers that are in before it:
it waits for the rest, or it delivers the payload and drops the entry. -/
def Delivers (S : UInt32) (chunks : List Bytes) (got : Nat → Prop) (flags : UInt16) (seen : Int)
    (out : Except Exn (Option FrameResult) × ReassemblyTable) : Prop :=
  ((∃ j < chunks.length, ¬ got j) → out.1 = .ok none ∧ Holding S chunks got flags seen out.2) ∧
  ((∀ j < chunks.length, got j) →
    out.1 = .ok (some { payload := chunks.flatten, flags := flags }) ∧ out.2.lookup S = none)

/-- Other traffic leaves the entry of `S` to the pruning alone. -/
theorem absorbFragment_other {call : AbsorbCall} (h : OtherTraffic S call)
    (t : ReassemblyTable) :
    (absorbFragment call t).2.lookup S = (prune call.now t).lookup S := by
  have hne : ∀ {hdr}, parseFragHeader call.frame.payload = some hdr → S ≠ hdr.streamId :=
    fun hhdr => (h _ hhdr).symm
  obtain ⟨_, _, hout | ⟨hdr, hhdr, hout⟩⟩ | ⟨hdr, b, hjoin, hcases⟩ :=
    absorbFragment_cases call t
  · rw [hout]
  · rw [hout, AList.lookup_erase_ne (hne hhdr)]
  · have hS := hne hjoin.header
    obtain ⟨_, hout⟩ | ⟨_, _, hout⟩ | ⟨_, _, ⟨_, _, hout⟩ | ⟨_, hout⟩⟩ := hcases
    · rw [hout, AList.lookup_erase_ne hS]
    · rw [hout, AList.lookup_insert_ne hS]
    · rw [hout, AList.lookup_erase_ne hS]
    · rw [hout, AList.lookup_insert_ne hS]

/-- Foreign traffic leaves the set as it is while it does not age. -/
theorem Holding.other {got : Nat → Prop} {flags : UInt16} {seen : Int} {t : ReassemblyTable}
    {call : AbsorbCall} (h : Holding S chunks got flags seen t) (hother : OtherTraffic S call)
    (hage : call.now - seen < reassemblyTimeout) :
    Holding S chunks got flags seen (absorbFragment call t).2 := by
  obtain ⟨b, hb, htotal, hflags, hseen, hholds⟩ := h
  refine ⟨b, ?_, htotal, hflags, hseen, hholds⟩
  rw [absorbFragment_other hother]
  exact lookup_prune.mpr ⟨hb, by rwa [hseen]⟩

/-- The call that brings chunk `i` for the entry it joins, if the chunk fits. -/
theorem Joins.delivers (hcount : chunks.length ≤ 65535) {t : ReassemblyTable} (ht : TableInv t)
    {call : AbsorbCall} {hdr : FragmentHeader} {b : ReassemblyBuf}
    (hjoin : Joins call (prune call.now t) hdr b) {i : Nat} (hi : i < chunks.length)
    (hseq : hdr.sequence = UInt16.ofNat i)
    (hchunk : call.frame.payload.drop fragHeaderSize = chunks.getD i []) {got : Nat → Prop}
    (hholds : HoldsChunks chunks got b.fragments) (htotal : b.total = UInt16.ofNat chunks.length)
    (hfits : b.newTotal hdr.sequence (call.frame.payload.drop fragHeaderSize) ≤ maxPayloadSize) :
    Delivers hdr.streamId chunks (withNumber got i) b.flags b.firstSeen
      (absorbFragment call t) := by
  have hcnt : (UInt16.ofNat chunks.length).toNat = chunks.length := ofNat_toNat_of_le hcount
  have hstored : HoldsChunks chunks (withNumber got i)
      (b.store (UInt16.ofNat i) (chunks.getD i [])).fragments := hholds.insert hcount hi
  have hcomplete : (b.store (UInt16.ofNat i) (chunks.getD i [])).isComplete = true ↔
      ∀ j < chunks.length, withNumber got i j := by
    rw [ReassemblyBuf.isComplete, beq_iff_eq, ReassemblyBuf.store_total, htotal, hcnt]
    exact hstored.size_eq_iff hcount
  have hreassemble := hjoin.reassemble_of_complete (ht.prune call.now) (chunks.getD i [])
  rw [absorbFragment_of_joins hjoin]
  unfold absorbInto
  rw [hchunk, hseq] at hfits ⊢
  rw [hseq] at hreassemble
  dsimp only
  rw [if_neg (Nat.not_lt.mpr hfits)]
  constructor
  · rintro ⟨j, hj, hmissing⟩
    rw [if_neg (fun h => hmissing (hcomplete.mp h j hj))]
    exact ⟨rfl, _, AList.lookup_insert _, htotal, rfl, rfl, hstored⟩
  · intro hall
    have hresult := hreassemble (hcomplete.mpr hall)
    rw [hstored.joined_eq hcount (by rw [ReassemblyBuf.store_total, htotal, hcnt]) hall] at hresult
    rw [if_pos (hcomplete.mpr hall), hresult]
    exact ⟨rfl, AList.lookup_erase _ _⟩

/-- The call on fragment `i`, once the entry it joins is known. -/
theorem IsFragment.delivers (hcount : 1 ≤ chunks.length ∧ chunks.length ≤ 65535)
    (hsize : chunks.flatten.length ≤ maxPayloadSize) {t : ReassemblyTable} (ht : TableInv t)
    {i : Nat} {call : AbsorbCall} (hcall : IsFragment S chunks i call) {b : ReassemblyBuf}
    {got : Nat → Prop} (hholds : HoldsChunks chunks got b.fragments)
    (htotal : b.total = UInt16.ofNat chunks.length)
    (hentry : (prune call.now t).lookup S = some b ∨
      ((prune call.now t).lookup S = none ∧ size (prune call.now t) < maxReassemblyStreams ∧
        b = .opened (UInt16.ofNat chunks.length)
          (call.frame.flags &&& ~~~(flagFragmented ||| flagMacPresent)) call.seen)) :
    Delivers S chunks (withNumber got i) b.flags b.firstSeen (absorbFragment call t) := by
  have hi := hcall.1
  have hnat : (UInt16.ofNat i).toNat = i := ofNat_toNat_of_le (by omega)
  have hcnt : (UInt16.ofNat chunks.length).toNat = chunks.length := ofNat_toNat_of_le hcount.2
  have hne : UInt16.ofNat chunks.length ≠ 0 := by
    intro h0
    rw [h0] at hcnt
    simp at hcnt
    omega
  have hlt : UInt16.ofNat i < UInt16.ofNat chunks.length := by
    rw [UInt16.lt_iff_toNat_lt]
    omega
  have hjoin : Joins call (prune call.now t) _ b :=
    ⟨hcall.header, hne, hlt, htotal, hentry⟩
  refine hjoin.delivers hcount.2 ht hi rfl hcall.chunk hholds htotal ?_
  have hstored : HoldsChunks chunks (withNumber got i)
      (b.fragments.insert (UInt16.ofNat i) (chunks.getD i [])) := hholds.insert hcount.2 hi
  rw [hcall.chunk, (hjoin.bufInv (ht.prune call.now)).newTotal_eq]
  exact hstored.total_le.trans hsize

/-- A fragment that finds its set waiting. -/
theorem Holding.fragment (hcount : 1 ≤ chunks.length ∧ chunks.length ≤ 65535)
    (hsize : chunks.flatten.length ≤ maxPayloadSize) {got : Nat → Prop} {flags : UInt16}
    {seen : Int} {t : ReassemblyTable} (h : Holding S chunks got flags seen t) (ht : TableInv t)
    {i : Nat} {call : AbsorbCall} (hcall : IsFragment S chunks i call)
    (hage : call.now - seen < reassemblyTimeout) :
    Delivers S chunks (withNumber got i) flags seen (absorbFragment call t) := by
  obtain ⟨b, hb, htotal, rfl, rfl, hholds⟩ := h
  exact hcall.delivers hcount hsize ht hholds htotal (Or.inl (lookup_prune.mpr ⟨hb, hage⟩))

/-- The fragment that opens its set. -/
theorem IsFragment.opens (hcount : 1 ≤ chunks.length ∧ chunks.length ≤ 65535)
    (hsize : chunks.flatten.length ≤ maxPayloadSize) {t : ReassemblyTable} (ht : TableInv t)
    {i : Nat} {call : AbsorbCall} (hcall : IsFragment S chunks i call)
    (hfresh : t.lookup S = none) (hroom : size (prune call.now t) < maxReassemblyStreams) :
    Delivers S chunks (· = i) (call.frame.flags &&& ~~~(flagFragmented ||| flagMacPresent))
      call.seen (absorbFragment call t) := by
  have hnone : (prune call.now t).lookup S = none := by
    rw [prune, lookup_retain, hfresh]
    rfl
  have hholds : HoldsChunks chunks (fun _ => False) (∅ : Table UInt16 Bytes) := by
    intro seq v
    simp
  have hnumbers : withNumber (fun _ => False) i = (· = i) := by
    funext j
    simp [withNumber]
  rw [← hnumbers]
  exact hcall.delivers (b := .opened (UInt16.ofNat chunks.length) _ call.seen) hcount hsize ht
    hholds rfl (Or.inr ⟨hnone, hroom, rfl⟩)

/-! ### Whole runs -/

/-- The numbers of the fragments among the calls. -/
def arrived (S : UInt32) (chunks : List Bytes) (calls : List AbsorbCall) : Nat → Prop :=
  fun j => ∃ call ∈ calls, IsFragment S chunks j call

/-- One more fragment has arrived with its own number. -/
theorem arrived_snoc_fragment (hcount : chunks.length ≤ 65535) {calls : List AbsorbCall}
    {call : AbsorbCall} {i : Nat} (hcall : IsFragment S chunks i call) :
    arrived S chunks (calls ++ [call]) = withNumber (arrived S chunks calls) i := by
  funext j
  simp only [arrived, withNumber, List.mem_append, List.mem_singleton, eq_iff_iff]
  constructor
  · rintro ⟨c, hc | rfl, hj⟩
    · exact Or.inl ⟨c, hc, hj⟩
    · exact Or.inr (hj.index_eq hcount hcall)
  · rintro (⟨c, hc, hj⟩ | rfl)
    · exact ⟨c, Or.inl hc, hj⟩
    · exact ⟨call, Or.inr rfl, hcall⟩

/-- A fragment of the stream is no foreign traffic. -/
theorem IsFragment.not_other {i : Nat} {call : AbsorbCall} (h : IsFragment S chunks i call) :
    ¬ OtherTraffic S call :=
  fun hother => hother _ h.header rfl

/-- With foreign traffic nothing more has arrived. -/
theorem arrived_snoc_other {calls : List AbsorbCall} {call : AbsorbCall}
    (hcall : OtherTraffic S call) :
    arrived S chunks (calls ++ [call]) = arrived S chunks calls := by
  funext j
  simp only [arrived, List.mem_append, List.mem_singleton, eq_iff_iff]
  constructor
  · rintro ⟨c, hc | rfl, hj⟩
    · exact ⟨c, hc, hj⟩
    · exact absurd hcall hj.not_other
  · rintro ⟨c, hc, hj⟩
    exact ⟨c, Or.inl hc, hj⟩

/-- `first` is the first fragment of the stream among the calls: `early` comes
before it and `late` after it. -/
structure FirstFragment (S : UInt32) (chunks : List Bytes) (calls early late : List AbsorbCall)
    (first : AbsorbCall) : Prop where
  calls_eq : calls = early ++ first :: late
  early_other : ∀ call ∈ early, OtherTraffic S call
  fragment : ∃ i, IsFragment S chunks i first

/-- Room for the set when its first fragment arrives, and no call finds it
30 s old. -/
def RoomAndTime (S : UInt32) (chunks : List Bytes) (t : ReassemblyTable)
    (calls : List AbsorbCall) : Prop :=
  ∀ early first late, FirstFragment S chunks calls early late first →
    size (prune first.now (absorbAll t early)) < maxReassemblyStreams ∧
      ∀ call ∈ late, call.now - first.seen < reassemblyTimeout

/-- The first fragment stays the first one. -/
theorem FirstFragment.snoc {calls early late : List AbsorbCall} {first : AbsorbCall}
    (h : FirstFragment S chunks calls early late first) (call : AbsorbCall) :
    FirstFragment S chunks (calls ++ [call]) early (late ++ [call]) first :=
  ⟨by simp [h.calls_eq], h.early_other, h.fragment⟩

/-- Room and time for a sequence of calls are room and time for its front. -/
theorem RoomAndTime.of_snoc {t : ReassemblyTable} {calls : List AbsorbCall} {call : AbsorbCall}
    (h : RoomAndTime S chunks t (calls ++ [call])) : RoomAndTime S chunks t calls := by
  intro early first late hfirst
  obtain ⟨hroom, hage⟩ := h early first (late ++ [call]) (hfirst.snoc call)
  exact ⟨hroom, fun c hc => hage c (List.mem_append_left _ hc)⟩

/-- Where an incomplete stream stands: nothing of it has come and it has no
entry, or its entry holds what has come since the first fragment. -/
def Awaiting (S : UInt32) (chunks : List Bytes) (t : ReassemblyTable)
    (calls : List AbsorbCall) : Prop :=
  ((∀ call ∈ calls, OtherTraffic S call) ∧ (absorbAll t calls).lookup S = none) ∨
  ∃ early first late, FirstFragment S chunks calls early late first ∧
    Holding S chunks (arrived S chunks calls)
      (first.frame.flags &&& ~~~(flagFragmented ||| flagMacPresent)) first.seen
      (absorbAll t calls)

/-- The call on one more fragment of a stream that is still incomplete. -/
theorem Awaiting.fragment (hcount : 1 ≤ chunks.length ∧ chunks.length ≤ 65535)
    (hsize : chunks.flatten.length ≤ maxPayloadSize) {t : ReassemblyTable} (ht : TableInv t)
    {calls : List AbsorbCall} {call : AbsorbCall} {i : Nat} (h : Awaiting S chunks t calls)
    (hcall : IsFragment S chunks i call) (hfit : RoomAndTime S chunks t (calls ++ [call])) :
    ∃ early first late, FirstFragment S chunks (calls ++ [call]) early late first ∧
      Delivers S chunks (arrived S chunks (calls ++ [call]))
        (first.frame.flags &&& ~~~(flagFragmented ||| flagMacPresent)) first.seen
        (absorbFragment call (absorbAll t calls)) := by
  have hinv := absorbAll_inv ht calls
  rw [arrived_snoc_fragment hcount.2 hcall]
  rcases h with ⟨hother, hnone⟩ | ⟨early, first, late, hfirst, hhold⟩
  · have hfirst : FirstFragment S chunks (calls ++ [call]) calls [] call :=
      ⟨rfl, hother, i, hcall⟩
    have hgot : withNumber (arrived S chunks calls) i = (· = i) := by
      funext j
      have hno : ¬ arrived S chunks calls j := fun ⟨c, hc, hj⟩ => hj.not_other (hother c hc)
      simp [withNumber, hno]
    rw [hgot]
    exact ⟨calls, call, [], hfirst,
      hcall.opens hcount hsize hinv hnone (hfit calls call [] hfirst).1⟩
  · have hage := (hfit _ _ _ (hfirst.snoc call)).2 call (by simp)
    exact ⟨early, first, late ++ [call], hfirst.snoc call,
      hhold.fragment hcount hsize hinv hcall hage⟩

/-- As long as a fragment is missing, the stream stands where `Awaiting` says. -/
theorem awaiting_of_missing (hcount : 1 ≤ chunks.length ∧ chunks.length ≤ 65535)
    (hsize : chunks.flatten.length ≤ maxPayloadSize) {t : ReassemblyTable} (ht : TableInv t)
    (hfresh : t.lookup S = none) (calls : List AbsorbCall)
    (htraffic : ∀ call ∈ calls, OtherTraffic S call ∨ ∃ i, IsFragment S chunks i call)
    (hfit : RoomAndTime S chunks t calls)
    (hmissing : ∃ j < chunks.length, ¬ arrived S chunks calls j) :
    Awaiting S chunks t calls := by
  induction calls using List.reverseRecOn with
  | nil => exact Or.inl ⟨by simp, hfresh⟩
  | append_singleton calls call ih =>
      obtain ⟨j, hj, hno⟩ := hmissing
      have hprev := ih (fun c hc => htraffic c (List.mem_append_left _ hc)) hfit.of_snoc
        ⟨j, hj, fun ⟨c, hc, hfrag⟩ => hno ⟨c, List.mem_append_left _ hc, hfrag⟩⟩
      rcases htraffic call (by simp) with hother | ⟨i, hcall⟩
      · rcases hprev with ⟨hall, hnone⟩ | ⟨early, first, late, hfirst, hhold⟩
        · refine Or.inl ⟨?_, ?_⟩
          · intro c hc
            rcases List.mem_append.mp hc with hc | hc
            · exact hall c hc
            · exact List.mem_singleton.mp hc ▸ hother
          · rw [absorbAll_snoc, absorbFragment_other hother, prune, lookup_retain, hnone]
            rfl
        · have hage := (hfit _ _ _ (hfirst.snoc call)).2 call (by simp)
          refine Or.inr ⟨early, first, late ++ [call], hfirst.snoc call, ?_⟩
          rw [arrived_snoc_other hother, absorbAll_snoc]
          exact hhold.other hother hage
      · obtain ⟨early, first, late, hfirst, hwaits, _⟩ := hprev.fragment hcount hsize ht hcall hfit
        refine Or.inr ⟨early, first, late, hfirst, ?_⟩
        rw [absorbAll_snoc]
        exact (hwaits ⟨j, hj, hno⟩).2

end Stream

/-- **A fragmented payload is delivered whatever comes between.**  After any
past calls that leave stream `S` unbuffered, let `calls` bring fragments of a
payload on `S` in any order and number, mixed with any other traffic, and let
one fragment still be missing.  A further fragment of `S` makes the call return
nothing while some number is missing still; the one that brings the last
missing number makes it return the payload and removes `S` from the table. -/
theorem fragments_delivered_in_any_order (S : UInt32) (chunks : List Bytes)
    (hcount : 1 ≤ chunks.length ∧ chunks.length ≤ 65535)
    (hsize : chunks.flatten.length ≤ maxPayloadSize) (past calls : List AbsorbCall)
    (hfresh : (absorbAll ∅ past).lookup S = none)
    (htraffic : ∀ call ∈ calls, OtherTraffic S call ∨ ∃ i, IsFragment S chunks i call)
    (hmissing : ∃ j < chunks.length, ¬ arrived S chunks calls j)
    (call : AbsorbCall) (i : Nat) (hcall : IsFragment S chunks i call)
    (hfit : RoomAndTime S chunks (absorbAll ∅ past) (calls ++ [call])) :
    ((∃ j < chunks.length, ¬ arrived S chunks (calls ++ [call]) j) →
      (absorbFragment call (absorbAll ∅ (past ++ calls))).1 = .ok none) ∧
    ((∀ j < chunks.length, arrived S chunks (calls ++ [call]) j) →
      ∃ r, (absorbFragment call (absorbAll ∅ (past ++ calls))).1 = .ok (some r) ∧
        r.payload = chunks.flatten ∧
        (absorbAll ∅ (past ++ calls ++ [call])).lookup S = none) := by
  have ht := absorbAll_inv TableInv.empty past
  have hawait := awaiting_of_missing hcount hsize ht hfresh calls htraffic hfit.of_snoc hmissing
  obtain ⟨early, first, late, _, hwaits, hdone⟩ := hawait.fragment hcount hsize ht hcall hfit
  rw [absorbAll_snoc, absorbAll_append]
  refine ⟨fun hmiss => (hwaits hmiss).1, fun hall => ?_⟩
  obtain ⟨hout, hgone⟩ := hdone hall
  exact ⟨_, hout, rfl, hgone⟩

/-- A frame with the fragment flag and no room for a header. -/
def shortCall (now : Int) : AbsorbCall :=
  { now := now, seen := now, frame := { payload := [7], flags := flagFragmented } }

/-- Two fragments, the later one first and twice, with a broken frame between. -/
theorem fragments_delivered_in_any_order_two :
    ∃ r, (absorbFragment (halfCall 5 0 97)
        (absorbAll ∅ ([] ++ [halfCall 0 1 98, shortCall 2, halfCall 3 1 98]))).1 = .ok (some r) ∧
      r.payload = [97, 98] ∧
      (absorbAll ∅ ([] ++ [halfCall 0 1 98, shortCall 2, halfCall 3 1 98] ++
        [halfCall 5 0 97])).lookup 9 = none := by
  have hlate : ∀ now, IsFragment 9 [[97], [98]] 1 (halfCall now 1 98) :=
    fun now => ⟨by decide, rfl⟩
  have hlast : IsFragment 9 [[97], [98]] 0 (halfCall 5 0 97) := ⟨by decide, rfl⟩
  have hshort : OtherTraffic 9 (shortCall 2) := by
    intro hdr hhdr
    rw [show parseFragHeader (shortCall 2).frame.payload = none from rfl] at hhdr
    cases hhdr
  refine (fragments_delivered_in_any_order 9 [[97], [98]] (by decide) (by decide) []
    [halfCall 0 1 98, shortCall 2, halfCall 3 1 98] rfl ?_ ⟨0, by decide, ?_⟩
    (halfCall 5 0 97) 0 hlast ?_).2 ?_
  · simp only [List.forall_mem_cons]
    exact ⟨Or.inr ⟨1, hlate 0⟩, Or.inl hshort, Or.inr ⟨1, hlate 3⟩, by simp⟩
  · rintro ⟨c, hc, hzero⟩
    have hone : OtherTraffic 9 c ∨ IsFragment 9 [[97], [98]] 1 c := by
      simp only [List.mem_cons, List.not_mem_nil, or_false] at hc
      rcases hc with rfl | rfl | rfl
      · exact Or.inr (hlate 0)
      · exact Or.inl hshort
      · exact Or.inr (hlate 3)
    rcases hone with hother | hone
    · exact hzero.not_other hother
    · exact absurd (hzero.index_eq (by decide) hone) (by decide)
  · rintro early first late ⟨heq, hother, _⟩
    rcases early with _ | ⟨c, early⟩
    · obtain ⟨rfl, rfl⟩ := List.cons.inj heq
      exact ⟨by decide +kernel, by decide +kernel⟩
    · obtain ⟨rfl, -⟩ := List.cons.inj heq
      exact absurd (hother _ (by simp)) (hlate 0).not_other
  · intro j hj
    rcases j with _ | _ | j
    · exact ⟨_, by simp, hlast⟩
    · exact ⟨_, by simp, hlate 0⟩
    · exact absurd hj (by simp)

end Vynkor
