import VynkorSdk.Reassembly

/-!
# The reassembly table over whole runs

Two things hold after any sequence of `absorb_fragment` calls, throwing calls
included.  The table invariant (`TableInv`): at most 64 open sets, each
incomplete, with sequence numbers in range and exact byte accounting.  And the
meaning of the entries: an entry holds for each sequence number the chunk
absorbed last since the entry was opened.

Completeness is judged by counting alone, so a returned payload rests on the
pigeonhole step `KeyedTable.covers_of_size`.
-/

namespace Vynkor

open ByteCodec KeyedTable

/-! ### One entry -/

/-- The invariant of a buffered fragment set. -/
structure BufInv (b : ReassemblyBuf) : Prop where
  total_pos : 1 ≤ b.total.toNat
  keys_lt : ∀ k ∈ b.fragments, k < b.total
  size_lt : size b.fragments < b.total.toNat
  bytes_eq : b.bufferedBytes = total List.length b.fragments
  bytes_le : b.bufferedBytes ≤ maxPayloadSize

/-- Sequence numbers are told apart by their values. -/
theorem toNat_injective : Function.Injective (UInt16.toNat) :=
  fun _ _ h => UInt16.toNat_inj.mp h

/-- `size_t` subtraction is exact where nothing wraps. -/
theorem sizeSub_eq {a b : Nat} (hba : b ≤ a) (ha : a < 2 ^ 64) : sizeSub a b = a - b := by
  unfold sizeSub
  omega

/-- A set that was just opened satisfies the invariant. -/
theorem BufInv.opened {total flags : UInt16} (now : Int) (h : total ≠ 0) :
    BufInv (.opened total flags now) := by
  have hpos : 1 ≤ total.toNat := by
    have : total.toNat ≠ 0 := fun h0 => h (UInt16.toNat_inj.mp h0)
    omega
  exact ⟨hpos, by simp [ReassemblyBuf.opened], hpos, rfl, Nat.zero_le _⟩

/-- The replaced bytes were counted: the subtraction does not underflow. -/
theorem BufInv.replacedLen_le {b : ReassemblyBuf} (h : BufInv b) (sequence : UInt16) :
    b.replacedLen sequence ≤ b.bufferedBytes := by
  unfold ReassemblyBuf.replacedLen
  cases hold : b.fragments.lookup sequence with
  | none => exact Nat.zero_le _
  | some old =>
      rw [h.bytes_eq]
      exact le_total_of_lookup hold

/-- The new byte count is the byte count of the updated fragments. -/
theorem BufInv.newTotal_eq {b : ReassemblyBuf} (h : BufInv b) (sequence : UInt16)
    (chunk : Bytes) :
    b.newTotal sequence chunk = total List.length (b.fragments.insert sequence chunk) := by
  have hle := h.replacedLen_le sequence
  have hmax := h.bytes_le
  simp only [maxPayloadSize] at hmax
  rw [ReassemblyBuf.newTotal, sizeSub_eq hle (by omega)]
  unfold ReassemblyBuf.replacedLen at hle ⊢
  cases hold : b.fragments.lookup sequence with
  | none =>
      rw [total_insert_fresh hold, h.bytes_eq]
      rfl
  | some old =>
      have hreplace := total_insert_replace (f := List.length) (v := chunk) hold
      rw [hold] at hle
      dsimp only at hle ⊢
      rw [h.bytes_eq] at hle ⊢
      omega

/-- A chunk below the total is stored below the total. -/
theorem store_keys_lt {b : ReassemblyBuf} (h : BufInv b) {sequence : UInt16} (chunk : Bytes)
    (hseq : sequence < b.total) :
    ∀ k ∈ (b.store sequence chunk).fragments, k < (b.store sequence chunk).total := by
  intro k hk
  rcases (AList.mem_insert _).mp hk with rfl | hk
  · exact hseq
  · exact h.keys_lt k hk

/-- Storing a chunk that fits keeps the invariant unless it completes the set. -/
theorem BufInv.store {b : ReassemblyBuf} (h : BufInv b) {sequence : UInt16} {chunk : Bytes}
    (hseq : sequence < b.total) (hfits : b.newTotal sequence chunk ≤ maxPayloadSize)
    (hopen : (b.store sequence chunk).isComplete = false) : BufInv (b.store sequence chunk) := by
  have hkeys := store_keys_lt h chunk hseq
  have hsize : size (b.store sequence chunk).fragments ≤ b.total.toNat :=
    size_le_of_index toNat_injective (fun k hk => UInt16.lt_iff_toNat_lt.mp (hkeys k hk))
  have hne : size (b.store sequence chunk).fragments ≠ b.total.toNat := by
    simpa [ReassemblyBuf.isComplete] using hopen
  exact ⟨h.total_pos, hkeys, lt_of_le_of_ne hsize hne, h.newTotal_eq sequence chunk, hfits⟩

/-! ### The reassembly loop -/

/-- The concatenation of the stored chunks in sequence order. -/
def ReassemblyBuf.joined (b : ReassemblyBuf) : Bytes :=
  (List.range b.total.toNat).flatMap
    (fun i => (b.fragments.lookup (UInt16.ofNat i)).getD [])

/-- The loop from `seq` on appends the remaining chunks in order. -/
theorem reassembleFrom_eq {b : ReassemblyBuf}
    (hall : ∀ i < b.total.toNat, (b.fragments.lookup (UInt16.ofNat i)).isSome) :
    ∀ (left rounds : Nat) (seq : UInt16) (out : Bytes),
      seq.toNat + left = b.total.toNat → left < rounds →
      b.reassembleFrom rounds seq out =
        some (out ++ (List.range' seq.toNat left).flatMap
          (fun i => (b.fragments.lookup (UInt16.ofNat i)).getD [])) := by
  intro left
  induction left with
  | zero =>
      intro rounds seq out heq hrounds
      obtain ⟨rounds, rfl⟩ : ∃ r, rounds = r + 1 := ⟨rounds - 1, by omega⟩
      have hdone : ¬ seq < b.total := by
        rw [UInt16.lt_iff_toNat_lt]
        omega
      simp [ReassemblyBuf.reassembleFrom, hdone]
  | succ left ih =>
      intro rounds seq out heq hrounds
      obtain ⟨rounds, rfl⟩ : ∃ r, rounds = r + 1 := ⟨rounds - 1, by omega⟩
      have hlt : seq < b.total := by
        rw [UInt16.lt_iff_toNat_lt]
        omega
      have hbound := b.total.toNat_lt
      have hsucc : (seq + 1).toNat = seq.toNat + 1 := by
        rw [UInt16.toNat_add, UInt16.toNat_one]
        omega
      obtain ⟨chunk, hchunk⟩ :=
        Option.isSome_iff_exists.mp (hall seq.toNat (UInt16.lt_iff_toNat_lt.mp hlt))
      rw [UInt16.ofNat_toNat] at hchunk
      rw [ReassemblyBuf.reassembleFrom, if_pos hlt, hchunk]
      dsimp only
      rw [ih rounds (seq + 1) (out ++ chunk) (by omega) (by omega), hsucc, List.range'_succ,
        List.flatMap_cons, UInt16.ofNat_toNat, hchunk, Option.getD_some, List.append_assoc]

/-- A set with a chunk for every sequence number reassembles to their
concatenation. -/
theorem reassemble_eq_joined {b : ReassemblyBuf}
    (hall : ∀ i < b.total.toNat, (b.fragments.lookup (UInt16.ofNat i)).isSome) :
    b.reassemble = some b.joined := by
  have hbound := b.total.toNat_lt
  rw [ReassemblyBuf.reassemble,
    reassembleFrom_eq hall b.total.toNat 65536 0 [] (by simp) (by omega)]
  simp [ReassemblyBuf.joined, List.range_eq_range']

/-- A set that counts as complete has a chunk for every sequence number. -/
theorem complete_covers {b : ReassemblyBuf} (hkeys : ∀ k ∈ b.fragments, k < b.total)
    (hcomplete : b.isComplete = true) :
    ∀ i < b.total.toNat, (b.fragments.lookup (UInt16.ofNat i)).isSome := by
  intro i hi
  have hsize : size b.fragments = b.total.toNat := by
    simpa [ReassemblyBuf.isComplete] using hcomplete
  obtain ⟨k, hk, hki⟩ := covers_of_size toNat_injective
    (fun k hk => UInt16.lt_iff_toNat_lt.mp (hkeys k hk)) hsize i hi
  rw [← hki, UInt16.ofNat_toNat]
  exact AList.lookup_isSome.mpr hk

/-! ### The table invariant -/

/-- The invariant of the reassembly table. -/
structure TableInv (t : ReassemblyTable) : Prop where
  streams_le : size t ≤ maxReassemblyStreams
  entries : ∀ S b, t.lookup S = some b → BufInv b

/-- The empty table satisfies the invariant. -/
theorem TableInv.empty : TableInv ∅ := ⟨by decide, by simp⟩

/-- Sweeping keeps the invariant. -/
theorem TableInv.prune {t : ReassemblyTable} (h : TableInv t) (now : Int) :
    TableInv (prune now t) :=
  ⟨(retain_size_le _ t).trans h.streams_le, fun S b hb => h.entries S b (lookup_prune.mp hb).1⟩

/-- Dropping a set keeps the invariant. -/
theorem TableInv.erase {t : ReassemblyTable} (h : TableInv t) (S : UInt32) :
    TableInv (t.erase S) :=
  ⟨(size_erase_le S t).trans h.streams_le, fun S' b hb => h.entries S' b (lookup_erase_some hb).2⟩

/-- A good set may be added or put back where there is room. -/
theorem TableInv.insert {t : ReassemblyTable} (h : TableInv t) {S : UInt32} {b : ReassemblyBuf}
    (hb : BufInv b) (hroom : S ∈ t ∨ size t < maxReassemblyStreams) : TableInv (t.insert S b) := by
  constructor
  · by_cases hmem : S ∈ t
    · rw [size_insert_of_mem hmem]
      exact h.streams_le
    · rw [size_insert_of_not_mem hmem]
      exact hroom.resolve_left hmem
  · intro S' b' hb'
    rcases lookup_insert_some hb' with ⟨_, rfl⟩ | hold
    · exact hb
    · exact h.entries S' b' hold

/-- The entry a fragment joins satisfies the invariant, opened or buffered. -/
theorem Joins.bufInv {call : AbsorbCall} {t : ReassemblyTable} {hdr : FragmentHeader}
    {b : ReassemblyBuf} (h : Joins call t hdr b) (ht : TableInv t) : BufInv b := by
  rcases h.entry with hb | ⟨_, _, rfl⟩
  · exact ht.entries _ b hb
  · exact BufInv.opened call.seen h.total_ne

/-- A chunk that joins a set has its stream in the table or finds room for it. -/
theorem Joins.room {call : AbsorbCall} {t : ReassemblyTable} {hdr : FragmentHeader}
    {b : ReassemblyBuf} (h : Joins call t hdr b) :
    hdr.streamId ∈ t ∨ size t < maxReassemblyStreams := by
  rcases h.entry with hb | ⟨_, hroom, _⟩
  · exact Or.inl (AList.lookup_isSome.mp (by rw [hb]; rfl))
  · exact Or.inr hroom

/-- A complete set reassembles; `fragments.at` does not throw. -/
theorem Joins.reassemble_of_complete {call : AbsorbCall} {t : ReassemblyTable}
    {hdr : FragmentHeader} {b : ReassemblyBuf} (h : Joins call t hdr b) (ht : TableInv t)
    (chunk : Bytes) (hcomplete : (b.store hdr.sequence chunk).isComplete = true) :
    (b.store hdr.sequence chunk).reassemble = some (b.store hdr.sequence chunk).joined :=
  reassemble_eq_joined (complete_covers
    (store_keys_lt (h.bufInv ht) chunk (h.total_eq ▸ h.sequence_lt)) hcomplete)

/-- One call keeps the table invariant and never fails a fragment lookup. -/
theorem absorbFragment_inv (call : AbsorbCall) {t : ReassemblyTable} (ht : TableInv t) :
    TableInv (absorbFragment call t).2 ∧
      ∀ m, (absorbFragment call t).1 ≠ .error (.stdOutOfRange m) := by
  have hp := ht.prune call.now
  obtain ⟨_, _, hout | ⟨hdr, _, hout⟩⟩ | ⟨hdr, b, hjoin, hcases⟩ :=
    absorbFragment_cases call t
  · rw [hout]
    exact ⟨hp, by simp⟩
  · rw [hout]
    exact ⟨hp.erase _, by simp⟩
  · have hb := hjoin.bufInv hp
    obtain ⟨_, hout⟩ | ⟨hfits, hopen, hout⟩ | ⟨_, hcomplete, ⟨payload, _, hout⟩ | ⟨hmiss, _⟩⟩ :=
      hcases
    · rw [hout]
      exact ⟨hp.erase _, by simp⟩
    · rw [hout]
      have hstored := hb.store (hjoin.total_eq ▸ hjoin.sequence_lt) hfits hopen
      exact ⟨hp.insert hstored hjoin.room, by simp⟩
    · rw [hout]
      exact ⟨hp.erase _, by simp⟩
    · rw [hjoin.reassemble_of_complete hp _ hcomplete] at hmiss
      cases hmiss

/-- Any sequence of frames keeps the invariant. -/
theorem absorbAll_inv {t : ReassemblyTable} (ht : TableInv t) (calls : List AbsorbCall) :
    TableInv (absorbAll t calls) := by
  induction calls using List.reverseRecOn with
  | nil => exact ht
  | append_singleton calls call ih =>
      rw [absorbAll_snoc]
      exact (absorbFragment_inv call ih).1

/-! ### Where bytes come from -/

/-- Every stored chunk satisfies `P`. -/
def AllChunks (P : Bytes → Prop) (t : ReassemblyTable) : Prop :=
  ∀ S b seq chunk, t.lookup S = some b → b.fragments.lookup seq = some chunk → P chunk

/-- The empty table holds no chunk. -/
theorem AllChunks.empty (P : Bytes → Prop) : AllChunks P ∅ := by
  intro S b seq chunk hb
  cases hb

/-- A property of the chunks may be weakened. -/
theorem AllChunks.mono {P P' : Bytes → Prop} {t : ReassemblyTable} (h : AllChunks P t)
    (himp : ∀ chunk, P chunk → P' chunk) : AllChunks P' t :=
  fun S b seq chunk hb hchunk => himp chunk (h S b seq chunk hb hchunk)

/-- Sweeping adds no chunk. -/
theorem AllChunks.prune {P : Bytes → Prop} {t : ReassemblyTable} (h : AllChunks P t) (now : Int) :
    AllChunks P (prune now t) :=
  fun S b seq chunk hb hchunk => h S b seq chunk (lookup_prune.mp hb).1 hchunk

/-- Dropping a set adds no chunk. -/
theorem AllChunks.erase {P : Bytes → Prop} {t : ReassemblyTable} (h : AllChunks P t) (S : UInt32) :
    AllChunks P (t.erase S) :=
  fun S' b seq chunk hb hchunk => h S' b seq chunk (lookup_erase_some hb).2 hchunk

/-- A set all of whose chunks have the property may be added. -/
theorem AllChunks.insert {P : Bytes → Prop} {t : ReassemblyTable} (h : AllChunks P t) {S : UInt32}
    {b : ReassemblyBuf} (hb : ∀ seq chunk, b.fragments.lookup seq = some chunk → P chunk) :
    AllChunks P (t.insert S b) := by
  intro S' b' seq chunk hb' hchunk
  rcases lookup_insert_some hb' with ⟨_, rfl⟩ | hold
  · exact hb seq chunk hchunk
  · exact h S' b' seq chunk hold hchunk

/-- The entry a fragment joins, with the fragment stored, has no other chunks
than the table and the fragment. -/
theorem Joins.store_chunks {P : Bytes → Prop} {call : AbsorbCall} {t : ReassemblyTable}
    {hdr : FragmentHeader} {b : ReassemblyBuf} (h : Joins call t hdr b) (ht : AllChunks P t)
    (hcall : P (call.frame.payload.drop fragHeaderSize)) :
    ∀ seq chunk, (b.store hdr.sequence (call.frame.payload.drop fragHeaderSize)).fragments.lookup
      seq = some chunk → P chunk := by
  intro seq chunk hchunk
  rw [ReassemblyBuf.store_fragments] at hchunk
  by_cases hseq : seq = hdr.sequence
  · rw [hseq, AList.lookup_insert] at hchunk
    cases hchunk
    exact hcall
  · rw [AList.lookup_insert_ne hseq] at hchunk
    rcases h.entry with hb | ⟨_, _, rfl⟩
    · exact ht _ b seq chunk hb hchunk
    · cases hchunk

/-- What the loop of `reassemble` returns is made of stored chunks. -/
theorem reassembleFrom_chunks {b : ReassemblyBuf} :
    ∀ (rounds : Nat) (seq : UInt16) (out payload : Bytes),
      b.reassembleFrom rounds seq out = some payload →
      ∃ chunks : List Bytes, payload = out ++ chunks.flatten ∧
        ∀ chunk ∈ chunks, ∃ seq, b.fragments.lookup seq = some chunk := by
  intro rounds
  induction rounds with
  | zero =>
      intro seq out payload h
      cases h
  | succ rounds ih =>
      intro seq out payload h
      rw [ReassemblyBuf.reassembleFrom] at h
      split at h
      · cases hlookup : b.fragments.lookup seq with
        | none => rw [hlookup] at h; cases h
        | some chunk =>
            rw [hlookup] at h
            obtain ⟨chunks, hpayload, hall⟩ := ih _ _ _ h
            refine ⟨chunk :: chunks, by simpa using hpayload, ?_⟩
            simp only [List.forall_mem_cons]
            exact ⟨⟨seq, hlookup⟩, hall⟩
      · cases h
        exact ⟨[], by simp, by simp⟩

/-- **No foreign bytes.**  A call stores nothing but its own chunk, and what it
returns is made of stored chunks and its own. -/
theorem absorbFragment_chunks {P : Bytes → Prop} {call : AbsorbCall} {t : ReassemblyTable}
    (ht : AllChunks P t) (hcall : P (call.frame.payload.drop fragHeaderSize)) :
    AllChunks P (absorbFragment call t).2 ∧
      ∀ r, (absorbFragment call t).1 = .ok (some r) →
        ∃ chunks : List Bytes, r.payload = chunks.flatten ∧ ∀ chunk ∈ chunks, P chunk := by
  have hp := ht.prune call.now
  obtain ⟨_, _, hout | ⟨hdr, _, hout⟩⟩ | ⟨hdr, b, hjoin, hcases⟩ :=
    absorbFragment_cases call t
  · rw [hout]
    exact ⟨hp, by simp⟩
  · rw [hout]
    exact ⟨hp.erase _, by simp⟩
  · have hstored := hjoin.store_chunks hp hcall
    obtain ⟨_, hout⟩ | ⟨_, _, hout⟩ | ⟨_, _, ⟨payload, hresult, hout⟩ | ⟨_, hout⟩⟩ := hcases
    · rw [hout]
      exact ⟨hp.erase _, by simp⟩
    · rw [hout]
      exact ⟨hp.insert hstored, by simp⟩
    · rw [hout]
      refine ⟨hp.erase _, ?_⟩
      intro r hr
      cases hr
      obtain ⟨chunks, hpayload, hall⟩ := reassembleFrom_chunks _ _ _ _ hresult
      refine ⟨chunks, by simpa using hpayload, ?_⟩
      intro chunk hchunk
      obtain ⟨seq, hseq⟩ := hall chunk hchunk
      exact hstored seq chunk hseq
    · rw [hout]
      exact ⟨hp.insert hstored, by simp⟩

/-! ### The meaning of an entry -/

/-- The chunk a call brings for sequence `seq` of a stream with this total. -/
def absorbedChunk (S : UInt32) (total seq : UInt16) (call : AbsorbCall) : Option Bytes :=
  match parseFragHeader call.frame.payload with
  | none => none
  | some hdr =>
      if hdr.streamId = S ∧ hdr.total = total ∧ hdr.sequence = seq ∧ hdr.total ≠ 0 ∧
          hdr.sequence < hdr.total then
        some (call.frame.payload.drop fragHeaderSize)
      else
        none

/-- The chunk brought last for sequence `seq`. -/
def latestChunk (S : UInt32) (total seq : UInt16) (calls : List AbsorbCall) : Option Bytes :=
  (calls.filterMap (absorbedChunk S total seq)).getLast?

/-- The latest chunk is that of the last call, if it brings one. -/
theorem latestChunk_snoc (S : UInt32) (total seq : UInt16) (calls : List AbsorbCall)
    (call : AbsorbCall) :
    latestChunk S total seq (calls ++ [call]) =
      (absorbedChunk S total seq call).or (latestChunk S total seq calls) := by
  unfold latestChunk
  rw [List.filterMap_append]
  cases hchunk : absorbedChunk S total seq call with
  | none => simp [hchunk]
  | some chunk => simp [hchunk]

/-- `create` opened the fragment set of stream `S` that the calls `since` still
found in the table: the stream was not buffered when `create` came, and it
survived the pruning of every later call. -/
structure Opened (t₀ : ReassemblyTable) (past early since : List AbsorbCall)
    (create : AbsorbCall) (S : UInt32) (total : UInt16) : Prop where
  past_eq : past = early ++ create :: since
  fresh : (prune create.now (absorbAll t₀ early)).lookup S = none
  header : ∃ hdr, parseFragHeader create.frame.payload = some hdr ∧ hdr.streamId = S ∧
    hdr.total = total
  kept : ∀ mid call rest, since = mid ++ call :: rest →
    (prune call.now (absorbAll t₀ (early ++ create :: mid))).lookup S ≠ none

/-- A set that is still there after one more call has been open since the same call. -/
theorem Opened.snoc {t₀ : ReassemblyTable} {past early since : List AbsorbCall}
    {create call : AbsorbCall} {S : UInt32} {total : UInt16}
    (h : Opened t₀ past early since create S total)
    (hkept : (prune call.now (absorbAll t₀ past)).lookup S ≠ none) :
    Opened t₀ (past ++ [call]) early (since ++ [call]) create S total := by
  refine ⟨by simp [h.past_eq], h.fresh, h.header, ?_⟩
  intro mid call' rest hsplit
  -- The split point is inside `since`, or it is the new call itself.
  rcases List.eq_nil_or_concat rest with rfl | ⟨rest, last, rfl⟩
  · obtain ⟨rfl, hcall⟩ := List.append_inj' hsplit rfl
    obtain rfl := List.singleton_inj.mp hcall
    rwa [← h.past_eq]
  · have hsplit' : since ++ [call] = (mid ++ call' :: rest) ++ [last] := by
      simpa [List.concat_eq_append] using hsplit
    exact h.kept mid call' rest (List.append_inj' hsplit' rfl).1

/-- Every entry of the table was opened by some call, carries that call's
clock reading, and holds the latest chunks since. -/
def Described (t₀ : ReassemblyTable) (past : List AbsorbCall) : Prop :=
  ∀ S b, (absorbAll t₀ past).lookup S = some b →
    ∃ early create since, Opened t₀ past early since create S b.total ∧
      b.firstSeen = create.seen ∧
      ∀ seq, b.fragments.lookup seq = latestChunk S b.total seq (create :: since)

/-- A call that joins no entry brings no chunk for a buffered stream. -/
theorem absorbedChunk_of_not_joins {call : AbsorbCall} {t : ReassemblyTable} {S : UInt32}
    {b : ReassemblyBuf} (hb : t.lookup S = some b) (hno : ∀ hdr b, ¬ Joins call t hdr b)
    (seq : UInt16) : absorbedChunk S b.total seq call = none := by
  unfold absorbedChunk
  split
  · rfl
  · rename_i hdr hhdr
    split
    · rename_i hvalid
      obtain ⟨rfl, htotal, _, hne, hlt⟩ := hvalid
      exact absurd ⟨hhdr, hne, hlt, htotal.symm, Or.inl hb⟩ (hno hdr b)
    · rfl

/-- A fragment of another stream brings no chunk. -/
theorem absorbedChunk_of_other_stream {call : AbsorbCall} {hdr : FragmentHeader}
    (hhdr : parseFragHeader call.frame.payload = some hdr) {S : UInt32}
    (hS : S ≠ hdr.streamId) (total seq : UInt16) : absorbedChunk S total seq call = none := by
  unfold absorbedChunk
  rw [hhdr]
  exact if_neg (fun h => hS h.1.symm)

/-- A fragment that joins a set brings its payload at its own sequence number only. -/
theorem Joins.absorbedChunk_eq {call : AbsorbCall} {t : ReassemblyTable} {hdr : FragmentHeader}
    {b : ReassemblyBuf} (h : Joins call t hdr b) (seq : UInt16) :
    absorbedChunk hdr.streamId b.total seq call =
      if hdr.sequence = seq then some (call.frame.payload.drop fragHeaderSize) else none := by
  unfold absorbedChunk
  rw [h.header]
  simp [h.total_eq, h.total_ne, h.sequence_lt]

/-- An entry that a call leaves alone keeps its description. -/
theorem Described.untouched {t₀ : ReassemblyTable} {past : List AbsorbCall} {call : AbsorbCall}
    {S : UInt32} {b : ReassemblyBuf} (h : Described t₀ past)
    (hb : (prune call.now (absorbAll t₀ past)).lookup S = some b)
    (hquiet : ∀ seq, absorbedChunk S b.total seq call = none) :
    ∃ early create since, Opened t₀ (past ++ [call]) early since create S b.total ∧
      b.firstSeen = create.seen ∧
      ∀ seq, b.fragments.lookup seq = latestChunk S b.total seq (create :: since) := by
  obtain ⟨early, create, since, hopened, hseen, hfrag⟩ := h S b (lookup_prune.mp hb).1
  refine ⟨early, create, since ++ [call], hopened.snoc (by simp [hb]), hseen, ?_⟩
  intro seq
  rw [← List.cons_append, latestChunk_snoc, hquiet seq, Option.none_or, hfrag seq]

/-- The entry a fragment joins, with the fragment stored, is described by the
calls up to and including this one. -/
theorem Described.stored {t₀ : ReassemblyTable} {past : List AbsorbCall} {call : AbsorbCall}
    {hdr : FragmentHeader} {b : ReassemblyBuf} (h : Described t₀ past)
    (hjoin : Joins call (prune call.now (absorbAll t₀ past)) hdr b) :
    ∃ early create since,
      Opened t₀ (past ++ [call]) early since create hdr.streamId b.total ∧
      b.firstSeen = create.seen ∧
      ∀ seq, (b.fragments.insert hdr.sequence
          (call.frame.payload.drop fragHeaderSize)).lookup seq =
        latestChunk hdr.streamId b.total seq (create :: since) := by
  have hinsert : ∀ seq, (b.fragments.insert hdr.sequence
      (call.frame.payload.drop fragHeaderSize)).lookup seq =
      (absorbedChunk hdr.streamId b.total seq call).or (b.fragments.lookup seq) := by
    intro seq
    rw [hjoin.absorbedChunk_eq seq]
    by_cases hseq : hdr.sequence = seq
    · subst hseq
      simp
    · rw [if_neg hseq, AList.lookup_insert_ne (Ne.symm hseq), Option.none_or]
  rcases hjoin.entry with hb | ⟨hnone, _, hnew⟩
  · obtain ⟨early, create, since, hopened, hseen, hfrag⟩ := h _ b (lookup_prune.mp hb).1
    refine ⟨early, create, since ++ [call], hopened.snoc (by simp [hb]), hseen, ?_⟩
    intro seq
    rw [hinsert seq, ← List.cons_append, latestChunk_snoc, hfrag seq]
  · refine ⟨past, call, [], ⟨rfl, hnone, ⟨hdr, hjoin.header, rfl, hjoin.total_eq.symm⟩, by simp⟩,
      by rw [hnew]; rfl, ?_⟩
    intro seq
    have hempty : b.fragments.lookup seq = none := by
      rw [hnew]
      rfl
    rw [hinsert seq, hempty]
    exact (latestChunk_snoc hdr.streamId b.total seq [] call).symm

/-- Entries of other streams than the call's keep their description. -/
theorem Described.other_stream {t₀ : ReassemblyTable} {past : List AbsorbCall}
    {call : AbsorbCall} {hdr : FragmentHeader} {S : UInt32} {b : ReassemblyBuf}
    (h : Described t₀ past) (hhdr : parseFragHeader call.frame.payload = some hdr)
    (hS : S ≠ hdr.streamId)
    (hb : (prune call.now (absorbAll t₀ past)).lookup S = some b) :
    ∃ early create since, Opened t₀ (past ++ [call]) early since create S b.total ∧
      b.firstSeen = create.seen ∧
      ∀ seq, b.fragments.lookup seq = latestChunk S b.total seq (create :: since) :=
  h.untouched hb (absorbedChunk_of_other_stream hhdr hS b.total)

/-- One more call keeps every entry described. -/
theorem Described.step {t₀ : ReassemblyTable} {past : List AbsorbCall} (h : Described t₀ past)
    (call : AbsorbCall) : Described t₀ (past ++ [call]) := by
  intro S b hb
  rw [absorbAll_snoc] at hb
  -- After an erase, and at another key after an insert, the entry is an old one.
  have herased : ∀ {hdr}, parseFragHeader call.frame.payload = some hdr →
      ((prune call.now (absorbAll t₀ past)).erase hdr.streamId).lookup S = some b →
      ∃ early create since, Opened t₀ (past ++ [call]) early since create S b.total ∧
        b.firstSeen = create.seen ∧
        ∀ seq, b.fragments.lookup seq = latestChunk S b.total seq (create :: since) := by
    intro hdr hhdr hlookup
    by_cases hS : S = hdr.streamId
    · rw [hS, AList.lookup_erase] at hlookup
      cases hlookup
    · exact h.other_stream hhdr hS (by rwa [AList.lookup_erase_ne hS] at hlookup)
  have hinserted : ∀ {hdr b₀}, Joins call (prune call.now (absorbAll t₀ past)) hdr b₀ →
      ((prune call.now (absorbAll t₀ past)).insert hdr.streamId
        (b₀.store hdr.sequence (call.frame.payload.drop fragHeaderSize))).lookup S = some b →
      ∃ early create since, Opened t₀ (past ++ [call]) early since create S b.total ∧
        b.firstSeen = create.seen ∧
        ∀ seq, b.fragments.lookup seq = latestChunk S b.total seq (create :: since) := by
    intro hdr b₀ hjoin hlookup
    by_cases hS : S = hdr.streamId
    · subst hS
      rw [AList.lookup_insert] at hlookup
      obtain rfl := Option.some.inj hlookup
      exact h.stored hjoin
    · exact h.other_stream hjoin.header hS (by rwa [AList.lookup_insert_ne hS] at hlookup)
  obtain ⟨hno, _, hout | ⟨hdr, hhdr, hout⟩⟩ | ⟨hdr, b₀, hjoin, hcases⟩ :=
    absorbFragment_cases call (absorbAll t₀ past)
  · rw [hout] at hb
    exact h.untouched hb (absorbedChunk_of_not_joins hb hno)
  · rw [hout] at hb
    exact herased hhdr hb
  · obtain ⟨_, hout⟩ | ⟨_, _, hout⟩ | ⟨_, _, ⟨_, _, hout⟩ | ⟨_, hout⟩⟩ := hcases
    · rw [hout] at hb
      exact herased hjoin.header hb
    · rw [hout] at hb
      exact hinserted hjoin hb
    · rw [hout] at hb
      exact herased hjoin.header hb
    · rw [hout] at hb
      exact hinserted hjoin hb

/-- Every entry is described, after every run from the empty table. -/
theorem described_of_empty (calls : List AbsorbCall) : Described ∅ calls := by
  induction calls using List.reverseRecOn with
  | nil => intro S b hb; simp at hb
  | append_singleton calls call ih => exact ih.step call

/-! ### What a run guarantees -/

/-- The clock readings of the calls, in the order they are made. -/
def clockReadings (calls : List AbsorbCall) : List Int :=
  calls.flatMap (fun call => [call.now, call.seen])

/-- A completing call returns the latest chunks of its set, in order. -/
theorem absorbFragment_complete {t₀ : ReassemblyTable} {past : List AbsorbCall}
    {call : AbsorbCall} {r : FrameResult} (ht : TableInv (absorbAll t₀ past))
    (h : Described t₀ past) (hclock : call.now ≤ call.seen)
    (hout : (absorbFragment call (absorbAll t₀ past)).1 = .ok (some r)) :
    ∃ hdr early create since, parseFragHeader call.frame.payload = some hdr ∧
      Opened t₀ (past ++ [call]) early since create hdr.streamId hdr.total ∧
      call.now - create.seen < reassemblyTimeout ∧
      (∀ i < hdr.total.toNat, (latestChunk hdr.streamId hdr.total (UInt16.ofNat i)
        (create :: since)).isSome) ∧
      r.payload = (List.range hdr.total.toNat).flatMap (fun i =>
        (latestChunk hdr.streamId hdr.total (UInt16.ofNat i) (create :: since)).getD []) := by
  have hp := ht.prune call.now
  obtain ⟨_, _, hcall | ⟨_, _, hcall⟩⟩ | ⟨hdr, b, hjoin, hcases⟩ :=
    absorbFragment_cases call (absorbAll t₀ past)
  · simp [hcall] at hout
  · simp [hcall] at hout
  · obtain ⟨_, hcall⟩ | ⟨_, _, hcall⟩ | ⟨_, hcomplete, ⟨payload, hpayload, hcall⟩ | ⟨_, hcall⟩⟩ :=
      hcases
    · simp [hcall] at hout
    · simp [hcall] at hout
    · obtain ⟨early, create, since, hopened, hseen, hfrag⟩ := h.stored hjoin
      have hcovers := complete_covers
        (store_keys_lt (hjoin.bufInv hp) _ (hjoin.total_eq ▸ hjoin.sequence_lt)) hcomplete
      rw [hjoin.total_eq] at hopened hfrag
      have hage : call.now - create.seen < reassemblyTimeout := by
        rcases hjoin.entry with hb | ⟨_, _, hnew⟩
        · rw [← hseen]
          exact (lookup_prune.mp hb).2
        · have : create.seen = call.seen := by
            rw [← hseen, hnew]
            rfl
          simp only [reassemblyTimeout]
          omega
      refine ⟨hdr, early, create, since, hjoin.header, hopened, hage, ?_, ?_⟩
      · intro i hi
        rw [← hfrag]
        exact hcovers i (by simpa [hjoin.total_eq] using hi)
      · rw [hcall] at hout
        obtain rfl := Option.some.inj (Except.ok.inj hout)
        rw [hjoin.reassemble_of_complete hp _ hcomplete] at hpayload
        rw [← Option.some.inj hpayload, ReassemblyBuf.joined, ReassemblyBuf.store_total,
          hjoin.total_eq]
        simp only [ReassemblyBuf.store_fragments, hfrag]
    · simp [hcall] at hout

/-- **The reassembly table over every run.**  After any calls at non-decreasing
clock readings the invariant holds, so no byte count underflows and no
fragment lookup fails; and every frame a call returns is the concatenation of
the chunks absorbed last for each sequence number since its set was opened,
less than 30 s earlier. -/
theorem reassembly_table_meaning (calls : List AbsorbCall)
    (hclock : (clockReadings calls).Pairwise (· ≤ ·)) :
    TableInv (absorbAll ∅ calls) ∧
    (∀ S b seq, (absorbAll ∅ calls).lookup S = some b →
      b.replacedLen seq ≤ b.bufferedBytes) ∧
    ∀ past call after, calls = past ++ call :: after →
      (∀ m, (absorbFragment call (absorbAll ∅ past)).1 ≠ .error (.stdOutOfRange m)) ∧
      ∀ r, (absorbFragment call (absorbAll ∅ past)).1 = .ok (some r) →
        ∃ hdr early create since, parseFragHeader call.frame.payload = some hdr ∧
          Opened ∅ (past ++ [call]) early since create hdr.streamId hdr.total ∧
          call.now - create.seen < reassemblyTimeout ∧
          (∀ i < hdr.total.toNat, (latestChunk hdr.streamId hdr.total (UInt16.ofNat i)
            (create :: since)).isSome) ∧
          r.payload = (List.range hdr.total.toNat).flatMap (fun i =>
            (latestChunk hdr.streamId hdr.total (UInt16.ofNat i) (create :: since)).getD []) := by
  have hinv := absorbAll_inv TableInv.empty calls
  refine ⟨hinv, fun S b seq hb => (hinv.entries S b hb).replacedLen_le seq, ?_⟩
  intro past call after hsplit
  have hpast := absorbAll_inv TableInv.empty past
  refine ⟨(absorbFragment_inv call hpast).2, ?_⟩
  intro r hout
  have hle : call.now ≤ call.seen := by
    rw [hsplit, clockReadings, List.flatMap_append, List.flatMap_cons] at hclock
    have hcall := (List.pairwise_append.mp (List.pairwise_append.mp hclock).2.1).1
    simpa using hcall
  exact absorbFragment_complete hpast (described_of_empty past) hle hout

/-- Fragment `sequence` of two on stream 9, carrying one byte. -/
def halfCall (now : Int) (sequence : UInt16) (byte : UInt8) : AbsorbCall :=
  { now := now
    seen := now + 1
    frame := { payload := packFragHeader 9 sequence 2 9 ++ [byte], flags := flagFragmented } }

/-- The run of two fragments, the later one first: the clock does not go back
and the second call returns a frame. -/
theorem reassembly_table_meaning_two :
    (clockReadings [halfCall 0 1 98, halfCall 5 0 97]).Pairwise (· ≤ ·) ∧
    (absorbFragment (halfCall 5 0 97) (absorbAll ∅ [halfCall 0 1 98])).1 =
      .ok (some { payload := [97, 98], flags := 0 }) ∧
    TableInv (absorbAll ∅ [halfCall 0 1 98, halfCall 5 0 97]) := by
  have hclock : (clockReadings [halfCall 0 1 98, halfCall 5 0 97]).Pairwise (· ≤ ·) := by decide
  exact ⟨hclock, by decide +kernel, (reassembly_table_meaning _ hclock).1⟩

end Vynkor
