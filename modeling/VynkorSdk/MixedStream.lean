import VynkorSdk.BoundedReceives

/-!
# Streams of whole and fragmented envelopes

A stream of wire frames carries envelopes, each in one frame or cut into one
fragment set.  The frames of different sets may alternate in any way, and a
stream id may be used again once its set is complete.

At any point of such a stream the reassembly table holds exactly the sets of
which some frames have been taken and some have not (`Buffered`).  A receive
loop therefore returns every envelope once, when it takes the last of its
frames.
-/

namespace Vynkor

open ByteCodec KeyedTable Procedure

/-- An envelope on its way, in one frame or on a stream id in these chunks. -/
structure Message where
  envelope : Envelope
  split : Option (UInt32 × List Bytes) := none

/-- The number of wire frames a message takes. -/
def Message.count (m : Message) : Nat :=
  match m.split with
  | none => 1
  | some (_, chunks) => chunks.length

/-- One wire frame of a stream: part `number` of the message with this index. -/
structure Part where
  message : Nat
  number : Nat
  packet : Packet

/-- The frame brings chunk `i` of these on stream `S`. -/
def BringsChunk (S : UInt32) (chunks : List Bytes) (i : Nat) (frame : FrameResult) : Prop :=
  ∃ hdr, parseFragHeader frame.payload = some hdr ∧ hdr.streamId = S ∧ hdr.sequence.toNat = i ∧
    hdr.total.toNat = chunks.length ∧ chunks[i]? = some (frame.payload.drop fragHeaderSize)

/-- What the frame of a part contains: all of the message, or its chunk. -/
def Contains (proto : ProtoLib) (m : Message) (i : Nat) (frame : FrameResult) : Prop :=
  match m.split with
  | none => hasFlag frame.flags flagFragmented = false ∧ i = 0 ∧
      proto.parse frame.payload = some m.envelope
  | some (S, chunks) => hasFlag frame.flags flagFragmented = true ∧ BringsChunk S chunks i frame ∧
      proto.parse chunks.flatten = some m.envelope

/-- The message with this index is a fragment set. -/
def SplitAs (messages : List Message) (k : Nat) (S : UInt32) (chunks : List Bytes) : Prop :=
  ∃ m, messages[k]? = some m ∧ m.split = some (S, chunks)

/-- The frames in `parts` carry the messages: each frame is valid and not
raw-binary, each message has all of its frames and each of them once, and a
stream id is not used again before its set is complete. -/
structure MixedStream (lib : WireLibs) (proto : ProtoLib) (key : Option Block32)
    (messages : List Message) (parts : List Part) : Prop where
  parses : ∀ p ∈ parts, parseFrameBytes lib p.packet.bytes key =
    .ok (p.packet.frame, p.packet.bytes.length)
  not_raw : ∀ p ∈ parts, hasFlag p.packet.frame.flags flagRawBinary = false
  contains : ∀ p ∈ parts, ∃ m, messages[p.message]? = some m ∧
    Contains proto m p.number p.packet.frame
  nonempty : ∀ m ∈ messages, 0 < m.count
  complete : ∀ k m, messages[k]? = some m → ∀ i < m.count,
    ∃ p ∈ parts, p.message = k ∧ p.number = i
  once : (parts.map (fun p => (p.message, p.number))).Nodup
  apart : ∀ early q late, parts = early ++ q :: late → ∀ p ∈ early, p.message ≠ q.message →
    ∀ S chunks chunks', SplitAs messages p.message S chunks →
      SplitAs messages q.message S chunks' → ∀ r ∈ late, r.message ≠ p.message

/-- The indices of the messages, in the order of their last frames. -/
def lastFrames (parts : List Part) : List Nat := (parts.map Part.message).dedup

/-- The envelopes of the messages with these indices. -/
def envelopesOf (messages : List Message) (indices : List Nat) : List Envelope :=
  indices.filterMap (fun k => messages[k]?.map Message.envelope)

section Stream

variable {lib : WireLibs} {proto : ProtoLib} {key : Option Block32} {messages : List Message}
  {parts taken left : List Part}

/-- **Each message once.** -/
theorem MixedStream.lastFrames_perm (h : MixedStream lib proto key messages parts) :
    (lastFrames parts).Perm (List.range messages.length) := by
  unfold lastFrames
  rw [List.perm_ext_iff_of_nodup (List.nodup_dedup _) List.nodup_range]
  intro k
  rw [List.mem_dedup, List.mem_map, List.mem_range]
  constructor
  · intro hpart
    obtain ⟨p, hp, rfl⟩ := hpart
    obtain ⟨m, hm, _⟩ := h.contains p hp
    exact (List.getElem?_eq_some_iff.mp hm).1
  · intro hk
    have hm := List.getElem?_eq_getElem hk
    obtain ⟨p, hp, hmessage, _⟩ := h.complete k _ hm 0 (h.nonempty _ (List.getElem_mem hk))
    exact ⟨p, hp, hmessage⟩

/-! ### What the table holds -/

/-- Some frames of the message have been taken and some have not. -/
def InProgress (taken left : List Part) (k : Nat) : Prop :=
  (∃ p ∈ taken, p.message = k) ∧ ∃ p ∈ left, p.message = k

/-- The numbers of the frames of a message that have been taken. -/
def numbersOf (taken : List Part) (k : Nat) : Nat → Prop :=
  fun i => ∃ p ∈ taken, p.message = k ∧ p.number = i

/-- Of the stream's sets, the table holds those in progress, with the frames taken. -/
structure Buffered (messages : List Message) (taken left : List Part) (t : ReassemblyTable) :
    Prop where
  table : TableInv t
  holds : ∀ k S chunks, SplitAs messages k S chunks → InProgress taken left k →
    ∃ flags seen, hasFlag flags flagRawBinary = false ∧
      Holding S chunks (numbersOf taken k) flags seen t
  free : ∀ k S chunks, SplitAs messages k S chunks →
    (∀ k chunks, SplitAs messages k S chunks → ¬ InProgress taken left k) → t.lookup S = none

/-- With nothing taken, nothing of the messages is buffered. -/
theorem buffered_start {t : ReassemblyTable} (ht : TableInv t)
    (hfree : ∀ k S chunks, SplitAs messages k S chunks → t.lookup S = none) :
    Buffered messages [] parts t where
  table := ht
  holds := by
    intro k S chunks _ hprogress
    obtain ⟨⟨p, hp, _⟩, _⟩ := hprogress
    cases hp
  free k S chunks hk _ := hfree k S chunks hk

/-- Taking a frame of another message does not change where a message stands. -/
theorem inProgress_other {p : Part} {k : Nat} (hk : p.message ≠ k) :
    InProgress (taken ++ [p]) left k ↔ InProgress taken (p :: left) k := by
  unfold InProgress
  simp [hk]

/-- A part of another message adds no number. -/
theorem numbersOf_other {p : Part} {k : Nat} (hk : p.message ≠ k) :
    numbersOf (taken ++ [p]) k = numbersOf taken k := by
  funext i
  simp [numbersOf, or_and_right, exists_or, hk]

/-- A part adds its own number to its message. -/
theorem numbersOf_self {p : Part} :
    numbersOf (taken ++ [p]) p.message = withNumber (numbersOf taken p.message) p.number := by
  funext i
  simp [numbersOf, withNumber, or_and_right, exists_or, eq_comm]

/-! ### Taking one frame -/

/-- A message is split in one way. -/
theorem SplitAs.unique {k : Nat} {S S' : UInt32} {chunks chunks' : List Bytes}
    (h : SplitAs messages k S chunks) (h' : SplitAs messages k S' chunks') :
    S = S' ∧ chunks = chunks' := by
  obtain ⟨m, hm, hsplit⟩ := h
  obtain ⟨m', hm', hsplit'⟩ := h'
  obtain rfl := Option.some.inj (hm.symm.trans hm')
  simpa using hsplit.symm.trans hsplit'

/-- The chunk's number is below the number of chunks. -/
theorem BringsChunk.number_lt {S : UInt32} {chunks : List Bytes} {i : Nat} {frame : FrameResult}
    (h : BringsChunk S chunks i frame) : i < chunks.length := by
  obtain ⟨hdr, _, _, _, _, hchunk⟩ := h
  exact (List.getElem?_eq_some_iff.mp hchunk).1

/-- A frame of a message that is a fragment set brings a chunk of it. -/
theorem MixedStream.bringsChunk (h : MixedStream lib proto key messages parts) {p : Part}
    (hp : p ∈ parts) {S : UInt32} {chunks : List Bytes}
    (hsplit : SplitAs messages p.message S chunks) :
    hasFlag p.packet.frame.flags flagFragmented = true ∧
      BringsChunk S chunks p.number p.packet.frame := by
  obtain ⟨m, hm, hcontains⟩ := h.contains p hp
  obtain ⟨m', hm', hsplit⟩ := hsplit
  obtain rfl := Option.some.inj (hm.symm.trans hm')
  unfold Contains at hcontains
  rw [hsplit] at hcontains
  exact ⟨hcontains.1, hcontains.2.1⟩

/-- A frame of the set is still to come exactly if a number is missing. -/
theorem MixedStream.remaining_iff (h : MixedStream lib proto key messages parts) {p : Part}
    (hparts : parts = taken ++ p :: left) {S : UInt32} {chunks : List Bytes}
    (hsplit : SplitAs messages p.message S chunks) :
    (∃ q ∈ left, q.message = p.message) ↔
      ∃ j < chunks.length, ¬ withNumber (numbersOf taken p.message) p.number j := by
  rw [← numbersOf_self]
  have hsides : parts = (taken ++ [p]) ++ left := by simp [hparts]
  constructor
  · intro hleft
    obtain ⟨q, hq, hmessage⟩ := hleft
    have hpart : q ∈ parts := by simp [hsides, hq]
    refine ⟨q.number, (h.bringsChunk hpart (hmessage ▸ hsplit)).2.number_lt, ?_⟩
    intro hbefore
    -- The frame would be on both sides.
    obtain ⟨r, hr, hrMessage, hrNumber⟩ := hbefore
    have honce := h.once
    rw [hsides, List.map_append, List.nodup_append] at honce
    refine honce.2.2 (r.message, r.number) (List.mem_map_of_mem hr) (q.message, q.number)
      (List.mem_map_of_mem hq) ?_
    rw [hrMessage, hrNumber, hmessage]
  · intro hmissing
    obtain ⟨j, hj, hmissing⟩ := hmissing
    obtain ⟨m, hm, hsplit⟩ := hsplit
    have hcount : m.count = chunks.length := by
      unfold Message.count
      rw [hsplit]
    obtain ⟨q, hq, hmessage, hnumber⟩ := h.complete _ m hm j (hcount ▸ hj)
    rw [hsides] at hq
    rcases List.mem_append.mp hq with hq | hq
    · exact absurd ⟨q, hq, hmessage, hnumber⟩ hmissing
    · exact ⟨q, hq, hmessage⟩

/-- No other set in progress uses the stream id of the frame in front. -/
theorem MixedStream.sole_user (h : MixedStream lib proto key messages parts) {p : Part}
    (hparts : parts = taken ++ p :: left) {S : UInt32} {chunks chunks' : List Bytes} {k : Nat}
    (hsplit : SplitAs messages p.message S chunks) (hsplit' : SplitAs messages k S chunks')
    (hk : p.message ≠ k) : ¬ InProgress taken (p :: left) k := by
  intro hprogress
  obtain ⟨⟨q, hq, rfl⟩, r, hr, hmessage⟩ := hprogress
  rcases List.mem_cons.mp hr with rfl | hr
  · exact hk hmessage
  · exact h.apart taken p left hparts q hq (Ne.symm hk) S chunks' chunks hsplit' hsplit r hr
      hmessage

/-- A frame in one piece touches no set. -/
theorem Buffered.whole {p : Part} {t : ReassemblyTable} {m : Message}
    (h : Buffered messages taken (p :: left) t) (hm : messages[p.message]? = some m)
    (hsplit : m.split = none) : Buffered messages (taken ++ [p]) left t := by
  have hother : ∀ k S chunks, SplitAs messages k S chunks → p.message ≠ k := by
    intro k S chunks hk heq
    obtain ⟨m', hm', hsplit'⟩ := hk
    rw [← heq, hm] at hm'
    cases hm'
    rw [hsplit] at hsplit'
    cases hsplit'
  refine ⟨h.table, ?_, ?_⟩
  · intro k S chunks hk hprogress
    have hne := hother k S chunks hk
    rw [numbersOf_other hne]
    exact h.holds k S chunks hk ((inProgress_other hne).mp hprogress)
  · intro k S chunks hk hfree
    refine h.free k S chunks hk ?_
    intro k chunks hk hprogress
    exact hfree k chunks hk ((inProgress_other (hother k S chunks hk)).mpr hprogress)

/-- A table without old sets is not changed by pruning. -/
theorem lookup_prune_fresh {now : Int} {t : ReassemblyTable}
    (hfresh : ∀ S b, t.lookup S = some b → now - b.firstSeen < reassemblyTimeout) (S : UInt32) :
    (prune now t).lookup S = t.lookup S := by
  cases hlookup : t.lookup S with
  | some b => exact lookup_prune.mpr ⟨hlookup, hfresh S b hlookup⟩
  | none =>
      rw [prune, lookup_retain, hlookup]
      rfl

/-- A fragment that is not refused joins an entry, and fits. -/
theorem joins_of_not_error {call : AbsorbCall} {t : ReassemblyTable}
    (h : ∀ e, (absorbFragment call t).1 ≠ .error e) :
    ∃ hdr b, Joins call (prune call.now t) hdr b ∧
      b.newTotal hdr.sequence (call.frame.payload.drop fragHeaderSize) ≤ maxPayloadSize := by
  obtain ⟨_, _, hout | ⟨_, _, hout⟩⟩ | ⟨hdr, b, hjoin, hcases⟩ := absorbFragment_cases call t
  · exact absurd (by rw [hout]) (h _)
  · exact absurd (by rw [hout]) (h _)
  · obtain ⟨_, hout⟩ | ⟨hfits, _⟩ | ⟨hfits, _⟩ := hcases
    · exact absurd (by rw [hout]) (h _)
    · exact ⟨hdr, b, hjoin, hfits⟩
    · exact ⟨hdr, b, hjoin, hfits⟩

/-- The entry a frame joins holds the frames of its set taken before. -/
theorem Buffered.entry (hstream : MixedStream lib proto key messages parts) {p : Part}
    (hparts : parts = taken ++ p :: left) {t : ReassemblyTable}
    (h : Buffered messages taken (p :: left) t) {chunks : List Bytes} {call : AbsorbCall}
    (hframe : call.frame = p.packet.frame)
    (hfresh : ∀ S b, t.lookup S = some b → call.now - b.firstSeen < reassemblyTimeout)
    {hdr : FragmentHeader} {b : ReassemblyBuf} (hjoin : Joins call (prune call.now t) hdr b)
    (hsplit : SplitAs messages p.message hdr.streamId chunks) :
    HoldsChunks chunks (numbersOf taken p.message) b.fragments ∧
      hasFlag b.flags flagRawBinary = false := by
  have hlookup := lookup_prune_fresh hfresh hdr.streamId
  by_cases hbegun : ∃ q ∈ taken, q.message = p.message
  · obtain ⟨flags, seen, hraw, b', hb', _, rfl, _, hholds⟩ :=
      h.holds p.message _ chunks hsplit ⟨hbegun, p, by simp, rfl⟩
    rcases hjoin.entry with hb | ⟨hnone, _⟩
    · rw [hlookup, hb'] at hb
      cases hb
      exact ⟨hholds, hraw⟩
    · rw [hlookup, hb'] at hnone
      cases hnone
  · have hnone : t.lookup hdr.streamId = none := by
      refine h.free _ _ _ hsplit ?_
      intro k chunks' hk
      by_cases heq : p.message = k
      · intro hprogress
        exact hbegun (heq ▸ hprogress.1)
      · exact hstream.sole_user hparts hsplit hk heq
    rcases hjoin.entry with hb | ⟨_, _, rfl⟩
    · rw [hlookup, hnone] at hb
      cases hb
    · refine ⟨?_, ?_⟩
      · intro seq v
        have hno : ¬ numbersOf taken p.message seq.toNat :=
          fun hnumber => hbegun (hnumber.imp (fun q hq => ⟨hq.1, hq.2.1⟩))
        simp [ReassemblyBuf.opened, hno]
      · rw [ReassemblyBuf.opened, hasFlag_clear_other _ (by decide), hframe]
        exact hstream.not_raw p (by simp [hparts])

/-- **Taking a fragment** that is not refused: the set waits for the rest, or
the payload is complete and the set is gone. -/
theorem Buffered.fragment (hstream : MixedStream lib proto key messages parts) {p : Part}
    (hparts : parts = taken ++ p :: left) {t : ReassemblyTable}
    (h : Buffered messages taken (p :: left) t) {S : UInt32} {chunks : List Bytes}
    (hsplit : SplitAs messages p.message S chunks) {call : AbsorbCall}
    (hframe : call.frame = p.packet.frame)
    (hfresh : ∀ S b, t.lookup S = some b → call.now - b.firstSeen < reassemblyTimeout)
    (hok : ∀ e, (absorbFragment call t).1 ≠ .error e) :
    ((∃ q ∈ left, q.message = p.message) → (absorbFragment call t).1 = .ok none) ∧
    ((¬ ∃ q ∈ left, q.message = p.message) → ∃ flags, hasFlag flags flagRawBinary = false ∧
      (absorbFragment call t).1 = .ok (some { payload := chunks.flatten, flags := flags })) ∧
    Buffered messages (taken ++ [p]) left (absorbFragment call t).2 := by
  obtain ⟨_, hdr', hhdr', rfl, hseq, htotal, hchunk⟩ :=
    hstream.bringsChunk (by simp [hparts]) hsplit
  obtain ⟨hdr, b, hjoin, hfits⟩ := joins_of_not_error hok
  obtain rfl : hdr = hdr' := by
    rw [← hframe, hjoin.header] at hhdr'
    exact Option.some.inj hhdr'
  obtain ⟨hholds, hraw⟩ := h.entry hstream hparts hframe hfresh hjoin hsplit
  have hlt : p.number < chunks.length := (List.getElem?_eq_some_iff.mp hchunk).1
  have hcount : chunks.length ≤ 65535 := by
    have hbound := hdr.total.toNat_lt
    omega
  have hdelivers := hjoin.delivers hcount h.table hlt (by rw [← hseq, UInt16.ofNat_toNat])
    (by rw [hframe, List.getD_eq_getElem?_getD, hchunk]; rfl) hholds
    (by rw [hjoin.total_eq, ← htotal, UInt16.ofNat_toNat]) hfits
  have hremaining := hstream.remaining_iff hparts hsplit
  have hother : ∀ S', S' ≠ hdr.streamId → OtherTraffic S' call := by
    intro S' hne hdr' hhdr
    rw [hjoin.header] at hhdr
    cases hhdr
    exact Ne.symm hne
  have hdone : (¬ ∃ q ∈ left, q.message = p.message) →
      ∀ j < chunks.length, withNumber (numbersOf taken p.message) p.number j := by
    intro hlast j hj
    by_contra hmissing
    exact hlast (hremaining.mpr ⟨j, hj, hmissing⟩)
  refine ⟨fun hmore => (hdelivers.1 (hremaining.mp hmore)).1, ?_, ?_⟩
  · intro hlast
    exact ⟨b.flags, hraw, (hdelivers.2 (hdone hlast)).1⟩
  · refine ⟨(absorbFragment_inv call h.table).1, ?_, ?_⟩
    · intro k S' chunks' hk hprogress
      by_cases heq : p.message = k
      · subst heq
        obtain ⟨rfl, rfl⟩ := hsplit.unique hk
        rw [numbersOf_self]
        exact ⟨b.flags, b.firstSeen, hraw, (hdelivers.1 (hremaining.mp hprogress.2)).2⟩
      · have hbefore := (inProgress_other heq).mp hprogress
        have hne : S' ≠ hdr.streamId := by
          intro hsame
          exact hstream.sole_user hparts hsplit (hsame ▸ hk) heq hbefore
        obtain ⟨flags, seen, hrawFlags, hholding⟩ := h.holds k S' chunks' hk hbefore
        have hage : call.now - seen < reassemblyTimeout := by
          obtain ⟨b', hb', _, _, rfl, _⟩ := hholding
          exact hfresh S' b' hb'
        rw [numbersOf_other heq]
        exact ⟨flags, seen, hrawFlags, hholding.other (hother S' hne) hage⟩
    · intro k' S' chunks' hk' hfree
      by_cases hne : S' = hdr.streamId
      · subst hne
        have hlast : ¬ ∃ q ∈ left, q.message = p.message :=
          fun hmore => hfree p.message chunks hsplit ⟨⟨p, by simp, rfl⟩, hmore⟩
        exact (hdelivers.2 (hdone hlast)).2
      · rw [absorbFragment_other (hother S' hne), lookup_prune_fresh hfresh]
        refine h.free k' S' chunks' hk' ?_
        intro k chunks' hk hprogress
        have heq : p.message ≠ k := by
          intro heq
          exact hne (((heq ▸ hsplit).unique hk).1.symm)
        exact hfree k chunks' hk ((inProgress_other heq).mpr hprogress)

/-! ### What a receive loop makes of the stream -/

/-- No fragment finds a set that has reached its timeout. -/
def Ageless : List AbsorbCall → ReassemblyTable → Prop
  | [], _ => True
  | call :: calls, t =>
      (hasFlag call.frame.flags flagFragmented = true →
        ∀ S b, t.lookup S = some b → call.now - b.firstSeen < reassemblyTimeout) ∧
      Ageless calls (Client.accept call t).2

/-- A plain frame whose payload parses decodes to the envelope. -/
theorem decodeFrame_of_parse {frame : FrameResult} {env : Envelope}
    (hraw : hasFlag frame.flags flagRawBinary = false)
    (hparse : proto.parse frame.payload = some env) :
    Client.decodeFrame proto frame = .ok env := by
  unfold Client.decodeFrame
  rw [hraw, if_neg (by simp), hparse]

/-- **One frame** that is not refused: nothing while its message has frames to
come, and with the last one its envelope. -/
theorem Buffered.step (hstream : MixedStream lib proto key messages parts) {p : Part}
    (hparts : parts = taken ++ p :: left) {t : ReassemblyTable}
    (h : Buffered messages taken (p :: left) t) {call : AbsorbCall}
    (hframe : call.frame = p.packet.frame)
    (hfresh : hasFlag call.frame.flags flagFragmented = true →
      ∀ S b, t.lookup S = some b → call.now - b.firstSeen < reassemblyTimeout)
    (hok : ∀ e, Client.outcome proto call t ≠ .error e) :
    Buffered messages (taken ++ [p]) left (Client.accept call t).2 ∧
      ∃ m, messages[p.message]? = some m ∧ Client.outcome proto call t =
        .ok (if p.message ∈ left.map Part.message then none else some m.envelope) := by
  have hp : p ∈ parts := by simp [hparts]
  obtain ⟨m, hm, hcontains⟩ := hstream.contains p hp
  have hnotOk : ∀ e, (Client.accept call t).1 ≠ .error e := by
    intro e he
    refine hok e ?_
    unfold Client.outcome
    rw [he]
  have hmore : p.message ∈ left.map Part.message ↔ ∃ q ∈ left, q.message = p.message := by
    rw [List.mem_map]
  unfold Contains at hcontains
  cases hsplit : m.split with
  | none =>
      rw [hsplit] at hcontains
      obtain ⟨hwhole, hzero, hparse⟩ := hcontains
      have haccept : Client.accept call t = (.ok (some p.packet.frame), t) := by
        unfold Client.accept
        rw [hframe, hwhole, if_neg (by simp)]
      have hlast : p.message ∉ left.map Part.message := by
        rw [hmore]
        intro hleft
        obtain ⟨q, hq, hmessage⟩ := hleft
        -- Another frame of the message would have the same number.
        have hqPart : q ∈ parts := by simp [hparts, hq]
        obtain ⟨m', hm', hcontains'⟩ := hstream.contains q hqPart
        rw [hmessage, hm] at hm'
        cases hm'
        unfold Contains at hcontains'
        rw [hsplit] at hcontains'
        have honce := hstream.once
        rw [hparts, List.map_append, List.nodup_append, List.map_cons, List.nodup_cons] at honce
        refine honce.2.1.1 (List.mem_map.mpr ⟨q, hq, ?_⟩)
        rw [hmessage, hcontains'.2.1, hzero]
      refine ⟨by rw [haccept]; exact h.whole hm hsplit, m, hm, ?_⟩
      unfold Client.outcome
      rw [haccept, if_neg hlast]
      dsimp only
      rw [decodeFrame_of_parse (hstream.not_raw p hp) hparse]
      rfl
  | some split =>
      obtain ⟨S, chunks⟩ := split
      rw [hsplit] at hcontains
      obtain ⟨hfragmented, _, hparse⟩ := hcontains
      have haccept : Client.accept call t = absorbFragment call t := by
        unfold Client.accept
        rw [hframe, hfragmented, if_pos rfl]
      rw [haccept] at hnotOk ⊢
      obtain ⟨hwaits, hcompletes, hbuffered⟩ := h.fragment hstream hparts ⟨m, hm, hsplit⟩ hframe
        (hfresh (by rw [hframe, hfragmented])) hnotOk
      refine ⟨hbuffered, m, hm, ?_⟩
      unfold Client.outcome
      rw [haccept]
      by_cases hlast : p.message ∈ left.map Part.message
      · rw [hwaits (hmore.mp hlast), if_pos hlast]
      · obtain ⟨flags, hraw, hcomplete⟩ := hcompletes (fun hleft => hlast (hmore.mpr hleft))
        rw [hcomplete, if_neg hlast]
        dsimp only
        rw [decodeFrame_of_parse hraw hparse]
        rfl

/-- **Whole runs.**  What is returned for the frames taken, and the envelopes
that end with frames still to come, are the envelopes in the order of their
last frames. -/
theorem Buffered.run (hstream : MixedStream lib proto key messages parts) :
    ∀ (calls : List AbsorbCall) (taken left : List Part) (t : ReassemblyTable),
      parts = taken ++ left → Buffered messages taken left t →
      calls.map AbsorbCall.frame = (left.take calls.length).map (fun p => p.packet.frame) →
      Ageless calls t → (∀ r ∈ Endpoint.received proto calls t, ∃ env, r = .ok env) →
      Buffered messages (taken ++ left.take calls.length) (left.drop calls.length)
          (Endpoint.tableOn calls t) ∧
        Endpoint.received proto calls t ++
            (envelopesOf messages (lastFrames (left.drop calls.length))).map .ok =
          (envelopesOf messages (lastFrames left)).map .ok := by
  intro calls
  induction calls with
  | nil =>
      intro taken left t _ hbuffered _ _ _
      simpa [Endpoint.received, Endpoint.framesOn, Endpoint.tableOn] using hbuffered
  | cons call calls ih =>
      intro taken left t hparts hbuffered hframes hageless hok
      rcases left with _ | ⟨p, left⟩
      · simp at hframes
      rw [List.map_cons, List.length_cons, List.take_succ_cons, List.map_cons] at hframes
      obtain ⟨hframe, hframes⟩ := List.cons.inj hframes
      rw [Endpoint.received_cons] at hok
      have hfirst : ∀ e, Client.outcome proto call t ≠ .error e := by
        intro e he
        obtain ⟨env, henv⟩ := hok (.error e) (by simp [he, Client.ended])
        cases henv
      obtain ⟨hnext, m, hm, houtcome⟩ := hbuffered.step hstream hparts hframe hageless.1 hfirst
      obtain ⟨hlater, hrest⟩ := ih (taken ++ [p]) left (Client.accept call t).2 (by simp [hparts])
        hnext hframes hageless.2 (fun r hr => hok r (List.mem_append_right _ hr))
      rw [List.length_cons, List.take_succ_cons, List.drop_succ_cons]
      refine ⟨by simpa [Endpoint.tableOn] using hlater, ?_⟩
      rw [Endpoint.received_cons, houtcome, List.append_assoc, hrest, lastFrames, lastFrames,
        List.map_cons]
      by_cases hmore : p.message ∈ left.map Part.message
      · rw [if_pos hmore, List.dedup_cons_of_mem hmore]
        rfl
      · rw [if_neg hmore, List.dedup_cons_of_notMem hmore, envelopesOf, envelopesOf,
          List.filterMap_cons_some (by rw [hm]; rfl)]
        rfl

end Stream

end Vynkor
