import VynkorSdk.WsCodec

/-!
# The WebSocket decoder, access by access

`wsTryDecodeChecked` is `ws_try_decode_server_frame` at the level of its memory
accesses: every byte is fetched from the buffer by its index, a fetch outside the
buffer traps, and length and offset are 64-bit words whose sum may wrap around.
It agrees with `wsTryDecodeServerFrame` and so never traps.

What the decoder decides on a buffer it decides on every longer one: the receive
loop may try it after each read.
-/

namespace Vynkor

open ByteCodec

/-- Why a decoding attempt stops: an access outside the buffer, or an exception. -/
inductive Trap
  | outOfBounds (index : Nat)
  | thrown (e : Exn)
  deriving DecidableEq

/-- `buf[i]`. -/
def fetch (buf : Bytes) (i : Nat) : Except Trap UInt8 :=
  match buf[i]? with
  | some b => .ok b
  | none => .error (.outOfBounds i)

/-- `memcpy` or `assign` from the `n` positions from `off` on. -/
def fetchRange (buf : Bytes) (off n : Nat) : Except Trap Bytes :=
  (List.range' off n).mapM (fetch buf)

/-- An extended length of `k` bytes behind the first two, and the offset behind
it. -/
def extendedLength (buf : Bytes) (k : Nat) : Except Trap (Option (UInt64 × UInt64)) :=
  if buf.length < 2 + k then
    .ok none
  else do
    let be ← fetchRange buf 2 k
    return some (UInt64.ofNat (ofBe be), UInt64.ofNat (2 + k))

def checkedLength (buf : Bytes) (len : UInt64) : Except Trap (Option (UInt64 × UInt64)) :=
  if len = 126 then
    extendedLength buf 2
  else if len = 127 then
    extendedLength buf 8
  else
    .ok (some (len, 2))

/-- The end of `ws_try_decode_server_frame`, with length and offset known. -/
def checkedPayload (buf : Bytes) (b₀ : UInt8) (len offset : UInt64) :
    Except Trap (Option (WsIncomingFrame × Nat)) :=
  if len.toNat > wsMaxMessageSize then
    .error (.thrown (.payloadTooLarge len.toNat))
  else if buf.length < (offset + len).toNat then
    .ok none
  else do
    let payload ← fetchRange buf offset.toNat ((offset + len).toNat - offset.toNat)
    return some ({ fin := b₀ &&& 0x80 != 0, opcode := b₀ &&& 0x0F, payload := payload },
      (offset + len).toNat)

/-- `ws_try_decode_server_frame` behind the first two bytes. -/
def checkedFrame (buf : Bytes) (b₀ b₁ : UInt8) : Except Trap (Option (WsIncomingFrame × Nat)) :=
  if b₁ &&& 0x80 != 0 then
    .error (.thrown (.internal (ascii "websocket: server sent a masked frame")))
  else do
    let found ← checkedLength buf (b₁ &&& 0x7F).toUInt64
    match found with
    | none => return none
    | some (len, offset) => checkedPayload buf b₀ len offset

def wsTryDecodeChecked (buf : Bytes) : Except Trap (Option (WsIncomingFrame × Nat)) :=
  if buf.length < 2 then
    .ok none
  else do
    let b₀ ← fetch buf 0
    let b₁ ← fetch buf 1
    checkedFrame buf b₀ b₁

/-! ### No access outside the buffer -/

/-- A range inside the buffer is fetched as the slice. -/
theorem fetchRange_eq {buf : Bytes} {off n : Nat} (h : off + n ≤ buf.length) :
    fetchRange buf off n = .ok (slice buf off n) := by
  induction n generalizing off with
  | zero => rfl
  | succ n ih =>
      have hat : off < buf.length := by omega
      have hfetch : fetch buf off = .ok buf[off] := by
        rw [fetch, List.getElem?_eq_getElem hat]
      have hrest : (List.range' (off + 1) n).mapM (fetch buf) = .ok (slice buf (off + 1) n) :=
        ih (by omega)
      have hslice : slice buf off (n + 1) = buf[off] :: slice buf (off + 1) n := by
        rw [slice, List.drop_eq_getElem_cons hat, List.take_succ_cons]
        rfl
      rw [fetchRange, List.range'_succ, List.mapM_cons, hfetch, hslice]
      show (do let rest ← (List.range' (off + 1) n).mapM (fetch buf); pure (buf[off] :: rest)) = _
      rw [hrest]
      rfl

/-- The extended length is fetched without leaving the buffer. -/
theorem extendedLength_eq (buf : Bytes) (k : Nat) :
    extendedLength buf k = .ok (if buf.length < 2 + k then none
      else some (UInt64.ofNat (ofBe (slice buf 2 k)), UInt64.ofNat (2 + k))) := by
  unfold extendedLength
  split
  · rfl
  · rw [fetchRange_eq (by omega)]
    rfl

/-- Length and offset as 64-bit words. -/
theorem checkedLength_eq (buf : Bytes) (b : UInt8) :
    checkedLength buf b.toUInt64 =
      .ok ((wsLength buf b.toNat).map (fun found =>
        (UInt64.ofNat found.1, UInt64.ofNat found.2))) := by
  have hword : ∀ w : UInt64, b.toUInt64 = w ↔ b.toNat = w.toNat := by
    intro w
    rw [← UInt64.toNat_inj, UInt8.toNat_toUInt64]
  unfold checkedLength wsLength
  by_cases hshort : b.toNat = 126
  · rw [if_pos ((hword 126).mpr hshort), if_pos hshort, extendedLength_eq]
    split <;> rfl
  · rw [if_neg (fun h => hshort ((hword 126).mp h)), if_neg hshort]
    by_cases hlong : b.toNat = 127
    · rw [if_pos ((hword 127).mpr hlong), if_pos hlong, extendedLength_eq]
      split <;> rfl
    · rw [if_neg (fun h => hlong ((hword 127).mp h)), if_neg hlong]
      have hsame : UInt64.ofNat b.toNat = b.toUInt64 := by
        apply UInt64.toNat_inj.mp
        rw [UInt8.toNat_toUInt64, UInt64.toNat_ofNat_of_lt' (by
          have := b.toNat_lt
          simp only [UInt64.size]
          omega)]
      rw [Option.map_some, hsame]
      rfl

/-- The length in the second byte. -/
theorem length_bits_lt (b : UInt8) : (b &&& 0x7F).toNat < 128 := by
  rw [UInt8.toNat_and]
  exact Nat.lt_of_le_of_lt Nat.and_le_right (by decide)

/-- A length that is found fits 64 bits, and its offset is in the buffer. -/
theorem wsLength_bounds {buf : Bytes} {len l o : Nat} (hbuf : 2 ≤ buf.length) (hlen : len < 128)
    (h : wsLength buf len = some (l, o)) : l < 2 ^ 64 ∧ o ≤ buf.length ∧ o ≤ 10 := by
  have hspelled : ∀ k, k ≤ 8 → 2 + k ≤ buf.length → ofBe (slice buf 2 k) < 2 ^ 64 := by
    intro k hk hle
    have hlt := ofBe_lt (slice buf 2 k)
    rw [slice_length hle] at hlt
    calc ofBe (slice buf 2 k)
        < 256 ^ k := hlt
      _ ≤ 256 ^ 8 := Nat.pow_le_pow_right (by decide) hk
      _ = 2 ^ 64 := by decide
  unfold wsLength at h
  split at h
  · split at h
    · cases h
    · cases h
      exact ⟨hspelled 2 (by decide) (by omega), by omega, by decide⟩
  · split at h
    · split at h
      · cases h
      · cases h
        exact ⟨hspelled 8 (by decide) (by omega), by omega, by decide⟩
    · cases h
      exact ⟨by omega, hbuf, by decide⟩

/-- **Every access is inside the buffer**, and no sum wraps around. -/
theorem wsTryDecodeChecked_eq (buf : Bytes) :
    wsTryDecodeChecked buf = (wsTryDecodeServerFrame buf).mapError Trap.thrown := by
  rcases buf with _ | ⟨b₀, _ | ⟨b₁, tail⟩⟩
  · rfl
  · rfl
  have hbuf : 2 ≤ (b₀ :: b₁ :: tail).length := by simp
  have hfetched : wsTryDecodeChecked (b₀ :: b₁ :: tail) =
      checkedFrame (b₀ :: b₁ :: tail) b₀ b₁ := by
    rw [wsTryDecodeChecked, if_neg (Nat.not_lt.mpr hbuf)]
    rfl
  rw [hfetched, checkedFrame, wsTryDecodeServerFrame]
  split
  · rfl
  rw [checkedLength_eq]
  cases hfound : wsLength (b₀ :: b₁ :: tail) (b₁ &&& 0x7F).toNat with
  | none => rfl
  | some found =>
      obtain ⟨l, o⟩ := found
      obtain ⟨hl, hin, ho⟩ := wsLength_bounds hbuf (length_bits_lt b₁) hfound
      have hl' : (UInt64.ofNat l).toNat = l := UInt64.toNat_ofNat_of_lt' hl
      have ho' : (UInt64.ofNat o).toNat = o :=
        UInt64.toNat_ofNat_of_lt' (by simp only [UInt64.size]; omega)
      show checkedPayload (b₀ :: b₁ :: tail) b₀ (UInt64.ofNat l) (UInt64.ofNat o) = _
      dsimp only
      rw [checkedPayload, hl']
      by_cases hlarge : l > wsMaxMessageSize
      · rw [if_pos hlarge, if_pos hlarge]
        rfl
      · have hsum : (UInt64.ofNat o + UInt64.ofNat l).toNat = o + l := by
          rw [UInt64.toNat_add, hl', ho', Nat.mod_eq_of_lt]
          simp only [wsMaxMessageSize] at hlarge
          omega
        rw [if_neg hlarge, if_neg hlarge, hsum]
        by_cases hshort : (b₀ :: b₁ :: tail).length < o + l
        · rw [if_pos hshort, if_pos hshort]
          rfl
        · rw [if_neg hshort, if_neg hshort, ho', Nat.add_sub_cancel_left,
            fetchRange_eq (Nat.le_of_not_lt hshort)]
          rfl

/-! ### More input -/

/-- A length that is there stays with more bytes behind it. -/
theorem wsLength_append {buf : Bytes} {len l o : Nat} (more : Bytes)
    (h : wsLength buf len = some (l, o)) : wsLength (buf ++ more) len = some (l, o) := by
  unfold wsLength at h ⊢
  rw [List.length_append]
  split at h
  · rename_i hword
    rw [if_pos hword]
    split at h
    · cases h
    · rw [if_neg (by omega), slice_append_left (by omega), h]
  · rename_i hword
    rw [if_neg hword]
    split at h
    · rename_i hlong
      rw [if_pos hlong]
      split at h
      · cases h
      · rw [if_neg (by omega), slice_append_left (by omega), h]
    · rename_i hlong
      rw [if_neg hlong, h]

/-- The ways an attempt ends, each with what it finds in the buffer. -/
inductive Attempt (buf : Bytes) : Except Exn (Option (WsIncomingFrame × Nat)) → Prop
  | short (h : buf.length < 2) : Attempt buf (.ok none)
  | masked {b₀ b₁ : UInt8} {tail : Bytes} (hbuf : buf = b₀ :: b₁ :: tail)
      (h : (b₁ &&& 0x80 != 0) = true) :
      Attempt buf (.error (.internal (ascii "websocket: server sent a masked frame")))
  | header {b₀ b₁ : UInt8} {tail : Bytes} (hbuf : buf = b₀ :: b₁ :: tail)
      (hmask : ¬ (b₁ &&& 0x80 != 0) = true) (h : wsLength buf (b₁ &&& 0x7F).toNat = none) :
      Attempt buf (.ok none)
  | large {b₀ b₁ : UInt8} {tail : Bytes} {len offset : Nat} (hbuf : buf = b₀ :: b₁ :: tail)
      (hmask : ¬ (b₁ &&& 0x80 != 0) = true)
      (hlen : wsLength buf (b₁ &&& 0x7F).toNat = some (len, offset))
      (h : len > wsMaxMessageSize) : Attempt buf (.error (.payloadTooLarge len))
  | waiting {b₀ b₁ : UInt8} {tail : Bytes} {len offset : Nat} (hbuf : buf = b₀ :: b₁ :: tail)
      (hmask : ¬ (b₁ &&& 0x80 != 0) = true)
      (hlen : wsLength buf (b₁ &&& 0x7F).toNat = some (len, offset))
      (hfits : ¬ len > wsMaxMessageSize) (h : buf.length < offset + len) : Attempt buf (.ok none)
  | whole {b₀ b₁ : UInt8} {tail : Bytes} {len offset : Nat} (hbuf : buf = b₀ :: b₁ :: tail)
      (hmask : ¬ (b₁ &&& 0x80 != 0) = true)
      (hlen : wsLength buf (b₁ &&& 0x7F).toNat = some (len, offset))
      (hfits : ¬ len > wsMaxMessageSize) (h : ¬ buf.length < offset + len) :
      Attempt buf (.ok (some ({ fin := b₀ &&& 0x80 != 0, opcode := b₀ &&& 0x0F,
                                payload := slice buf offset len }, offset + len)))

/-- Every attempt to decode is one of the listed ones. -/
theorem attempt_decode (buf : Bytes) : Attempt buf (wsTryDecodeServerFrame buf) := by
  rcases buf with _ | ⟨b₀, _ | ⟨b₁, tail⟩⟩
  · exact .short (by simp)
  · exact .short (by simp)
  rw [wsTryDecodeServerFrame]
  split
  · rename_i hmasked
    exact .masked rfl hmasked
  rename_i hmask
  cases hfound : wsLength (b₀ :: b₁ :: tail) (b₁ &&& 0x7F).toNat with
  | none => exact .header rfl hmask hfound
  | some found =>
      dsimp only
      split
      · rename_i hlarge
        exact .large rfl hmask hfound hlarge
      rename_i hfits
      split
      · rename_i hshort
        exact .waiting rfl hmask hfound hfits hshort
      · rename_i hwhole
        exact .whole rfl hmask hfound hfits hwhole

/-- A listed attempt is what the decoder answers. -/
theorem Attempt.decode_eq {buf : Bytes} {r : Except Exn (Option (WsIncomingFrame × Nat))}
    (h : Attempt buf r) : wsTryDecodeServerFrame buf = r := by
  cases h with
  | short h =>
      rcases buf with _ | ⟨b₀, _ | ⟨b₁, tail⟩⟩
      · rfl
      · rfl
      · simp only [List.length_cons] at h
        omega
  | masked hbuf h =>
      subst hbuf
      rw [wsTryDecodeServerFrame, if_pos h]
  | header hbuf hmask h =>
      subst hbuf
      rw [wsTryDecodeServerFrame, if_neg hmask, h]
  | large hbuf hmask hlen h =>
      subst hbuf
      rw [wsTryDecodeServerFrame, if_neg hmask, hlen]
      exact if_pos h
  | waiting hbuf hmask hlen hfits h =>
      subst hbuf
      rw [wsTryDecodeServerFrame, if_neg hmask, hlen]
      dsimp only
      rw [if_neg hfits, if_pos h]
  | whole hbuf hmask hlen hfits h =>
      subst hbuf
      rw [wsTryDecodeServerFrame, if_neg hmask, hlen]
      dsimp only
      rw [if_neg hfits, if_neg h]

/-- **What is decided stays decided**: a frame with its size, or an exception. -/
theorem Attempt.append {buf : Bytes} {r : Except Exn (Option (WsIncomingFrame × Nat))}
    (h : Attempt buf r) (more : Bytes) (hdecided : r ≠ .ok none) : Attempt (buf ++ more) r := by
  cases h with
  | short _ => exact absurd rfl hdecided
  | masked hbuf h => exact .masked (by rw [hbuf]; rfl) h
  | header _ _ _ => exact absurd rfl hdecided
  | large hbuf hmask hlen h =>
      exact .large (by rw [hbuf]; rfl) hmask (wsLength_append more hlen) h
  | waiting _ _ _ _ _ => exact absurd rfl hdecided
  | whole hbuf hmask hlen hfits h =>
      rw [← slice_append_left (Nat.le_of_not_lt h)]
      exact .whole (by rw [hbuf]; rfl) hmask (wsLength_append more hlen) hfits
        (by rw [List.length_append]; omega)

/-- A decision stays with more bytes behind it. -/
theorem decode_append {buf : Bytes} {r : Except Exn (Option (WsIncomingFrame × Nat))}
    (more : Bytes) (h : wsTryDecodeServerFrame buf = r) (hdecided : r ≠ .ok none) :
    wsTryDecodeServerFrame (buf ++ more) = r :=
  ((h ▸ attempt_decode buf).append more hdecided).decode_eq

/-- A length that is not there yet means fewer than ten bytes. -/
theorem wsLength_none_length {buf : Bytes} {len : Nat} (h : wsLength buf len = none) :
    buf.length < 10 := by
  unfold wsLength at h
  split at h
  · split at h
    · omega
    · cases h
  · split at h
    · split at h
      · omega
      · cases h
    · cases h

/-- The decoder never waits on a buffer that holds the longest header and the
largest payload. -/
theorem decode_none_length {buf : Bytes} (h : wsTryDecodeServerFrame buf = .ok none) :
    buf.length < 10 + wsMaxMessageSize := by
  have hattempt := attempt_decode buf
  rw [h] at hattempt
  cases hattempt with
  | short hshort => omega
  | header _ _ hheader =>
      have := wsLength_none_length hheader
      omega
  | waiting hbuf _ hlen hfits hwaiting =>
      obtain ⟨_, _, hoffset⟩ := wsLength_bounds (by simp [hbuf]) (length_bits_lt _) hlen
      omega

/-- A frame that is taken was in the buffer. -/
theorem decode_some_le {buf : Bytes} {frame : WsIncomingFrame} {consumed : Nat}
    (h : wsTryDecodeServerFrame buf = .ok (some (frame, consumed))) : consumed ≤ buf.length := by
  have hattempt := attempt_decode buf
  rw [h] at hattempt
  cases hattempt with
  | whole _ _ _ _ hwhole => exact Nat.le_of_not_lt hwhole

/-- **The decoder is stable under more input**, never waits for ever, and stays
inside its buffer. -/
theorem decoder_stable_and_in_bounds (buf : Bytes) :
    (∀ (more : Bytes) (frame : WsIncomingFrame) (consumed : Nat),
      wsTryDecodeServerFrame buf = .ok (some (frame, consumed)) →
      wsTryDecodeServerFrame (buf ++ more) = .ok (some (frame, consumed))) ∧
    (∀ (more : Bytes) (e : Exn), wsTryDecodeServerFrame buf = .error e →
      wsTryDecodeServerFrame (buf ++ more) = .error e) ∧
    (wsTryDecodeServerFrame buf = .ok none → ∃ more : Bytes,
      (∃ frame consumed, wsTryDecodeServerFrame (buf ++ more) = .ok (some (frame, consumed))) ∨
      ∃ e, wsTryDecodeServerFrame (buf ++ more) = .error e) ∧
    wsTryDecodeChecked buf = (wsTryDecodeServerFrame buf).mapError Trap.thrown ∧
    (∀ i, wsTryDecodeChecked buf ≠ .error (.outOfBounds i)) ∧
    (∀ (frame : WsIncomingFrame) (consumed : Nat),
      wsTryDecodeServerFrame buf = .ok (some (frame, consumed)) → consumed ≤ buf.length) := by
  refine ⟨?_, ?_, ?_, wsTryDecodeChecked_eq buf, ?_, fun _ _ h => decode_some_le h⟩
  · intro more frame consumed h
    exact decode_append more h (by simp)
  · intro more e h
    exact decode_append more h (by simp)
  · intro _
    let more : Bytes := List.replicate (10 + wsMaxMessageSize) 0
    refine ⟨more, ?_⟩
    have hlong : 10 + wsMaxMessageSize ≤ (buf ++ more).length := by
      rw [List.length_append, List.length_replicate]
      omega
    cases hlonger : wsTryDecodeServerFrame (buf ++ more) with
    | error e => exact Or.inr ⟨e, rfl⟩
    | ok decoded =>
        cases decoded with
        | none =>
            have := decode_none_length hlonger
            omega
        | some found => exact Or.inl ⟨found.1, found.2, rfl⟩
  · intro i htrap
    rw [wsTryDecodeChecked_eq] at htrap
    cases hdecode : wsTryDecodeServerFrame buf with
    | error e =>
        rw [hdecode] at htrap
        cases htrap
    | ok decoded =>
        rw [hdecode] at htrap
        cases htrap

/-- A frame with a byte behind it, a masked frame, and a frame that waits for its
payload. -/
theorem decoder_stable_and_in_bounds_short :
    wsTryDecodeServerFrame ([0x82, 1, 7] ++ [9]) =
        .ok (some ({ fin := true, opcode := opBinary, payload := [7] }, 3)) ∧
      wsTryDecodeServerFrame ([0x82, 0x81] ++ [9]) =
        .error (.internal (ascii "websocket: server sent a masked frame")) ∧
      (∃ more : Bytes, wsTryDecodeServerFrame ([0x82, 1] ++ more) ≠ .ok none) := by
  refine ⟨(decoder_stable_and_in_bounds [0x82, 1, 7]).1 [9] _ _ (by decide +kernel),
    (decoder_stable_and_in_bounds [0x82, 0x81]).2.1 [9] _ (by decide +kernel), ?_⟩
  obtain ⟨more, hmore⟩ := (decoder_stable_and_in_bounds [0x82, 1]).2.2.1 (by decide +kernel)
  refine ⟨more, ?_⟩
  rcases hmore with ⟨frame, consumed, h⟩ | ⟨e, h⟩
  · rw [h]
    simp
  · rw [h]
    simp

end Vynkor
