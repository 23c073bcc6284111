import VynkorSdk.WsCodec

/-!
# From a client frame to a server frame

The two frame functions of `ws.cpp` go in different directions: one writes masked
frames, the other reads frames without a mask.  `unmasked` takes the mask off a
client frame, byte by byte as the frame is laid out.  What the encoder wrote is
then what the decoder reads, and nothing shorter is taken for a frame.
-/

namespace Vynkor

open ByteCodec

/-- The data XORed with a repeated 4-byte key. -/
def xorKey (key data : Bytes) : Bytes :=
  data.mapIdx (fun i b => b ^^^ key.getD (i % 4) 0)

/-- The bytes of the length behind the second byte. -/
def lengthExtension (b₁ : UInt8) : Nat :=
  if b₁ &&& 0x7F = 126 then 2 else if b₁ &&& 0x7F = 127 then 8 else 0

/-- A client frame as a server would send it: mask bit cleared, key removed,
payload XORed with the key. -/
def unmasked : Bytes → Bytes
  | b₀ :: b₁ :: tail =>
      let ext := lengthExtension b₁
      b₀ :: (b₁ &&& 0x7F) :: (tail.take ext ++ xorKey (slice tail ext 4) (tail.drop (ext + 4)))
  | frame => frame

/-- The length form of a frame that wastes no byte. -/
def LengthForm.shortest (n : Nat) : LengthForm :=
  if n < 126 then .inline else if n ≤ 0xFFFF then .word else .long

/-- The shortest form fits. -/
theorem LengthForm.shortest_fits {n : Nat} (h : n < 2 ^ 64) : (shortest n).Fits n := by
  unfold shortest
  split
  · assumption
  · split
    · show n < 2 ^ 16
      omega
    · exact h

/-- It is no longer than any other that fits. -/
theorem LengthForm.shortest_le {n : Nat} {form : LengthForm} (h : form.Fits n) :
    ((shortest n).bytes n).length ≤ (form.bytes n).length := by
  unfold shortest
  cases form with
  | inline =>
      have hinline : n < 126 := h
      rw [if_pos hinline]
  | word =>
      have hword : n < 2 ^ 16 := h
      split
      · simp [bytes]
      · rw [if_pos (by omega)]
  | long =>
      split
      · simp [bytes]
      · split <;> simp [bytes]

/-- The encoder takes the shortest form, under the mask bit. -/
theorem clientLength_eq (n : Nat) :
    ∃ b₁ ext, clientLength n = b₁ :: ext ∧ b₁ &&& 0x80 = 0x80 ∧
      (b₁ &&& 0x7F) :: ext = (LengthForm.shortest n).bytes n ∧ ext.length = lengthExtension b₁ := by
  unfold clientLength LengthForm.shortest
  split
  · rename_i hinline
    have hall : ∀ n < 126, (0x80 ||| UInt8.ofNat n) &&& 0x80 = 0x80 ∧
        (0x80 ||| UInt8.ofNat n) &&& 0x7F = UInt8.ofNat n ∧
        lengthExtension (0x80 ||| UInt8.ofNat n) = 0 := by decide
    obtain ⟨hmask, hlen, hext⟩ := hall n hinline
    exact ⟨_, [], rfl, hmask, by rw [hlen]; rfl, hext.symm⟩
  · split
    · exact ⟨0x80 ||| 126, toBe 2 n, rfl, by decide, rfl, by rw [toBe_length]; decide⟩
    · exact ⟨0x80 ||| 127, toBe 8 n, rfl, by decide, rfl, by rw [toBe_length]; decide⟩

/-- The same key twice is no key. -/
theorem xorKey_xorKey (key data : Bytes) : xorKey key (xorKey key data) = data := by
  unfold xorKey
  rw [List.mapIdx_mapIdx]
  apply List.ext_getElem (by simp)
  intro i _ _
  rw [List.getElem_mapIdx]
  show _ ^^^ _ ^^^ _ = _
  rw [UInt8.xor_assoc, UInt8.xor_self, UInt8.xor_zero]

/-- Taking the mask off gives the server's form of the frame. -/
theorem unmasked_eq (b₀ b₁ : UInt8) {ext : Bytes} (mask : FixedBytes 4) (payload : Bytes)
    (hext : ext.length = lengthExtension b₁) :
    unmasked (b₀ :: b₁ :: (ext ++ mask.val ++ xorKey mask.val payload)) =
      b₀ :: (b₁ &&& 0x7F) :: (ext ++ payload) := by
  have hkey : slice (ext ++ mask.val ++ xorKey mask.val payload) ext.length 4 = mask.val := by
    rw [List.append_assoc, slice_append_right rfl, List.take_append_of_le_length (by simp [mask.2]),
      List.take_of_length_le (by simp [mask.2])]
  have hbody : (ext ++ mask.val ++ xorKey mask.val payload).drop (ext.length + 4) =
      xorKey mask.val payload := by
    rw [List.drop_left' (by rw [List.length_append, mask.2])]
  have hfront : (ext ++ mask.val ++ xorKey mask.val payload).take ext.length = ext := by
    rw [List.append_assoc, List.take_left']
    rfl
  rw [unmasked, ← hext, hkey, hbody, hfront, xorKey_xorKey]

/-- A first byte with the final bit and an opcode. -/
theorem first_byte {opcode : UInt8} (h : opcode.toNat ≤ 15) :
    (0x80 ||| opcode) &&& 0x80 = 0x80 ∧ (0x80 ||| opcode) &&& 0x0F = opcode := by
  have hall : ∀ n < 16, (0x80 ||| UInt8.ofNat n) &&& 0x80 = 0x80 ∧
      (0x80 ||| UInt8.ofNat n) &&& 0x0F = UInt8.ofNat n := by decide
  have hopcode := hall opcode.toNat (by omega)
  rwa [UInt8.ofNat_toNat] at hopcode

/-- **The frame codec round trip.**  The encoder sets the final bit and the mask
bit and takes the shortest length form; without its mask the frame decodes to
what was encoded, all of it is taken, and every proper front of it waits. -/
theorem ws_frame_codec_round_trip {opcode : UInt8} (hopcode : opcode.toNat ≤ 15)
    (mask : FixedBytes 4) {payload : Bytes} (hsize : payload.length ≤ wsMaxMessageSize) :
    ∃ frame, wsEncodeClientFrame opcode (some mask) payload = .ok frame ∧
      (∃ (b₀ b₁ : UInt8) (ext : Bytes) (form : LengthForm),
        frame = b₀ :: b₁ :: (ext ++ mask.val ++ xorKey mask.val payload) ∧
        b₀ &&& 0x80 = 0x80 ∧ b₁ &&& 0x80 = 0x80 ∧
        (b₁ &&& 0x7F) :: ext = form.bytes payload.length ∧ form.Fits payload.length ∧
        ∀ other : LengthForm, other.Fits payload.length →
          (form.bytes payload.length).length ≤ (other.bytes payload.length).length) ∧
      wsTryDecodeServerFrame (unmasked frame) =
        .ok (some ({ fin := true, opcode := opcode, payload := payload },
          (unmasked frame).length)) ∧
      ∀ k < (unmasked frame).length,
        wsTryDecodeServerFrame ((unmasked frame).take k) = .ok none := by
  obtain ⟨b₁, ext, hlength, hmask, hform, hext⟩ := clientLength_eq payload.length
  obtain ⟨hfin, hop⟩ := first_byte hopcode
  have hfits : (LengthForm.shortest payload.length).Fits payload.length := by
    apply LengthForm.shortest_fits
    simp only [wsMaxMessageSize] at hsize
    omega
  refine ⟨(0x80 ||| opcode) :: b₁ :: (ext ++ mask.val ++ xorKey mask.val payload), ?_,
    ⟨0x80 ||| opcode, b₁, ext, LengthForm.shortest payload.length, rfl, hfin, hmask, hform, hfits,
      fun other hother => LengthForm.shortest_le hother⟩, ?_⟩
  · rw [wsEncodeClientFrame, hlength]
    rfl
  let f : ServerFrame := ⟨0x80 ||| opcode, LengthForm.shortest payload.length, payload, hfits⟩
  have hbytes : unmasked ((0x80 ||| opcode) :: b₁ ::
      (ext ++ mask.val ++ xorKey mask.val payload)) = f.bytes := by
    rw [unmasked_eq _ _ _ _ hext, ServerFrame.bytes, ← hform]
    rfl
  have hincoming : f.incoming = { fin := true, opcode := opcode, payload := payload } := by
    have hset : (0x80 ||| opcode) &&& 0x80 != 0 := by
      rw [hfin]
      decide
    simp only [ServerFrame.incoming, ServerFrame.fin, ServerFrame.opcode, f, hop, hset]
  have hpayload : ¬ f.payload.length > wsMaxMessageSize := Nat.not_lt.mpr hsize
  have hheader : f.headerSize ≤ f.bytes.length := by
    rw [f.bytes_length]
    omega
  rw [hbytes]
  constructor
  · have hall : f.bytes ++ [] = f.bytes ++ [] := rfl
    rw [decode_front f hall, if_neg (by omega), if_neg hpayload,
      if_neg (Nat.lt_irrefl _), hincoming]
  · intro k hk
    have hsplit : f.bytes.take k ++ f.bytes.drop k = f.bytes ++ [] := by
      rw [List.take_append_drop, List.append_nil]
    have htake : (f.bytes.take k).length = k := by
      rw [List.length_take]
      omega
    rw [decode_front f hsplit, htake, if_neg hpayload, if_pos hk]
    split <;> rfl

/-- A pong of three bytes. -/
theorem ws_frame_codec_round_trip_pong :
    ∃ frame, wsEncodeClientFrame opPong (some ⟨[1, 2, 3, 4], rfl⟩) [7, 8, 9] = .ok frame ∧
      wsTryDecodeServerFrame (unmasked frame) =
        .ok (some ({ fin := true, opcode := opPong, payload := [7, 8, 9] }, 5)) := by
  have hopcode : opPong.toNat ≤ 15 := by decide
  have hsize : ([7, 8, 9] : Bytes).length ≤ wsMaxMessageSize := by decide
  obtain ⟨frame, hencode, _, hdecode, _⟩ :=
    ws_frame_codec_round_trip hopcode ⟨[1, 2, 3, 4], rfl⟩ hsize
  have hcode : wsEncodeClientFrame opPong (some ⟨[1, 2, 3, 4], rfl⟩) [7, 8, 9] =
      .ok [0x8A, 0x83, 1, 2, 3, 4, 6, 10, 10] := by decide
  obtain rfl := Except.ok.inj (hencode.symm.trans hcode)
  exact ⟨_, hencode, hdecode⟩

end Vynkor
