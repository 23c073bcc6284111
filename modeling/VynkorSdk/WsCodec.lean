import VynkorSdk.StreamIo

/-!
# WebSocket frames

The two frame functions of `ws.cpp` and the byte strings a server may send.  A
server frame has one of three length encodings; nothing obliges the server to
take the shortest one, and the decoder ignores the reserved bits of the first
byte.

`decode_front` is what the receive loop needs: on a buffer that holds the front
of a frame or more than the frame, the decoder waits, refuses the frame, or takes
exactly the frame.
-/

namespace Vynkor

open ByteCodec

def opCont : UInt8 := 0x0
def opText : UInt8 := 0x1
def opBinary : UInt8 := 0x2
def opClose : UInt8 := 0x8
def opPing : UInt8 := 0x9
def opPong : UInt8 := 0xA

/-- `WS_MAX_MESSAGE_SIZE`. -/
def wsMaxMessageSize : Nat := 4 * 1024 * 1024

structure WsIncomingFrame where
  fin : Bool := true
  opcode : UInt8 := 0
  payload : Bytes := []
  deriving DecidableEq, Repr

/-! ### Client frames -/

/-- The length of a client frame, with the mask bit. -/
def clientLength (len : Nat) : Bytes :=
  if len < 126 then
    [0x80 ||| UInt8.ofNat len]
  else if len ≤ 0xFFFF then
    (0x80 ||| 126) :: toBe 2 len
  else
    (0x80 ||| 127) :: toBe 8 len

/-- `ws_encode_client_frame`; `rand` is what `RAND_bytes` gives. -/
def wsEncodeClientFrame (opcode : UInt8) (rand : Option (FixedBytes 4)) (payload : Bytes) :
    Except Exn Bytes :=
  match rand with
  | none => .error (.internal (ascii "RAND_bytes failed"))
  | some mask =>
      .ok ((0x80 ||| opcode) :: (clientLength payload.length ++ mask.val ++
        payload.mapIdx (fun i b => b ^^^ mask.val.getD (i % 4) 0)))

/-- The most a client frame adds to its payload. -/
def clientOverhead : Nat := 14

/-- A client frame adds a bounded header to its payload. -/
theorem wsEncodeClientFrame_length_le {opcode : UInt8} {rand : Option (FixedBytes 4)}
    {payload frame : Bytes} (h : wsEncodeClientFrame opcode rand payload = .ok frame) :
    frame.length ≤ payload.length + clientOverhead := by
  cases rand with
  | none => cases h
  | some mask =>
      cases h
      have hlength : (clientLength payload.length).length ≤ 9 := by
        unfold clientLength
        split
        · simp
        · split <;> simp
      simp only [List.length_cons, List.length_append, List.length_mapIdx, mask.2, clientOverhead]
      omega

/-! ### Server frames -/

/-- Length and offset of the payload; `none` while bytes of the length are
missing.  `len` is the length in the second byte. -/
def wsLength (buf : Bytes) (len : Nat) : Option (Nat × Nat) :=
  if len = 126 then
    if buf.length < 4 then none else some (ofBe (slice buf 2 2), 4)
  else if len = 127 then
    if buf.length < 10 then none else some (ofBe (slice buf 2 8), 10)
  else
    some (len, 2)

/-- `ws_try_decode_server_frame`: the frame in front and the bytes it takes,
`none` while more are needed. -/
def wsTryDecodeServerFrame (buf : Bytes) : Except Exn (Option (WsIncomingFrame × Nat)) :=
  match buf with
  | b₀ :: b₁ :: _ =>
      if b₁ &&& 0x80 != 0 then
        .error (.internal (ascii "websocket: server sent a masked frame"))
      else
        match wsLength buf (b₁ &&& 0x7F).toNat with
        | none => .ok none
        | some (len, offset) =>
            if len > wsMaxMessageSize then
              .error (.payloadTooLarge len)
            else if buf.length < offset + len then
              .ok none
            else
              .ok (some ({ fin := b₀ &&& 0x80 != 0, opcode := b₀ &&& 0x0F,
                           payload := slice buf offset len }, offset + len))
  | _ => .ok none

/-- The three ways to write a length. -/
inductive LengthForm
  | inline
  | word
  | long
  deriving DecidableEq, Repr

namespace LengthForm

def Fits (n : Nat) : LengthForm → Prop
  | .inline => n < 126
  | .word => n < 2 ^ 16
  | .long => n < 2 ^ 64

instance (n : Nat) : (form : LengthForm) → Decidable (form.Fits n)
  | .inline => inferInstanceAs (Decidable (n < 126))
  | .word => inferInstanceAs (Decidable (n < 2 ^ 16))
  | .long => inferInstanceAs (Decidable (n < 2 ^ 64))

def bytes (n : Nat) : LengthForm → Bytes
  | .inline => [UInt8.ofNat n]
  | .word => 126 :: toBe 2 n
  | .long => 127 :: toBe 8 n

end LengthForm

/-- An unmasked frame: first byte, length encoding, payload. -/
structure ServerFrame where
  first : UInt8
  form : LengthForm
  payload : Bytes
  fits : form.Fits payload.length

namespace ServerFrame

variable (f : ServerFrame)

def fin : Bool := f.first &&& 0x80 != 0

def opcode : UInt8 := f.first &&& 0x0F

def incoming : WsIncomingFrame := { fin := f.fin, opcode := f.opcode, payload := f.payload }

def bytes : Bytes := f.first :: (f.form.bytes f.payload.length ++ f.payload)

/-- Where the payload starts. -/
def headerSize : Nat :=
  match f.form with
  | .inline => 2
  | .word => 4
  | .long => 10

/-- A frame is its header and its payload. -/
theorem bytes_length : f.bytes.length = f.headerSize + f.payload.length := by
  unfold bytes headerSize
  cases f.form <;> simp [LengthForm.bytes] <;> omega

end ServerFrame

/-- An inline length leaves the mask bit alone. -/
theorem inline_length {n : Nat} (h : n < 126) :
    (UInt8.ofNat n &&& 0x80 != 0) = false ∧ (UInt8.ofNat n &&& 0x7F).toNat = n := by
  have hall : ∀ n < 126, (UInt8.ofNat n &&& 0x80 != 0) = false ∧
      (UInt8.ofNat n &&& 0x7F).toNat = n := by decide
  exact hall n h

/-- An extended length of `k` bytes is the length the frame was written with. -/
theorem extended_length {f : ServerFrame} {code : UInt8} {k : Nat} {buf more rest : Bytes}
    (hform : f.form.bytes f.payload.length = code :: toBe k f.payload.length)
    (hfits : f.payload.length < 256 ^ k) (h : buf ++ more = f.bytes ++ rest)
    (hlong : 2 + k ≤ buf.length) : ofBe (slice buf 2 k) = f.payload.length := by
  have hread : slice buf 2 k = slice (f.bytes ++ rest) 2 k := by
    rw [← h, slice_append_left hlong]
  rw [hread, ServerFrame.bytes, hform]
  simp only [List.cons_append, List.append_assoc, slice, List.drop_succ_cons, List.drop_zero]
  rw [List.take_append_of_le_length (by simp), List.take_of_length_le (by simp), ofBe_toBe hfits]

/-- The second byte of a frame has no mask bit, and the decoder finds length and
offset as soon as the bytes are there. -/
theorem wsLength_buffer (f : ServerFrame) {b₀ b₁ : UInt8} {tail more rest : Bytes}
    (h : (b₀ :: b₁ :: tail) ++ more = f.bytes ++ rest) :
    b₀ = f.first ∧ (b₁ &&& 0x80 != 0) = false ∧
      wsLength (b₀ :: b₁ :: tail) (b₁ &&& 0x7F).toNat =
        if (b₀ :: b₁ :: tail).length < f.headerSize then none
        else some (f.payload.length, f.headerSize) := by
  have hsplit := h
  simp only [ServerFrame.bytes, List.cons_append, List.cons.injEq] at hsplit
  obtain ⟨hfirst, hsecond⟩ := hsplit
  refine ⟨hfirst, ?_⟩
  have hfits := f.fits
  unfold ServerFrame.headerSize
  cases hform : f.form with
  | inline =>
      rw [hform] at hsecond hfits
      simp only [LengthForm.bytes, LengthForm.Fits, List.cons_append,
        List.cons.injEq] at hsecond hfits
      obtain ⟨hmask, hlen⟩ := inline_length hfits
      rw [hsecond.1]
      refine ⟨hmask, ?_⟩
      rw [hlen, wsLength, if_neg (by omega), if_neg (by omega)]
      simp
  | word =>
      rw [hform] at hsecond hfits
      simp only [LengthForm.bytes, LengthForm.Fits, List.cons_append,
        List.cons.injEq] at hsecond hfits
      rw [hsecond.1]
      refine ⟨by decide, ?_⟩
      rw [show ((126 : UInt8) &&& 0x7F).toNat = 126 from rfl, wsLength, if_pos rfl]
      split
      · rfl
      · rename_i hlong
        rw [extended_length (by rw [hform]; rfl) hfits (hsecond.1 ▸ h) (by omega)]
  | long =>
      rw [hform] at hsecond hfits
      simp only [LengthForm.bytes, LengthForm.Fits, List.cons_append,
        List.cons.injEq] at hsecond hfits
      rw [hsecond.1]
      refine ⟨by decide, ?_⟩
      rw [show ((127 : UInt8) &&& 0x7F).toNat = 127 from rfl, wsLength, if_neg (by decide),
        if_pos rfl]
      split
      · rfl
      · rename_i hlong
        rw [extended_length (by rw [hform]; rfl) hfits (hsecond.1 ▸ h) (by omega)]

/-- A header has at least two bytes. -/
theorem ServerFrame.two_le_headerSize (f : ServerFrame) : 2 ≤ f.headerSize := by
  unfold ServerFrame.headerSize
  cases f.form <;> decide

/-- **The decoder on a stream of frames**: it waits for the header of the frame in
front, refuses a payload that is too large, waits for the payload, and takes
the frame. -/
theorem decode_front (f : ServerFrame) {buf more rest : Bytes}
    (h : buf ++ more = f.bytes ++ rest) :
    wsTryDecodeServerFrame buf =
      if buf.length < f.headerSize then .ok none
      else if f.payload.length > wsMaxMessageSize then .error (.payloadTooLarge f.payload.length)
      else if buf.length < f.bytes.length then .ok none
      else .ok (some (f.incoming, f.bytes.length)) := by
  have hlen := f.bytes_length
  have htwo := f.two_le_headerSize
  rcases buf with _ | ⟨b₀, _ | ⟨b₁, tail⟩⟩
  · rw [if_pos (by simp only [List.length_nil]; omega)]
    rfl
  · rw [if_pos (by simp only [List.length_singleton]; omega)]
    rfl
  obtain ⟨hfirst, hmask, hwsLength⟩ := wsLength_buffer f h
  unfold wsTryDecodeServerFrame
  dsimp only
  rw [hmask, hwsLength, if_neg (by simp)]
  by_cases hheader : (b₀ :: b₁ :: tail).length < f.headerSize
  · rw [if_pos hheader, if_pos hheader]
  · rw [if_neg hheader, if_neg hheader]
    dsimp only
    by_cases hlarge : f.payload.length > wsMaxMessageSize
    · rw [if_pos hlarge, if_pos hlarge]
    rw [if_neg hlarge, if_neg hlarge, hlen]
    by_cases hwhole : (b₀ :: b₁ :: tail).length < f.headerSize + f.payload.length
    · rw [if_pos hwhole, if_pos hwhole]
    · have hpayload : slice (b₀ :: b₁ :: tail) f.headerSize f.payload.length = f.payload := by
        have hheaderBytes : (f.first :: f.form.bytes f.payload.length).length = f.headerSize := by
          have := hlen
          simp only [ServerFrame.bytes, List.length_cons, List.length_append] at this ⊢
          omega
        rw [← slice_append_left (Nat.le_of_not_lt hwhole), h, ServerFrame.bytes, ← List.cons_append,
          List.append_assoc,
          slice_append_right hheaderBytes, List.take_append_of_le_length (Nat.le_refl _),
          List.take_length]
      rw [if_neg hwhole, if_neg hwhole, hpayload, hfirst]
      rfl

/-- A frame no larger than `WS_MAX_MESSAGE_SIZE` is taken once its last byte is in
the buffer. -/
theorem decode_buffer (f : ServerFrame) (hsize : f.bytes.length ≤ wsMaxMessageSize)
    {buf more rest : Bytes} (h : buf ++ more = f.bytes ++ rest) :
    wsTryDecodeServerFrame buf =
      if f.bytes.length ≤ buf.length then .ok (some (f.incoming, f.bytes.length))
      else .ok none := by
  have hlen := f.bytes_length
  rw [decode_front f h]
  by_cases hheader : buf.length < f.headerSize
  · rw [if_pos hheader, if_neg (by omega)]
  · rw [if_neg hheader, if_neg (by omega)]
    by_cases hwhole : buf.length < f.bytes.length
    · rw [if_pos hwhole, if_neg (by omega)]
    · rw [if_neg hwhole, if_pos (by omega)]

end Vynkor
