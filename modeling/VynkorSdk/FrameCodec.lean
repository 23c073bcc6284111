import VynkorSdk.Crc32
import VynkorSdk.WireBase

/-!
# Wire frames

The frame writers and the frame parser of `framing.cpp`.  A frame is a 44-byte
header (magic, flags, payload length, target, checksum; big-endian), the
payload and, when `FLAG_MAC_PRESENT` is set, a 32-byte tag.

There are four writers.  `packFrame` and `packFrameMac` lay the header out
themselves; `packFrameWs` and `packFrameRaw` share `buildHeader`, and only
`packFrameRaw` compresses.  There is one parser, `parseFrameBytes`, which
undoes compression and then rebuilds the header the tag was computed over.
-/

namespace Vynkor

open ByteCodec

def frameMagic : UInt16 := 0x5652
def frameHeaderSize : Nat := 44
def maxPayloadSize : Nat := 1048576

def flagCompressed : UInt16 := 0x0002
def flagFragmented : UInt16 := 0x0004
def flagRawBinary : UInt16 := 0x0010
def compressThreshold : Nat := 65536

def fragHeaderSize : Nat := 10

/-! ### Fragment headers -/

structure FragmentHeader where
  fragmentId : UInt16
  sequence : UInt16
  total : UInt16
  streamId : UInt32
  deriving DecidableEq, Repr

def packFragHeader (fragmentId sequence total : UInt16) (streamId : UInt32) : Bytes :=
  toBe 2 fragmentId.toNat ++ toBe 2 sequence.toNat ++ toBe 2 total.toNat ++
    toBe 4 streamId.toNat

def parseFragHeader (payload : Bytes) : Option FragmentHeader :=
  if payload.length < fragHeaderSize then
    none
  else
    some {
      fragmentId := word16 (slice payload 0 2)
      sequence := word16 (slice payload 2 2)
      total := word16 (slice payload 4 2)
      streamId := word32 (slice payload 6 4) }

/-! ### Headers -/

/-- A frame header: exactly 44 bytes. -/
abbrev RawHeader := FixedBytes 44

/-- The 44 header bytes for the given fields. -/
def headerBytes (flags : UInt16) (length : Nat) (target : Block32) (crc : UInt32) : Bytes :=
  toBe 2 frameMagic.toNat ++ toBe 2 flags.toNat ++ toBe 4 length ++ target.val ++
    toBe 4 crc.toNat

/-- A header has 44 bytes. -/
theorem headerBytes_length (flags : UInt16) (length : Nat) (target : Block32) (crc : UInt32) :
    (headerBytes flags length target crc).length = 44 := by
  simp [headerBytes, target.2]

/-- The header that describes `payload`. -/
def buildHeader (flags : UInt16) (target : Block32) (payload : Bytes) : RawHeader :=
  ⟨headerBytes flags payload.length target (vynkorCrc32 payload),
    headerBytes_length _ _ _ _⟩

/-- The target field: the first 32 bytes of the name, zero-padded. -/
def targetToBytes (target : Bytes) : Block32 :=
  fillArray 32 (target.take (min target.length 32))

def serializeHeaderWs (target : Bytes) (flags : UInt16) (payload : Bytes) : RawHeader :=
  buildHeader flags (targetToBytes target) payload

/-! ### Writers -/

variable (lib : WireLibs)

/-- CRC-only frame; `extraFlags` are the wire flags. -/
def packFrame (target payload : Bytes) (extraFlags : UInt16) : Except Exn Bytes :=
  if payload.length > maxPayloadSize then
    .error (.payloadTooLarge payload.length)
  else
    let crc := vynkorCrc32 payload
    let copyLen := min target.length 32
    let header := toBe 2 frameMagic.toNat ++ toBe 2 extraFlags.toNat ++
      toBe 4 payload.length ++ (target.take copyLen ++ List.replicate (32 - copyLen) 0) ++
      toBe 4 crc.toNat
    .ok (header ++ payload)

/-- MAC frame: sets `FLAG_MAC_PRESENT` and appends the tag. -/
def packFrameMac (target payload : Bytes) (sessionKey : Block32) (extraFlags : UInt16) :
    Except Exn Bytes :=
  if payload.length > maxPayloadSize then
    .error (.payloadTooLarge payload.length)
  else
    let crc := vynkorCrc32 payload
    let copyLen := min target.length 32
    let header := toBe 2 frameMagic.toNat ++ toBe 2 (flagMacPresent ||| extraFlags).toNat ++
      toBe 4 payload.length ++ (target.take copyLen ++ List.replicate (32 - copyLen) 0) ++
      toBe 4 crc.toNat
    let tag := computeTag lib sessionKey header payload
    .ok (header ++ payload ++ tag.val)

/-- Frame without outbound compression: the WebSocket transport's writer. -/
def packFrameWs (target : Bytes) (flags : UInt16) (payload : Bytes)
    (sessionKey : Option Block32) : Except Exn Bytes :=
  if payload.length > maxPayloadSize then
    .error (.payloadTooLarge payload.length)
  else
    let header := serializeHeaderWs target flags payload
    match sessionKey with
    | none => .ok (header.val ++ payload)
    | some key => .ok (header.val ++ payload ++ (computeTag lib key header.val payload).val)

def zstdCompressLevel3 (data : Bytes) : Except Exn Bytes :=
  match lib.zstdCompress data with
  | .ok compressed => .ok compressed
  | .error name => .error (.internal (ascii "zstd compress failed: " ++ name))

/-- The flags and payload that go on the wire: compressed only from the
threshold on, never for raw binary, and only if that shrinks the bytes. -/
def wirePayload (flags : UInt16) (payload : Bytes) : Except Exn (UInt16 × Bytes) :=
  if payload.length ≥ compressThreshold && !hasFlag flags flagCompressed &&
      !hasFlag flags flagRawBinary then
    match zstdCompressLevel3 lib payload with
    | .error e => .error e
    | .ok compressed =>
        if compressed.length < payload.length then
          .ok (flags ||| flagCompressed, compressed)
        else
          .ok (flags, payload)
  else
    .ok (flags, payload)

/-- Frame with outbound compression.  The tag is computed over the plaintext
header and payload; the wire header describes the bytes actually sent. -/
def packFrameRaw (target : Bytes) (flags : UInt16) (payload : Bytes)
    (sessionKey : Option Block32) : Except Exn Bytes :=
  if payload.length > maxPayloadSize then
    .error (.payloadTooLarge payload.length)
  else
    let targetBytes := targetToBytes target
    let plainHeader := buildHeader flags targetBytes payload
    let tag := sessionKey.map (fun key => computeTag lib key plainHeader.val payload)
    match wirePayload lib flags payload with
    | .error e => .error e
    | .ok (wireFlags, wire) =>
        let wireHeader := buildHeader wireFlags targetBytes wire
        .ok (wireHeader.val ++ wire ++ (tag.map Subtype.val).getD [])

/-! ### Parser -/

/-- One parsed frame.  `rawHeader` is the header the tag covers: the wire
header, or the rebuilt plaintext header of a frame that arrived compressed. -/
structure FrameResult where
  payload : Bytes
  flags : UInt16 := 0
  hasMac : Bool := false
  mac : Block32 := fillArray 32 []
  rawHeader : RawHeader := fillArray 44 []
  deriving DecidableEq

def zstdDecompressBounded (data : Bytes) : Except Exn Bytes :=
  match lib.zstdFrameContentSize data with
  | .error => .error (.internal (ascii "decompress frame: invalid zstd frame"))
  | .unknown => .error (.internal (ascii "decompress frame: content size unknown or too large"))
  | .known contentSize =>
      if contentSize > maxPayloadSize then
        .error (.internal (ascii "decompress frame: content size unknown or too large"))
      else
        match lib.zstdDecompress data contentSize with
        | .error name => .error (.internal (ascii "decompress frame: " ++ name))
        | .ok out =>
            if out.length ≠ contentSize then
              .error (.internal (ascii "decompress frame: No error detected"))
            else
              .ok out

/-! The fields `parse_frame_bytes` reads out of a buffer. -/

def magicField (buf : Bytes) : UInt16 := word16 (slice buf 0 2)
def flagsField (buf : Bytes) : UInt16 := word16 (slice buf 2 2)
def lengthField (buf : Bytes) : Nat := ofBe (slice buf 4 4)
def targetField (buf : Bytes) : Block32 := fillArray 32 (buf.drop 8)
def crcField (buf : Bytes) : UInt32 := word32 (slice buf 40 4)

/-- Size of the frame at the front of a buffer, as its header declares it. -/
def frameExtent (buf : Bytes) : Nat :=
  frameHeaderSize + lengthField buf +
    (if hasFlag (flagsField buf) flagMacPresent then macTagLen else 0)

/-- Undo compression: plaintext flags, payload and header of a wire frame. -/
def normalizeFrame (buf payload : Bytes) : Except Exn (UInt16 × Bytes × RawHeader) :=
  let flags := flagsField buf
  if hasFlag flags flagCompressed then
    match zstdDecompressBounded lib payload with
    | .error e => .error e
    | .ok plain =>
        let flags := flags &&& ~~~flagCompressed
        .ok (flags, plain, buildHeader flags (targetField buf) plain)
  else
    .ok (flags, payload, fillArray 44 buf)

/-- Validate and normalise the frame at the front of `buf`; also returns the
number of bytes consumed. -/
def parseFrameBytes (buf : Bytes) (sessionKey : Option Block32) :
    Except Exn (FrameResult × Nat) :=
  if buf.length < frameHeaderSize then
    .error (.io (ascii "frame shorter than header"))
  else if magicField buf ≠ frameMagic then
    .error .frameMagicMismatch
  else if lengthField buf > maxPayloadSize then
    .error (.payloadTooLarge (lengthField buf))
  else if buf.length < frameExtent buf then
    .error (.io (ascii "frame truncated"))
  else
    let wire := slice buf frameHeaderSize (lengthField buf)
    if vynkorCrc32 wire ≠ crcField buf then
      .error .frameCrcMismatch
    else
      match normalizeFrame lib buf wire with
      | .error e => .error e
      | .ok (flags, payload, header) =>
          if hasFlag (flagsField buf) flagMacPresent then
            let mac := fillArray 32 (buf.drop (frameHeaderSize + lengthField buf))
            let result : FrameResult :=
              { payload := payload, flags := flags, hasMac := true, mac := mac,
                rawHeader := header }
            match sessionKey with
            | none => .ok (result, frameExtent buf)
            | some key =>
                if verifyTag lib key header.val payload mac.val then
                  .ok (result, frameExtent buf)
                else
                  .error (.internal (ascii "frame MAC verification failed"))
          else
            match sessionKey with
            | none =>
                .ok ({ payload := payload, flags := flags, rawHeader := header },
                  frameExtent buf)
            | some _ => .error (.internal (ascii "frame MAC verification failed"))

/-- The WebSocket path's entry to the parser. -/
def parseFrameFromBuffer (data : Bytes) (sessionKey : Option Block32) :
    Except Exn (FrameResult × Nat) :=
  parseFrameBytes lib data sessionKey

end Vynkor
