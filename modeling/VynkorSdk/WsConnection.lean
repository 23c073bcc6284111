import VynkorSdk.WsCodec

/-!
# The WebSocket connection

`WsConnection` over a connected stream, with or without TLS: the opening
handshake from its request on, and `receive_binary_deadline`.  The state is
`Impl`, as two byte queues around `read_buf`.  What the system calls and OpenSSL
do is given from outside, as in the Unix-socket transport.

The message under assembly is a local of the receive call, so it is an argument
of `receiveLoop` and not a part of the state: a call that throws drops it.
-/

namespace Vynkor

open ByteCodec Procedure

/-- The stream and the read buffer of a connection. -/
structure WsImpl where
  tls : Bool := false
  /-- Bytes on their way to the client. -/
  inbound : Bytes := []
  readBuf : Bytes := []
  outbound : Bytes := []
  deriving DecidableEq

/-- Result of one `read` or `SSL_read`.  `again` is `EINTR`, or a TLS record
that is not complete; `data k` transfers `k + 1` bytes, or fewer if fewer fit or
are there. -/
inductive WsRead
  | again
  | closed
  | failed (detail : Bytes)
  | data (k : Nat)
  deriving DecidableEq

/-- Result of one `write` or `SSL_write`. -/
inductive WsWrite
  | again
  | failed (detail : Bytes)
  | wrote (k : Nat)
  deriving DecidableEq

/-- One round of `stream_fill`: the polls of `poll_readable`, whether OpenSSL
holds decrypted bytes, and the read. -/
structure FillRound where
  waits : List Wait
  pending : Bool := false
  read : WsRead

namespace WsImpl

/-! ### The stream -/

/-- `stream_write_all`. -/
def streamWriteAll : List WsWrite → Bytes → Proc Exn WsImpl Unit
  | _, [] => pure ()
  | [], _ :: _ => waiting
  | write :: writes, b :: frame =>
      match write with
      | .again => streamWriteAll writes (b :: frame)
      | .failed detail => do
          let s ← get
          if s.tls then
            throw (.io (ascii "websocket send failed" ++ detail))
          else
            throw (.io (ascii "websocket send failed: write()"))
      | .wrote k => do
          modify (fun s => { s with outbound := s.outbound ++ (b :: frame).take (k + 1) })
          streamWriteAll writes ((b :: frame).drop (k + 1))

/-- `poll_readable`; no deadline is `time_point::max()`. -/
def pollReadable (deadline : Option Int) : List Wait → Proc Exn WsImpl Unit
  | [] => waiting
  | wait :: waits =>
      if deadline.any (wait.now ≥ ·) then
        throw .timeout
      else
        match wait.poll with
        | .eintr => pollReadable deadline waits
        | .failed => throw (.io (ascii "websocket poll failed"))
        | .timeout => if deadline.isSome then throw .timeout else pure ()
        | .ready => pure ()

/-- The size of the buffer a read goes through. -/
def chunkSize : Nat := 4096

/-- The bytes one read moves into `read_buf`; on an empty stream there is no
such read yet. -/
def readChunk (k : Nat) : Proc Exn WsImpl Unit := do
  let s ← get
  let n := min (k + 1) (min chunkSize s.inbound.length)
  if n = 0 then
    waiting
  else
    set { s with inbound := s.inbound.drop n, readBuf := s.readBuf ++ s.inbound.take n }

/-- Bytes that OpenSSL holds already are not waited for. -/
def awaitData (deadline : Option Int) (round : FillRound) : Proc Exn WsImpl Unit := do
  let s ← get
  if s.tls && round.pending then pure () else pollReadable deadline round.waits

def streamFill (deadline : Option Int) : List FillRound → Proc Exn WsImpl Unit
  | [] => waiting
  | round :: rounds => do
      awaitData deadline round
      let s ← get
      match round.read with
      | .again => streamFill deadline rounds
      | .closed => throw (.io (ascii "websocket connection closed"))
      | .failed detail =>
          if s.tls then
            throw (.io (ascii "websocket read failed" ++ detail))
          else
            throw (.io (ascii "websocket connection closed"))
      | .data k => readChunk k

/-! ### Receiving -/

/-- What the environment does while one frame is received: the fills, and the
reply should there be one. -/
structure FrameRun where
  fills : List (List FillRound)
  rand : Option (FixedBytes 4) := none
  writes : List WsWrite := []

/-- A frame off the front of `read_buf`, or `none` if more bytes are needed. -/
def bufferedFrame : Proc Exn WsImpl (Option WsIncomingFrame) := do
  let s ← get
  let decoded ← settle (wsTryDecodeServerFrame s.readBuf)
  match decoded with
  | some (frame, consumed) => do
      set { s with readBuf := s.readBuf.drop consumed }
      return some frame
  | none =>
      if s.readBuf.length > wsMaxMessageSize then
        throw (.payloadTooLarge (wsMaxMessageSize + 1))
      else
        return none

/-- The inner loop: fill until a frame is there. -/
def nextFrame (deadline : Option Int) : List (List FillRound) → Proc Exn WsImpl WsIncomingFrame
  | [] => do
      let frame ← bufferedFrame
      match frame with
      | some frame => pure frame
      | none => waiting
  | fill :: fills => do
      let frame ← bufferedFrame
      match frame with
      | some frame => pure frame
      | none => do
          streamFill deadline fill
          nextFrame deadline fills

/-- The locals `message` and `in_message`. -/
structure Assembly where
  message : Bytes := []
  inMessage : Bool := false
  deriving DecidableEq

/-- A frame written back. -/
def reply (opcode : UInt8) (payload : Bytes) (run : FrameRun) : Proc Exn WsImpl Unit := do
  let frame ← settle (wsEncodeClientFrame opcode run.rand payload)
  streamWriteAll run.writes frame

/-- The `switch` on the opcode: the message if it is complete, or the locals. -/
def handleFrame (frame : WsIncomingFrame) (run : FrameRun) (asm : Assembly) :
    Proc Exn WsImpl (Bytes ⊕ Assembly) :=
  if frame.opcode = opBinary then
    if asm.inMessage then
      throw (.internal (ascii "websocket: unexpected binary fragment start"))
    else if frame.fin then
      pure (.inl frame.payload)
    else
      pure (.inr { message := frame.payload, inMessage := true })
  else if frame.opcode = opCont then
    if asm.inMessage then
      let message := asm.message ++ frame.payload
      if message.length > wsMaxMessageSize then
        throw (.payloadTooLarge message.length)
      else if frame.fin then
        pure (.inl message)
      else
        pure (.inr { asm with message := message })
    else
      throw (.internal (ascii "websocket: continuation without a started message"))
  else if frame.opcode = opText then
    pure (.inr asm)
  else if frame.opcode = opPing then do
    reply opPong frame.payload run
    return .inr asm
  else if frame.opcode = opPong then
    pure (.inr asm)
  else if frame.opcode = opClose then do
    tryCatch (reply opClose (frame.payload.take 125) run) (fun _ => pure ())
    throw (.io (ascii "websocket connection closed"))
  else
    throw (.internal (ascii "websocket: unknown opcode " ++ decimal frame.opcode.toNat))

/-- The outer loop of `receive_binary_deadline`. -/
def receiveLoop (deadline : Option Int) : List FrameRun → Assembly → Proc Exn WsImpl Bytes
  | [], _ => waiting
  | run :: runs, asm => do
      let frame ← nextFrame deadline run.fills
      let handled ← handleFrame frame run asm
      match handled with
      | .inl message => pure message
      | .inr asm => receiveLoop deadline runs asm

def receiveBinaryDeadline (deadline : Option Int) (runs : List FrameRun) : Proc Exn WsImpl Bytes :=
  receiveLoop deadline runs {}

def receiveBinary (runs : List FrameRun) : Proc Exn WsImpl Bytes :=
  receiveBinaryDeadline none runs

/-! ### The opening handshake -/

/-- `std::search`: where `pat` first occurs. -/
def search (pat : Bytes) : Bytes → Option Nat
  | [] => if pat = [] then some 0 else none
  | b :: bs => if pat <+: b :: bs then some 0 else (search pat bs).map (· + 1)

/-- The end of a response head. -/
def headMarker : Bytes := [0x0D, 0x0A, 0x0D, 0x0A]

def maxHead : Nat := 16384

/-- The loop that reads the response head, one clock reading and one fill for
each round; returns where the head ends. -/
def readHead : List (Int × List FillRound) → Proc Exn WsImpl Nat
  | [] => do
      let s ← get
      match search headMarker s.readBuf with
      | some headEnd => pure headEnd
      | none => waiting
  | (now, fill) :: fills => do
      let s ← get
      match search headMarker s.readBuf with
      | some headEnd => pure headEnd
      | none =>
          if s.readBuf.length > maxHead then
            throw (.internal (ascii "websocket handshake response too large"))
          else do
            streamFill (some (now + 30000 * millisecond)) fill
            readHead fills

/-- The lines `std::getline` gives. -/
def lines (text : Bytes) : List Bytes :=
  let pieces := text.splitOn 0x0A
  if pieces.getLast? = some [] then pieces.dropLast else pieces

def isBlank (b : UInt8) : Bool := b = 0x20 || b = 0x09

def trim (s : Bytes) : Bytes := ((s.dropWhile isBlank).reverse.dropWhile isBlank).reverse

/-- `std::tolower` in the C locale. -/
def toLower (b : UInt8) : UInt8 := if 0x41 ≤ b ∧ b ≤ 0x5A then b + 0x20 else b

def iequal (a b : Bytes) : Bool := a.map toLower == b.map toLower

/-- Name and value of a header line. -/
def headerField (line : Bytes) : Option (Bytes × Bytes) :=
  let line := if line.getLast? = some 0x0D then line.dropLast else line
  match line.idxOf? 0x3A with
  | none => none
  | some colon => some (trim (line.take colon), trim (line.drop (colon + 1)))

def wsGuid : Bytes := ascii "258EAFA5-E914-47DA-95CA-C5AB0DC85B11"

/-- The checks on the response head; `sha1Base64` is OpenSSL's SHA-1 in
base64. -/
def checkHead (sha1Base64 : Bytes → Bytes) (key head : Bytes) : Except Exn Unit :=
  let statusLine := (lines head).headD []
  let fields := (lines head).tail.filterMap headerField
  if (search (ascii " 101 ") statusLine).isNone ∧ ¬ ascii "HTTP/1.1 101" <+: statusLine then
    .error (.internal (ascii "websocket handshake rejected: " ++ statusLine))
  else if ¬ fields.any (fun (name, value) =>
      iequal name (ascii "upgrade") && iequal value (ascii "websocket")) then
    .error (.internal (ascii "websocket handshake: missing Upgrade header"))
  else if ¬ fields.any (fun (name, value) =>
      iequal name (ascii "sec-websocket-accept") && value == sha1Base64 (key ++ wsGuid)) then
    .error (.internal (ascii "websocket handshake: Sec-WebSocket-Accept mismatch"))
  else
    .ok ()

structure WsUrl where
  tls : Bool := false
  host : Bytes := []
  port : UInt16 := 0
  path : Bytes := ascii "/"
  deriving DecidableEq

def handshakeRequest (url : WsUrl) (protocol key : Bytes) : Bytes :=
  ascii "GET " ++ url.path ++ ascii " HTTP/1.1\r\n" ++
  ascii "Host: " ++ url.host ++ ascii ":" ++ decimal url.port.toNat ++ ascii "\r\n" ++
  ascii "Upgrade: websocket\r\n" ++
  ascii "Connection: Upgrade\r\n" ++
  ascii "Sec-WebSocket-Key: " ++ key ++ ascii "\r\n" ++
  ascii "Sec-WebSocket-Version: 13\r\n" ++
  (if protocol = [] then [] else ascii "Sec-WebSocket-Protocol: " ++ protocol ++ ascii "\r\n") ++
  ascii "\r\n"

/-- `WsConnection::connect` on a connected stream; `key` is the encoded
nonce. -/
def connect (sha1Base64 : Bytes → Bytes) (url : WsUrl) (protocol key : Bytes)
    (writes : List WsWrite) (fills : List (Int × List FillRound)) : Proc Exn WsImpl Unit := do
  streamWriteAll writes (handshakeRequest url protocol key)
  let headEnd ← readHead fills
  let s ← get
  let head := s.readBuf.take headEnd
  set { s with readBuf := s.readBuf.drop (headEnd + headMarker.length) }
  settle (checkHead sha1Base64 key head)

end WsImpl

end Vynkor
