import VynkorSdk.Protocol
import VynkorSdk.Reassembly
import VynkorSdk.StreamIo

/-!
# The client

`VynkorClient` over the Unix-socket transport, with the WebSocket transport as
a carrier of whole messages.  The members are the source's.  A socket is a pair
of byte queues; `fd = none` is the descriptor `-1`.

Every operation takes what the environment does during it: one `SendEnv` for a
frame it writes, one `FrameEnv` for a frame it tries to read.
-/

namespace Vynkor

open ByteCodec KeyedTable Procedure

/-- A connected stream socket: bytes to read, bytes written. -/
structure Socket where
  inbound : Bytes := []
  outbound : Bytes := []
  deriving DecidableEq

/-- An open WebSocket connection, as the messages sent over it. -/
structure WsConnection where
  sent : List Bytes := []
  deriving DecidableEq

structure Client where
  socketPath : Bytes := []
  fd : Option Socket := none
  ws : Option WsConnection := none
  secret : Bytes := []
  deviceId : Bytes := []
  sessionKey : Option Block32 := none
  reassembly : ReassemblyTable := ∅
  nextStreamId : UInt32 := 1
  /-- History: the wire frames accepted so far, each with the key it was
  checked under.  No operation reads it. -/
  heard : List (Option Block32 × FrameResult) := []

/-- What the environment does while one frame is written: the results of
`write(2)`, or the outcome of `send_binary`. -/
structure SendEnv where
  writes : List WriteResult
  wsSend : Except Exn Unit := .ok ()

namespace Client

/-! ### Transport -/

def setInbound (bytes : Bytes) (c : Client) : Client :=
  { c with fd := c.fd.map (fun s => { s with inbound := bytes }) }

def setOutbound (bytes : Bytes) (c : Client) : Client :=
  { c with fd := c.fd.map (fun s => { s with outbound := bytes }) }

def inbound (c : Client) : Bytes := (c.fd.map Socket.inbound).getD []

def outbound (c : Client) : Bytes := (c.fd.map Socket.outbound).getD []

def hear (key : Option Block32) (frame : FrameResult) (c : Client) : Client :=
  { c with heard := c.heard ++ [(key, frame)] }

variable (lib : WireLibs) (proto : ProtoLib)

/-- A read from the descriptor `-1`: the wait still runs and the read fails. -/
def readClosedFd (deadline : Option Int) (env : FrameEnv) : Proc Exn Bytes FrameResult :=
  match deadline with
  | none => throw (.io (ascii "connection closed or recv error"))
  | some deadline => do
      awaitReadable deadline env.waits
      throw (.io (ascii "connection closed or recv error"))

/-- One frame off the socket; no deadline is `time_point::max()`. -/
def readSocketFrame (deadline : Option Int) (env : FrameEnv) : Proc Exn Client FrameResult := do
  let c ← get
  zoom inbound setInbound
    (if c.fd.isSome then
      match deadline with
      | none => readFrameFull lib c.sessionKey env
      | some deadline => readFrameFullWithDeadline lib c.sessionKey deadline env
    else
      readClosedFd deadline env)

/-- One message off the WebSocket connection. -/
def readWsFrame (env : FrameEnv) : Proc Exn Client FrameResult := do
  let c ← get
  let message ← settle env.message
  let (frame, _) ← settle (parseFrameFromBuffer lib message c.sessionKey)
  return frame

def readActiveFrame (deadline : Option Int) (env : FrameEnv) : Proc Exn Client FrameResult := do
  let c ← get
  if c.ws.isSome then readWsFrame lib env else readSocketFrame lib deadline env

/-- `read_transport_frame`, with the frame it returns put on record. -/
def readTransportFrame (deadline : Option Int) (env : FrameEnv) :
    Proc Exn Client FrameResult := do
  let c ← get
  let frame ← readActiveFrame lib deadline env
  modify (hear c.sessionKey frame)
  return frame

/-! ### Receiving -/

/-- `absorb_fragment` on the client's table. -/
def absorb (env : FrameEnv) (frame : FrameResult) : Proc Exn Client (Option FrameResult) := do
  let c ← get
  let (outcome, table) :=
    absorbFragment { now := env.absorbNow, seen := env.absorbSeen, frame := frame } c.reassembly
  set { c with reassembly := table }
  settle outcome

/-- Absorbing a frame is the table function on the client's table. -/
theorem exec_absorb (env : FrameEnv) (frame : FrameResult) (c : Client) :
    exec (absorb env frame) c =
      let out := absorbFragment ⟨env.absorbNow, env.absorbSeen, frame⟩ c.reassembly
      some (out.1, { c with reassembly := out.2 }) := rfl

/-- The loop of `recv_frame` and `recv_frame_with_deadline`: one environment
for each wire frame it reads. -/
def recvFrameWith (deadline : Option Int) : List FrameEnv → Proc Exn Client FrameResult
  | [] => waiting
  | env :: envs => do
      let frame ← readTransportFrame lib deadline env
      if hasFlag frame.flags flagFragmented then do
        let complete ← absorb env frame
        match complete with
        | none => recvFrameWith deadline envs
        | some result => pure result
      else
        pure frame

def recvFrame (envs : List FrameEnv) : Proc Exn Client FrameResult := recvFrameWith lib none envs

def recvFrameWithDeadline (deadline : Int) (envs : List FrameEnv) : Proc Exn Client FrameResult :=
  recvFrameWith lib (some deadline) envs

/-- The envelope in a frame; raw-binary frames are refused. -/
def decodeFrame (result : FrameResult) : Except Exn Envelope :=
  if hasFlag result.flags flagRawBinary then
    .error (.internal (ascii "received raw-binary frame; use recv_frame() for audio"))
  else
    match proto.parse result.payload with
    | none => .error (.proto (ascii "protobuf parse failed"))
    | some env => .ok env

def recv (envs : List FrameEnv) : Proc Exn Client Envelope := do
  let result ← recvFrame lib envs
  settle (decodeFrame proto result)

/-- `steady_clock::now() + timeout`; `now` is that clock reading. -/
def recvDeadline (timeoutMs now : Int) : Int := toInt64 (now + timeoutMs * millisecond)

def recvTimeout (timeoutMs now : Int) (envs : List FrameEnv) : Proc Exn Client Envelope := do
  let result ← recvFrameWithDeadline lib (recvDeadline timeoutMs now) envs
  settle (decodeFrame proto result)

/-- Discards envelopes until one is terminal; one list of environments for
each frame it receives. -/
def waitForResponse (deadline : Int) (isTerminal : Envelope → Bool) :
    List (List FrameEnv) → Proc Exn Client Envelope
  | [] => waiting
  | envs :: rest => do
      let frame ← recvFrameWithDeadline lib deadline envs
      match proto.parse frame.payload with
      | none => throw (.proto (ascii "protobuf parse failed"))
      | some resp =>
          if isTerminal resp then
            pure resp
          else
            waitForResponse deadline isTerminal rest

/-! ### Sending -/

/-- One whole frame onto the socket; on a closed descriptor the write fails. -/
def writeFrame (env : SendEnv) (frame : Bytes) : Proc Exn Client Unit := do
  let c ← get
  if c.fd.isSome then
    zoom outbound setOutbound (writeAll env.writes frame)
  else
    throw (.io (ascii "write() failed"))

/-- `write_all_ws`: one binary message. -/
def writeAllWs (env : SendEnv) (message : Bytes) : Proc Exn Client Unit := do
  settle env.wsSend
  modify (fun c => { c with ws := c.ws.map (fun ws => { ws with sent := ws.sent ++ [message] }) })

def sendRawWithFlags (target : Bytes) (extraFlags : UInt16) (payload : Bytes) (env : SendEnv) :
    Proc Exn Client Unit := do
  let c ← get
  let baseFlags := if c.sessionKey.isSome then flagMacPresent else 0
  let flags := baseFlags ||| extraFlags
  if c.ws.isSome then
    if payload.length > maxPayloadSize then
      throw (.payloadTooLarge payload.length)
    else do
      let message ← settle (packFrameWs lib target flags payload c.sessionKey)
      writeAllWs env message
  else do
    let frame ← settle (packFrameRaw lib target flags payload c.sessionKey)
    writeFrame env frame

def sendRaw (target payload : Bytes) (env : SendEnv) : Proc Exn Client Unit :=
  sendRawWithFlags lib target 0 payload env

def sendRawAudio (target data : Bytes) (env : SendEnv) : Proc Exn Client Unit :=
  sendRawWithFlags lib target flagRawBinary data env

def send (target : Bytes) (env : Envelope) (senv : SendEnv) : Proc Exn Client Unit :=
  sendRaw lib target (proto.serialize env) senv

/-- The payload of fragment `seq`, in `size_t` arithmetic. -/
def fragmentPayload (payload : Bytes) (chunkSize total : UInt64) (streamId : UInt32)
    (seq : UInt64) : Bytes :=
  let start := seq * chunkSize
  let len := min chunkSize (UInt64.ofNat payload.length - start)
  packFragHeader (streamId &&& 0xFFFF).toUInt16 seq.toUInt16 total.toUInt16 streamId ++
    slice payload start.toNat len.toNat

/-- `rounds` more fragments from `seq` on; one environment for each. -/
def sendFragments (target payload : Bytes) (chunkSize total : UInt64) (streamId : UInt32) :
    Nat → UInt64 → List SendEnv → Proc Exn Client Unit
  | 0, _, _ => pure ()
  | _+1, _, [] => waiting
  | rounds+1, seq, env :: envs => do
      sendRawWithFlags lib target flagFragmented
        (fragmentPayload payload chunkSize total streamId seq) env
      sendFragments target payload chunkSize total streamId rounds (seq + 1) envs

/-- Take a stream id; the counter skips 0. -/
def takeStreamId : Proc Exn Client UInt32 := do
  let c ← get
  let next := c.nextStreamId + 1
  set { c with nextStreamId := if next = 0 then 1 else next }
  return c.nextStreamId

/-- Number of fragments, in `size_t` arithmetic. -/
def fragmentCount (payload : Bytes) (chunkSize : UInt64) : UInt64 :=
  if payload = [] then 1 else (UInt64.ofNat payload.length + chunkSize - 1) / chunkSize

def sendFragmented (target payload : Bytes) (chunkSize : UInt64) (envs : List SendEnv) :
    Proc Exn Client Unit := do
  let c ← get
  if c.ws.isSome then
    throw (.internal (ascii "fragmented frames are not supported over WebSocket (R5-03)"))
  else if payload.length > maxPayloadSize then
    throw (.payloadTooLarge payload.length)
  else if chunkSize = 0 ∨ chunkSize + UInt64.ofNat fragHeaderSize > UInt64.ofNat maxPayloadSize then
    throw (.internal (ascii "invalid fragment chunk_size: " ++ decimal chunkSize.toNat))
  else
    let total := fragmentCount payload chunkSize
    if total > 0xFFFF then
      throw (.internal (ascii "payload needs " ++ decimal total.toNat ++
        ascii " fragments; max is 65535"))
    else do
      let streamId ← takeStreamId
      sendFragments lib target payload chunkSize total streamId total.toNat 0 envs

/-! ### Registration -/

/-- The key a register ack sets: none without a secret or a nonce. -/
def registeredKey (secret pluginId : Bytes) (ack : PluginRegisterAck) :
    Except Exn (Option Block32) :=
  if secret = [] ∨ ack.sessionNonce = [] then
    .ok none
  else
    (deriveSessionKey lib secret ack.sessionNonce pluginId).map some

/-- The first half of `register_full`: the register envelope out, an envelope
back. -/
def registerExchange (pluginId version : Bytes) (manifest : PluginManifest) (jwtToken : Bytes)
    (senv : SendEnv) (envs : List FrameEnv) : Proc Exn Client Envelope := do
  let c ← get
  let env : Envelope :=
    { payload := some (.pluginRegister
        { pluginId := pluginId, version := version, jwtToken := jwtToken,
          deviceId := c.deviceId, manifest := manifest }) }
  send lib proto (ascii "kernel") env senv
  recv lib proto envs

/-- The second half: the session key out of the ack. -/
def acceptRegistration (pluginId : Bytes) (ack : Envelope) : Proc Exn Client PluginRegisterAck := do
  let c ← get
  match ack.payload with
  | some (.pluginRegisterAck ack) => do
      let key ← settle (registeredKey lib c.secret pluginId ack)
      modify (fun c => { c with sessionKey := key.or c.sessionKey })
      return ack
  | some (.error error) =>
      throw (.internal (ascii "registration rejected: " ++ error.message ++ ascii " (" ++
        error.details ++ ascii ")"))
  | _ => throw (.internal (ascii "expected PluginRegisterAck"))

def registerFull (pluginId version : Bytes) (manifest : PluginManifest) (jwtToken : Bytes)
    (senv : SendEnv) (envs : List FrameEnv) : Proc Exn Client PluginRegisterAck := do
  let ack ← registerExchange lib proto pluginId version manifest jwtToken senv envs
  acceptRegistration lib pluginId ack

/-! ### Connecting -/

/-- How the system calls of `connect()` go; `peer` is what the other end of the
new connection will have sent. -/
inductive ConnectEnv
  | socketFails
  | connectFails
  | connects (peer : Bytes)

/-- Close either transport.  Nothing else is reset. -/
def close : Proc Exn Client Unit :=
  modify (fun c => { c with ws := none, fd := none })

/-- `sizeof(sockaddr_un{}.sun_path)`. -/
def sunPathSize : Nat := 108

def connect (env : ConnectEnv) : Proc Exn Client Unit := do
  close
  let c ← get
  match env with
  | .socketFails => throw (.io (ascii "socket() failed"))
  | .connectFails =>
      if c.socketPath.length ≥ sunPathSize then
        throw (.io (ascii "socket path too long: " ++ c.socketPath))
      else
        throw (.io (ascii "connect() failed: " ++ c.socketPath))
  | .connects peer =>
      if c.socketPath.length ≥ sunPathSize then
        throw (.io (ascii "socket path too long: " ++ c.socketPath))
      else
        set { c with fd := some { inbound := peer } }

end Client

end Vynkor
