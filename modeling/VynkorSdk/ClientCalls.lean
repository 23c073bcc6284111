import VynkorSdk.ClientSession
import VynkorSdk.Requests

/-!
# The public calls of the client

What an application can ask of a `VynkorClient`: the operations of the modules
before, and those that build one envelope and send it, some of which then wait
for an answer.  A call takes place in a process, whose counter the action ids
are drawn from.

A call writes the frames of its messages before it reads anything.  `messages`
says which these are, whatever becomes of them on the way.
-/

namespace Vynkor

open ByteCodec Procedure

namespace Client

variable (lib : WireLibs) (proto : ProtoLib)

/-! ### Operations that build an envelope -/

def subscribe (eventTypes : List Bytes) (senv : SendEnv) : Proc Exn Client Unit :=
  send lib proto (ascii "kernel") { payload := some (.subscribe eventTypes) } senv

def unsubscribe (eventTypes : List Bytes) (senv : SendEnv) : Proc Exn Client Unit :=
  send lib proto (ascii "kernel") { payload := some (.unsubscribe eventTypes) } senv

def ackEvent (eventId : Bytes) (senv : SendEnv) : Proc Exn Client Unit :=
  send lib proto (ascii "kernel") { payload := some (.eventAck eventId) } senv

def sendRequestChunk (actionId : Bytes) (seq : UInt32) (chunk : Bytes) (isFinal : Bool)
    (senv : SendEnv) : Proc Exn Client Unit :=
  send lib proto (ascii "kernel")
    { payload := some (.actionRequestChunk actionId seq chunk isFinal) } senv

def sendResponseChunk (actionId : Bytes) (seq : UInt32) (chunk : Bytes) (senv : SendEnv) :
    Proc Exn Client Unit :=
  send lib proto (ascii "kernel") { payload := some (.actionResponseChunk actionId seq chunk) } senv

def closeSession (actionId reason : Bytes) (senv : SendEnv) : Proc Exn Client Unit :=
  send lib proto (ascii "kernel") { payload := some (.sessionClose actionId reason) } senv

def sendAudioChunk (target body : Bytes) (senv : SendEnv) : Proc Exn Client Unit :=
  send lib proto target { payload := some (.audioStreamChunk body) } senv

/-- `nowMs` is the wall clock, `t0` and `t1` the steady clock around the
exchange. -/
def ping (nowMs : UInt64) (t0 t1 : Int) (senv : SendEnv) (envs : List FrameEnv) :
    Proc Exn Client Int := do
  send lib proto (ascii "kernel") { payload := some (.ping nowMs) } senv
  let resp ← recv lib proto envs
  match resp.payload with
  | some (.pong _ _) => return t1 - t0
  | _ => throw (.internal (ascii "expected Pong"))

def registerWithToken (pluginId : Bytes) (manifest : PluginManifest) (jwtToken : Bytes)
    (senv : SendEnv) (envs : List FrameEnv) : Proc Exn Client PluginRegisterAck :=
  registerFull lib proto pluginId (ascii "1.0.0") manifest jwtToken senv envs

def registerPlugin (pluginId : Bytes) (manifest : PluginManifest) (senv : SendEnv)
    (envs : List FrameEnv) : Proc Exn Client PluginRegisterAck :=
  registerWithToken lib proto pluginId manifest [] senv envs

end Client

open Client

/-! ### Calls -/

/-- A public call, with what the environment does during it. -/
inductive ApiCall
  | basic (op : Op)
  | registerWithToken (pluginId : Bytes) (manifest : PluginManifest) (jwtToken : Bytes)
      (senv : SendEnv) (envs : List FrameEnv)
  | registerPlugin (pluginId : Bytes) (manifest : PluginManifest) (senv : SendEnv)
      (envs : List FrameEnv)
  | subscribe (eventTypes : List Bytes) (senv : SendEnv)
  | unsubscribe (eventTypes : List Bytes) (senv : SendEnv)
  | ackEvent (eventId : Bytes) (senv : SendEnv)
  | publishEvent (eventType payloadJson : Bytes) (timeoutMs : UInt32) (renv : RequestEnv)
  | sendAction (action paramsJson : Bytes) (timeoutMs : UInt32) (renv : RequestEnv)
  | sendActionStreaming (action : Bytes) (timeoutMs : UInt32) (nowMs : Int) (senv : SendEnv)
  | sendRequestChunk (actionId : Bytes) (seq : UInt32) (chunk : Bytes) (isFinal : Bool)
      (senv : SendEnv)
  | sendResponseChunk (actionId : Bytes) (seq : UInt32) (chunk : Bytes) (senv : SendEnv)
  | closeSession (actionId reason : Bytes) (senv : SendEnv)
  | sendCommand (commandId command paramsJson : Bytes) (senv : SendEnv) (envs : List FrameEnv)
  | ping (nowMs : UInt64) (t0 t1 : Int) (senv : SendEnv) (envs : List FrameEnv)
  | sendAudioChunk (target body : Bytes) (senv : SendEnv)
  | sendRaw (target payload : Bytes) (senv : SendEnv)
  | sendRawAudio (target data : Bytes) (senv : SendEnv)

namespace ApiCall

variable (lib : WireLibs) (proto : ProtoLib)

/-- An operation on the client of the process, whatever it returns. -/
def onClient {α : Type} (p : Proc Exn Client α) : Proc Exn Process Unit := do
  let _ ← zoom Process.client Process.setClient p
  return ()

def perform : ApiCall → Proc Exn Process Unit
  | .basic op => onClient (op.perform lib proto)
  | .registerWithToken pluginId manifest jwtToken senv envs =>
      onClient (Client.registerWithToken lib proto pluginId manifest jwtToken senv envs)
  | .registerPlugin pluginId manifest senv envs =>
      onClient (Client.registerPlugin lib proto pluginId manifest senv envs)
  | .subscribe eventTypes senv => onClient (Client.subscribe lib proto eventTypes senv)
  | .unsubscribe eventTypes senv => onClient (Client.unsubscribe lib proto eventTypes senv)
  | .ackEvent eventId senv => onClient (Client.ackEvent lib proto eventId senv)
  | .publishEvent eventType payloadJson timeoutMs renv =>
      onClient (Client.publishEvent lib proto eventType payloadJson timeoutMs renv)
  | .sendAction action paramsJson timeoutMs renv => do
      let _ ← Client.sendAction lib proto action paramsJson timeoutMs renv
      return ()
  | .sendActionStreaming action timeoutMs nowMs senv => do
      let _ ← Client.sendActionStreaming lib proto action timeoutMs nowMs senv
      return ()
  | .sendRequestChunk actionId seq chunk isFinal senv =>
      onClient (Client.sendRequestChunk lib proto actionId seq chunk isFinal senv)
  | .sendResponseChunk actionId seq chunk senv =>
      onClient (Client.sendResponseChunk lib proto actionId seq chunk senv)
  | .closeSession actionId reason senv =>
      onClient (Client.closeSession lib proto actionId reason senv)
  | .sendCommand commandId command paramsJson senv envs =>
      onClient (Client.sendCommand lib proto commandId command paramsJson senv envs)
  | .ping nowMs t0 t1 senv envs => onClient (Client.ping lib proto nowMs t0 t1 senv envs)
  | .sendAudioChunk target body senv => onClient (Client.sendAudioChunk lib proto target body senv)
  | .sendRaw target payload senv => onClient (Client.sendRaw lib target payload senv)
  | .sendRawAudio target data senv => onClient (Client.sendRawAudio lib target data senv)

/-- The process after a history of calls, `none` if one of them still waits. -/
def runAll : List ApiCall → Process → Option Process
  | [], p => some p
  | call :: calls, p =>
      match exec (call.perform lib proto) p with
      | none => none
      | some (_, p') => runAll calls p'

end ApiCall

/-! ### Messages -/

/-- What `send_raw_with_flags` is given. -/
structure Outgoing where
  target : Bytes
  extraFlags : UInt16 := 0
  payload : Bytes
  deriving DecidableEq

def registerEnvelope (pluginId version : Bytes) (manifest : PluginManifest)
    (jwtToken deviceId : Bytes) : Envelope :=
  { payload := some (.pluginRegister
      { pluginId := pluginId, version := version, jwtToken := jwtToken, deviceId := deviceId,
        manifest := manifest }) }

/-- The messages of `rounds` fragments from `seq` on. -/
def fragmentMessages (target payload : Bytes) (chunkSize total : UInt64) (streamId : UInt32) :
    Nat → UInt64 → List Outgoing
  | 0, _ => []
  | rounds+1, seq =>
      ⟨target, flagFragmented, fragmentPayload payload chunkSize total streamId seq⟩ ::
        fragmentMessages target payload chunkSize total streamId rounds (seq + 1)

/-- `send_fragmented` refuses the payload or the chunk size. -/
def SplitRefused (payload : Bytes) (chunkSize : UInt64) : Prop :=
  payload.length > maxPayloadSize ∨ chunkSize = 0 ∨
    chunkSize + UInt64.ofNat fragHeaderSize > UInt64.ofNat maxPayloadSize ∨
    fragmentCount payload chunkSize > 0xFFFF

instance (payload : Bytes) (chunkSize : UInt64) : Decidable (SplitRefused payload chunkSize) :=
  inferInstanceAs (Decidable (_ ∨ _))

/-- The messages of `send_fragmented`; a call that is refused has none. -/
def splitMessages (target payload : Bytes) (chunkSize : UInt64) (streamId : UInt32) :
    List Outgoing :=
  if SplitRefused payload chunkSize then
    []
  else
    fragmentMessages target payload chunkSize (fragmentCount payload chunkSize) streamId
      (fragmentCount payload chunkSize).toNat 0

variable (proto : ProtoLib)

def Envelope.to (target : Bytes) (env : Envelope) : Outgoing :=
  { target := target, payload := proto.serialize env }

def Envelope.toKernel (env : Envelope) : Outgoing := env.to proto (ascii "kernel")

def Client.Op.messages (c : Client) : Op → List Outgoing
  | .registerFull pluginId version manifest jwtToken _ _ =>
      [(registerEnvelope pluginId version manifest jwtToken c.deviceId).toKernel proto]
  | .send target env _ => [env.to proto target]
  | .sendRawWithFlags target extraFlags payload _ => [⟨target, extraFlags, payload⟩]
  | .sendFragmented target payload chunkSize _ =>
      splitMessages target payload chunkSize c.nextStreamId
  | _ => []

/-- **What a call is to say**, before it is known how much of it goes out. -/
def ApiCall.messages (p : Process) : ApiCall → List Outgoing
  | .basic op => op.messages proto p.client
  | .registerWithToken pluginId manifest jwtToken _ _ =>
      [(registerEnvelope pluginId (ascii "1.0.0") manifest jwtToken
        p.client.deviceId).toKernel proto]
  | .registerPlugin pluginId manifest _ _ =>
      [(registerEnvelope pluginId (ascii "1.0.0") manifest [] p.client.deviceId).toKernel proto]
  | .subscribe eventTypes _ => [Envelope.toKernel proto { payload := some (.subscribe eventTypes) }]
  | .unsubscribe eventTypes _ =>
      [Envelope.toKernel proto { payload := some (.unsubscribe eventTypes) }]
  | .ackEvent eventId _ => [Envelope.toKernel proto { payload := some (.eventAck eventId) }]
  | .publishEvent eventType payloadJson _ _ =>
      [(publishRequest eventType payloadJson).toKernel proto]
  | .sendAction action paramsJson timeoutMs renv =>
      [(actionRequest (actionIdText renv.nowMs p.actionSeq) action paramsJson timeoutMs
        false).toKernel proto]
  | .sendActionStreaming action timeoutMs nowMs _ =>
      [(actionRequest (actionIdText nowMs p.actionSeq) action [] timeoutMs true).toKernel proto]
  | .sendRequestChunk actionId seq chunk isFinal _ =>
      [Envelope.toKernel proto { payload := some (.actionRequestChunk actionId seq chunk isFinal) }]
  | .sendResponseChunk actionId seq chunk _ =>
      [Envelope.toKernel proto { payload := some (.actionResponseChunk actionId seq chunk) }]
  | .closeSession actionId reason _ =>
      [Envelope.toKernel proto { payload := some (.sessionClose actionId reason) }]
  | .sendCommand commandId command paramsJson _ _ =>
      [(commandRequest commandId command paramsJson).toKernel proto]
  | .ping nowMs _ _ _ _ => [Envelope.toKernel proto { payload := some (.ping nowMs) }]
  | .sendAudioChunk target body _ =>
      [Envelope.to proto target { payload := some (.audioStreamChunk body) }]
  | .sendRaw target payload _ => [{ target := target, payload := payload }]
  | .sendRawAudio target data _ => [⟨target, flagRawBinary, data⟩]

end Vynkor
