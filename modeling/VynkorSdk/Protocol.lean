import VynkorSdk.ByteCodec

/-!
# Protocol messages

The messages of `vynkor_protocol.proto` that the SDK builds or reads.  Strings
and byte fields are both byte lists.  The encoding itself is the protobuf
library's: it enters as the two functions of `ProtoLib`.
-/

namespace Vynkor

open ByteCodec

inductive ActionRisk
  | unknown
  | low
  | medium
  | high
  | critical
  deriving DecidableEq, Repr

inductive ActionStatus
  | unknown
  | ok
  | error
  | timeout
  | permissionDeny
  | notFound
  | quotaExceeded
  | streamBackpressure
  deriving DecidableEq, Repr

inductive CommandStatus
  | unknown
  | ok
  | error
  | permissionDenied
  deriving DecidableEq, Repr

inductive EventPublishStatus
  | unknown
  | ok
  | error
  | permissionDeny
  deriving DecidableEq, Repr

structure ActionSpec where
  name : Bytes := []
  description : Bytes := []
  paramsSchema : Bytes := []
  risk : ActionRisk := .unknown
  requiresConfirmation : Bool := false
  deriving DecidableEq, Repr

structure PluginManifest where
  permissions : List Bytes := []
  actions : List Bytes := []
  events : List Bytes := []
  ipcTargets : List Bytes := []
  platforms : List Bytes := []
  actionSpecs : List ActionSpec := []
  deriving DecidableEq, Repr

/-- The fields `register_full` sets; the others keep their defaults. -/
structure PluginRegister where
  pluginId : Bytes := []
  version : Bytes := []
  manifest : PluginManifest := {}
  jwtToken : Bytes := []
  deviceId : Bytes := []
  deriving DecidableEq, Repr

structure PluginRegisterAck where
  accepted : Bool := false
  rejectReason : Bytes := []
  grantedPermissions : List Bytes := []
  sessionNonce : Bytes := []
  deriving DecidableEq, Repr

structure ActionRequest where
  actionId : Bytes := []
  action : Bytes := []
  paramsJson : Bytes := []
  timeoutMs : UInt32 := 0
  streaming : Bool := false
  callerPluginId : Bytes := []
  deriving DecidableEq, Repr

structure ActionResponse where
  actionId : Bytes := []
  status : ActionStatus := .unknown
  dataJson : Bytes := []
  error : Bytes := []
  deriving DecidableEq, Repr

structure Event where
  eventId : Bytes := []
  eventType : Bytes := []
  payloadJson : Bytes := []
  retryCount : UInt32 := 0
  deriving DecidableEq, Repr

structure ErrorMessage where
  message : Bytes := []
  details : Bytes := []
  deriving DecidableEq, Repr

/-- The `oneof` of an envelope. -/
inductive Payload
  | pluginRegister (register : PluginRegister)
  | pluginRegisterAck (ack : PluginRegisterAck)
  | pluginShutdown (reason : Bytes) (graceSeconds : UInt32)
  | actionRequest (request : ActionRequest)
  | actionResponse (response : ActionResponse)
  | actionRequestChunk (actionId : Bytes) (seq : UInt32) (chunk : Bytes) (isFinal : Bool)
  | actionResponseChunk (actionId : Bytes) (seq : UInt32) (chunk : Bytes)
  | actionStreamAbort (actionId reason : Bytes)
  | sessionClose (actionId reason : Bytes)
  | kernelCommand (commandId command paramsJson : Bytes)
  | kernelCommandAck (commandId : Bytes) (status : CommandStatus) (dataJson error : Bytes)
  | event (event : Event)
  | eventAck (eventId : Bytes)
  | subscribe (eventTypes : List Bytes)
  | unsubscribe (eventTypes : List Bytes)
  | eventPublish (eventType payloadJson : Bytes)
  | eventPublishAck (eventId : Bytes) (status : EventPublishStatus) (error : Bytes)
  | audioStreamChunk (body : Bytes)
  | ping (timestamp : UInt64)
  | pong (originalTimestamp serverTimestamp : UInt64)
  | error (error : ErrorMessage)
  deriving DecidableEq, Repr

structure Envelope where
  messageId : Bytes := []
  timestamp : UInt64 := 0
  senderId : Bytes := []
  payload : Option Payload := none
  deriving DecidableEq, Repr

/-- `SerializeToString` and `ParseFromArray` of an envelope. -/
structure ProtoLib where
  serialize : Envelope → Bytes
  parse : Bytes → Option Envelope

/-- Outcome of one action execution. -/
structure ActionResult where
  ok : Bool := false
  dataJson : Bytes := []
  error : Bytes := []
  deriving DecidableEq, Repr

def ActionResult.Ok (data : Bytes) : ActionResult := { ok := true, dataJson := data }

def ActionResult.Err (message : Bytes) : ActionResult := { error := message }

/-- The response envelope of a completed or failed action. -/
def responseEnvelope (actionId : Bytes) (result : ActionResult) : Envelope :=
  if result.ok then
    { payload := some (.actionResponse
        { actionId := actionId, status := .ok, dataJson := result.dataJson }) }
  else
    { payload := some (.actionResponse
        { actionId := actionId, status := .error, error := result.error }) }

end Vynkor
