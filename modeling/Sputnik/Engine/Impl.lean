import Sputnik.Message
import Sputnik.Services.Impl

/-!
This module contains the engine: the messages it builds and processes, and its asynchronous
handlers. A handler returns the calls it makes on the socket and on the timer, in order.
-/

namespace Sputnik

variable {F : Type}

inductive ErrorCode where
  | success
  | operationAborted
  | other
  deriving DecidableEq, Repr

structure Endpoint where
  address : UInt32
  port : UInt16
  deriving DecidableEq, Repr

inductive Effect where
  | cancel
  | asyncReceiveFrom
  | expiresAfter (seconds : UInt32)
  | asyncWait
  | sendTo (buffer : ByteString) (dest : Endpoint)
  deriving DecidableEq, Repr

-- what the libraries and the operating system return while the engine handles one event
structure Platform (F : Type) where
  makeAddressV4 : ByteString → Except Error UInt32
  stoi : ByteString → Except Error Int
  -- the outcome of the k-th `send_to` of the handler
  sendTo : Nat → Except Error Unit
  currentLoad : Except Error F
  universalTime : Int

structure EngineConfig (F : Type) where
  itsBackendUdpListeners : List ByteString
  itsForwardingMode : ByteString
  itsBalanceFactor : F
  itsStickyCookie : ByteString
  itsHeartBeatTimeout : UInt32
  itsMaxSkippedCycles : UInt32
  itsHostname : ByteString
  itsHttpAddress : ByteString
  itsHttpPort : UInt32
  itsComment : ByteString
  itsThrottleLimit : UInt32

structure Engine (F : Type) extends EngineConfig F where
  itsFrontendSequence : UInt32
  itsReceivedResponses : UInt32
  itsSkippedCycles : UInt32
  itsServices : Services F
  itsRemoteEnd : Endpoint
  itsReceiveBuffer : ByteString
  itsPaused : Bool
  itsPauseDeadLine : Option Int

namespace Effect

def isSend : Effect → Bool
  | sendTo .. => true
  | _ => false

end Effect

variable [FloatArith F]

namespace Engine

def new (config : EngineConfig F) (pause : Bool) : Engine F where
  toEngineConfig := config
  itsFrontendSequence := 0
  itsReceivedResponses := 0
  itsSkippedCycles := 0
  itsServices := .new
  itsRemoteEnd := ⟨0, 0⟩
  itsReceiveBuffer := []
  itsPaused := pause
  itsPauseDeadLine := none

/-! Messages -/

def sendDiscoveryRequest (e : Engine F) (theReactor : Reactor) (theProtobuf : Protobuf F)
    (theMessageBuffer : ByteString) (theSequenceNumber : Int) : ByteString :=
  if theReactor.isShuttingDown then
    theMessageBuffer
  else
    theProtobuf.SerializeToString {
      name? := some e.itsHostname
      messageType? := some .serviceDiscoveryRequest
      seqnum? := some (Int32.ofInt theSequenceNumber)
    }

def discoveryReply (e : Engine F) (theReactor : Reactor) (theSequenceNumber : Int) (port : Int)
    (load : F) (throttle : Int) : BroadcastMessage F where
  name? := some e.itsHostname
  messageType? := some .serviceDiscoveryReply
  seqnum? := some (Int32.ofInt theSequenceNumber)
  host? := some {
    ip? := some e.itsHttpAddress
    port? := some (Int32.ofInt port)
    comment? := some e.itsComment
    load? := some load
    throttle? := some (Int32.ofInt throttle)
  }
  services := theReactor.getURIMap.map fun uri =>
    {
      uri? := some uri
      lastupdate? := some 0
      allowcache? := some false
      isPrefix? := some (theReactor.isURIPrefix uri)
    }
  infoQuery := theReactor.getAdminRequestNames.map fun name =>
    { name? := some name, lastupdate? := some 0 }

def sendDiscoveryReply (e : Engine F) (theReactor : Reactor) (thePlatform : Platform F)
    (theProtobuf : Protobuf F) (theMessageBuffer : ByteString) (theSequenceNumber : Int)
    : Except Error ByteString :=
  if theReactor.isShuttingDown then
    .ok theMessageBuffer
  else do
    let port ← numericCastInt e.itsHttpPort
    let load ← thePlatform.currentLoad
    let throttle ← numericCastInt e.itsThrottleLimit
    .ok (theProtobuf.SerializeToString
      (e.discoveryReply theReactor theSequenceNumber port load throttle))

def processRequest (e : Engine F) (theReactor : Reactor) (thePlatform : Platform F)
    (theProtobuf : Protobuf F) (theMessage : BroadcastMessage F) (theResponseBuffer : ByteString)
    : Except Error ByteString :=
  if theReactor.isShuttingDown then
    .ok theResponseBuffer
  else
    match theMessage.messageType with
    | .serviceDiscoveryRequest =>
      e.sendDiscoveryReply theReactor thePlatform theProtobuf theResponseBuffer theMessage.seqnum
    | .serviceDiscoveryReply | .serviceDiscoveryBeacon => .ok theResponseBuffer

def directURI (theMessage : BroadcastMessage F) (uri : ByteString) : ByteString :=
  ByteString.lit "/" ++ theMessage.name ++ uri

def replyServer (theMessage : BroadcastMessage F) (throttle : UInt32) : BackendServer F where
  itsName := theMessage.name
  itsIP := theMessage.host.ip
  itsPort := theMessage.host.port
  itsComment := theMessage.host.comment
  itsLoad := theMessage.host.load
  itsThrottle := throttle

def replyService (theMessage : BroadcastMessage F) (theServer : BackendServer F)
    (service : ServiceInfo) : BackendService F where
  itsBackendServer := theServer
  itsURI := service.uri
  itsLastUpdate := service.lastupdate
  itsAllowCache := service.allowcache
  itsSequenceNumber := theMessage.seqnum
  definesPrefix := service.definesPrefix

def replyInfoRequest (theMessage : BroadcastMessage F) (theServer : BackendServer F)
    (infoQuery : InfoQuery) : BackendInfoRequest F where
  itsBackend := theServer
  itsName := infoQuery.name
  itsLastUpdate := infoQuery.lastupdate
  itsSequenceNumber := theMessage.seqnum

def processReplyService (theReactor : Reactor) (theMessage : BroadcastMessage F)
    (theServer : BackendServer F) (itsServices : Services F) (service : ServiceInfo)
    : Except Error (Services F) := do
  let theService := replyService theMessage theServer service
  let throttle ← numericCastUnsigned theMessage.host.throttle
  let itsServices :=
    itsServices.addService theReactor theService service.uri theMessage.host.load throttle
  let throttle ← numericCastUnsigned theMessage.host.throttle
  .ok (itsServices.addService theReactor theService (directURI theMessage service.uri)
    theMessage.host.load throttle)

def processReply (e : Engine F) (theReactor : Reactor) (theMessage : BroadcastMessage F)
    : Except Error (Engine F) :=
  if theReactor.isShuttingDown then
    .ok e
  else if theMessage.messageType ≠ .serviceDiscoveryReply then
    .ok e
  else if !theMessage.hasHost || theMessage.services.isEmpty then
    .ok e
  else do
    let throttle ← numericCastUnsigned theMessage.host.throttle
    let theServer := replyServer theMessage throttle
    let itsServices ←
      theMessage.services.foldlM (processReplyService theReactor theMessage theServer) e.itsServices
    let itsServices := theMessage.infoQuery.foldl
      (fun itsServices infoQuery =>
        itsServices.addBackendInfoRequest (replyInfoRequest theMessage theServer infoQuery))
      itsServices
    .ok { e with itsServices, itsReceivedResponses := e.itsReceivedResponses + 1 }

/-! The frontend -/

-- The loop over the listeners, which ends at the first error.
def sendRequests (thePlatform : Platform F) (theRequestBuffer : ByteString)
    : List ByteString → Nat → List Effect × Except Error Unit
  | [], _ => ([], .ok ())
  | st :: rest, k =>
    if ByteString.colon ∈ st then
      let addr := st.takeWhile (· ≠ ByteString.colon)
      let port := (st.dropWhile (· ≠ ByteString.colon)).tail
      match thePlatform.makeAddressV4 addr, thePlatform.stoi port with
      | .error err, _ => ([], .error err)
      | _, .error err => ([], .error err)
      | .ok address, .ok port =>
        let send := Effect.sendTo theRequestBuffer { address := address, port := UInt16.ofInt port }
        match thePlatform.sendTo k with
        | .error err => ([send], .error err)
        | .ok () =>
          let (effects, result) := sendRequests thePlatform theRequestBuffer rest (k + 1)
          (send :: effects, result)
    else
      sendRequests thePlatform theRequestBuffer rest k

def startServiceDiscovery (e : Engine F) (theReactor : Reactor) (thePlatform : Platform F)
    (theProtobuf : Protobuf F) : Except Error (Engine F × List Effect) := do
  let e := { e with itsFrontendSequence := (e.itsFrontendSequence + 1) % 65535 }
  let theSequenceNumber ← numericCastInt e.itsFrontendSequence
  let theRequestBuffer := e.sendDiscoveryRequest theReactor theProtobuf [] theSequenceNumber
  let armed : List Effect := [.asyncReceiveFrom, .expiresAfter e.itsHeartBeatTimeout, .asyncWait]
  match sendRequests thePlatform theRequestBuffer e.itsBackendUdpListeners 0 with
  | (effects, .ok ()) => .ok (e, effects ++ armed)
  -- only the errors of the socket are caught
  | (effects, .error .systemError) => .ok (e, effects ++ armed)
  | (_, .error err) => .error err

def frontendMode (e : Engine F) (theReactor : Reactor) (thePlatform : Platform F)
    (theProtobuf : Protobuf F) : Except Error (Engine F × List Effect) := do
  let itsServices ←
    e.itsServices.setForwarding e.itsForwardingMode e.itsBalanceFactor e.itsStickyCookie
  startServiceDiscovery { e with itsServices } theReactor thePlatform theProtobuf

-- the part of `handleDeadlineTimer` that cleans the service list
def cleanServices (e : Engine F) (theReactor : Reactor) : Except Error (Engine F) := do
  if 0 < e.itsReceivedResponses then
    let itsSequenceNumber ← numericCastInt e.itsFrontendSequence
    .ok { e with
      itsServices := e.itsServices.latestSequence theReactor itsSequenceNumber
      itsSkippedCycles := 0 }
  else
    let e := { e with itsSkippedCycles := e.itsSkippedCycles + 1 }
    if e.itsMaxSkippedCycles < e.itsSkippedCycles then
      let itsSequenceNumber ← numericCastInt e.itsFrontendSequence
      .ok { e with
        itsServices := e.itsServices.latestSequence theReactor itsSequenceNumber
        itsSkippedCycles := 0 }
    else
      .ok e

def handleDeadlineTimer (e : Engine F) (theReactor : Reactor) (thePlatform : Platform F)
    (theProtobuf : Protobuf F) (err : ErrorCode) : Except Error (Engine F × List Effect) :=
  if err = .operationAborted then
    .ok (e, [])
  else do
    let e ← e.cleanServices theReactor
    let e := { e with itsReceivedResponses := 0 }
    if theReactor.isShuttingDown then
      .ok (e, [.cancel])
    else
      let (e, effects) ← e.startServiceDiscovery theReactor thePlatform theProtobuf
      .ok (e, .cancel :: effects)

def handleFrontendRead (e : Engine F) (theReactor : Reactor) (theProtobuf : Protobuf F)
    (err : ErrorCode) (bytesTransferred : Nat) : Except Error (Engine F × List Effect) :=
  if err = .operationAborted then
    .ok (e, [])
  else if err = .success then do
    let receiveBuffer := e.itsReceiveBuffer.take bytesTransferred
    -- the result of the parse is not looked at
    let (_, message) := theProtobuf.ParseFromString receiveBuffer
    let e ← e.processReply theReactor message
    .ok (e, [.asyncReceiveFrom])
  else
    .ok (e, [.asyncReceiveFrom])

/-! The backend -/

def setPause (e : Engine F) : Engine F := { e with itsPaused := true, itsPauseDeadLine := none }

def setPauseUntil (e : Engine F) (theDeadLine : Int) : Engine F :=
  { e with itsPaused := true, itsPauseDeadLine := some theDeadLine }

def setContinue (e : Engine F) : Engine F :=
  { e with itsPaused := false, itsPauseDeadLine := none }

def isPaused (e : Engine F) (thePlatform : Platform F) : Bool × Engine F :=
  if e.itsPaused then
    match e.itsPauseDeadLine with
    | none => (true, e)
    | some itsPauseDeadLine =>
      if thePlatform.universalTime < itsPauseDeadLine then
        (true, e)
      else
        (false, { e with itsPaused := false, itsPauseDeadLine := none })
  else
    (false, e)

def startListening : List Effect := [.asyncReceiveFrom]

def handleBackendRead (e : Engine F) (theReactor : Reactor) (thePlatform : Platform F)
    (theProtobuf : Protobuf F) (err : ErrorCode) (bytesTransferred : Nat)
    : Except Error (Engine F × List Effect) :=
  if theReactor.isShuttingDown then
    .ok (e, [])
  else if err ≠ .success then
    .ok (e, startListening)
  else
    let (paused, e) := e.isPaused thePlatform
    if paused then
      .ok (e, startListening)
    else if theReactor.isLoadHigh then
      .ok (e, startListening)
    else do
      let receiveBuffer := e.itsReceiveBuffer.take bytesTransferred
      let (_, message) := theProtobuf.ParseFromString receiveBuffer
      let responseBuffer ← e.processRequest theReactor thePlatform theProtobuf message []
      if responseBuffer.isEmpty then
        .ok (e, startListening)
      else
        match thePlatform.sendTo 0 with
        | .ok () | .error .systemError =>
          .ok (e, .sendTo responseBuffer e.itsRemoteEnd :: startListening)
        | .error err => .error err

end Engine

namespace Sample

def config : EngineConfig Rat where
  itsBackendUdpListeners := []
  itsForwardingMode := ByteString.lit "random"
  itsBalanceFactor := 2
  itsStickyCookie := ByteString.lit "smartmet-session-id"
  itsHeartBeatTimeout := 2
  itsMaxSkippedCycles := 2
  itsHostname := ByteString.lit "a"
  itsHttpAddress := []
  itsHttpPort := 8080
  itsComment := []
  itsThrottleLimit := 0

def platform : Platform Rat where
  makeAddressV4 _ := .error .systemError
  stoi _ := .error .outOfRange
  sendTo _ := .ok ()
  currentLoad := .ok 0
  universalTime := 0

def protobuf : Protobuf Rat where
  ParseFromString _ := (false, {})
  SerializeToString _ := ByteString.lit "?"

def received (datagram : ByteString) : Engine Rat :=
  { Engine.new config false with itsReceiveBuffer := datagram }

def reply (name uri : String) (seqnum? throttle? : Option Int32) : BroadcastMessage Rat where
  name? := some (ByteString.lit name)
  messageType? := some .serviceDiscoveryReply
  seqnum? := seqnum?
  host? := some {
    ip? := some []
    port? := some 80
    comment? := some []
    load? := some 0
    throttle? := throttle?
  }
  services := [{
    uri? := some (ByteString.lit uri)
    lastupdate? := some 0
    allowcache? := some false
  }]

end Sample

end Sputnik
