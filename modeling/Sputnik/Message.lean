import Sputnik.Basic

/-!
This module contains the broadcast message and the coding of it that the engine takes from outside.
-/

namespace Sputnik

inductive MessageTypes where
  | serviceDiscoveryRequest
  | serviceDiscoveryReply
  | serviceDiscoveryBeacon
  deriving DecidableEq, Repr

/-!
All fields are optional here, the required ones too: a message that failed to parse keeps the fields
decoded so far. An unset field reads as its default.
-/

structure HostInfo (F : Type) where
  ip? : Option ByteString := none
  port? : Option Int32 := none
  comment? : Option ByteString := none
  load? : Option F := none
  throttle? : Option Int32 := none
  deriving DecidableEq

structure ServiceInfo where
  uri? : Option ByteString := none
  lastupdate? : Option Int32 := none
  allowcache? : Option Bool := none
  isPrefix? : Option Bool := none
  deriving DecidableEq

structure InfoQuery where
  name? : Option ByteString := none
  lastupdate? : Option Int32 := none
  deriving DecidableEq

structure BroadcastMessage (F : Type) where
  name? : Option ByteString := none
  messageType? : Option MessageTypes := none
  seqnum? : Option Int32 := none
  host? : Option (HostInfo F) := none
  services : List ServiceInfo := []
  infoQuery : List InfoQuery := []
  deriving DecidableEq

variable {F : Type}

namespace HostInfo

def ip (host : HostInfo F) : ByteString := host.ip?.getD []

def port (host : HostInfo F) : Int := (host.port?.getD 0).toInt

def comment (host : HostInfo F) : ByteString := host.comment?.getD []

def load [Zero F] (host : HostInfo F) : F := host.load?.getD 0

def throttle (host : HostInfo F) : Int := (host.throttle?.getD 0).toInt

def isInitialized (host : HostInfo F) : Bool :=
  host.ip?.isSome && host.port?.isSome && host.comment?.isSome && host.load?.isSome

end HostInfo

namespace ServiceInfo

def uri (service : ServiceInfo) : ByteString := service.uri?.getD []

def lastupdate (service : ServiceInfo) : Int := (service.lastupdate?.getD 0).toInt

def allowcache (service : ServiceInfo) : Bool := service.allowcache?.getD false

def definesPrefix (service : ServiceInfo) : Bool :=
  service.isPrefix?.isSome && service.isPrefix?.getD false

def isInitialized (service : ServiceInfo) : Bool :=
  service.uri?.isSome && service.lastupdate?.isSome && service.allowcache?.isSome

end ServiceInfo

namespace InfoQuery

def name (infoQuery : InfoQuery) : ByteString := infoQuery.name?.getD []

def lastupdate (infoQuery : InfoQuery) : Int := (infoQuery.lastupdate?.getD 0).toInt

def isInitialized (infoQuery : InfoQuery) : Bool :=
  infoQuery.name?.isSome && infoQuery.lastupdate?.isSome

end InfoQuery

namespace BroadcastMessage

def name (message : BroadcastMessage F) : ByteString := message.name?.getD []

-- The default of an enumeration is its first value.
def messageType (message : BroadcastMessage F) : MessageTypes :=
  message.messageType?.getD .serviceDiscoveryRequest

def seqnum (message : BroadcastMessage F) : Int := (message.seqnum?.getD 0).toInt

def hasHost (message : BroadcastMessage F) : Bool := message.host?.isSome

def host (message : BroadcastMessage F) : HostInfo F := message.host?.getD {}

def isInitialized (message : BroadcastMessage F) : Bool :=
  message.name?.isSome && message.messageType?.isSome && message.seqnum?.isSome
    && message.host?.all HostInfo.isInitialized
    && message.services.all ServiceInfo.isInitialized
    && message.infoQuery.all InfoQuery.isInitialized

end BroadcastMessage

/--
The code that protobuf generates. `ParseFromString` returns whether the parse succeeded, next to
the message it leaves.
-/
structure Protobuf (F : Type) where
  ParseFromString : ByteString → Bool × BroadcastMessage F
  SerializeToString : BroadcastMessage F → ByteString

end Sputnik
