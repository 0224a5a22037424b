import Sputnik.Basic

/-!
This module contains the records the frontend keeps about a backend: the server, its services, its
info requests, the entry of a forwarder, and the sentinel that throttles it.
-/

namespace Sputnik

variable {F : Type}

structure BackendServer (F : Type) where
  itsName : ByteString
  itsIP : ByteString
  itsPort : Int
  itsComment : ByteString
  itsLoad : F
  itsThrottle : UInt32
  deriving DecidableEq

structure BackendService (F : Type) where
  itsBackendServer : BackendServer F
  itsURI : ByteString
  itsLastUpdate : Int
  itsAllowCache : Bool
  itsSequenceNumber : Int
  definesPrefix : Bool
  deriving DecidableEq

structure BackendInfoRequest (F : Type) where
  itsBackend : BackendServer F
  itsName : ByteString
  itsLastUpdate : Int
  itsSequenceNumber : Int
  deriving DecidableEq

-- `throttle_counter` is never read.
structure BackendInfo (F : Type) where
  hostName : ByteString
  port : Int
  load : F
  deriving DecidableEq

namespace BackendServer

def nameAndPort (server : BackendServer F) : ByteString × Int := (server.itsName, server.itsPort)

def info (server : BackendServer F) : BackendInfo F where
  hostName := server.itsName
  port := server.itsPort
  load := server.itsLoad

end BackendServer

namespace BackendInfo

def nameAndPort (info : BackendInfo F) : ByteString × Int := (info.hostName, info.port)

end BackendInfo

namespace BackendService

def nameAndPort (service : BackendService F) : ByteString × Int :=
  service.itsBackendServer.nameAndPort

def info (service : BackendService F) : BackendInfo F := service.itsBackendServer.info

@[simp]
theorem nameAndPort_info (service : BackendService F)
    : service.info.nameAndPort = service.nameAndPort := rfl

end BackendService

structure BackendSentinel where
  itsThrottle : UInt32
  itsCurrentThrottle : UInt32 := 0
  deriving DecidableEq

namespace BackendSentinel

def setAlive (sentinel : BackendSentinel) : BackendSentinel :=
  { sentinel with itsCurrentThrottle := 0 }

def getAlive (sentinel : BackendSentinel) : Bool :=
  if sentinel.itsThrottle = 0 then
    true
  else
    sentinel.itsCurrentThrottle ≤ sentinel.itsThrottle

def signalSentConnection (sentinel : BackendSentinel) : BackendSentinel :=
  { sentinel with itsCurrentThrottle := sentinel.itsCurrentThrottle + 1 }

end BackendSentinel

end Sputnik
