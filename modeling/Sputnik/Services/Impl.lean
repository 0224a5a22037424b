import Sputnik.Forwarder.Select
import Sputnik.URIPrefixMap

/-!
This module contains the routing table of the frontend and its operations.
-/

namespace Sputnik

open Std

variable {F : Type} [FloatArith F]

abbrev ServiceEntry (F : Type) := List (BackendService F) × BackendForwarder F

structure Services (F : Type) where
  itsServicesByURI : TreeMap ByteString (ServiceEntry F)
  itsBackendInfoRequests : TreeMap ByteString (List (BackendInfoRequest F))
  itsPrefixMap : URIPrefixMap
  itsSentinels : TreeMap ByteString BackendSentinel
  itsFwdMode : ForwardingMode
  itsBalancingCoefficient : F
  itsCookieName : ByteString

def sentinelName (theHostName : ByteString) (thePort : Int) : ByteString :=
  theHostName ++ ByteString.colon :: ByteString.toString thePort

namespace Services

-- the default constructor
def new : Services F where
  itsServicesByURI := ∅
  itsBackendInfoRequests := ∅
  itsPrefixMap := .empty
  itsSentinels := ∅
  itsFwdMode := .inverseConnections
  itsBalancingCoefficient := FloatArith.ofInt 2
  itsCookieName := []

def setForwarding (s : Services F) (theMode : ByteString) (balancingCoefficient : F)
    (cookieName : ByteString) : Except Error (Services F) :=
  let forwarding (mode : ForwardingMode) :=
    { s with
      itsFwdMode := mode
      itsBalancingCoefficient := balancingCoefficient
      itsCookieName := cookieName }
  if theMode = ByteString.lit "inverseload" then
    .ok (forwarding .inverseLoad)
  else if theMode = ByteString.lit "random" then
    .ok (forwarding .random)
  else if theMode = ByteString.lit "doublerandom" then
    .ok (forwarding .doubleRandom)
  else if theMode = ByteString.lit "inverseconnections" then
    .ok (forwarding .inverseConnections)
  else if theMode = ByteString.lit "leastconnections" then
    .ok (forwarding .leastConnections)
  else if theMode = ByteString.lit "exponentialconnections" then
    .ok (forwarding .exponentialConnections)
  else if theMode = ByteString.lit "sticky" then
    .ok (forwarding .sticky)
  else
    .error (.fmi (ByteString.lit "Unknown backend forwarding mode: '" ++ theMode
      ++ ByteString.lit "'"))

-- the table of a frontend whose forwarding has been set and which has seen no reply yet
def init (itsFwdMode : ForwardingMode) (itsBalancingCoefficient : F) (itsCookieName : ByteString)
    : Services F where
  itsServicesByURI := ∅
  itsBackendInfoRequests := ∅
  itsPrefixMap := .empty
  itsSentinels := ∅
  itsFwdMode := itsFwdMode
  itsBalancingCoefficient := itsBalancingCoefficient
  itsCookieName := itsCookieName

theorem setForwarding_new {theMode : ByteString} {a : F} {cookieName : ByteString}
    {s : Services F} (h : new.setForwarding theMode a cookieName = .ok s)
    : ∃ mode, s = init mode a cookieName := by
  unfold setForwarding at h
  dsimp at h
  repeat
    split at h
    . injection h with h
      exact ⟨_, h.symm⟩
  contradiction

def getService (s : Services F) (theReactor : Reactor) (theRequest : Request)
    (itsGenerator : Generator F) : Except Error (Option (BackendService F)) :=
  let uriPrefix := s.itsPrefixMap.translate theRequest.getResource
  match s.itsServicesByURI[uriPrefix]? with
  | none => .ok none
  | some (theBackendList, backendRandPtr) =>
    if theBackendList.isEmpty then
      .ok none
    else
      match backendRandPtr.getBackend theReactor theRequest itsGenerator with
      | .error e => .error e
      | .ok rndServerSlot =>
        match theBackendList[rndServerSlot]? with
        | some theService => .ok (some theService)
        | none => .error .outOfRange

def newForwarder (s : Services F) : BackendForwarder F :=
  .new s.itsFwdMode s.itsBalancingCoefficient s.itsCookieName

def addService (s : Services F) (theReactor : Reactor) (theBackendService : BackendService F)
    (theFrontendURI : ByteString) (theLoad : F) (theThrottle : UInt32) : Services F :=
  let itsPrefixMap :=
    if theBackendService.definesPrefix then
      s.itsPrefixMap.addPrefix theFrontendURI theBackendService
    else
      s.itsPrefixMap
  let name := theBackendService.itsBackendServer.itsName
  let port := theBackendService.itsBackendServer.itsPort
  let itsServicesByURI :=
    match s.itsServicesByURI[theFrontendURI]? with
    | some (list, theForwarder) =>
      s.itsServicesByURI.insert theFrontendURI
        (list ++ [theBackendService], theForwarder.addBackend name port theLoad theReactor)
    | none =>
      s.itsServicesByURI.insert theFrontendURI
        ([theBackendService], s.newForwarder.addBackend name port theLoad theReactor)
  let sname := sentinelName name port
  let itsSentinels := (s.itsSentinels.erase sname).insert sname { itsThrottle := theThrottle }
  { s with itsPrefixMap, itsServicesByURI, itsSentinels }

def addBackendInfoRequest (s : Services F) (theRequest : BackendInfoRequest F) : Services F :=
  let requestList := (s.itsBackendInfoRequests[theRequest.itsName]?).getD []
  { s with
    itsBackendInfoRequests :=
      s.itsBackendInfoRequests.insert theRequest.itsName (requestList ++ [theRequest]) }

def namedBy (theHostname : ByteString) (thePort : Int) (theURI : ByteString)
    (service : BackendService F) : Bool :=
  (service.itsBackendServer.itsName = theHostname && service.itsBackendServer.itsPort = thePort)
    && (theURI.isEmpty || theURI = service.itsURI)

def outdated (itsSequenceNumber : Int) (service : BackendService F) : Bool :=
  service.itsSequenceNumber ≠ itsSequenceNumber

def retire (theReactor : Reactor) (service : BackendService F) (fw : BackendForwarder F)
    : BackendForwarder F :=
  fw.removeBackend service.itsBackendServer.itsName service.itsBackendServer.itsPort theReactor

/-
The inner loop of `removeBackend`. The prefix is unregistered for every service of the list, and
with the URI of the call.
-/
def removeFromList (theReactor : Reactor) (theHostname : ByteString) (thePort : Int)
    (theURI : ByteString) (list : List (BackendService F)) (itsPrefixMap : URIPrefixMap)
    (theForwarder : BackendForwarder F)
    : List (BackendService F) × URIPrefixMap × BackendForwarder F :=
  Lib.eraseLoop
    (fun it state => (state.1.removeBackend theURI it, state.2))
    (namedBy theHostname thePort theURI)
    (fun it state => (state.1, retire theReactor it state.2))
    list (itsPrefixMap, theForwarder)

-- The result is `none` where no service is left: the frontend then kills itself to be restarted.
def removeBackend (s : Services F) (theReactor : Reactor) (theHostname : ByteString)
    (thePort : Int) (theURI : ByteString) : Option (Services F) :=
  let (itsServicesByURI, itsPrefixMap) :=
    Lib.forEntries
      (fun _ entry itsPrefixMap =>
        let (list, itsPrefixMap, theForwarder) :=
          removeFromList theReactor theHostname thePort theURI entry.1 itsPrefixMap entry.2
        ((list, theForwarder), itsPrefixMap))
      s.itsServicesByURI s.itsPrefixMap
  if itsServicesByURI.toList.any fun theURIs => !theURIs.2.1.isEmpty then
    some { s with itsServicesByURI, itsPrefixMap }
  else
    none

def latestSequence (s : Services F) (theReactor : Reactor) (itsSequenceNumber : Int)
    : Services F :=
  { s with
    itsServicesByURI :=
      s.itsServicesByURI.map fun _ entry =>
        Lib.eraseLoop (fun _ theForwarder => theForwarder) (outdated itsSequenceNumber)
          (retire theReactor) entry.1 entry.2
    itsBackendInfoRequests :=
      s.itsBackendInfoRequests.map fun _ requestList =>
        requestList.filter fun it => it.itsSequenceNumber = itsSequenceNumber }

def queryBackendAlive (s : Services F) (theHostName : ByteString) (thePort : Int) : Bool :=
  match s.itsSentinels[sentinelName theHostName thePort]? with
  | some sentinel => sentinel.getAlive
  | none => false

def setBackendAlive (s : Services F) (theHostName : ByteString) (thePort : Int) : Services F :=
  { s with
    itsSentinels := s.itsSentinels.modify (sentinelName theHostName thePort) .setAlive }

def signalBackendConnection (s : Services F) (theHostName : ByteString) (thePort : Int)
    : Services F :=
  { s with
    itsSentinels := s.itsSentinels.modify (sentinelName theHostName thePort) .signalSentConnection }

end Services

inductive ServicesOp (F : Type) where
  | addService (theReactor : Reactor) (theBackendService : BackendService F)
      (theFrontendURI : ByteString) (theLoad : F) (theThrottle : UInt32)
  | addBackendInfoRequest (theRequest : BackendInfoRequest F)
  | removeBackend (theReactor : Reactor) (theHostname : ByteString) (thePort : Int)
      (theURI : ByteString)
  | latestSequence (theReactor : Reactor) (itsSequenceNumber : Int)
  | setBackendAlive (theHostName : ByteString) (thePort : Int)
  | signalBackendConnection (theHostName : ByteString) (thePort : Int)

namespace Services

def step (s : Services F) : ServicesOp F → Option (Services F)
  | .addService theReactor theBackendService theFrontendURI theLoad theThrottle =>
    some (s.addService theReactor theBackendService theFrontendURI theLoad theThrottle)
  | .addBackendInfoRequest theRequest => some (s.addBackendInfoRequest theRequest)
  | .removeBackend theReactor theHostname thePort theURI =>
    s.removeBackend theReactor theHostname thePort theURI
  | .latestSequence theReactor itsSequenceNumber =>
    some (s.latestSequence theReactor itsSequenceNumber)
  | .setBackendAlive theHostName thePort => some (s.setBackendAlive theHostName thePort)
  | .signalBackendConnection theHostName thePort =>
    some (s.signalBackendConnection theHostName thePort)

end Services

/-! A small cluster for concrete runs, whose backends are told apart by their name. -/

namespace Sample

def server (name : String) : BackendServer Rat where
  itsName := ByteString.lit name
  itsIP := ByteString.lit "10.0.0.1"
  itsPort := 8080
  itsComment := []
  itsLoad := 1
  itsThrottle := 0

def service (name uri : String) (seq : Int) (definesPrefix : Bool) : BackendService Rat where
  itsBackendServer := server name
  itsURI := ByteString.lit uri
  itsLastUpdate := 0
  itsAllowCache := false
  itsSequenceNumber := seq
  definesPrefix := definesPrefix

def add (name uri : String) (seq : Int) (definesPrefix : Bool) : ServicesOp Rat :=
  .addService reactor (service name uri seq definesPrefix) (ByteString.lit uri) 1 0

end Sample

end Sputnik
