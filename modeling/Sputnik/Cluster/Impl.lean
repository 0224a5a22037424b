import Sputnik.Engine.BackendLoop
import Sputnik.Engine.EventLoop
import Sputnik.Heartbeat.Impl
import Sputnik.Lib.Network

/-!
This module contains a cluster: frontends and backends, each with its event loop, that send
datagrams to each other. Any party may be started at any time, and once.
-/

namespace Sputnik

variable {F : Type}

structure Datagram where
  payload : ByteString
  source : Endpoint
  dest : Endpoint
  deriving DecidableEq, Repr

-- A `send_to` that fails counts as a datagram that gets lost.
def sentFrom (source : Endpoint) (effects : List Effect) : List Datagram :=
  effects.filterMap fun effect =>
    match effect with
    | .sendTo buffer dest => some { payload := buffer, source, dest }
    | _ => none

inductive Party (ι κ : Type) where
  | frontend (i : ι)
  | backend (k : κ)
  deriving DecidableEq

structure ClusterConfig (ι κ F : Type) where
  frontends : ι → EngineConfig F
  backends : κ → EngineConfig F
  endOf : Party ι κ → Endpoint
  theProtobuf : Protobuf F

inductive FrontendAction (F : Type) where
  | launch (pause : Bool) (theReactor : Reactor) (thePlatform : Platform F) (hooked : Bool)
  | event (event : LoopEvent × Reactor × Platform F)
  -- the handler of a read, with the calls of `removeBackend` before each operation of the reply
  | runReply (index : Nat) (theReactor : Reactor) (between : List (List Removal))
  | removeBackend (removal : Removal)

inductive BackendAction (F : Type) where
  | launch (pause : Bool) (theReactor : Reactor) (thePlatform : Platform F)
      (bound : Except ByteString Unit)
  | receiveFails
  | runHandler (index : Nat) (theReactor : Reactor) (thePlatform : Platform F)
  | command (c : PauseCommand)

namespace Party

variable {ι κ : Type}

-- `none` for a party that has not been started
abbrev State (F : Type) : Party ι κ → Type
  | frontend _ => Option (EventLoop F)
  | backend _ => Option (BackendLoop F)

abbrev Action (F : Type) : Party ι κ → Type
  | frontend _ => FrontendAction F
  | backend _ => BackendAction F

end Party

def BackendAction.event? : BackendAction F → Option (BackendEvent F)
  | launch .. => none
  | receiveFails => some .receiveFails
  | runHandler index theReactor thePlatform => some (.runHandler index theReactor thePlatform)
  | command c => some (.command c)

variable [FloatArith F]

namespace EventLoop

-- what the handler that `step` runs does
def effects (theProtobuf : Protobuf F) (loop : EventLoop F)
    : LoopEvent × Reactor × Platform F → List Effect
  | (.runHandler index, theReactor, thePlatform) =>
    match loop.completed[index]? with
    | none => []
    | some completion =>
      match handle theReactor thePlatform theProtobuf loop.engine completion with
      | .error _ => []
      | .ok (_, effects) => effects
  | (.datagramArrives .., _, _) => []
  | (.timerExpires, _, _) => []

def runReply (theProtobuf : Protobuf F) (loop : EventLoop F) (index : Nat) (theReactor : Reactor)
    (between : List (List Removal)) : Option (EventLoop F) :=
  match loop.completed[index]? with
  | some (.frontendRead .success bytesTransferred) =>
    let receiveBuffer := loop.engine.itsReceiveBuffer.take bytesTransferred
    let (_, message) := theProtobuf.ParseFromString receiveBuffer
    (loop.engine.cycleStep (.processReply theReactor message between)).map fun engine =>
      performAll { loop with engine, completed := loop.completed.eraseIdx index }
        [.asyncReceiveFrom]
  | _ => none

-- Without calls in between, this is the handler.
theorem runReply_nil {theProtobuf : Protobuf F} {loop : EventLoop F} {index : Nat}
    {theReactor : Reactor} {thePlatform : Platform F} {bytesTransferred : Nat}
    (h : loop.completed[index]? = some (.frontendRead .success bytesTransferred))
    : loop.runReply theProtobuf index theReactor []
        =
      loop.step theProtobuf (.runHandler index, theReactor, thePlatform) := by
  simp only [runReply, step, h, handle]
  rw [Engine.cycleStep_processReply, Engine.handleFrontendRead_success loop.engine theReactor rfl]
  cases loop.engine.processReply theReactor (theProtobuf.ParseFromString
      (loop.engine.itsReceiveBuffer.take bytesTransferred)).2 with
  | error err => rfl
  | ok engine => rfl

def removeBackend (loop : EventLoop F) (removal : Removal) : Option (EventLoop F) :=
  (loop.engine.itsServices.step removal.op).map fun itsServices =>
    { loop with engine := { loop.engine with itsServices } }

end EventLoop

namespace ClusterConfig

variable {ι κ : Type} (cfg : ClusterConfig ι κ F)

def launchFrontend (i : ι) (pause : Bool) (theReactor : Reactor) (thePlatform : Platform F)
    (hooked : Bool) : Option (EventLoop F × List Effect) :=
  match (Engine.new (cfg.frontends i) pause).launch .frontend theReactor thePlatform
      cfg.theProtobuf (.ok ()) hooked with
  | .error _ => none
  | .ok (engine, effects) =>
    some (EventLoop.performAll { engine, pendingReceives := 0, pendingWaits := 0, completed := [] }
      effects, effects)

def launchBackend (k : κ) (pause : Bool) (theReactor : Reactor) (thePlatform : Platform F)
    (bound : Except ByteString Unit) : Option (BackendLoop F × List Effect) :=
  match (Engine.new (cfg.backends k) pause).launch .backend theReactor thePlatform
      cfg.theProtobuf bound true with
  | .error _ => none
  | .ok (engine, effects) =>
    some (BackendLoop.performAll { engine, pendingReceives := 0, completed := [] } effects, effects)

-- Datagrams arrive from the network only.
def actFrontend (i : ι) : Option (EventLoop F) → FrontendAction F →
    Option (Option (EventLoop F) × List Datagram)
  | none, .launch pause theReactor thePlatform hooked =>
    (cfg.launchFrontend i pause theReactor thePlatform hooked).map fun launched =>
      (some launched.1, sentFrom (cfg.endOf (.frontend i)) launched.2)
  | some _, .event (.datagramArrives .., _, _) => none
  | some loop, .event event =>
    (loop.step cfg.theProtobuf event).map fun loop' =>
      (some loop', sentFrom (cfg.endOf (.frontend i)) (loop.effects cfg.theProtobuf event))
  | some loop, .runReply index theReactor between =>
    (loop.runReply cfg.theProtobuf index theReactor between).map fun loop' => (some loop', [])
  | some loop, .removeBackend removal =>
    (loop.removeBackend removal).map fun loop' => (some loop', [])
  | none, _ => none
  | some _, .launch .. => none

def actBackend (k : κ) : Option (BackendLoop F) → BackendAction F →
    Option (Option (BackendLoop F) × List Datagram)
  | none, .launch pause theReactor thePlatform bound =>
    (cfg.launchBackend k pause theReactor thePlatform bound).map fun launched =>
      (some launched.1, sentFrom (cfg.endOf (.backend k)) launched.2)
  | some loop, action =>
    action.event?.bind fun event =>
      (loop.step cfg.theProtobuf event).map fun done =>
        (some done.1, sentFrom (cfg.endOf (.backend k)) done.2)
  | none, _ => none

def receiveFrontend (i : ι) : Option (EventLoop F) → Datagram → Option (Option (EventLoop F))
  | none, _ => none
  | some loop, m =>
    if m.dest = cfg.endOf (.frontend i) then
      match loop.pendingReceives with
      | 0 => none
      | n + 1 => some (some { loop.receive m.payload m.source with pendingReceives := n })
    else
      none

-- A request may be sent to a broadcast address, so that it can reach any backend.
def receiveBackend : Option (BackendLoop F) → Datagram → Option (Option (BackendLoop F))
  | none, _ => none
  | some loop, m =>
    (loop.step cfg.theProtobuf (.datagramArrives m.payload m.source)).map fun done => some done.1

def protocol : Lib.Protocol (Party ι κ) (Party.State F) (Party.Action F) Datagram where
  act
    | .frontend i => cfg.actFrontend i
    | .backend k => cfg.actBackend k
  receive
    | .frontend i => cfg.receiveFrontend i
    | .backend _ => cfg.receiveBackend

end ClusterConfig

abbrev Cluster (ι κ F : Type) := Lib.Network (Party.State F : Party ι κ → Type) Datagram

abbrev ClusterEvent (ι κ F : Type) :=
  Lib.NetworkEvent (Party.Action F : Party ι κ → Type) Datagram

namespace Cluster

variable {ι κ : Type}

-- before any party is started
def init : Cluster ι κ F where
  state
    | .frontend _ => none
    | .backend _ => none
  sent := []

def frontend (net : Cluster ι κ F) (i : ι) : Option (EventLoop F) := net.state (.frontend i)

def backend (net : Cluster ι κ F) (k : κ) : Option (BackendLoop F) := net.state (.backend k)

end Cluster

end Sputnik
