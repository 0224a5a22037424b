import Sputnik.Engine.Lemmas

/-!
This module contains the heartbeat of a frontend: cycles of replies that end with the deadline. The
threads that serve requests may remove a backend at any point, also between two operations that
`processReply` does on the routing table, each of which locks the table on its own.
-/

namespace Sputnik

variable {F : Type}

structure Removal where
  theReactor : Reactor
  theHostname : ByteString
  thePort : Int
  theURI : ByteString

inductive CycleEvent (F : Type) where
  -- `between` lists the calls of `removeBackend` before each operation of the reply.
  | processReply (theReactor : Reactor) (theMessage : BroadcastMessage F)
      (between : List (List Removal))
  | removeBackend (removal : Removal)

-- one cycle, next to what the handler of its deadline reads from outside
structure Cycle (F : Type) where
  events : List (CycleEvent F)
  theReactor : Reactor
  thePlatform : Platform F

structure Frontend (F : Type) where
  engine : Engine F
  waiting : Bool

def interleave {α : Type} : List (List α) → List α → List α
  | _, [] => []
  | [], l => l
  | before :: between, x :: l => before ++ x :: interleave between l

@[simp]
theorem interleave_nil {α : Type} (l : List α) : interleave [] l = l := by
  cases l with
  | nil => rfl
  | cons x l => rfl

variable [FloatArith F]

def Removal.op (removal : Removal) : ServicesOp F :=
  .removeBackend removal.theReactor removal.theHostname removal.thePort removal.theURI

namespace CycleEvent

def accepted : CycleEvent F → Bool
  | processReply theReactor theMessage _ => Engine.accepts theReactor theMessage
  | removeBackend _ => false

def ops : CycleEvent F → List (ServicesOp F)
  | processReply theReactor theMessage between =>
    if Engine.accepts theReactor theMessage then
      interleave (between.map fun removals => removals.map Removal.op)
        (Engine.replyOps theReactor theMessage)
    else
      []
  | removeBackend removal => [removal.op]

def answers (n : Int) : CycleEvent F → Bool
  | processReply theReactor theMessage _ =>
    Engine.accepts theReactor theMessage && theMessage.seqnum = n
  | removeBackend _ => false

def carries (n : Int) : CycleEvent F → Bool
  | processReply theReactor theMessage _ =>
    !Engine.accepts theReactor theMessage || theMessage.seqnum = n
  | removeBackend _ => true

-- `numeric_cast` of the throttle does not throw
def castable : CycleEvent F → Bool
  | processReply theReactor theMessage _ =>
    !Engine.accepts theReactor theMessage || 0 ≤ theMessage.host.throttle
  | removeBackend _ => true

end CycleEvent

namespace Engine

def cycleStep (e : Engine F) (event : CycleEvent F) : Option (Engine F) :=
  if event.castable then
    (Lib.run Services.step e.itsServices event.ops).map fun itsServices =>
      { e with
        itsServices
        itsReceivedResponses := e.itsReceivedResponses + if event.accepted then 1 else 0 }
  else
    none

-- Without calls in between, the step is `processReply`.
theorem cycleStep_processReply (e : Engine F) (theReactor : Reactor)
    (theMessage : BroadcastMessage F)
    : e.cycleStep (.processReply theReactor theMessage [])
        =
      (e.processReply theReactor theMessage).toOption := by
  unfold cycleStep CycleEvent.castable CycleEvent.ops CycleEvent.accepted
  cases haccepts : accepts theReactor theMessage with
  | false =>
    rw [processReply_of_not_accepts e haccepts]
    simp [Except.toOption, haccepts]
  | true =>
    by_cases hthrottle : theMessage.host.throttle < 0
    . rw [processReply_of_overflow e haccepts hthrottle]
      simp [Except.toOption, haccepts, hthrottle]
    . have hnonneg : 0 ≤ theMessage.host.throttle := by omega
      rcases processReply_of_accepts e haccepts hnonneg with ⟨s', hrun, hreply⟩
      rw [hreply]
      simp [Except.toOption, haccepts, hnonneg, hrun]

def cycleRun (e : Engine F) (events : List (CycleEvent F)) : Option (Engine F) :=
  Lib.run cycleStep e events

end Engine

namespace Cycle

def ops (c : Cycle F) : List (ServicesOp F) := c.events.flatMap CycleEvent.ops

def accepted (c : Cycle F) : Nat := c.events.countP CycleEvent.accepted

def answered (n : Int) (c : Cycle F) : Bool := c.events.any (CycleEvent.answers n)

def silent (c : Cycle F) : Bool := c.events.all fun event => !event.accepted

end Cycle

namespace Frontend

def step (theProtobuf : Protobuf F) (f : Frontend F) (c : Cycle F) : Option (Frontend F) :=
  if f.waiting then
    (f.engine.cycleRun c.events).bind fun e =>
      match e.handleDeadlineTimer c.theReactor c.thePlatform theProtobuf .success with
      | .error _ => none
      | .ok (engine, effects) => some { engine, waiting := effects.contains .asyncWait }
  else
    none

def launch (config : EngineConfig F) (pause : Bool) (theReactor : Reactor)
    (thePlatform : Platform F) (theProtobuf : Protobuf F) : Option (Frontend F) :=
  match (Engine.new config pause).frontendMode theReactor thePlatform theProtobuf with
  | .error _ => none
  | .ok (engine, effects) => some { engine, waiting := effects.contains .asyncWait }

end Frontend

namespace Sample

def replies (seq : Int32) (n : Nat) : Cycle Rat where
  events := List.replicate n
    (.processReply reactor (reply "a" "/wms" (some seq) (some 0)) [])
  theReactor := reactor
  thePlatform := platform

end Sample

end Sputnik
