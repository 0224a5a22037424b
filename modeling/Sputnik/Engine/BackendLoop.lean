import Sputnik.Engine.Pause
import Sputnik.Engine.RoundTrip

/-!
This module contains the event loop of a backend: the pending receives on its socket and the
completed ones whose handlers wait to run. Other threads may pause and continue the backend between
any two events.
-/

namespace Sputnik

variable {F : Type}

inductive BroadcastMode where
  | unknown
  | backend
  | frontend
  deriving DecidableEq, Repr

namespace Engine

def cannotBind (what : ByteString) : Error :=
  .fmi (ByteString.lit "Error: Broadcast Backend can't bind datagram socket: " ++ what)

-- `bound` is the outcome of binding the socket, an error by its text.
def backendMode (e : Engine F) (bound : Except ByteString Unit)
    : Except Error (Engine F × List Effect) :=
  match bound with
  | .error what => .error (cannotBind what)
  | .ok () => .ok (e, startListening)

-- `hooked` is whether the reactor takes the hook for finished connections.
def launch [FloatArith F] (e : Engine F) (theMode : BroadcastMode) (theReactor : Reactor)
    (thePlatform : Platform F) (theProtobuf : Protobuf F) (bound : Except ByteString Unit)
    (hooked : Bool) : Except Error (Engine F × List Effect) :=
  match theMode with
  | .backend => e.backendMode bound
  | .frontend => do
    let launched ← e.frontendMode theReactor thePlatform theProtobuf
    if hooked then
      .ok launched
    else
      .error (.fmi (ByteString.lit "Broadcast failed to add backend heartbeat hook"))
  | .unknown => .ok (e, [])

-- what a datagram leaves in the buffer of 8192 bytes, which cuts off a longer one
def fill (e : Engine F) (datagram : ByteString) (remoteEnd : Endpoint) : Engine F :=
  let content := datagram.take 8192
  { e with
    itsReceiveBuffer := content ++ e.itsReceiveBuffer.drop content.length
    itsRemoteEnd := remoteEnd }

@[simp]
theorem take_itsReceiveBuffer_fill (e : Engine F) (datagram : ByteString) (remoteEnd : Endpoint)
    : (e.fill datagram remoteEnd).itsReceiveBuffer.take (datagram.take 8192).length
        =
      datagram.take 8192 := by
  apply List.take_left

theorem isPaused_fill (e : Engine F) (datagram : ByteString) (remoteEnd : Endpoint)
    (thePlatform : Platform F)
    : ((e.fill datagram remoteEnd).isPaused thePlatform).1 = (e.isPaused thePlatform).1 := by
  rw [Bool.eq_iff_iff, isPaused_iff, isPaused_iff]
  rfl

end Engine

structure BackendLoop (F : Type) where
  engine : Engine F
  pendingReceives : Nat
  completed : List (ErrorCode × Nat)

inductive BackendEvent (F : Type) where
  | datagramArrives (datagram : ByteString) (remoteEnd : Endpoint)
  | receiveFails
  | runHandler (index : Nat) (theReactor : Reactor) (thePlatform : Platform F)
  | command (c : PauseCommand)

namespace BackendLoop

-- Nothing a backend does cancels a receive or touches the timer.
def perform (loop : BackendLoop F) : Effect → BackendLoop F
  | .asyncReceiveFrom => { loop with pendingReceives := loop.pendingReceives + 1 }
  | _ => loop

def performAll (loop : BackendLoop F) (effects : List Effect) : BackendLoop F :=
  effects.foldl perform loop

def start [FloatArith F] (config : EngineConfig F) (pause : Bool) : BackendLoop F :=
  performAll { engine := .new config pause, pendingReceives := 0, completed := [] }
    Engine.startListening

/--
One event of the loop, next to the effects of the handler it runs. A handler that throws ends the
loop.
-/
def step (theProtobuf : Protobuf F) (loop : BackendLoop F)
    : BackendEvent F → Option (BackendLoop F × List Effect)
  | .datagramArrives datagram remoteEnd =>
    match loop.pendingReceives with
    | 0 => none
    | n + 1 =>
      some ({
        engine := loop.engine.fill datagram remoteEnd
        pendingReceives := n
        completed := loop.completed ++ [(.success, (datagram.take 8192).length)] }, [])
  | .receiveFails =>
    match loop.pendingReceives with
    | 0 => none
    | n + 1 =>
      some ({ loop with pendingReceives := n, completed := loop.completed ++ [(.other, 0)] }, [])
  | .runHandler index theReactor thePlatform =>
    match loop.completed[index]? with
    | none => none
    | some (err, bytesTransferred) =>
      match loop.engine.handleBackendRead theReactor thePlatform theProtobuf err
          bytesTransferred with
      | .error _ => none
      | .ok (engine, effects) =>
        some ({ loop with engine, completed := loop.completed.eraseIdx index }.performAll effects,
          effects)
  | .command c => some ({ loop with engine := loop.engine.instruct c }, [])

def next (theProtobuf : Protobuf F) (loop : BackendLoop F) (event : BackendEvent F)
    : Option (BackendLoop F) :=
  (loop.step theProtobuf event).map fun done => done.1

def outstanding (loop : BackendLoop F) : Nat := loop.pendingReceives + loop.completed.length

end BackendLoop

namespace BackendEvent

def stops : BackendEvent F → Bool
  | runHandler _ theReactor _ => theReactor.isShuttingDown
  | _ => false

def runs : BackendEvent F → Bool
  | runHandler .. => true
  | _ => false

def command? : BackendEvent F → Option PauseCommand
  | command c => some c
  | _ => none

def now? : BackendEvent F → Option Int
  | runHandler _ _ thePlatform => some thePlatform.universalTime
  | _ => none

-- a completed receive: the datagram and its sender, or nothing where it failed
def arrival? : BackendEvent F → Option (Option (ByteString × Endpoint))
  | datagramArrives datagram remoteEnd => some (some (datagram, remoteEnd))
  | receiveFails => some none
  | _ => none

def commands (events : List (BackendEvent F)) : List PauseCommand := events.filterMap command?

def clocks (events : List (BackendEvent F)) : List Int := events.filterMap now?

def arrivals (events : List (BackendEvent F)) : List (Option (ByteString × Endpoint)) :=
  events.filterMap arrival?

end BackendEvent

namespace Engine

-- A reply is made from the configuration alone.
theorem reply_congr {e e' : Engine F} (h : e.toEngineConfig = e'.toEngineConfig)
    (theReactor : Reactor) (load : F) (n : Int32)
    : e.reply theReactor load n = e'.reply theReactor load n := by
  unfold reply discoveryReply
  rw [h]

@[simp]
theorem toEngineConfig_isPaused (e : Engine F) (thePlatform : Platform F)
    : (e.isPaused thePlatform).2.toEngineConfig = e.toEngineConfig := by
  unfold isPaused
  repeat' split
  all_goals rfl

@[simp]
theorem toEngineConfig_instruct (e : Engine F) (c : PauseCommand)
    : (e.instruct c).toEngineConfig = e.toEngineConfig := by
  cases c with
  | setPause => rfl
  | setPauseUntil theDeadLine => rfl
  | setContinue => rfl

theorem numericCastInt_eq_ok {n : UInt32} {i : Int} (h : numericCastInt n = .ok i)
    : n.toNat ≤ 2147483647 ∧ i = n.toNat := by
  unfold numericCastInt at h
  split at h
  . contradiction
  . injection h with h
    exact ⟨by omega, h.symm⟩

theorem processRequest_eq_ok {e : Engine F} {theReactor : Reactor} {thePlatform : Platform F}
    {theProtobuf : Protobuf F} {theMessage : BroadcastMessage F} {buffer : ByteString}
    (hdown : theReactor.isShuttingDown = false)
    (h : e.processRequest theReactor thePlatform theProtobuf theMessage [] = .ok buffer)
    : if theMessage.messageType = .serviceDiscoveryRequest then
        e.itsHttpPort.toNat ≤ 2147483647 ∧ e.itsThrottleLimit.toNat ≤ 2147483647
          ∧ ∃ load, thePlatform.currentLoad = .ok load
            ∧ buffer = theProtobuf.SerializeToString
              (e.reply theReactor load (theMessage.seqnum?.getD 0))
      else
        buffer = [] := by
  unfold processRequest at h
  rw [hdown] at h
  cases htype : theMessage.messageType with
  | serviceDiscoveryRequest =>
    simp only [htype, sendDiscoveryReply, hdown, bind, Except.bind] at h
    simp only [if_true]
    split at h
    . contradiction
    . split at h
      . contradiction
      . next hport =>
        rcases numericCastInt_eq_ok hport with ⟨hport', rfl⟩
        split at h
        . contradiction
        . next load hload =>
          split at h
          . contradiction
          . next hthrottle =>
            rcases numericCastInt_eq_ok hthrottle with ⟨hthrottle', rfl⟩
            injection h with h
            exact ⟨hport', hthrottle', load, hload, h.symm⟩
  | _ =>
    simp only [htype] at h
    injection h with h
    simp [h]

theorem handleBackendRead_eq_ok {e e' : Engine F} {theReactor : Reactor}
    {thePlatform : Platform F} {theProtobuf : Protobuf F} {err : ErrorCode}
    {bytesTransferred : Nat} {effects : List Effect}
    (h : e.handleBackendRead theReactor thePlatform theProtobuf err bytesTransferred
      = .ok (e', effects))
    : if theReactor.isShuttingDown then
        e' = e ∧ effects = []
      else if err ≠ .success then
        e' = e ∧ effects = startListening
      else
        e' = (e.isPaused thePlatform).2
          ∧ if (e.isPaused thePlatform).1 || theReactor.isLoadHigh then
              effects = startListening
            else
              ∃ buffer,
                e'.processRequest theReactor thePlatform theProtobuf
                    (theProtobuf.ParseFromString (e'.itsReceiveBuffer.take bytesTransferred)).2 []
                    = .ok buffer
                  ∧ effects = (if buffer.isEmpty then [] else [.sendTo buffer e'.itsRemoteEnd])
                    ++ startListening := by
  unfold handleBackendRead at h
  split at h
  . next hdown =>
    injection h with h
    injection h with he heffects
    rw [if_pos hdown]
    exact ⟨he.symm, heffects.symm⟩
  . next hdown =>
    rw [if_neg hdown]
    split at h
    . next herr =>
      injection h with h
      injection h with he heffects
      rw [if_pos herr]
      exact ⟨he.symm, heffects.symm⟩
    . next herr =>
      rw [if_neg herr]
      dsimp at h
      split at h
      . next hpaused =>
        injection h with h
        injection h with he heffects
        simp [hpaused, he, heffects]
      . next hpaused =>
        split at h
        . next hload =>
          injection h with h
          injection h with he heffects
          simp [hload, he, heffects]
        . next hload =>
          simp only [hpaused, hload, Bool.or_self, Bool.false_eq_true, if_false]
          cases hprocess : (e.isPaused thePlatform).2.processRequest theReactor thePlatform
              theProtobuf (theProtobuf.ParseFromString
                ((e.isPaused thePlatform).2.itsReceiveBuffer.take bytesTransferred)).2 [] with
          | error err' =>
            rw [hprocess] at h
            contradiction
          | ok buffer =>
            simp only [hprocess, bind, Except.bind] at h
            split at h
            . next hempty =>
              injection h with h
              injection h with he heffects
              rw [← he]
              exact ⟨rfl, buffer, hprocess, by simp [hempty, heffects]⟩
            . next hempty =>
              split at h
              . injection h with h
                injection h with he heffects
                rw [← he]
                exact ⟨rfl, buffer, hprocess, by simp [hempty, ← heffects]⟩
              . injection h with h
                injection h with he heffects
                rw [← he]
                exact ⟨rfl, buffer, hprocess, by simp [hempty, ← heffects]⟩
              . contradiction

@[simp]
theorem itsReceiveBuffer_isPaused (e : Engine F) (thePlatform : Platform F)
    : (e.isPaused thePlatform).2.itsReceiveBuffer = e.itsReceiveBuffer := by
  unfold isPaused
  repeat' split
  all_goals rfl

@[simp]
theorem itsRemoteEnd_isPaused (e : Engine F) (thePlatform : Platform F)
    : (e.isPaused thePlatform).2.itsRemoteEnd = e.itsRemoteEnd := by
  unfold isPaused
  repeat' split
  all_goals rfl

-- what it takes to send the reply
structure CanReply (e : Engine F) (theReactor : Reactor) (thePlatform : Platform F)
    (theProtobuf : Protobuf F) (n : Int32) : Prop where
  port : e.itsHttpPort.toNat ≤ 2147483647
  throttle : e.itsThrottleLimit.toNat ≤ 2147483647
  sends : ∃ load, thePlatform.currentLoad = .ok load
    ∧ (theProtobuf.SerializeToString (e.reply theReactor load n) ≠ [] →
      thePlatform.sendTo 0 = .ok () ∨ thePlatform.sendTo 0 = .error .systemError)

theorem CanReply.congr {e e' : Engine F} {theReactor : Reactor} {thePlatform : Platform F}
    {theProtobuf : Protobuf F} {n : Int32}
    (h : e.CanReply theReactor thePlatform theProtobuf n)
    (hconfig : e.toEngineConfig = e'.toEngineConfig)
    : e'.CanReply theReactor thePlatform theProtobuf n where
  port := by rw [← hconfig]; exact h.port
  throttle := by rw [← hconfig]; exact h.throttle
  sends := by
    rcases h.sends with ⟨load, hload, hsends⟩
    rw [reply_congr hconfig] at hsends
    exact ⟨load, hload, hsends⟩

theorem processRequest_of_request {e : Engine F} {theReactor : Reactor} {thePlatform : Platform F}
    (theProtobuf : Protobuf F) {theMessage : BroadcastMessage F} {load : F}
    (hdown : theReactor.isShuttingDown = false)
    (htype : theMessage.messageType = .serviceDiscoveryRequest)
    (hport : e.itsHttpPort.toNat ≤ 2147483647) (hthrottle : e.itsThrottleLimit.toNat ≤ 2147483647)
    (hload : thePlatform.currentLoad = .ok load)
    : e.processRequest theReactor thePlatform theProtobuf theMessage []
        =
      .ok (theProtobuf.SerializeToString
        (e.reply theReactor load (theMessage.seqnum?.getD 0))) := by
  simp only [processRequest, hdown, htype, sendDiscoveryReply, numericCastInt_of_le hport,
    numericCastInt_of_le hthrottle, hload]
  rfl

-- Only an answer can fail, and the socket may fail to send it.
theorem handleBackendRead_returns_iff (e : Engine F) (theReactor : Reactor)
    (thePlatform : Platform F) (theProtobuf : Protobuf F) (err : ErrorCode) (bytesTransferred : Nat)
    : (∃ done, e.handleBackendRead theReactor thePlatform theProtobuf err bytesTransferred
          = .ok done)
        ↔
      (theReactor.isShuttingDown = false → err = .success → (e.isPaused thePlatform).1 = false →
        theReactor.isLoadHigh = false →
          ∀ theMessage,
            (theProtobuf.ParseFromString (e.itsReceiveBuffer.take bytesTransferred)).2 = theMessage →
              theMessage.messageType = .serviceDiscoveryRequest →
                e.CanReply theReactor thePlatform theProtobuf (theMessage.seqnum?.getD 0)) := by
  unfold handleBackendRead
  cases hdown : theReactor.isShuttingDown with
  | true => simp
  | false =>
    by_cases herr : err = .success
    . cases hpaused : (e.isPaused thePlatform).1 with
      | true => simp [herr, hpaused]
      | false =>
        cases hbusy : theReactor.isLoadHigh with
        | true => simp [herr, hpaused]
        | false =>
          simp only [Bool.false_eq_true, if_false, herr, ne_eq, not_true_eq_false, hpaused,
            forall_const, itsReceiveBuffer_isPaused, forall_eq']
          generalize (theProtobuf.ParseFromString
            (e.itsReceiveBuffer.take bytesTransferred)).2 = theMessage
          have hconfig := toEngineConfig_isPaused e thePlatform
          generalize (e.isPaused thePlatform).2 = paused at hconfig
          constructor
          . rintro ⟨done, hdone⟩ htype
            cases hprocess : paused.processRequest theReactor thePlatform theProtobuf theMessage []
              with
            | error err' =>
              rw [hprocess] at hdone
              contradiction
            | ok buffer =>
              have hreply := processRequest_eq_ok hdown hprocess
              rw [if_pos htype] at hreply
              rcases hreply with ⟨hport, hthrottle, load, hload, hbuffer⟩
              refine CanReply.congr ⟨hport, hthrottle, load, hload, ?_⟩ hconfig
              intro hne
              rw [← hbuffer] at hne
              simp only [hprocess, bind, Except.bind, List.isEmpty_iff, hne, if_false] at hdone
              split at hdone
              . next hsent => exact .inl hsent
              . next hsent => exact .inr hsent
              . contradiction
          . intro hcan
            by_cases htype : theMessage.messageType = .serviceDiscoveryRequest
            . have hcan' := (hcan htype).congr hconfig.symm
              rcases hcan'.sends with ⟨load, hload, hsends⟩
              rw [processRequest_of_request theProtobuf hdown htype hcan'.port hcan'.throttle hload]
              simp only [bind, Except.bind, List.isEmpty_iff]
              split
              . exact ⟨_, rfl⟩
              . next hne =>
                rcases hsends hne with hsent | hsent
                . rw [hsent]
                  exact ⟨_, rfl⟩
                . rw [hsent]
                  exact ⟨_, rfl⟩
            . have hnone : paused.processRequest theReactor thePlatform theProtobuf theMessage []
                  = .ok [] := by
                unfold processRequest
                rw [hdown]
                cases hother : theMessage.messageType with
                | serviceDiscoveryRequest => contradiction
                | _ => rfl
              rw [hnone]
              exact ⟨_, rfl⟩
    . simp [herr]

@[simp]
theorem itsReceiveBuffer_instruct (e : Engine F) (c : PauseCommand)
    : (e.instruct c).itsReceiveBuffer = e.itsReceiveBuffer := by
  cases c with
  | setPause => rfl
  | setPauseUntil theDeadLine => rfl
  | setContinue => rfl

@[simp]
theorem itsRemoteEnd_instruct (e : Engine F) (c : PauseCommand)
    : (e.instruct c).itsRemoteEnd = e.itsRemoteEnd := by
  cases c with
  | setPause => rfl
  | setPauseUntil theDeadLine => rfl
  | setContinue => rfl

end Engine

namespace BackendLoop

@[simp]
theorem engine_performAll (loop : BackendLoop F) (effects : List Effect)
    : (loop.performAll effects).engine = loop.engine := by
  unfold performAll
  induction effects generalizing loop with
  | nil => rfl
  | cons effect effects ih =>
    rw [List.foldl_cons, ih]
    cases effect with
    | _ => rfl

@[simp]
theorem completed_performAll (loop : BackendLoop F) (effects : List Effect)
    : (loop.performAll effects).completed = loop.completed := by
  unfold performAll
  induction effects generalizing loop with
  | nil => rfl
  | cons effect effects ih =>
    rw [List.foldl_cons, ih]
    cases effect with
    | _ => rfl

theorem pendingReceives_performAll (loop : BackendLoop F) (effects : List Effect)
    : (loop.performAll effects).pendingReceives
        =
      loop.pendingReceives + effects.count .asyncReceiveFrom := by
  unfold performAll
  induction effects generalizing loop with
  | nil => rfl
  | cons effect effects ih =>
    rw [List.foldl_cons, ih, List.count_cons]
    cases effect with
    | asyncReceiveFrom =>
      simp only [perform, beq_self_eq_true, if_true]
      omega
    | _ => rfl

theorem step_runHandler {theProtobuf : Protobuf F} {loop loop' : BackendLoop F} {index : Nat}
    {theReactor : Reactor} {thePlatform : Platform F} {effects : List Effect}
    (h : loop.step theProtobuf (.runHandler index theReactor thePlatform) = some (loop', effects))
    : ∃ err bytesTransferred engine, loop.completed[index]? = some (err, bytesTransferred)
        ∧ loop.engine.handleBackendRead theReactor thePlatform theProtobuf err bytesTransferred
          = .ok (engine, effects)
        ∧ loop' = performAll
          { loop with engine, completed := loop.completed.eraseIdx index } effects := by
  simp only [step] at h
  split at h
  . contradiction
  . next err bytesTransferred hcompleted =>
    split at h
    . contradiction
    . next engine effects' hhandle =>
      injection h with h
      injection h with hloop heffects
      rw [heffects] at hhandle hloop
      exact ⟨err, bytesTransferred, engine, hcompleted, hhandle, hloop.symm⟩

theorem count_asyncReceiveFrom {e e' : Engine F} {theReactor : Reactor}
    {thePlatform : Platform F} {theProtobuf : Protobuf F} {err : ErrorCode}
    {bytesTransferred : Nat} {effects : List Effect}
    (h : e.handleBackendRead theReactor thePlatform theProtobuf err bytesTransferred
      = .ok (e', effects))
    : effects.count .asyncReceiveFrom = if theReactor.isShuttingDown then 0 else 1 := by
  have hcases := Engine.handleBackendRead_eq_ok h
  split at hcases
  . next hdown => simp [hcases.2, hdown]
  . next hdown =>
    rw [if_neg hdown]
    split at hcases
    . rw [hcases.2]
      rfl
    . rcases hcases with ⟨_, hcases⟩
      split at hcases
      . rw [hcases]
        rfl
      . rcases hcases with ⟨buffer, _, heffects⟩
        rw [heffects]
        split
        . rfl
        . rfl

theorem outstanding_step {theProtobuf : Protobuf F} {loop loop' : BackendLoop F}
    {event : BackendEvent F} {effects : List Effect}
    (h : loop.step theProtobuf event = some (loop', effects))
    : loop'.outstanding + (if event.stops then 1 else 0) = loop.outstanding := by
  cases event with
  | datagramArrives datagram remoteEnd =>
    simp only [step] at h
    split at h
    . contradiction
    . next n hn =>
      injection h with h
      injection h with hloop _
      simp [← hloop, outstanding, BackendEvent.stops, hn]
      omega
  | receiveFails =>
    simp only [step] at h
    split at h
    . contradiction
    . next n hn =>
      injection h with h
      injection h with hloop _
      simp [← hloop, outstanding, BackendEvent.stops, hn]
      omega
  | runHandler index theReactor thePlatform =>
    rcases step_runHandler h with ⟨err, n, engine, hcompleted, hhandle, hloop⟩
    have hcount := count_asyncReceiveFrom hhandle
    rcases List.getElem?_eq_some_iff.mp hcompleted with ⟨hindex, _⟩
    have hlength := List.length_eraseIdx_of_lt hindex
    rw [hloop]
    simp only [outstanding, pendingReceives_performAll, completed_performAll, hcount, hlength,
      BackendEvent.stops]
    by_cases hdown : theReactor.isShuttingDown = true
    . simp only [hdown, if_true]
      omega
    . simp only [hdown, Bool.false_eq_true, if_false]
      omega
  | command c =>
    injection h with h
    injection h with hloop _
    rw [← hloop]
    rfl

/--
A backend never has more than one receive outstanding: exactly one as long as none of its handlers
has run during the shutdown, and none afterwards.
-/
theorem outstanding_run [FloatArith F] (config : EngineConfig F) (pause : Bool)
    (theProtobuf : Protobuf F) (events : List (BackendEvent F)) (loop : BackendLoop F)
    (hrun : Lib.run (next theProtobuf) (start config pause) events = some loop)
    : loop.outstanding + events.countP BackendEvent.stops = 1 := by
  apply Lib.run_history (P := fun events loop =>
    loop.outstanding + events.countP BackendEvent.stops = 1) _ rfl hrun
  intro events loop event loop' _ hloop hstep
  rcases Option.map_eq_some_iff.mp hstep with ⟨⟨next, effects⟩, hnext, rfl⟩
  have hsame := outstanding_step hnext
  rw [List.countP_append, List.countP_singleton]
  dsimp
  omega

-- A completed receive has left this arrival behind.
def Received (e : Engine F) (err : ErrorCode) (bytesTransferred : Nat)
    : Option (ByteString × Endpoint) → Prop
  | some (datagram, remoteEnd) =>
    err = .success ∧ e.itsReceiveBuffer.take bytesTransferred = datagram.take 8192
      ∧ e.itsRemoteEnd = remoteEnd
  | none => err = .other

-- what the events so far have made of a backend with this configuration
structure After (config : EngineConfig F) (pause : Bool) (events : List (BackendEvent F))
    (loop : BackendLoop F) : Prop where
  toEngineConfig : loop.engine.toEngineConfig = config
  outstanding : loop.outstanding ≤ 1
  arrived : (BackendEvent.arrivals events).length
    = events.countP BackendEvent.runs + loop.completed.length
  received : ∀ err bytesTransferred, (err, bytesTransferred) ∈ loop.completed →
    ∃ arrival, (BackendEvent.arrivals events).getLast? = some arrival
      ∧ Received loop.engine err bytesTransferred arrival
  paused : ∀ thePlatform : Platform F,
    (∀ now ∈ BackendEvent.clocks events, now ≤ thePlatform.universalTime) →
      ((loop.engine.isPaused thePlatform).1 = true
        ↔
      PauseCommand.Paused pause (BackendEvent.commands events) thePlatform.universalTime)

theorem after_start [FloatArith F] (config : EngineConfig F) (pause : Bool)
    : After config pause [] (start config pause) where
  toEngineConfig := rfl
  outstanding := Nat.le_refl 1
  arrived := rfl
  received := by simp [start, Engine.new]
  paused := by
    intro thePlatform _
    apply Engine.isPaused_new

section After

variable {config : EngineConfig F} {pause : Bool} {events : List (BackendEvent F)}
  {theProtobuf : Protobuf F} {loop loop' : BackendLoop F} {effects : List Effect}

theorem After.arrives (hloop : After config pause events loop) {event : BackendEvent F}
    {arrival : Option (ByteString × Endpoint)} {err : ErrorCode} {n : Nat}
    (harrival : event.arrival? = some arrival) (hcommand : event.command? = none)
    (hnow : event.now? = none) (hruns : event.runs = false) (hpending : 0 < loop.pendingReceives)
    (hconfig : loop'.engine.toEngineConfig = loop.engine.toEngineConfig)
    (hpaused : ∀ thePlatform, (loop'.engine.isPaused thePlatform).1
      = (loop.engine.isPaused thePlatform).1)
    (hcompleted : loop'.completed = loop.completed ++ [(err, n)])
    (houtstanding : loop'.outstanding = loop.outstanding)
    (hreceived : Received loop'.engine err n arrival)
    : After config pause (events ++ [event]) loop' where
  toEngineConfig := by rw [hconfig, hloop.toEngineConfig]
  outstanding := by
    rw [houtstanding]
    apply hloop.outstanding
  arrived := by
    have := hloop.arrived
    simp only [BackendEvent.arrivals, List.filterMap_append, List.filterMap_cons,
      List.filterMap_nil, harrival, List.length_append, List.countP_append, List.countP_singleton,
      hruns, hcompleted, List.length_singleton, Bool.false_eq_true, if_false] at this ⊢
    omega
  received := by
    have hnone : loop.completed = [] := by
      have := hloop.outstanding
      unfold BackendLoop.outstanding at this
      apply List.eq_nil_of_length_eq_zero
      omega
    intro err' n' hmem
    rw [hcompleted, hnone, List.nil_append, List.mem_singleton, Prod.mk.injEq] at hmem
    rw [hmem.1, hmem.2]
    refine ⟨arrival, ?_, hreceived⟩
    simp [BackendEvent.arrivals, harrival]
  paused := by
    intro thePlatform hclock
    simp only [BackendEvent.clocks, BackendEvent.commands, List.filterMap_append,
      List.filterMap_cons, List.filterMap_nil, hcommand, hnow, List.append_nil] at hclock ⊢
    rw [hpaused]
    apply hloop.paused thePlatform hclock

theorem After.handled (hloop : After config pause events loop) {index : Nat}
    {theReactor : Reactor} {thePlatform : Platform F}
    (h : loop.step theProtobuf (.runHandler index theReactor thePlatform) = some (loop', effects))
    : After config pause (events ++ [.runHandler index theReactor thePlatform]) loop' := by
  have hsame := outstanding_step h
  rcases step_runHandler h with ⟨err, n, engine, hcompleted, hhandle, hloop'⟩
  have hcases := Engine.handleBackendRead_eq_ok hhandle
  have hengine : engine = loop.engine ∨ engine = (loop.engine.isPaused thePlatform).2 := by
    split at hcases
    . exact .inl hcases.1
    . split at hcases
      . exact .inl hcases.1
      . exact .inr hcases.1
  have hempty : loop.completed.eraseIdx index = [] := by
    rcases List.getElem?_eq_some_iff.mp hcompleted with ⟨hindex, _⟩
    have := hloop.outstanding
    unfold BackendLoop.outstanding at this
    apply List.eq_nil_of_length_eq_zero
    rw [List.length_eraseIdx_of_lt hindex]
    omega
  exact {
    toEngineConfig := by
      rw [hloop', engine_performAll, ← hloop.toEngineConfig]
      cases hengine with
      | inl heq => rw [heq]
      | inr heq => rw [heq, Engine.toEngineConfig_isPaused]
    outstanding := by
      have := hloop.outstanding
      omega
    arrived := by
      have hbefore := hloop.arrived
      rcases List.getElem?_eq_some_iff.mp hcompleted with ⟨hindex, _⟩
      rw [hloop', completed_performAll, List.length_eraseIdx_of_lt hindex, List.countP_append]
      simp only [BackendEvent.arrivals, List.filterMap_append, List.filterMap_cons,
        List.filterMap_nil, BackendEvent.arrival?, List.append_nil, List.countP_singleton,
        BackendEvent.runs, if_true] at hbefore ⊢
      omega
    received := by
      intro err' n' hmem
      rw [hloop', completed_performAll, hempty] at hmem
      contradiction
    paused := by
      intro later hclock
      simp only [BackendEvent.clocks, BackendEvent.commands, List.filterMap_append,
        List.filterMap_cons, List.filterMap_nil, BackendEvent.now?, BackendEvent.command?,
        List.append_nil, List.mem_append, List.mem_singleton] at hclock ⊢
      have hlater : thePlatform.universalTime ≤ later.universalTime := hclock _ (.inr rfl)
      rw [hloop', engine_performAll]
      have hbefore := hloop.paused later fun now hnow => hclock now (.inl hnow)
      cases hengine with
      | inl heq => rwa [heq]
      | inr heq => rwa [heq, Engine.isPaused_isPaused _ hlater]
  }

theorem after_step (hloop : After config pause events loop) {event : BackendEvent F}
    (h : loop.step theProtobuf event = some (loop', effects))
    : After config pause (events ++ [event]) loop' := by
  have hsame := outstanding_step h
  cases event with
  | datagramArrives datagram remoteEnd =>
    simp only [step] at h
    split at h
    . contradiction
    . next n hn =>
      injection h with h
      injection h with hloop' _
      simp only [BackendEvent.stops, Bool.false_eq_true, if_false, Nat.add_zero] at hsame
      have hreceived : Received loop'.engine .success (datagram.take 8192).length
          (some (datagram, remoteEnd)) := by
        rw [← hloop']
        exact ⟨rfl, Engine.take_itsReceiveBuffer_fill _ _ _, rfl⟩
      apply hloop.arrives rfl rfl rfl rfl (by omega) _ _ _ hsame hreceived
      . rw [← hloop']
        rfl
      . intro thePlatform
        rw [← hloop']
        apply Engine.isPaused_fill
      . rw [← hloop']
  | receiveFails =>
    simp only [step] at h
    split at h
    . contradiction
    . next n hn =>
      injection h with h
      injection h with hloop' _
      simp only [BackendEvent.stops, Bool.false_eq_true, if_false, Nat.add_zero] at hsame
      have hreceived : Received loop'.engine .other 0 none := rfl
      apply hloop.arrives rfl rfl rfl rfl (by omega) _ _ _ hsame hreceived
      all_goals simp [← hloop']
  | runHandler index theReactor thePlatform => apply hloop.handled h
  | command c =>
    injection h with h
    injection h with hloop' _
    rw [← hloop']
    exact {
      toEngineConfig := by
        dsimp
        rw [Engine.toEngineConfig_instruct, hloop.toEngineConfig]
      outstanding := hloop.outstanding
      arrived := by
        have := hloop.arrived
        simpa [BackendEvent.arrivals, BackendEvent.arrival?, BackendEvent.runs,
          List.filterMap_cons] using this
      received := by
        intro err n hmem
        rcases hloop.received err n hmem with ⟨arrival, hlast, hreceived⟩
        refine ⟨arrival, ?_, ?_⟩
        . simpa [BackendEvent.arrivals, BackendEvent.arrival?] using hlast
        . cases arrival with
          | none => assumption
          | some arrival => simpa [Received] using hreceived
      paused := by
        intro thePlatform _
        dsimp
        rw [Engine.isPaused_instruct]
        simp [BackendEvent.commands, BackendEvent.command?]
    }

theorem after_run [FloatArith F]
    (hrun : Lib.run (next theProtobuf) (start config pause) events = some loop)
    : After config pause events loop := by
  apply Lib.run_history (P := After config pause) _ (after_start config pause) hrun
  intro events loop event loop' _ hloop hstep
  rcases Option.map_eq_some_iff.mp hstep with ⟨⟨next, effects⟩, hnext, rfl⟩
  apply after_step hloop hnext

-- what a backend that neither pauses nor is under load makes of a datagram
def Answers (b : Engine F) (theReactor : Reactor) (thePlatform : Platform F)
    (theProtobuf : Protobuf F) (datagram : ByteString) (remoteEnd : Endpoint)
    (effects : List Effect) : Prop :=
  let message := (theProtobuf.ParseFromString (datagram.take 8192)).2
  if message.messageType = .serviceDiscoveryRequest then
    ∃ load, thePlatform.currentLoad = .ok load
      ∧ effects = .sendTo (theProtobuf.SerializeToString
          (b.reply theReactor load (message.seqnum?.getD 0))) remoteEnd :: Engine.startListening
  else
    effects = Engine.startListening

structure Response (b : Engine F) (theReactor : Reactor) (thePlatform : Platform F)
    (theProtobuf : Protobuf F) (paused : Prop) (arrival : Option (ByteString × Endpoint))
    (effects : List Effect) : Prop where
  stops : theReactor.isShuttingDown = true → effects = []
  listens : theReactor.isShuttingDown = false →
    arrival = none ∨ paused ∨ theReactor.isLoadHigh = true → effects = Engine.startListening
  answers : theReactor.isShuttingDown = false → ¬paused → theReactor.isLoadHigh = false →
    ∀ datagram remoteEnd, arrival = some (datagram, remoteEnd) →
      Answers b theReactor thePlatform theProtobuf datagram remoteEnd effects

theorem After.response [FloatArith F] (hloop : After config pause events loop) {index : Nat}
    {theReactor : Reactor} {thePlatform : Platform F}
    (hserialize : ∀ message, message.isInitialized = true →
      theProtobuf.SerializeToString message ≠ [])
    (hclock : ∀ now ∈ BackendEvent.clocks events, now ≤ thePlatform.universalTime)
    (h : loop.step theProtobuf (.runHandler index theReactor thePlatform) = some (loop', effects))
    : ∃ arrival,
        (BackendEvent.arrivals events)[events.countP BackendEvent.runs]? = some arrival
          ∧ Response (.new config false) theReactor thePlatform theProtobuf
            (PauseCommand.Paused pause (BackendEvent.commands events) thePlatform.universalTime)
            arrival effects := by
  rcases step_runHandler h with ⟨err, n, engine, hcompleted, hhandle, _⟩
  have hmem := List.mem_of_getElem? hcompleted
  rcases hloop.received err n hmem with ⟨arrival, hlast, hreceived⟩
  have hcases := Engine.handleBackendRead_eq_ok hhandle
  have hpaused := hloop.paused thePlatform hclock
  refine ⟨arrival, ?_, ?_⟩
  . have hone := hloop.outstanding
    have harrived := hloop.arrived
    have hpos := List.length_pos_of_mem hmem
    unfold BackendLoop.outstanding at hone
    rw [List.getLast?_eq_getElem?] at hlast
    rwa [show events.countP BackendEvent.runs = (BackendEvent.arrivals events).length - 1 by omega]
  . constructor
    . intro hdown
      rw [if_pos hdown] at hcases
      exact hcases.2
    . intro hdown hquiet
      rw [if_neg (by simp [hdown])] at hcases
      split at hcases
      . exact hcases.2
      . next herr =>
        have hbusy : ((loop.engine.isPaused thePlatform).1 || theReactor.isLoadHigh) = true := by
          rw [Bool.or_eq_true, hpaused]
          rcases hquiet with hnone | hquiet
          . rw [hnone] at hreceived
            rw [hreceived] at herr
            simp at herr
          . assumption
        rw [if_pos hbusy] at hcases
        exact hcases.2
    . intro hdown hserves hload datagram remoteEnd harrival
      rw [harrival] at hreceived
      rcases hreceived with ⟨herr, hbuffer, hremote⟩
      have hidle : ¬((loop.engine.isPaused thePlatform).1 || theReactor.isLoadHigh) = true := by
        rw [Bool.or_eq_true, hpaused, hload]
        simpa using hserves
      rw [if_neg (by simp [hdown]), if_neg (by simp [herr]), if_neg hidle] at hcases
      rcases hcases with ⟨hengine, buffer, hprocess, heffects⟩
      have hreply := Engine.processRequest_eq_ok hdown hprocess
      have hconfig : engine.toEngineConfig = (Engine.new config false).toEngineConfig := by
        rw [hengine, Engine.toEngineConfig_isPaused, hloop.toEngineConfig]
        rfl
      rw [hengine, Engine.itsReceiveBuffer_isPaused, hbuffer] at hreply
      rw [hengine, Engine.itsRemoteEnd_isPaused, hremote] at heffects
      unfold Answers
      dsimp
      split at hreply
      . next hrequest =>
        rw [if_pos hrequest]
        rcases hreply with ⟨_, _, load, hcurrent, hreply⟩
        refine ⟨load, hcurrent, ?_⟩
        rw [← hengine, Engine.reply_congr hconfig] at hreply
        have hne : buffer ≠ [] := by
          rw [hreply]
          apply hserialize
          apply Engine.reply_isInitialized
        rw [heffects, ← hreply]
        simp [hne]
      . next hother =>
        rw [if_neg hother, heffects, hreply]
        rfl

end After

/--
The k-th handler that runs at a backend deals with the k-th arrival. Unless the backend shuts down,
is paused by the last command or is under load, it answers whatever the parse leaves with the type
of a request, also of a malformed datagram, and nothing else, with the number that the parse leaves
and to the sender.
-/
theorem responds_of_run [FloatArith F] (config : EngineConfig F) (pause : Bool)
    (theProtobuf : Protobuf F) (events : List (BackendEvent F)) (loop loop' : BackendLoop F)
    (index : Nat) (theReactor : Reactor) (thePlatform : Platform F) (effects : List Effect)
    (hserialize : ∀ message, message.isInitialized = true →
      theProtobuf.SerializeToString message ≠ [])
    (hclock : ∀ now ∈ BackendEvent.clocks events, now ≤ thePlatform.universalTime)
    (hrun : Lib.run (next theProtobuf) (start config pause) events = some loop)
    (hstep : loop.step theProtobuf (.runHandler index theReactor thePlatform)
      = some (loop', effects))
    : ∃ arrival,
        (BackendEvent.arrivals events)[events.countP BackendEvent.runs]? = some arrival
          ∧ Response (.new config false) theReactor thePlatform theProtobuf
            (PauseCommand.Paused pause (BackendEvent.commands events) thePlatform.universalTime)
            arrival effects := by
  apply After.response (after_run hrun) hserialize hclock hstep

section Sample

open Sample

-- the request with the number 1 of a frontend with the name `f`
def firstRequest : ByteString := [10, 1, 102, 16, 0, 24, 1]

def answerProtobuf : Protobuf Rat where
  ParseFromString datagram :=
    if datagram = firstRequest then
      (true, {
        name? := some (ByteString.lit "f")
        messageType? := some .serviceDiscoveryRequest
        seqnum? := some 1 })
    else
      (false, {})
  SerializeToString _ := Engine.handlersReply

theorem outstanding_run_sample
    : ∃ loop, Lib.run (next answerProtobuf) (start config false)
          [.datagramArrives firstRequest ⟨1, 2⟩, .runHandler 0 Engine.handlers platform] = some loop
        ∧ loop.outstanding = 1 := by
  refine ⟨_, rfl, ?_⟩
  have hone := outstanding_run config false answerProtobuf
    [.datagramArrives firstRequest ⟨1, 2⟩, .runHandler 0 Engine.handlers platform] _ rfl
  exact hone

-- The pause is over when the handler runs.
def expiredPause : List (BackendEvent Rat) :=
  [.command (.setPauseUntil 10), .datagramArrives firstRequest ⟨1, 2⟩]

theorem responds_of_run_sample
    : ∃ arrival,
        (BackendEvent.arrivals expiredPause)[expiredPause.countP BackendEvent.runs]? = some arrival
          ∧ Response (.new config false) Engine.handlers { platform with universalTime := 12 }
            answerProtobuf
            (PauseCommand.Paused false (BackendEvent.commands expiredPause) 12) arrival
            [.sendTo Engine.handlersReply ⟨1, 2⟩, .asyncReceiveFrom] := by
  apply responds_of_run config false answerProtobuf expiredPause _ _ 0 Engine.handlers
    { platform with universalTime := 12 } _ _ _ rfl rfl
  . simp [answerProtobuf, Engine.handlersReply]
  . simp [BackendEvent.clocks, expiredPause, BackendEvent.now?, List.filterMap_cons]

end Sample

end BackendLoop

end Sputnik
