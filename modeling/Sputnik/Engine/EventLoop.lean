import Sputnik.Engine.Lemmas

/-!
This module contains the single-threaded event loop of a frontend: the pending operations on its
socket and on its timer, the queue of completed operations whose handlers wait to run, and when two
receives are outstanding at the same time.
-/

namespace Sputnik

variable {F : Type}

inductive Completion where
  | frontendRead (err : ErrorCode) (bytesTransferred : Nat)
  | deadlineTimer (err : ErrorCode)
  deriving DecidableEq, Repr

namespace Completion

def isReceived : Completion → Bool
  | .frontendRead err _ => err ≠ .operationAborted
  | .deadlineTimer _ => false

def isDeadline : Completion → Bool
  | .frontendRead .. => false
  | .deadlineTimer err => err ≠ .operationAborted

end Completion

structure EventLoop (F : Type) where
  engine : Engine F
  pendingReceives : Nat
  pendingWaits : Nat
  completed : List Completion

inductive LoopEvent where
  | datagramArrives (datagram : ByteString) (remoteEnd : Endpoint)
  | timerExpires
  | runHandler (index : Nat)

namespace EventLoop

def perform (loop : EventLoop F) : Effect → EventLoop F
  | .cancel =>
    { loop with
      pendingReceives := 0
      completed := loop.completed
        ++ List.replicate loop.pendingReceives (.frontendRead .operationAborted 0) }
  | .asyncReceiveFrom => { loop with pendingReceives := loop.pendingReceives + 1 }
  | .expiresAfter _ =>
    { loop with
      pendingWaits := 0
      completed := loop.completed
        ++ List.replicate loop.pendingWaits (.deadlineTimer .operationAborted) }
  | .asyncWait => { loop with pendingWaits := loop.pendingWaits + 1 }
  | .sendTo _ _ => loop

def performAll (loop : EventLoop F) (effects : List Effect) : EventLoop F :=
  effects.foldl perform loop

-- The buffer holds 8192 bytes; a longer datagram is cut off.
def receive (loop : EventLoop F) (datagram : ByteString) (remoteEnd : Endpoint) : EventLoop F :=
  let content := datagram.take 8192
  { loop with
    engine := { loop.engine with
      itsReceiveBuffer := content ++ loop.engine.itsReceiveBuffer.drop content.length
      itsRemoteEnd := remoteEnd }
    completed := loop.completed ++ [.frontendRead .success content.length] }

-- receives that are pending or have read a datagram their handler has not parsed yet
def outstanding (loop : EventLoop F) : Nat :=
  loop.pendingReceives + loop.completed.countP Completion.isReceived

end EventLoop

namespace EventLoop

@[simp]
theorem outstanding_asyncReceiveFrom (loop : EventLoop F)
    : (loop.perform .asyncReceiveFrom).outstanding = loop.outstanding + 1 := by
  simp only [perform, outstanding]
  omega

@[simp]
theorem outstanding_asyncWait (loop : EventLoop F)
    : (loop.perform .asyncWait).outstanding = loop.outstanding := rfl

@[simp]
theorem outstanding_expiresAfter (loop : EventLoop F) (seconds : UInt32)
    : (loop.perform (.expiresAfter seconds)).outstanding = loop.outstanding := by
  simp [perform, outstanding, Completion.isReceived]

@[simp]
theorem outstanding_cancel (loop : EventLoop F)
    : (loop.perform .cancel).outstanding = loop.completed.countP Completion.isReceived := by
  simp [perform, outstanding, Completion.isReceived]

theorem performAll_sends {loop : EventLoop F} {sends : List Effect}
    (h : ∀ effect ∈ sends, effect.isSend = true) : loop.performAll sends = loop := by
  unfold performAll
  induction sends with
  | nil => rfl
  | cons effect sends ih =>
    rw [List.forall_mem_cons] at h
    rw [List.foldl_cons]
    cases effect with
    | sendTo buffer dest => apply ih h.2
    | _ => simp [Effect.isSend] at h

theorem performAll_append (loop : EventLoop F) (effects effects' : List Effect)
    : loop.performAll (effects ++ effects') = (loop.performAll effects).performAll effects' := by
  apply List.foldl_append

theorem outstanding_armed {loop : EventLoop F} {sends : List Effect} (e : Engine F)
    (h : ∀ effect ∈ sends, effect.isSend = true)
    : (loop.performAll (sends ++ e.armed)).outstanding = loop.outstanding + 1 := by
  rw [performAll_append, performAll_sends h]
  simp [Engine.armed, performAll]

theorem countP_eraseIdx {l : List Completion} {i : Nat} {c : Completion} (h : l[i]? = some c)
    : (l.eraseIdx i).countP Completion.isReceived + (if c.isReceived then 1 else 0)
        =
      l.countP Completion.isReceived := by
  rcases List.getElem?_eq_some_iff.mp h with ⟨hi, hc⟩
  have hperm := List.Perm.countP_eq Completion.isReceived (List.getElem_cons_eraseIdx_perm hi)
  rw [List.countP_cons, hc] at hperm
  assumption

theorem received_eq_false {loop : EventLoop F}
    (h : loop.completed.countP Completion.isReceived = 0)
    : ∀ completion ∈ loop.completed, completion.isReceived = false := by
  rw [List.countP_eq_zero] at h
  simpa using h

end EventLoop

variable [FloatArith F]

namespace EventLoop

def handle (theReactor : Reactor) (thePlatform : Platform F) (theProtobuf : Protobuf F)
    (e : Engine F) : Completion → Except Error (Engine F × List Effect)
  | .frontendRead err bytesTransferred =>
    e.handleFrontendRead theReactor theProtobuf err bytesTransferred
  | .deadlineTimer err => e.handleDeadlineTimer theReactor thePlatform theProtobuf err

/--
One event of the loop, next to what its handler reads from outside. A datagram completes a pending
receive, and a handler that throws ends the loop.
-/
def step (theProtobuf : Protobuf F) (loop : EventLoop F)
    : LoopEvent × Reactor × Platform F → Option (EventLoop F)
  | (.datagramArrives datagram remoteEnd, _, _) =>
    match loop.pendingReceives with
    | 0 => none
    | n + 1 => some { loop.receive datagram remoteEnd with pendingReceives := n }
  | (.timerExpires, _, _) =>
    match loop.pendingWaits with
    | 0 => none
    | n + 1 =>
      some { loop with
        pendingWaits := n
        completed := loop.completed ++ [.deadlineTimer .success] }
  | (.runHandler index, theReactor, thePlatform) =>
    match loop.completed[index]? with
    | none => none
    | some completion =>
      match handle theReactor thePlatform theProtobuf loop.engine completion with
      | .error _ => none
      | .ok (engine, effects) =>
        some ({ loop with engine, completed := loop.completed.eraseIdx index }.performAll effects)

def launch (config : EngineConfig F) (pause : Bool) (theReactor : Reactor)
    (thePlatform : Platform F) (theProtobuf : Protobuf F) : Option (EventLoop F) :=
  match (Engine.new config pause).frontendMode theReactor thePlatform theProtobuf with
  | .error _ => none
  | .ok (engine, effects) =>
    some (performAll { engine, pendingReceives := 0, pendingWaits := 0, completed := [] } effects)

def DeadlineAfterReads (loop : EventLoop F) : LoopEvent × Reactor × Platform F → Prop
  | (.runHandler index, theReactor, _) =>
    loop.completed[index]?.any Completion.isDeadline = true → theReactor.isShuttingDown = false →
      ∀ other ∈ loop.completed, other.isReceived = false
  | _ => True

instance (loop : EventLoop F)
    : ∀ event : LoopEvent × Reactor × Platform F, Decidable (loop.DeadlineAfterReads event)
  | (.runHandler index, theReactor, _) =>
    inferInstanceAs (Decidable
      (loop.completed[index]?.any Completion.isDeadline = true →
        theReactor.isShuttingDown = false → ∀ other ∈ loop.completed, other.isReceived = false))
  | (.datagramArrives .., _, _) => .isTrue trivial
  | (.timerExpires, _, _) => .isTrue trivial

def ReceivesOne (loop : EventLoop F) (event : LoopEvent × Reactor × Platform F)
    (loop' : EventLoop F) : Prop :=
  loop'.outstanding ≤ 1
    ∧ ∀ datagram remoteEnd, event.1 = .datagramArrives datagram remoteEnd →
      ∀ completion ∈ loop.completed, completion.isReceived = false

theorem effects_handleFrontendRead {e e' : Engine F} {theReactor : Reactor}
    {theProtobuf : Protobuf F} {err : ErrorCode} {bytesTransferred : Nat} {effects : List Effect}
    (h : e.handleFrontendRead theReactor theProtobuf err bytesTransferred = .ok (e', effects))
    : effects = if err = .operationAborted then [] else [.asyncReceiveFrom] := by
  simp only [Engine.handleFrontendRead, bind, Except.bind] at h
  split at h
  . next habort =>
    injection h with h
    injection h with _ heffects
    rw [if_pos habort, heffects]
  . next habort =>
    rw [if_neg habort]
    split at h
    . split at h
      . contradiction
      . injection h with h
        injection h with _ heffects
        exact heffects.symm
    . injection h with h
      injection h with _ heffects
      exact heffects.symm

theorem step_runHandler {theProtobuf : Protobuf F} {loop loop' : EventLoop F} {index : Nat}
    {theReactor : Reactor} {thePlatform : Platform F}
    (h : loop.step theProtobuf (.runHandler index, theReactor, thePlatform) = some loop')
    : ∃ completion engine effects, loop.completed[index]? = some completion
        ∧ handle theReactor thePlatform theProtobuf loop.engine completion = .ok (engine, effects)
        ∧ loop' = performAll
          { loop with engine, completed := loop.completed.eraseIdx index } effects := by
  simp only [step] at h
  split at h
  . contradiction
  . next completion hcompletion =>
    split at h
    . contradiction
    . next engine effects hhandle =>
      exact ⟨completion, engine, effects, hcompletion, hhandle, (Option.some.inj h).symm⟩

theorem outstanding_runRead {theProtobuf : Protobuf F} {loop loop' : EventLoop F} {index : Nat}
    {theReactor : Reactor} {thePlatform : Platform F} {err : ErrorCode} {n : Nat}
    (h : loop.step theProtobuf (.runHandler index, theReactor, thePlatform) = some loop')
    (hread : loop.completed[index]? = some (.frontendRead err n))
    : loop'.outstanding = loop.outstanding := by
  rcases step_runHandler h with ⟨completion, engine, effects, hcompletion, hhandle, hloop⟩
  rw [hread] at hcompletion
  rw [← Option.some.inj hcompletion] at hhandle
  have heffects := effects_handleFrontendRead hhandle
  have hcount := countP_eraseIdx hread
  rw [hloop, heffects]
  split
  . next habort =>
    simp only [Completion.isReceived, habort] at hcount
    simpa [performAll, outstanding] using hcount
  . next habort =>
    simp only [Completion.isReceived, ne_eq, habort, not_false_eq_true, decide_true,
      if_true] at hcount
    simp only [performAll, List.foldl_cons, List.foldl_nil, outstanding_asyncReceiveFrom]
    simp only [outstanding]
    omega

-- The handler of the deadline cancels what is pending, and arms a receive next to what completed.
theorem outstanding_runDeadline {theProtobuf : Protobuf F} {loop loop' : EventLoop F} {index : Nat}
    {theReactor : Reactor} {thePlatform : Platform F} {err : ErrorCode}
    (h : loop.step theProtobuf (.runHandler index, theReactor, thePlatform) = some loop')
    (hdeadline : loop.completed[index]? = some (.deadlineTimer err))
    (herr : err ≠ .operationAborted)
    : loop'.outstanding
        =
      loop.completed.countP Completion.isReceived + if theReactor.isShuttingDown then 0 else 1 := by
  rcases step_runHandler h with ⟨completion, engine, effects, hcompletion, hhandle, hloop⟩
  rw [hdeadline] at hcompletion
  rw [← Option.some.inj hcompletion] at hhandle
  rcases Engine.handleDeadlineTimer_eq_ok herr hhandle with ⟨e₁, _, hcases⟩
  have hcount := countP_eraseIdx hdeadline
  simp only [Completion.isReceived, Bool.false_eq_true, if_false, Nat.add_zero] at hcount
  rw [hloop]
  split at hcases
  . next hdown =>
    rw [hcases.2]
    simpa [performAll, hdown] using hcount
  . next hdown =>
    rcases hcases with ⟨_, sends, heffects, hsends⟩
    rw [heffects, ← List.singleton_append, performAll_append, outstanding_armed engine hsends]
    simpa [performAll, hdown] using hcount

theorem outstanding_runAborted {theProtobuf : Protobuf F} {loop loop' : EventLoop F} {index : Nat}
    {theReactor : Reactor} {thePlatform : Platform F}
    (h : loop.step theProtobuf (.runHandler index, theReactor, thePlatform) = some loop')
    (haborted : loop.completed[index]? = some (.deadlineTimer .operationAborted))
    : loop'.outstanding = loop.outstanding := by
  rcases step_runHandler h with ⟨completion, engine, effects, hcompletion, hhandle, hloop⟩
  rw [haborted] at hcompletion
  rw [← Option.some.inj hcompletion] at hhandle
  injection hhandle with hhandle
  injection hhandle with _ heffects
  have hcount := countP_eraseIdx haborted
  rw [hloop, ← heffects]
  simpa [performAll, outstanding, Completion.isReceived] using hcount

theorem outstanding_datagramArrives {theProtobuf : Protobuf F} {loop loop' : EventLoop F}
    {datagram : ByteString} {remoteEnd : Endpoint} {theReactor : Reactor}
    {thePlatform : Platform F}
    (h : loop.step theProtobuf (.datagramArrives datagram remoteEnd, theReactor, thePlatform)
      = some loop')
    : loop'.outstanding = loop.outstanding ∧ 0 < loop.pendingReceives := by
  simp only [step] at h
  split at h
  . contradiction
  . next n hn =>
    rw [← Option.some.inj h]
    constructor
    . simp [outstanding, receive, Completion.isReceived, hn]
      omega
    . omega

theorem outstanding_timerExpires {theProtobuf : Protobuf F} {loop loop' : EventLoop F}
    {theReactor : Reactor} {thePlatform : Platform F}
    (h : loop.step theProtobuf (.timerExpires, theReactor, thePlatform) = some loop')
    : loop'.outstanding = loop.outstanding := by
  simp only [step] at h
  split at h
  . contradiction
  . rw [← Option.some.inj h]
    simp [outstanding, Completion.isReceived]

theorem receivesOne_step {theProtobuf : Protobuf F} {loop loop' : EventLoop F}
    {event : LoopEvent × Reactor × Platform F} (hloop : loop.outstanding ≤ 1)
    (h : loop.step theProtobuf event = some loop')
    : loop.ReceivesOne event loop' ↔ loop.DeadlineAfterReads event := by
  rcases event with ⟨event, theReactor, thePlatform⟩
  cases event with
  | datagramArrives datagram remoteEnd =>
    rcases outstanding_datagramArrives h with ⟨hsame, hpending⟩
    have hnone : loop.completed.countP Completion.isReceived = 0 := by
      unfold outstanding at hloop
      omega
    refine iff_of_true ⟨by omega, ?_⟩ trivial
    intro _ _ _
    apply received_eq_false hnone
  | timerExpires =>
    have hsame := outstanding_timerExpires h
    refine iff_of_true ⟨by omega, ?_⟩ trivial
    intro _ _ hevent
    contradiction
  | runHandler index =>
    have hevents : ∀ datagram remoteEnd, LoopEvent.runHandler index
        = .datagramArrives datagram remoteEnd →
          ∀ completion ∈ loop.completed, completion.isReceived = false := by
      intro _ _ hevent
      contradiction
    rcases step_runHandler h with ⟨completion, _, _, hcompletion, _, _⟩
    cases completion with
    | frontendRead err n =>
      have hsame := outstanding_runRead h hcompletion
      refine iff_of_true ⟨by omega, hevents⟩ ?_
      intro hdeadline
      rw [hcompletion] at hdeadline
      contradiction
    | deadlineTimer err =>
      by_cases herr : err = .operationAborted
      . rw [herr] at hcompletion
        have hsame := outstanding_runAborted h hcompletion
        refine iff_of_true ⟨by omega, hevents⟩ ?_
        intro hdeadline
        rw [hcompletion] at hdeadline
        contradiction
      . have hafter := outstanding_runDeadline h hcompletion herr
        constructor
        . intro hone _ hdown
          rw [hdown] at hafter
          apply received_eq_false
          have := hone.1
          simp only [Bool.false_eq_true, if_false] at hafter
          omega
        . intro hreads
          refine ⟨?_, hevents⟩
          rw [hafter]
          split
          . unfold outstanding at hloop
            omega
          . next hdown =>
            have hnone := hreads (by simp [hcompletion, Completion.isDeadline, herr])
              (by simpa using hdown)
            have : loop.completed.countP Completion.isReceived = 0 := by
              rw [List.countP_eq_zero]
              simpa using hnone
            omega

theorem outstanding_launch {config : EngineConfig F} {pause : Bool} {theReactor : Reactor}
    {thePlatform : Platform F} {theProtobuf : Protobuf F} {loop : EventLoop F}
    (h : launch config pause theReactor thePlatform theProtobuf = some loop)
    : loop.outstanding = 1 := by
  unfold launch at h
  split at h
  . contradiction
  . next engine effects hmode =>
    simp only [Engine.frontendMode, bind, Except.bind] at hmode
    split at hmode
    . contradiction
    . rcases Engine.startServiceDiscovery_eq_ok hmode with ⟨_, sends, heffects, hsends⟩
      rw [← Option.some.inj h, heffects, outstanding_armed _ hsends]
      rfl

/--
At every step of a run at most one receive is outstanding and no datagram is overwritten exactly
when no deadline handler goes on to the next cycle while a completed receive waits for its handler.
-/
theorem receivesOne_along (config : EngineConfig F) (pause : Bool) (theReactor : Reactor)
    (thePlatform : Platform F) (theProtobuf : Protobuf F) (loop : EventLoop F)
    (events : List (LoopEvent × Reactor × Platform F))
    (hlaunch : launch config pause theReactor thePlatform theProtobuf = some loop)
    : Lib.Along (step theProtobuf) ReceivesOne loop events
        ↔
      Lib.Along (step theProtobuf) (fun loop event _ => loop.DeadlineAfterReads event) loop
        events := by
  apply Lib.Along.iff_of_invariant (I := fun loop => loop.outstanding ≤ 1)
  . intro loop event loop' hloop h
    apply receivesOne_step hloop h
  . intro loop event loop' hloop h hreads
    rw [← receivesOne_step hloop h] at hreads
    exact hreads.1
  . rw [outstanding_launch hlaunch]

section Sample

open Sample

def garbage : Protobuf Rat where
  ParseFromString _ := (false, {})
  SerializeToString _ := ByteString.lit "?"

def event (event : LoopEvent) : LoopEvent × Reactor × Platform Rat := (event, reactor, platform)

theorem receivesOne_along_sample
    : ∃ loop, launch config false reactor platform garbage = some loop
        ∧ Lib.Along (step garbage) ReceivesOne loop
          [event (.datagramArrives [] ⟨0, 0⟩), event (.runHandler 0), event .timerExpires,
            event (.runHandler 0), event (.datagramArrives [] ⟨0, 0⟩)] := by
  refine ⟨_, rfl, ?_⟩
  rw [receivesOne_along config false reactor platform garbage _ _ rfl]
  decide

-- The deadline expires while a read waits, and the next datagram arrives before its handler runs.
def lateDeadline : List (LoopEvent × Reactor × Platform Rat) :=
  [event (.datagramArrives [] ⟨0, 0⟩), event .timerExpires, event (.runHandler 0),
    event (.datagramArrives [] ⟨0, 0⟩), event (.runHandler 0)]

theorem not_receivesOne_lateDeadline
    : ¬∀ (config : EngineConfig Rat) (pause : Bool) (theReactor : Reactor)
        (thePlatform : Platform Rat) (theProtobuf : Protobuf Rat) (loop loop' : EventLoop Rat)
        (events : List (LoopEvent × Reactor × Platform Rat)),
        launch config pause theReactor thePlatform theProtobuf = some loop →
          Lib.run (step theProtobuf) loop events = some loop' → loop'.outstanding ≤ 1 := by
  intro h
  have hone := h config false reactor platform garbage _ _ lateDeadline rfl rfl
  revert hone
  decide

end Sample

end EventLoop

end Sputnik
