import Sputnik.Cluster.Safety

/-!
This module contains how the event loop of a frontend refines the heartbeat: whatever the order of
its events, the loop runs one cycle after the other, and the deadline ends each of them.
-/

namespace Sputnik

variable {F : Type} [FloatArith F]

namespace Engine

-- The engine next to what the last receive has left in the buffer.
def heard (e : Engine F) (itsReceiveBuffer : ByteString) (itsRemoteEnd : Endpoint) : Engine F :=
  { e with itsReceiveBuffer, itsRemoteEnd }

theorem cycleStep_heard (e : Engine F) (buffer : ByteString) (remoteEnd : Endpoint)
    (event : CycleEvent F)
    : (e.heard buffer remoteEnd).cycleStep event
        =
      (e.cycleStep event).map fun e => e.heard buffer remoteEnd := by
  unfold cycleStep
  split
  . rw [Option.map_map]
    rfl
  . rfl

theorem cleanServices_heard (e : Engine F) (buffer : ByteString) (remoteEnd : Endpoint)
    (theReactor : Reactor)
    : (e.heard buffer remoteEnd).cleanServices theReactor
        =
      (e.cleanServices theReactor).map fun e => e.heard buffer remoteEnd := by
  unfold cleanServices heard
  dsimp only
  cases numericCastInt e.itsFrontendSequence with
  | error err =>
    repeat' split
    all_goals rfl
  | ok n =>
    repeat' split
    all_goals rfl

omit [FloatArith F] in
theorem startServiceDiscovery_heard (e : Engine F) (buffer : ByteString) (remoteEnd : Endpoint)
    (theReactor : Reactor) (thePlatform : Platform F) (theProtobuf : Protobuf F)
    : (e.heard buffer remoteEnd).startServiceDiscovery theReactor thePlatform theProtobuf
        =
      (e.startServiceDiscovery theReactor thePlatform theProtobuf).map fun started =>
        (started.1.heard buffer remoteEnd, started.2) := by
  have hbuffer : (e.heard buffer remoteEnd).requestBuffer theReactor theProtobuf
      = e.requestBuffer theReactor theProtobuf := rfl
  have hlisteners : (e.heard buffer remoteEnd).itsBackendUdpListeners
      = e.itsBackendUdpListeners := rfl
  rw [startServiceDiscovery_eq, startServiceDiscovery_eq, hbuffer, hlisteners]
  dsimp only
  generalize sendRequests thePlatform (e.requestBuffer theReactor theProtobuf)
    e.itsBackendUdpListeners 0 = sent
  split
  . rfl
  . cases sent.2 with
    | error err => rfl
    | ok result => rfl

theorem handleDeadlineTimer_heard (e : Engine F) (buffer : ByteString) (remoteEnd : Endpoint)
    (theReactor : Reactor) (thePlatform : Platform F) (theProtobuf : Protobuf F) {err : ErrorCode}
    (herr : err ≠ .operationAborted)
    : (e.heard buffer remoteEnd).handleDeadlineTimer theReactor thePlatform theProtobuf err
        =
      (e.handleDeadlineTimer theReactor thePlatform theProtobuf .success).map fun done =>
        (done.1.heard buffer remoteEnd, done.2) := by
  simp only [handleDeadlineTimer, herr, if_false, reduceCtorEq, cleanServices_heard]
  cases e.cleanServices theReactor with
  | error err => rfl
  | ok cleaned =>
    simp only [Except.map, bind, Except.bind]
    split
    . rfl
    . have hstart := startServiceDiscovery_heard { cleaned with itsReceivedResponses := 0 } buffer
        remoteEnd theReactor thePlatform theProtobuf
      unfold heard at hstart ⊢
      dsimp only at hstart ⊢
      rw [hstart]
      cases startServiceDiscovery { cleaned with itsReceivedResponses := 0 } theReactor thePlatform
          theProtobuf with
      | error err => rfl
      | ok started => rfl

end Engine

namespace EventLoop

def act (theProtobuf : Protobuf F) (loop : EventLoop F) : FrontendAction F → Option (EventLoop F)
  | .launch .. => none
  | .event event => loop.step theProtobuf event
  | .runReply index theReactor between => loop.runReply theProtobuf index theReactor between
  | .removeBackend removal => loop.removeBackend removal

-- waits for the deadline that are pending or have ended and whose handler has not run yet
def waits (loop : EventLoop F) : Nat :=
  loop.pendingWaits + loop.completed.countP Completion.isDeadline

omit [FloatArith F] in
theorem countP_isDeadline_eraseIdx {l : List Completion} {i : Nat} {c : Completion}
    (h : l[i]? = some c)
    : (l.eraseIdx i).countP Completion.isDeadline + (if c.isDeadline then 1 else 0)
        =
      l.countP Completion.isDeadline := by
  rcases List.getElem?_eq_some_iff.mp h with ⟨hi, hc⟩
  have hperm := List.Perm.countP_eq Completion.isDeadline (List.getElem_cons_eraseIdx_perm hi)
  rw [List.countP_cons, hc] at hperm
  assumption

section Waits

omit [FloatArith F]

@[simp]
theorem waits_cancel (loop : EventLoop F) : (loop.perform .cancel).waits = loop.waits := by
  simp [perform, waits, Completion.isDeadline]

@[simp]
theorem waits_asyncReceiveFrom (loop : EventLoop F)
    : (loop.perform .asyncReceiveFrom).waits = loop.waits := rfl

@[simp]
theorem waits_expiresAfter (loop : EventLoop F) (seconds : UInt32)
    : (loop.perform (.expiresAfter seconds)).waits
        =
      loop.completed.countP Completion.isDeadline := by
  simp [perform, waits, Completion.isDeadline]

@[simp]
theorem waits_asyncWait (loop : EventLoop F)
    : (loop.perform .asyncWait).waits = loop.waits + 1 := by
  simp only [perform, waits]
  omega

theorem waits_armed {loop : EventLoop F} {sends : List Effect} (e : Engine F)
    (h : ∀ effect ∈ sends, effect.isSend = true)
    : (loop.performAll (sends ++ e.armed)).waits
        =
      loop.completed.countP Completion.isDeadline + 1 := by
  rw [performAll_append, performAll_sends h]
  simp only [Engine.armed, performAll, List.foldl_cons, List.foldl_nil, waits_asyncWait,
    waits_expiresAfter]
  rfl

theorem waits_rearmed (loop : EventLoop F) {sends : List Effect} (e : Engine F)
    (h : ∀ effect ∈ sends, effect.isSend = true)
    : (loop.performAll (.cancel :: (sends ++ e.armed))).waits
        =
      loop.completed.countP Completion.isDeadline + 1 := by
  have hcancel : (loop.perform .cancel).completed.countP Completion.isDeadline
      = loop.completed.countP Completion.isDeadline := by
    simp [perform, Completion.isDeadline]
  rw [← hcancel, ← waits_armed e h]
  rfl

end Waits

end EventLoop

/-
The loop is in the cycle that the frontend begins: its table is that after some events of the cycle.
-/
structure Refines (loop : EventLoop F) (f : Frontend F) : Prop where
  engine : ∃ events e buffer remoteEnd, f.engine.cycleRun events = some e
    ∧ loop.engine = e.heard buffer remoteEnd
  waits : loop.waits = if f.waiting then 1 else 0

namespace Refines

variable {theProtobuf : Protobuf F} {loop loop' : EventLoop F} {f : Frontend F}

theorem of_engine_eq (h : Refines loop f) (buffer : ByteString) (remoteEnd : Endpoint)
    (hengine : loop'.engine = loop.engine.heard buffer remoteEnd)
    (hwaits : loop'.waits = loop.waits) : Refines loop' f where
  engine := by
    rcases h.engine with ⟨events, e, _, _, hrun, heq⟩
    refine ⟨events, e, buffer, remoteEnd, hrun, ?_⟩
    rw [hengine, heq]
    rfl
  waits := by rw [hwaits, h.waits]

theorem of_cycleStep (h : Refines loop f) {event : CycleEvent F} {engine : Engine F}
    (hstep : loop.engine.cycleStep event = some engine) (hengine : loop'.engine = engine)
    (hwaits : loop'.waits = loop.waits) : Refines loop' f where
  engine := by
    rcases h.engine with ⟨events, e, buffer, remoteEnd, hrun, heq⟩
    rw [heq, Engine.cycleStep_heard] at hstep
    rcases Option.map_eq_some_iff.mp hstep with ⟨e', he', hheard⟩
    refine ⟨events ++ [event], e', buffer, remoteEnd, ?_, ?_⟩
    . unfold Engine.cycleRun at hrun ⊢
      rw [Lib.run_append, hrun, Option.bind_some, Lib.run_cons, he']
      rfl
    . rw [hengine, hheard]
  waits := by rw [hwaits, h.waits]

theorem runReply (h : Refines loop f) {index : Nat} {theReactor : Reactor}
    {between : List (List Removal)}
    (hreply : loop.runReply theProtobuf index theReactor between = some loop')
    : Refines loop' f := by
  unfold EventLoop.runReply at hreply
  split at hreply
  . next n hcompleted =>
    rcases Option.map_eq_some_iff.mp hreply with ⟨engine, hstep, hloop'⟩
    have hcount := EventLoop.countP_isDeadline_eraseIdx hcompleted
    apply h.of_cycleStep hstep
    . rw [← hloop', EventLoop.engine_performAll]
    . rw [← hloop', EventLoop.performAll, List.foldl_cons, List.foldl_nil,
        EventLoop.waits_asyncReceiveFrom]
      simpa [EventLoop.waits, Completion.isDeadline] using hcount
  . contradiction

theorem removeBackend (h : Refines loop f) {removal : Removal}
    (hremove : loop.removeBackend removal = some loop') : Refines loop' f := by
  rcases Option.map_eq_some_iff.mp hremove with ⟨itsServices, hstep, hloop'⟩
  have hcycle : loop.engine.cycleStep (.removeBackend removal)
      = some { loop.engine with itsServices } := by
    simp [Engine.cycleStep, CycleEvent.castable, CycleEvent.ops, CycleEvent.accepted,
      Lib.run_cons, hstep]
  apply h.of_cycleStep hcycle
  . rw [← hloop']
  . rw [← hloop']
    rfl

theorem runDeadline (h : Refines loop f) {index : Nat} {theReactor : Reactor}
    {thePlatform : Platform F} {err : ErrorCode} {engine : Engine F} {effects : List Effect}
    (hcompleted : loop.completed[index]? = some (.deadlineTimer err))
    (herr : err ≠ .operationAborted)
    (hhandle : loop.engine.handleDeadlineTimer theReactor thePlatform theProtobuf err
      = .ok (engine, effects))
    (hloop' : loop'
      = { loop with engine, completed := loop.completed.eraseIdx index }.performAll effects)
    : ∃ c f', f.step theProtobuf c = some f' ∧ Refines loop' f' := by
  have hcount := EventLoop.countP_isDeadline_eraseIdx hcompleted
  have hwaits := h.waits
  rw [if_pos (by simpa [Completion.isDeadline] using herr)] at hcount
  unfold EventLoop.waits at hwaits
  have hwaiting : f.waiting = true := by
    by_contra hstopped
    rw [if_neg hstopped] at hwaits
    omega
  rw [if_pos hwaiting] at hwaits
  rcases h.engine with ⟨events, e, buffer, remoteEnd, hrun, heq⟩
  rw [heq, Engine.handleDeadlineTimer_heard e buffer remoteEnd theReactor thePlatform theProtobuf
    herr] at hhandle
  cases hdone : e.handleDeadlineTimer theReactor thePlatform theProtobuf .success with
  | error err => simp [hdone, Except.map] at hhandle
  | ok done =>
    rcases done with ⟨e', effects'⟩
    simp only [hdone, Except.map, Except.ok.injEq, Prod.mk.injEq] at hhandle
    rcases hhandle with ⟨hengine, heffects⟩
    rw [heffects] at hdone
    refine ⟨⟨events, theReactor, thePlatform⟩, ⟨e', effects.contains .asyncWait⟩, ?_, ?_⟩
    . unfold Frontend.step
      rw [if_pos hwaiting, hrun, Option.bind_some, hdone]
    . constructor
      . refine ⟨[], e', buffer, remoteEnd, rfl, ?_⟩
        rw [hloop', EventLoop.engine_performAll, hengine]
      . rcases Engine.handleDeadlineTimer_eq_ok (by decide) hdone with ⟨e₁, _, hcases⟩
        dsimp only
        rw [hloop']
        split at hcases
        . rw [hcases.2, EventLoop.performAll, List.foldl_cons, List.foldl_nil,
            EventLoop.waits_cancel]
          simp only [EventLoop.waits]
          rw [if_neg (by decide)]
          omega
        . rcases hcases with ⟨_, sends, hsent, hsends⟩
          have hwait : effects.contains .asyncWait = true := by simp [hsent, Engine.armed]
          rw [hwait, if_pos rfl, hsent, EventLoop.waits_rearmed _ e' hsends]
          dsimp only
          omega

theorem act (h : Refines loop f) {a : FrontendAction F} (hact : loop.act theProtobuf a = some loop')
    : ∃ cycles f', Lib.run (Frontend.step theProtobuf) f cycles = some f' ∧ Refines loop' f' := by
  cases a with
  | launch pause theReactor thePlatform hooked => contradiction
  | runReply index theReactor between => exact ⟨[], f, rfl, h.runReply hact⟩
  | removeBackend removal => exact ⟨[], f, rfl, h.removeBackend hact⟩
  | event event =>
    rcases event with ⟨event, theReactor, thePlatform⟩
    cases event with
    | datagramArrives datagram remoteEnd =>
      simp only [EventLoop.act, EventLoop.step] at hact
      split at hact
      . contradiction
      . injection hact with hloop'
        refine ⟨[], f, rfl, ?_⟩
        apply h.of_engine_eq
        . rw [← hloop']
          rfl
        . rw [← hloop']
          simp [EventLoop.waits, EventLoop.receive, Completion.isDeadline]
    | timerExpires =>
      simp only [EventLoop.act, EventLoop.step] at hact
      split at hact
      . contradiction
      . next n hpending =>
        injection hact with hloop'
        refine ⟨[], f, rfl, ?_⟩
        apply h.of_engine_eq loop.engine.itsReceiveBuffer loop.engine.itsRemoteEnd
        . rw [← hloop']
          rfl
        . rw [← hloop']
          simp only [EventLoop.waits, List.countP_append, hpending]
          simp [Completion.isDeadline]
          omega
    | runHandler index =>
      rcases EventLoop.step_runHandler hact
        with ⟨completion, engine, effects, hcompleted, hhandle, hloop'⟩
      have hcount := EventLoop.countP_isDeadline_eraseIdx hcompleted
      cases completion with
      | frontendRead err n =>
        by_cases herr : err = .success
        . rw [herr] at hcompleted
          have hreply : loop.runReply theProtobuf index theReactor [] = some loop' := by
            rw [EventLoop.runReply_nil hcompleted]
            exact hact
          exact ⟨[], f, rfl, h.runReply hreply⟩
        . have hsame : engine = loop.engine := Engine.handleFrontendRead_fails herr hhandle
          refine ⟨[], f, rfl, ?_⟩
          apply h.of_engine_eq loop.engine.itsReceiveBuffer loop.engine.itsRemoteEnd
          . rw [hloop', EventLoop.engine_performAll, hsame]
            rfl
          . rw [hloop', EventLoop.effects_handleFrontendRead hhandle]
            split
            . simpa [EventLoop.performAll, EventLoop.waits, Completion.isDeadline] using hcount
            . rw [EventLoop.performAll, List.foldl_cons, List.foldl_nil,
                EventLoop.waits_asyncReceiveFrom]
              simpa [EventLoop.waits, Completion.isDeadline] using hcount
      | deadlineTimer err =>
        by_cases herr : err = .operationAborted
        . rw [herr] at hhandle hcount
          injection hhandle with hhandle
          injection hhandle with hengine heffects
          refine ⟨[], f, rfl, ?_⟩
          apply h.of_engine_eq loop.engine.itsReceiveBuffer loop.engine.itsRemoteEnd
          . rw [hloop', EventLoop.engine_performAll, ← hengine]
            rfl
          . rw [hloop', ← heffects]
            simpa [EventLoop.performAll, EventLoop.waits, Completion.isDeadline] using hcount
        . rcases h.runDeadline hcompleted herr hhandle hloop' with ⟨c, f', hstep, hrefines⟩
          refine ⟨[c], f', ?_, hrefines⟩
          rw [Lib.run_cons, hstep]
          rfl

theorem launch {config : EngineConfig F} {pause : Bool} {theReactor : Reactor}
    {thePlatform : Platform F}
    (h : EventLoop.launch config pause theReactor thePlatform theProtobuf = some loop)
    : ∃ f, Frontend.launch config pause theReactor thePlatform theProtobuf = some f
        ∧ Refines loop f := by
  unfold EventLoop.launch at h
  cases hmode : (Engine.new config pause).frontendMode theReactor thePlatform theProtobuf with
  | error err =>
    rw [hmode] at h
    contradiction
  | ok launched =>
    rcases launched with ⟨engine, effects⟩
    rw [hmode] at h
    injection h with hloop
    refine ⟨{ engine, waiting := effects.contains .asyncWait }, ?_, ?_⟩
    . unfold Frontend.launch
      rw [hmode]
    . unfold Engine.frontendMode at hmode
      simp only [bind, Except.bind] at hmode
      split at hmode
      . contradiction
      . rcases Engine.startServiceDiscovery_eq_ok hmode with ⟨_, sends, hsent, hsends⟩
        constructor
        . refine ⟨[], engine, engine.itsReceiveBuffer, engine.itsRemoteEnd, rfl, ?_⟩
          rw [← hloop, EventLoop.engine_performAll]
          rfl
        . have hwait : effects.contains .asyncWait = true := by simp [hsent, Engine.armed]
          rw [← hloop, hwait, if_pos rfl, hsent, EventLoop.waits_armed _ hsends]
          rfl

end Refines

/--
The event loop of a frontend refines the heartbeat: after every run, its table and its counters are
those of whole cycles and of the events of the current one, and a wait for the deadline goes on
until the reactor shuts down.
-/
theorem EventLoop.refines_of_run (config : EngineConfig F) (pause : Bool) (theReactor : Reactor)
    (thePlatform : Platform F) (theProtobuf : Protobuf F) (actions : List (FrontendAction F))
    (loop₀ loop : EventLoop F)
    (hlaunch : EventLoop.launch config pause theReactor thePlatform theProtobuf = some loop₀)
    (hrun : Lib.run (EventLoop.act theProtobuf) loop₀ actions = some loop)
    : ∃ f₀ cycles f, Frontend.launch config pause theReactor thePlatform theProtobuf = some f₀
        ∧ Lib.run (Frontend.step theProtobuf) f₀ cycles = some f ∧ Refines loop f := by
  rcases Refines.launch hlaunch with ⟨f₀, hf₀, hrefines₀⟩
  rcases Lib.run_refines (fun loop a loop' f hrefines => hrefines.act) hrefines₀ hrun
    with ⟨cycles, f, hcycles, hrefines⟩
  exact ⟨f₀, cycles, f, hf₀, hcycles, hrefines⟩

section Sample

open Sample

-- A reply arrives and is read, a service of another backend is removed, and the cycle ends.
def answeredCycle : List (FrontendAction Rat) := [
  .event (.datagramArrives Engine.handlersReply ⟨2, 2⟩, reactor, clusterPlatform),
  .event (.runHandler 0, reactor, clusterPlatform),
  .removeBackend ⟨reactor, ByteString.lit "b", 8080, []⟩,
  .event (.timerExpires, reactor, clusterPlatform),
  .event (.runHandler 0, reactor, clusterPlatform)
]

theorem EventLoop.refines_of_run_sample
    : ∃ (loop₀ loop : EventLoop Rat) (f₀ f : Frontend Rat) (cycles : List (Cycle Rat)),
        EventLoop.launch (cluster.frontends ()) false reactor clusterPlatform cluster.theProtobuf
            = some loop₀
          ∧ Lib.run (EventLoop.act cluster.theProtobuf) loop₀ answeredCycle = some loop
          ∧ loop.engine.itsFrontendSequence = 2
          ∧ loop.engine.itsServices.itsServicesByURI.size = 2
          ∧ Frontend.launch (cluster.frontends ()) false reactor clusterPlatform cluster.theProtobuf
            = some f₀
          ∧ Lib.run (Frontend.step cluster.theProtobuf) f₀ cycles = some f ∧ Refines loop f := by
  have hruns : ((EventLoop.launch (cluster.frontends ()) false reactor clusterPlatform
      cluster.theProtobuf).bind fun loop₀ =>
        Lib.run (EventLoop.act cluster.theProtobuf) loop₀ answeredCycle).any (fun loop =>
          loop.engine.itsFrontendSequence = 2
            && loop.engine.itsServices.itsServicesByURI.size = 2) = true := by
    decide
  rw [Option.any_eq_true] at hruns
  rcases hruns with ⟨loop, hloop, hends⟩
  rw [Bool.and_eq_true, decide_eq_true_eq, decide_eq_true_eq] at hends
  rcases Option.bind_eq_some_iff.mp hloop with ⟨loop₀, hlaunch, hrun⟩
  rcases EventLoop.refines_of_run (cluster.frontends ()) false reactor clusterPlatform
    cluster.theProtobuf answeredCycle loop₀ loop hlaunch hrun
    with ⟨f₀, cycles, f, hf₀, hcycles, hrefines⟩
  exact ⟨loop₀, loop, f₀, f, cycles, hlaunch, hrun, hends.1, hends.2, hf₀, hcycles, hrefines⟩

end Sample

end Sputnik
