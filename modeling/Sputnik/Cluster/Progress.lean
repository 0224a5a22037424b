import Sputnik.Cluster.Discovery

/-!
This module contains what can stop the parties of a cluster. No datagram stops a frontend, so that
only an entry of its list of listeners is left, and a backend is stopped by an answer only.
-/

namespace Sputnik

variable {F : Type} [FloatArith F] {ι κ : Type}

namespace Engine

omit [FloatArith F] in
theorem FirstFailure.unique {thePlatform : Platform F} {l : List ByteString} {i j : Nat}
    {err err' : Error} (h : FirstFailure thePlatform l i err)
    (h' : FirstFailure thePlatform l j err') : err = err' := by
  have hij : i = j := by
    rcases Nat.lt_trichotomy i j with hlt | heq | hlt
    . have hfails := h.fails
      rw [h'.first i hlt] at hfails
      contradiction
    . assumption
    . have hfails := h'.fails
      rw [h.first j hlt] at hfails
      contradiction
  have hfails := h'.fails
  rw [← hij, h.fails] at hfails
  exact Option.some.inj hfails

-- The first listener that fails, if there is one, fails by an error that is caught.
def FailsCaught (thePlatform : Platform F) (l : List ByteString) : Prop :=
  ∀ i err, FirstFailure thePlatform l i err → err = .systemError

omit [FloatArith F] in
theorem startServiceDiscovery_returns_iff (e : Engine F) (theReactor : Reactor)
    (thePlatform : Platform F) (theProtobuf : Protobuf F)
    : (∃ started, e.startServiceDiscovery theReactor thePlatform theProtobuf = .ok started)
        ↔
      FailsCaught thePlatform e.itsBackendUdpListeners := by
  rw [startServiceDiscovery_eq]
  cases firstFailure_or thePlatform e.itsBackendUdpListeners with
  | inl hnone =>
    rw [sendRequests_of_not_failureAt thePlatform _ hnone]
    refine iff_of_true ⟨_, rfl⟩ ?_
    intro i err hfailure
    have hfails := hfailure.fails
    rw [hnone i] at hfails
    contradiction
  | inr hfailure =>
    rcases hfailure with ⟨i, err, hfailure⟩
    rw [sendRequests_of_failureAt thePlatform _ hfailure.fails hfailure.first]
    constructor
    . rintro ⟨started, hstarted⟩ j err' hfailure'
      rw [← hfailure.unique hfailure']
      by_contra herr
      simp [herr, Except.map] at hstarted
    . intro hcaught
      rw [hcaught i err hfailure]
      exact ⟨_, rfl⟩

theorem handleDeadlineTimer_returns_iff {e : Engine F} (theReactor : Reactor)
    (thePlatform : Platform F) (theProtobuf : Protobuf F) (err : ErrorCode)
    (hsequence : e.itsFrontendSequence.toNat < 65535)
    : (∃ done, e.handleDeadlineTimer theReactor thePlatform theProtobuf err = .ok done)
        ↔
      (err ≠ .operationAborted → theReactor.isShuttingDown = false →
        FailsCaught thePlatform e.itsBackendUdpListeners) := by
  by_cases herr : err = .operationAborted
  . rw [herr]
    exact iff_of_true ⟨_, rfl⟩ (fun habort => absurd rfl habort)
  . simp only [handleDeadlineTimer, herr, if_false, cleanServices_eq theReactor hsequence, bind,
      Except.bind]
    cases hdown : theReactor.isShuttingDown with
    | true => simp
    | false =>
      have hstart := startServiceDiscovery_returns_iff (e.cleaned theReactor) theReactor thePlatform
        theProtobuf
      unfold cleaned at hstart
      simp only [Bool.false_eq_true, if_false, ne_eq, herr, not_false_eq_true, forall_const]
      rw [← hstart]
      constructor
      . rintro ⟨done, hdone⟩
        split at hdone
        . contradiction
        . next started hstarted => exact ⟨started, hstarted⟩
      . rintro ⟨started, hstarted⟩
        rw [hstarted]
        exact ⟨_, rfl⟩

end Engine

namespace ClusterConfig

variable {cfg : ClusterConfig ι κ F} {log : List Datagram}

-- `processReply` returns for what an authentic datagram decodes to.
theorem Authentic.processReply {m : Datagram} (hauthentic : cfg.Authentic log m)
    (hdecodes : cfg.theProtobuf.Decodes) (hfits : Fits m) (e : Engine F) (theReactor : Reactor)
    : ∃ e', e.processReply theReactor (cfg.theProtobuf.ParseFromString m.payload).2 = .ok e' := by
  rcases hauthentic.parse hdecodes hfits
    with ⟨i, n, _, hparse⟩ | ⟨k, atBackend, load, i, n, hanswers, hparse⟩
  . have hrejects : Engine.accepts theReactor (cfg.request i n) = false := by
      simp [Engine.accepts, messageType_request]
    rw [hparse]
    exact ⟨e, Engine.processReply_of_not_accepts e hrejects⟩
  . rw [hparse]
    cases haccepts : Engine.accepts theReactor (cfg.reply k atBackend load n) with
    | false => exact ⟨e, Engine.processReply_of_not_accepts e haccepts⟩
    | true =>
      have hthrottle : 0 ≤ (cfg.reply k atBackend load n).host.throttle := by
        unfold reply
        rw [Engine.throttle_reply hanswers.isReply.throttle]
        omega
      rcases Engine.processReply_of_accepts e haccepts hthrottle with ⟨s', _, hreply⟩
      exact ⟨_, hreply⟩

-- The deadline is handled, and the next cycle is to begin.
def Restarts (loop : EventLoop F) (index : Nat) (theReactor : Reactor) : Prop :=
  ∃ err, loop.completed[index]? = some (.deadlineTimer err) ∧ err ≠ .operationAborted
    ∧ theReactor.isShuttingDown = false

theorem FrontendInv.returns_iff {i : ι} {loop : EventLoop F} {index : Nat} {completion : Completion}
    {theReactor : Reactor} {thePlatform : Platform F} (hloop : cfg.FrontendInv log i loop)
    (hdecodes : cfg.theProtobuf.Decodes) (hcompleted : loop.completed[index]? = some completion)
    : (∃ loop', loop.step cfg.theProtobuf (.runHandler index, theReactor, thePlatform) = some loop')
        ↔
      (Restarts loop index theReactor →
        Engine.FailsCaught thePlatform (cfg.frontends i).itsBackendUdpListeners) := by
  have hstep : (∃ loop', loop.step cfg.theProtobuf (.runHandler index, theReactor, thePlatform)
        = some loop')
      ↔ ∃ done, EventLoop.handle theReactor thePlatform cfg.theProtobuf loop.engine completion
        = .ok done := by
    simp only [EventLoop.step, hcompleted]
    cases EventLoop.handle theReactor thePlatform cfg.theProtobuf loop.engine completion with
    | error err => simp
    | ok done => simp
  rw [hstep]
  cases completion with
  | frontendRead err n =>
    refine iff_of_true ?_ ?_
    . by_cases herr : err = .success
      . rw [herr] at hcompleted ⊢
        rcases hloop.read n (List.mem_of_getElem? hcompleted)
          with ⟨m, _, _, hauthentic, hfits, hbuffer⟩
        rcases hauthentic.processReply hdecodes hfits loop.engine theReactor with ⟨e', he'⟩
        simp only [EventLoop.handle]
        rw [Engine.handleFrontendRead_success loop.engine theReactor rfl, hbuffer, he']
        exact ⟨_, rfl⟩
      . simp only [EventLoop.handle, Engine.handleFrontendRead, herr, if_false]
        split
        . exact ⟨_, rfl⟩
        . exact ⟨_, rfl⟩
    . rintro ⟨err', herr', _⟩
      rw [hcompleted, Option.some.injEq] at herr'
      contradiction
  | deadlineTimer err =>
    have hreturns := Engine.handleDeadlineTimer_returns_iff theReactor thePlatform cfg.theProtobuf
      err hloop.sequence
    rw [← hloop.toEngineConfig]
    simp only [EventLoop.handle, hreturns, Restarts, hcompleted, Option.some.injEq,
      Completion.deadlineTimer.injEq]
    constructor
    . rintro hcaught ⟨err', heq, herr, hdown⟩
      rw [← heq] at herr
      exact hcaught herr hdown
    . intro hcaught herr hdown
      exact hcaught ⟨err, rfl, herr, hdown⟩

theorem BackendInv.returns_iff {k : κ} {loop : BackendLoop F} {index b : Nat} {err : ErrorCode}
    {theReactor : Reactor} {thePlatform : Platform F} (hloop : cfg.BackendInv log k loop)
    (hdecodes : cfg.theProtobuf.Decodes) (hcompleted : loop.completed[index]? = some (err, b))
    : (∃ loop' effects,
          loop.step cfg.theProtobuf (.runHandler index theReactor thePlatform)
            = some (loop', effects))
        ↔
      (err = .success → Serves loop theReactor thePlatform →
        ∀ m ∈ log, ∀ i n, cfg.IsRequest m i n → Fits m →
          loop.engine.itsReceiveBuffer.take b = m.payload →
            (cfg.announcer k).CanReply theReactor thePlatform cfg.theProtobuf
              (Int32.ofInt n)) := by
  have hconfig : loop.engine.toEngineConfig = (cfg.announcer k).toEngineConfig :=
    hloop.toEngineConfig
  have hstep : (∃ loop' effects,
        loop.step cfg.theProtobuf (.runHandler index theReactor thePlatform)
          = some (loop', effects))
      ↔ ∃ done, loop.engine.handleBackendRead theReactor thePlatform cfg.theProtobuf err b
        = .ok done := by
    simp only [BackendLoop.step, hcompleted]
    cases loop.engine.handleBackendRead theReactor thePlatform cfg.theProtobuf err b with
    | error err' => simp
    | ok done => simp
  rw [hstep, Engine.handleBackendRead_returns_iff]
  constructor
  . intro hcan herr hserves m _ i n hrequest hfits hbuffer
    have hparse : cfg.theProtobuf.ParseFromString m.payload = (true, cfg.request i n) := by
      have hlength : m.payload.length ≤ 8192 := hfits
      rw [hrequest.payload] at hlength ⊢
      exact hdecodes _ rfl hlength
    have hreply := hcan hserves.isShuttingDown herr hserves.isPaused hserves.isLoadHigh
      (cfg.request i n) (by rw [hbuffer, hparse]) (messageType_request i n)
    exact hreply.congr hconfig
  . rintro hcan hdown herr hpaused hbusy theMessage hmessage htype
    rw [herr] at hcompleted
    rcases hloop.read b (List.mem_of_getElem? hcompleted)
      with ⟨m, hm, hauthentic, hfits, hbuffer, _⟩
    rw [hbuffer] at hmessage
    rcases hauthentic.parse hdecodes hfits
      with ⟨i, n, hrequest, hparse⟩ | ⟨k', atBackend, load, i, n, _, hparse⟩
    . rw [hparse] at hmessage
      rw [← hmessage]
      have hreply := hcan herr ⟨hdown, hbusy, hpaused⟩ m hm i n hrequest hfits hbuffer
      exact hreply.congr hconfig.symm
    . rw [hparse] at hmessage
      rw [← hmessage, messageType_reply] at htype
      contradiction

end ClusterConfig

namespace Cluster

open ClusterConfig

variable [DecidableEq ι] [DecidableEq κ]

/--
No datagram of the cluster stops a frontend: after a regular run in which what is delivered fits
into the buffers, whichever handler runs next returns, but for that of the deadline that is to begin
the next cycle, which returns exactly if the first entry of the list of listeners that fails does so
by an error of the socket.
-/
theorem returns_of_proceeds (cfg : ClusterConfig ι κ F) (events : List (ClusterEvent ι κ F))
    (net : Cluster ι κ F) (i : ι) (loop : EventLoop F) (index : Nat) (completion : Completion)
    (theReactor : Reactor) (thePlatform : Platform F) (hdecodes : cfg.theProtobuf.Decodes)
    (hends : Function.Injective cfg.endOf) (h : cfg.Proceeds Regular init events net)
    (hloop : net.frontend i = some loop) (hcompleted : loop.completed[index]? = some completion)
    : (∃ loop', loop.step cfg.theProtobuf (.runHandler index, theReactor, thePlatform) = some loop')
        ↔
      (Restarts loop index theReactor →
        Engine.FailsCaught thePlatform (cfg.frontends i).itsBackendUdpListeners) := by
  have hstate := (h.holds hdecodes hends holds_init).state (.frontend i)
  unfold frontend at hloop
  rw [hloop] at hstate
  exact hstate.returns_iff hdecodes hcompleted

section Sample

open Sample

-- The answer of the backend has arrived, and its handler is next.
theorem returns_of_proceeds_sample
    : ∃ (net : Cluster Unit Unit Rat) (loop loop' : EventLoop Rat), net.frontend () = some loop
        ∧ loop.completed[0]? = some (.frontendRead .success 51)
        ∧ loop.step cluster.theProtobuf (.runHandler 0, reactor, clusterPlatform) = some loop' := by
  have hrun : (Lib.run (Lib.Network.step cluster.protocol) init firstAnswer.dropLast).any
      (fun net => (frontend net ()).any fun loop =>
        loop.completed[0]? = some (.frontendRead .success 51)) = true := by
    decide
  rw [Option.any_eq_true] at hrun
  rcases hrun with ⟨net, hnet, hany⟩
  rw [Option.any_eq_true] at hany
  rcases hany with ⟨loop, hloop, hcompleted⟩
  rw [decide_eq_true_eq] at hcompleted
  have hreturns := returns_of_proceeds cluster firstAnswer.dropLast net () loop 0
    (.frontendRead .success 51) reactor clusterPlatform decodes_cluster injective_endOf_cluster
    ⟨hnet, by decide⟩ hloop hcompleted
  have hrestarts : ¬Restarts loop 0 reactor := by
    rintro ⟨err, herr, _⟩
    rw [hcompleted, Option.some.injEq] at herr
    contradiction
  rcases hreturns.mpr fun h => absurd h hrestarts with ⟨loop', hloop'⟩
  exact ⟨net, loop, loop', hloop, hcompleted, hloop'⟩

end Sample

end Cluster

end Sputnik
