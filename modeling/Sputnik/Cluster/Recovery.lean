import Sputnik.Cluster.Discovery
import Sputnik.Cluster.Progress
import Sputnik.Heartbeat.Refinement

/-!
This module contains that discovery recovers: whatever has happened to a cluster, its events can go
on so that a frontend lists all the backends that still receive.
-/

namespace Sputnik

variable {F : Type} [FloatArith F] {ι κ : Type}

namespace Engine

omit [FloatArith F] in
theorem startServiceDiscovery_asks (e : Engine F) (theReactor : Reactor) {thePlatform : Platform F}
    (theProtobuf : Protobuf F)
    (hlisteners : ∀ j, failureAt thePlatform 0 e.itsBackendUdpListeners j = none)
    : e.startServiceDiscovery theReactor thePlatform theProtobuf
        =
      .ok (e.nextCycle, (destinations thePlatform e.itsBackendUdpListeners).map
          (Effect.sendTo (e.requestBuffer theReactor theProtobuf)) ++ e.armed) := by
  simp [startServiceDiscovery_eq, sendRequests_of_not_failureAt thePlatform _ hlisteners]

-- Where no listener fails, each of them is sent the request of the next cycle.
theorem handleDeadlineTimer_asks {e : Engine F} {theReactor : Reactor} {thePlatform : Platform F}
    (theProtobuf : Protobuf F) {err : ErrorCode} (hsequence : e.itsFrontendSequence.toNat < 65535)
    (herr : err ≠ .operationAborted) (hdown : theReactor.isShuttingDown = false)
    (hlisteners : ∀ j, failureAt thePlatform 0 e.itsBackendUdpListeners j = none)
    : e.handleDeadlineTimer theReactor thePlatform theProtobuf err
        =
      .ok ((e.cleaned theReactor).nextCycle, .cancel
        :: ((destinations thePlatform e.itsBackendUdpListeners).map
            (Effect.sendTo ((e.cleaned theReactor).requestBuffer theReactor theProtobuf))
          ++ e.armed)) := by
  have hstart := startServiceDiscovery_asks (e.cleaned theReactor) theReactor theProtobuf hlisteners
  unfold cleaned at hstart ⊢
  simp [handleDeadlineTimer, herr, cleanServices_eq theReactor hsequence, bind, Except.bind, hdown,
    hstart, armed]

end Engine

namespace EventLoop

theorem step_runRead {theProtobuf : Protobuf F} {loop loop' : EventLoop F} {index n : Nat}
    {err : ErrorCode} {theReactor : Reactor} {thePlatform : Platform F}
    (hcompleted : loop.completed[index]? = some (.frontendRead err n))
    (herr : err ≠ .operationAborted)
    (h : loop.step theProtobuf (.runHandler index, theReactor, thePlatform) = some loop')
    : loop'.pendingReceives = loop.pendingReceives + 1 ∧ loop'.pendingWaits = loop.pendingWaits
        ∧ loop'.completed = loop.completed.eraseIdx index := by
  rcases step_runHandler h with ⟨completion, engine, effects, hcompletion, hhandle, hloop'⟩
  rw [hcompleted, Option.some.injEq] at hcompletion
  rw [← hcompletion] at hhandle
  rw [hloop', effects_handleFrontendRead hhandle, if_neg herr]
  exact ⟨rfl, rfl, rfl⟩

-- The deadline is handled, and the next cycle begins.
theorem exists_ask (theProtobuf : Protobuf F) {loop : EventLoop F} {index : Nat} {err : ErrorCode}
    {theReactor : Reactor} {thePlatform : Platform F}
    (hsequence : loop.engine.itsFrontendSequence.toNat < 65535)
    (hcompleted : loop.completed[index]? = some (.deadlineTimer err))
    (herr : err ≠ .operationAborted) (hdown : theReactor.isShuttingDown = false)
    (hlisteners : ∀ j,
      Engine.failureAt thePlatform 0 loop.engine.itsBackendUdpListeners j = none)
    : ∃ loop', loop.step theProtobuf (.runHandler index, theReactor, thePlatform) = some loop'
        ∧ 0 < loop'.pendingReceives
        ∧ ∀ dest ∈ Engine.destinations thePlatform loop.engine.itsBackendUdpListeners,
          ∃ buffer, .sendTo buffer dest
            ∈ loop.effects theProtobuf (.runHandler index, theReactor, thePlatform) := by
  have hhandle := Engine.handleDeadlineTimer_asks theProtobuf hsequence herr hdown hlisteners
  have harmed : ∀ buffer, ∀ effect ∈ (Engine.destinations thePlatform
      loop.engine.itsBackendUdpListeners).map (Effect.sendTo buffer), effect.isSend = true := by
    intro buffer effect heffect
    rcases List.mem_map.mp heffect with ⟨dest, _, heq⟩
    rw [← heq]
    rfl
  have hstep : loop.step theProtobuf (.runHandler index, theReactor, thePlatform)
      = some (performAll
        { loop with
          engine := (loop.engine.cleaned theReactor).nextCycle
          completed := loop.completed.eraseIdx index }
        (.cancel :: ((Engine.destinations thePlatform loop.engine.itsBackendUdpListeners).map
            (Effect.sendTo ((loop.engine.cleaned theReactor).requestBuffer theReactor theProtobuf))
          ++ loop.engine.armed))) := by
    simp only [step, hcompleted, handle, hhandle]
  refine ⟨_, hstep, ?_, ?_⟩
  . rw [← List.singleton_append, performAll_append, performAll_append,
      performAll_sends (harmed _)]
    exact Nat.one_pos
  . intro dest hdest
    refine ⟨(loop.engine.cleaned theReactor).requestBuffer theReactor theProtobuf, ?_⟩
    simp only [effects, hcompleted, handle, hhandle]
    apply List.mem_cons_of_mem
    apply List.mem_append_left
    exact List.mem_map_of_mem hdest

end EventLoop

omit [FloatArith F] in
theorem BackendLoop.exists_run {theProtobuf : Protobuf F} {loop : BackendLoop F} {index : Nat}
    {completion : ErrorCode × Nat} (theReactor : Reactor) {thePlatform : Platform F} {load : F}
    (hcompleted : loop.completed[index]? = some completion)
    (hport : loop.engine.itsHttpPort.toNat ≤ 2147483647)
    (hthrottle : loop.engine.itsThrottleLimit.toNat ≤ 2147483647)
    (hload : thePlatform.currentLoad = .ok load) (hsend : thePlatform.sendTo 0 = .ok ())
    : ∃ loop' effects,
        loop.step theProtobuf (.runHandler index theReactor thePlatform)
          = some (loop', effects) := by
  have hreturns := Engine.handleBackendRead_returns_iff loop.engine theReactor thePlatform
    theProtobuf completion.1 completion.2
  rcases hreturns.mpr fun _ _ _ _ _ _ _ => ⟨hport, hthrottle, load, hload, fun _ => .inl hsend⟩
    with ⟨done, hdone⟩
  simp only [step, hcompleted, hdone]
  exact ⟨_, _, rfl⟩

namespace ClusterConfig

variable {cfg : ClusterConfig ι κ F} [DecidableEq ι] [DecidableEq κ] {net : Cluster ι κ F}

abbrev Reaches (cfg : ClusterConfig ι κ F) (net net' : Cluster ι κ F) : Prop :=
  Lib.Network.Reaches cfg.protocol Regular Fits net net'

theorem reaches_frontend {i : ι} {loop loop' : EventLoop F} {a : FrontendAction F}
    {out : List Datagram} (hloop : net.frontend i = some loop)
    (hregular : Regular (.frontend i : Party ι κ) (some loop) a)
    (hact : cfg.actFrontend i (some loop) a = some (some loop', out))
    : ∃ net', cfg.Reaches net net' ∧ net'.frontend i = some loop' ∧ net'.sent = net.sent ++ out
        ∧ ∀ k, net'.backend k = net.backend k := by
  unfold Cluster.frontend at hloop
  have hact' : cfg.protocol.act (.frontend i) (net.state (.frontend i)) a
      = some (some loop', out) := by
    rw [hloop]
    exact hact
  rw [← hloop] at hregular
  rcases Lib.Network.Reaches.act hregular hact' with ⟨net', hreaches, hstate, hsent, hothers⟩
  refine ⟨net', hreaches, hstate, hsent, ?_⟩
  intro k
  apply hothers
  simp

theorem reaches_backend {k : κ} {loop loop' : BackendLoop F} {a : BackendAction F}
    {event : BackendEvent F} {effects : List Effect} (hloop : net.backend k = some loop)
    (hevent : a.event? = some event)
    (hstep : loop.step cfg.theProtobuf event = some (loop', effects))
    : ∃ net', cfg.Reaches net net' ∧ net'.backend k = some loop'
        ∧ net'.sent = net.sent ++ sentFrom (cfg.endOf (.backend k)) effects
        ∧ (∀ i, net'.frontend i = net.frontend i)
        ∧ ∀ k', k' ≠ k → net'.backend k' = net.backend k' := by
  unfold Cluster.backend at hloop
  have hact : cfg.protocol.act (.backend k) (net.state (.backend k)) a
      = some (some loop', sentFrom (cfg.endOf (.backend k)) effects) := by
    rw [hloop]
    simp [protocol, actBackend, hevent, hstep]
  have hregular : Regular (.backend k) (net.state (.backend k)) a := by
    rw [hloop]
    trivial
  rcases Lib.Network.Reaches.act hregular hact with ⟨net', hreaches, hstate, hsent, hothers⟩
  refine ⟨net', hreaches, hstate, hsent, ?_, ?_⟩
  . intro i
    apply hothers
    simp
  . intro k' hk'
    apply hothers
    simpa using hk'

/-! The next request -/

omit [DecidableEq ι] [DecidableEq κ] in
theorem FrontendInv.of_holds {i : ι} {loop : EventLoop F}
    (hnet : net.Holds cfg.PartyInv cfg.Authentic) (hloop : net.frontend i = some loop)
    : cfg.FrontendInv net.sent i loop := by
  have hstate := hnet.state (.frontend i)
  unfold Cluster.frontend at hloop
  rw [hloop] at hstate
  exact hstate

-- The handler of a datagram that has been read can run, and arms the next receive.
theorem reaches_read {i : ι} {loop : EventLoop F} {index n : Nat} {err : ErrorCode}
    (hdecodes : cfg.theProtobuf.Decodes) (hnet : net.Holds cfg.PartyInv cfg.Authentic)
    (hloop : net.frontend i = some loop)
    (hcompleted : loop.completed[index]? = some (.frontendRead err n))
    (theReactor : Reactor) (thePlatform : Platform F)
    : ∃ net' loop', cfg.Reaches net net' ∧ net'.frontend i = some loop'
        ∧ loop.step cfg.theProtobuf (.runHandler index, theReactor, thePlatform) = some loop'
        ∧ ∀ k, net'.backend k = net.backend k := by
  have hinv := FrontendInv.of_holds hnet hloop
  have hrestarts : ¬Restarts loop index theReactor := by
    rintro ⟨err', herr', _⟩
    rw [hcompleted, Option.some.injEq] at herr'
    contradiction
  have hreturns : ∃ loop', loop.step cfg.theProtobuf
      (.runHandler index, theReactor, thePlatform) = some loop' :=
    (hinv.returns_iff hdecodes hcompleted).mpr fun h => absurd h hrestarts
  rcases hreturns with ⟨loop', hstep⟩
  have hact : cfg.actFrontend i (some loop) (.event (.runHandler index, theReactor, thePlatform))
      = some (some loop', sentFrom (cfg.endOf (.frontend i))
        (loop.effects cfg.theProtobuf (.runHandler index, theReactor, thePlatform))) := by
    simp [actFrontend, hstep]
  have hregular : Regular (.frontend i : Party ι κ) (some loop)
      (FrontendAction.event (.runHandler index, theReactor, thePlatform)) := by
    intro hdeadline
    rw [hcompleted] at hdeadline
    contradiction
  rcases reaches_frontend hloop hregular hact with ⟨net', hreaches, hloop', _, hbackends⟩
  exact ⟨net', loop', hreaches, hloop', hstep, hbackends⟩

theorem reaches_quiet {i : ι} {loop : EventLoop F} (hdecodes : cfg.theProtobuf.Decodes)
    (hnet : net.Holds cfg.PartyInv cfg.Authentic) (hloop : net.frontend i = some loop)
    (theReactor : Reactor) (thePlatform : Platform F)
    : ∃ net' loop', cfg.Reaches net net' ∧ net'.frontend i = some loop'
        ∧ loop'.completed.countP Completion.isReceived = 0 ∧ loop'.waits = loop.waits
        ∧ ∀ k, net'.backend k = net.backend k := by
  by_cases hreads : loop.completed.countP Completion.isReceived = 0
  . exact ⟨net, loop, .refl, hloop, hreads, rfl, fun _ => rfl⟩
  . rcases List.countP_pos_iff.mp (Nat.pos_of_ne_zero hreads) with ⟨completion, hmem, hreceived⟩
    rcases List.mem_iff_getElem?.mp hmem with ⟨index, hcompleted⟩
    cases completion with
    | deadlineTimer err => contradiction
    | frontendRead err n =>
      have herr : err ≠ .operationAborted := by simpa [Completion.isReceived] using hreceived
      rcases reaches_read hdecodes hnet hloop hcompleted theReactor thePlatform
        with ⟨net', loop', hreaches, hloop', hstep, hbackends⟩
      refine ⟨net', loop', hreaches, hloop', ?_, ?_, hbackends⟩
      . have hsame := EventLoop.outstanding_runRead hstep hcompleted
        have hone := (FrontendInv.of_holds hnet hloop).outstanding
        have harmed := (EventLoop.step_runRead hcompleted herr hstep).1
        unfold EventLoop.outstanding at hsame hone
        omega
      . rcases EventLoop.step_runRead hcompleted herr hstep with ⟨_, hwaits, hrest⟩
        have hcount := EventLoop.countP_isDeadline_eraseIdx hcompleted
        simp only [Completion.isDeadline, Bool.false_eq_true, if_false, Nat.add_zero] at hcount
        simp only [EventLoop.waits, hwaits, hrest, hcount]

theorem reaches_deadline {i : ι} {loop : EventLoop F} (hloop : net.frontend i = some loop)
    (hquiet : loop.completed.countP Completion.isReceived = 0) (hwaits : 0 < loop.waits)
    (theReactor : Reactor) (thePlatform : Platform F)
    : ∃ (net' : Cluster ι κ F) (loop' : EventLoop F) (index : Nat) (err : ErrorCode),
        cfg.Reaches net net' ∧ net'.frontend i = some loop'
        ∧ loop'.completed[index]? = some (.deadlineTimer err) ∧ err ≠ .operationAborted
        ∧ loop'.completed.countP Completion.isReceived = 0
        ∧ ∀ k, net'.backend k = net.backend k := by
  cases hpending : loop.pendingWaits with
  | zero =>
    have hended : 0 < loop.completed.countP Completion.isDeadline := by
      unfold EventLoop.waits at hwaits
      omega
    rcases List.countP_pos_iff.mp hended with ⟨completion, hmem, hdeadline⟩
    rcases List.mem_iff_getElem?.mp hmem with ⟨index, hcompleted⟩
    cases completion with
    | frontendRead err n => contradiction
    | deadlineTimer err =>
      have herr : err ≠ .operationAborted := by simpa [Completion.isDeadline] using hdeadline
      exact ⟨net, loop, index, err, .refl, hloop, hcompleted, herr, hquiet, fun _ => rfl⟩
  | succ n =>
    have hact : cfg.actFrontend i (some loop) (.event (.timerExpires, theReactor, thePlatform))
        = some (some { loop with
          pendingWaits := n
          completed := loop.completed ++ [.deadlineTimer .success] }, []) := by
      simp [actFrontend, EventLoop.step, hpending, EventLoop.effects, sentFrom]
    have hregular : Regular (.frontend i : Party ι κ) (some loop)
        (FrontendAction.event (.timerExpires, theReactor, thePlatform)) := trivial
    rcases reaches_frontend hloop hregular hact with ⟨net', hreaches, hloop', _, hbackends⟩
    refine ⟨net', _, loop.completed.length, .success, hreaches, hloop', ?_, by decide, ?_,
      hbackends⟩
    . simp
    . simp [hquiet, Completion.isReceived]

/-
What discovery needs from outside: the frontend and the backends do not shut down, the backends have
handlers, a known load that is not high, and a port and a throttle that are integers, there is a
listener and none fails, and all that is sent fits into the buffers.
-/
structure Works (cfg : ClusterConfig ι κ F) (i : ι) (ks : List κ) (load : F) (atFrontend : Reactor)
    (atBackend : κ → Reactor) (thePlatform : Platform F) : Prop where
  frontendUp : atFrontend.isShuttingDown = false
  backendUp : ∀ k ∈ ks, (atBackend k).isShuttingDown = false
  idle : ∀ k ∈ ks, (atBackend k).isLoadHigh = false
  serving : ∀ k ∈ ks, (atBackend k).getURIMap ≠ []
  listeners : ∀ j, Engine.failureAt thePlatform 0 (cfg.frontends i).itsBackendUdpListeners j = none
  listened : Engine.destinations thePlatform (cfg.frontends i).itsBackendUdpListeners ≠ []
  currentLoad : thePlatform.currentLoad = .ok load
  sendTo : thePlatform.sendTo 0 = .ok ()
  port : ∀ k ∈ ks, (cfg.backends k).itsHttpPort.toNat ≤ 2147483647
  throttle : ∀ k ∈ ks, (cfg.backends k).itsThrottleLimit.toNat ≤ 2147483647
  requestFits : ∀ n, n < 65535 →
    (cfg.theProtobuf.SerializeToString (cfg.request i n)).length ≤ 8192
  replyFits : ∀ k ∈ ks, ∀ n, n < 65535 →
    (cfg.theProtobuf.SerializeToString (cfg.reply k (atBackend k) load n)).length ≤ 8192

-- The frontend has sent the request of its cycle, and reads.
structure Asking (cfg : ClusterConfig ι κ F) (i : ι) (net : Cluster ι κ F) (loop : EventLoop F)
    : Prop where
  holds : net.Holds cfg.PartyInv cfg.Authentic
  frontend : net.frontend i = some loop
  listens : 0 < loop.pendingReceives
  asked : ∃ m ∈ net.sent, cfg.IsRequest m i loop.engine.itsFrontendSequence.toNat ∧ Fits m

section Asking

variable {i : ι} {loop : EventLoop F} {ks : List κ} {load : F} {atFrontend : Reactor}
  {atBackend : κ → Reactor} {thePlatform : Platform F}

theorem asking_of_deadline (hdecodes : cfg.theProtobuf.Decodes)
    (hends : Function.Injective cfg.endOf)
    (hworks : cfg.Works i ks load atFrontend atBackend thePlatform)
    (hnet : net.Holds cfg.PartyInv cfg.Authentic) (hloop : net.frontend i = some loop)
    {index : Nat} {err : ErrorCode} (hcompleted : loop.completed[index]? = some (.deadlineTimer err))
    (herr : err ≠ .operationAborted)
    (hquiet : loop.completed.countP Completion.isReceived = 0)
    : ∃ net' loop', cfg.Reaches net net' ∧ cfg.Asking i net' loop'
        ∧ ∀ k, net'.backend k = net.backend k := by
  have hinv := FrontendInv.of_holds hnet hloop
  have hlisteners := hworks.listeners
  have hlistened := hworks.listened
  rw [← hinv.toEngineConfig] at hlisteners hlistened
  rcases EventLoop.exists_ask cfg.theProtobuf hinv.sequence hcompleted herr hworks.frontendUp
    hlisteners with ⟨loop', hstep, hlistens, heffects⟩
  have hact : cfg.actFrontend i (some loop) (.event (.runHandler index, atFrontend, thePlatform))
      = some (some loop', sentFrom (cfg.endOf (.frontend i))
        (loop.effects cfg.theProtobuf (.runHandler index, atFrontend, thePlatform))) := by
    simp [actFrontend, hstep]
  have hregular : Regular (.frontend i : Party ι κ) (some loop)
      (FrontendAction.event (.runHandler index, atFrontend, thePlatform)) := by
    intro _ _
    exact EventLoop.received_eq_false hquiet
  rcases reaches_frontend hloop hregular hact with ⟨net', hreaches, hloop', hlog, hbackends⟩
  refine ⟨net', loop', hreaches, ?_, hbackends⟩
  exact {
    holds := hreaches.holds (invariant_protocol hdecodes hends) hnet
    frontend := hloop'
    listens := hlistens
    asked := by
      rcases List.exists_mem_of_ne_nil _ hlistened with ⟨dest, hdest⟩
      rcases heffects dest hdest with ⟨buffer, hsend⟩
      have hmem : (⟨buffer, cfg.endOf (.frontend i), dest⟩ : Datagram)
          ∈ sentFrom (cfg.endOf (.frontend i))
            (loop.effects cfg.theProtobuf (.runHandler index, atFrontend, thePlatform)) :=
        mem_sentFrom.mpr ⟨rfl, hsend⟩
      rcases sendsNext_step (i := i) hinv.toEngineConfig hinv.sequence hstep
        with ⟨_, hnone⟩ | ⟨_, hrequests⟩
      . rw [hnone] at hmem
        contradiction
      . have hrequest := hrequests _ hmem
        refine ⟨_, ?_, hrequest, ?_⟩
        . rw [hlog]
          exact List.mem_append_right _ hmem
        . have hpayload := hrequest.payload
          unfold Fits
          rw [hpayload]
          exact hworks.requestFits _ hrequest.number
  }

theorem reaches_asking (hdecodes : cfg.theProtobuf.Decodes) (hends : Function.Injective cfg.endOf)
    (hworks : cfg.Works i ks load atFrontend atBackend thePlatform)
    (hnet : net.Holds cfg.PartyInv cfg.Authentic) (hloop : net.frontend i = some loop)
    (hwaits : 0 < loop.waits)
    : ∃ net' loop', cfg.Reaches net net' ∧ cfg.Asking i net' loop'
        ∧ ∀ k, net'.backend k = net.backend k := by
  have hinv := invariant_protocol hdecodes hends
  rcases reaches_quiet hdecodes hnet hloop atFrontend thePlatform
    with ⟨net₁, loop₁, hreaches₁, hloop₁, hquiet₁, hsame, hbackends₁⟩
  rcases reaches_deadline hloop₁ hquiet₁ (by omega) atFrontend thePlatform
    with ⟨net₂, loop₂, index, err, hreaches₂, hloop₂, hcompleted, herr, hquiet₂, hbackends₂⟩
  rcases asking_of_deadline hdecodes hends hworks
    (hreaches₂.holds hinv (hreaches₁.holds hinv hnet)) hloop₂ hcompleted herr hquiet₂
    with ⟨net₃, loop₃, hreaches₃, hasking, hbackends₃⟩
  refine ⟨net₃, loop₃, (hreaches₁.trans hreaches₂).trans hreaches₃, hasking, ?_⟩
  intro k
  rw [hbackends₃, hbackends₂, hbackends₁]

end Asking

/-! The answer of a backend -/

-- The backend has started and has not shut down.
def Receives (net : Cluster ι κ F) (k : κ) : Prop :=
  ∃ loop, net.backend k = some loop ∧ loop.outstanding = 1

omit [DecidableEq ι] [DecidableEq κ] in
theorem BackendInv.of_holds {k : κ} {loop : BackendLoop F}
    (hnet : net.Holds cfg.PartyInv cfg.Authentic) (hloop : net.backend k = some loop)
    : cfg.BackendInv net.sent k loop := by
  have hstate := hnet.state (.backend k)
  unfold Cluster.backend at hloop
  rw [hloop] at hstate
  exact hstate

section Answer

variable {i : ι} {ks : List κ} {load : F} {atFrontend : Reactor} {atBackend : κ → Reactor}
  {thePlatform : Platform F} {k : κ}

-- The handler of a completed receive can run at the backend.
theorem reaches_run {loop : BackendLoop F}
    (hworks : cfg.Works i ks load atFrontend atBackend thePlatform) (hk : k ∈ ks)
    (hconfig : loop.engine.toEngineConfig = cfg.backends k) (hloop : net.backend k = some loop)
    (hone : loop.outstanding = 1) (hpending : loop.pendingReceives = 0)
    : ∃ net' loop' effects, cfg.Reaches net net' ∧ net'.backend k = some loop'
        ∧ loop.step cfg.theProtobuf (.runHandler 0 (atBackend k) thePlatform)
          = some (loop', effects)
        ∧ net'.sent = net.sent ++ sentFrom (cfg.endOf (.backend k)) effects
        ∧ loop'.pendingReceives = 1 ∧ (∀ i, net'.frontend i = net.frontend i)
        ∧ ∀ k', k' ≠ k → net'.backend k' = net.backend k' := by
  unfold BackendLoop.outstanding at hone
  rcases List.length_eq_one_iff.mp (show loop.completed.length = 1 by omega)
    with ⟨completion, hcompleted⟩
  have hfirst : loop.completed[0]? = some completion := by rw [hcompleted]; rfl
  rcases BackendLoop.exists_run (atBackend k) hfirst
    (by rw [hconfig]; exact hworks.port k hk) (by rw [hconfig]; exact hworks.throttle k hk)
    hworks.currentLoad hworks.sendTo with ⟨loop', effects, hstep⟩
  rcases reaches_backend (a := .runHandler 0 (atBackend k) thePlatform) hloop rfl hstep
    with ⟨net', hreaches, hloop', hsent, hfrontends, hbackends⟩
  refine ⟨net', loop', effects, hreaches, hloop', hstep, hsent, ?_, hfrontends, hbackends⟩
  have hsame := BackendLoop.outstanding_step hstep
  rcases BackendLoop.step_runHandler hstep with ⟨err, n, engine, _, _, heq⟩
  have hnone : loop'.completed = [] := by
    rw [heq, BackendLoop.completed_performAll, hcompleted]
    rfl
  simp only [BackendEvent.stops, hworks.backendUp k hk, Bool.false_eq_true, if_false, Nat.add_zero,
    BackendLoop.outstanding, hnone, List.length_nil] at hsame
  omega

theorem reaches_idle (hworks : cfg.Works i ks load atFrontend atBackend thePlatform) (hk : k ∈ ks)
    (hnet : net.Holds cfg.PartyInv cfg.Authentic) (hreceives : Receives net k)
    : ∃ net' loop', cfg.Reaches net net' ∧ net'.backend k = some loop'
        ∧ loop'.pendingReceives = 1 ∧ (∀ i, net'.frontend i = net.frontend i)
        ∧ ∀ k', k' ≠ k → net'.backend k' = net.backend k' := by
  rcases hreceives with ⟨loop, hloop, hone⟩
  by_cases hpending : loop.pendingReceives = 0
  . have hconfig := (BackendInv.of_holds hnet hloop).toEngineConfig
    rcases reaches_run hworks hk hconfig hloop hone hpending
      with ⟨net', loop', _, hreaches, hloop', _, _, hlistens, hfrontends, hbackends⟩
    exact ⟨net', loop', hreaches, hloop', hlistens, hfrontends, hbackends⟩
  . refine ⟨net, loop, .refl, hloop, ?_, fun _ => rfl, fun _ _ => rfl⟩
    unfold BackendLoop.outstanding at hone
    omega

theorem reaches_reading (hnet : net.Holds cfg.PartyInv cfg.Authentic) {loop : BackendLoop F}
    (hloop : net.backend k = some loop) (hlistens : loop.pendingReceives = 1) {m : Datagram}
    (hm : m ∈ net.sent) (hfits : Fits m)
    : ∃ net' loop', cfg.Reaches net net' ∧ net'.backend k = some loop'
        ∧ cfg.Reading k m loop' ∧ (∀ thePlatform, (loop'.engine.isPaused thePlatform).1 = false)
        ∧ (∀ i, net'.frontend i = net.frontend i)
        ∧ ∀ k', k' ≠ k → net'.backend k' = net.backend k' := by
  have hinv := BackendInv.of_holds hnet hloop
  have hstep : ∃ loop₁, loop.step cfg.theProtobuf (.datagramArrives m.payload m.source)
      = some (loop₁, []) := by
    simp only [BackendLoop.step, hlistens]
    exact ⟨_, rfl⟩
  rcases hstep with ⟨loop₁, hstep⟩
  have hreceive : cfg.protocol.receive (.backend k) (net.state (.backend k)) m
      = some (some loop₁) := by
    unfold Cluster.backend at hloop
    rw [hloop]
    simp [protocol, receiveBackend, hstep]
  rcases Lib.Network.Reaches.deliver (A := Regular) (D := Fits) hm hfits hreceive
    with ⟨net₁, hreaches₁, hloop₁, _, hothers⟩
  have hreading := reading_receive hinv.toBackendCore hfits hstep
  have hcommand : loop₁.step cfg.theProtobuf (.command .setContinue)
      = some ({ loop₁ with engine := loop₁.engine.instruct .setContinue }, []) := rfl
  rcases reaches_backend (a := .command .setContinue) hloop₁ rfl hcommand
    with ⟨net₂, hreaches₂, hloop₂, _, hfrontends, hbackends⟩
  refine ⟨net₂, _, hreaches₁.trans hreaches₂, hloop₂, hreading.instruct _, fun _ => rfl, ?_, ?_⟩
  . intro j
    rw [hfrontends]
    apply hothers
    simp
  . intro k' hk'
    rw [hbackends k' hk']
    apply hothers
    simpa using hk'

-- The backend reads the request of the frontend and answers it.
theorem reaches_answered (hdecodes : cfg.theProtobuf.Decodes) (hends : Function.Injective cfg.endOf)
    (hserialize : ∀ message, message.isInitialized = true →
      cfg.theProtobuf.SerializeToString message ≠ [])
    (hworks : cfg.Works i ks load atFrontend atBackend thePlatform) (hk : k ∈ ks)
    (hnet : net.Holds cfg.PartyInv cfg.Authentic) (hreceives : Receives net k) {m : Datagram}
    {n : Nat} (hm : m ∈ net.sent) (hrequest : cfg.IsRequest m i n) (hfits : Fits m)
    : ∃ net' answer, cfg.Reaches net net' ∧ answer ∈ net'.sent
        ∧ cfg.Answers net'.sent answer k (atBackend k) load i n ∧ Fits answer
        ∧ (∀ i, net'.frontend i = net.frontend i)
        ∧ ∀ k', Receives net k' → Receives net' k' := by
  have hinv := invariant_protocol hdecodes hends
  rcases reaches_idle hworks hk hnet hreceives
    with ⟨net₁, loop₁, hreaches₁, hloop₁, hlistens₁, hfrontends₁, hbackends₁⟩
  have hnet₁ := hreaches₁.holds hinv hnet
  have hm₁ := hreaches₁.sent.subset hm
  rcases reaches_reading hnet₁ hloop₁ hlistens₁ hm₁ hfits
    with ⟨net₂, loop₂, hreaches₂, hloop₂, hreading, hpaused, hfrontends₂, hbackends₂⟩
  have hone : loop₂.outstanding = 1 := by
    simp [BackendLoop.outstanding, hreading.pendingReceives, hreading.completed]
  rcases reaches_run hworks hk hreading.toEngineConfig hloop₂ hone hreading.pendingReceives
    with ⟨net₃, loop₃, effects, hreaches₃, hloop₃, hstep, hsent, hlistens₃, hfrontends₃, hbackends₃⟩
  have hact : cfg.actBackend k (some loop₂) (.runHandler 0 (atBackend k) thePlatform)
      = some (some loop₃, sentFrom (cfg.endOf (.backend k)) effects) := by
    simp [actBackend, BackendAction.event?, hstep]
  have hserves : Serves loop₂ (atBackend k) thePlatform :=
    ⟨hworks.backendUp k hk, hworks.idle k hk, hpaused thePlatform⟩
  rcases answer_of_reading hdecodes hserialize hreading hrequest hfits hserves hact
    with ⟨load', hload, answer, hanswer, hreply, hdest⟩
  rw [hworks.currentLoad, Except.ok.injEq] at hload
  rw [← hload] at hreply
  have hreaches := (hreaches₁.trans hreaches₂).trans hreaches₃
  refine ⟨net₃, answer, hreaches, ?_, ⟨hreply, hdest, m, hreaches.sent.subset hm, hrequest, hfits⟩,
    ?_, ?_, ?_⟩
  . rw [hsent]
    exact List.mem_append_right _ hanswer
  . unfold Fits
    rw [hreply.payload]
    exact hworks.replyFits k hk n hrequest.number
  . intro j
    rw [hfrontends₃, hfrontends₂, hfrontends₁]
  . rintro k' ⟨loop', hloop', hone'⟩
    by_cases hk' : k' = k
    . rw [hk']
      refine ⟨loop₃, hloop₃, ?_⟩
      have hsame := BackendLoop.outstanding_step hstep
      simpa [BackendEvent.stops, hworks.backendUp k hk, hone] using hsame
    . exact ⟨loop', by rw [hbackends₃ k' hk', hbackends₂ k' hk', hbackends₁ k' hk', hloop'], hone'⟩

omit [FloatArith F] [DecidableEq ι] [DecidableEq κ] in
theorem exists_receive {loop : EventLoop F} {m : Datagram} (hlistens : 0 < loop.pendingReceives)
    (hdest : m.dest = cfg.endOf (.frontend i)) (hfits : Fits m)
    : ∃ loop', cfg.receiveFrontend i (some loop) m = some (some loop')
        ∧ loop'.completed[loop.completed.length]? = some (.frontendRead .success m.payload.length)
        ∧ loop'.engine.itsReceiveBuffer.take m.payload.length = m.payload := by
  have htake : m.payload.take 8192 = m.payload := List.take_of_length_le hfits
  cases hpending : loop.pendingReceives with
  | zero => omega
  | succ pending =>
    simp only [receiveFrontend, hdest, if_true, hpending]
    refine ⟨_, rfl, ?_, ?_⟩
    . simp [EventLoop.receive, htake]
    . simp [EventLoop.receive, htake]

-- The frontend reads the answer and lists what it announces.
theorem reaches_listed {loop : EventLoop F} (hdecodes : cfg.theProtobuf.Decodes)
    (hends : Function.Injective cfg.endOf)
    (hworks : cfg.Works i ks load atFrontend atBackend thePlatform) (hk : k ∈ ks)
    (hasking : cfg.Asking i net loop) {answer : Datagram} (hanswer : answer ∈ net.sent)
    (hanswers : cfg.Answers net.sent answer k (atBackend k) load i
      loop.engine.itsFrontendSequence.toNat) (hfits : Fits answer)
    : ∃ net' loop', cfg.Reaches net net' ∧ cfg.Asking i net' loop' ∧ Extends loop loop'
        ∧ cfg.Lists k (atBackend k) load loop.engine.itsFrontendSequence.toNat
          loop'.engine.itsServices
        ∧ ∀ k', net'.backend k' = net.backend k' := by
  have hinv := invariant_protocol hdecodes hends
  rcases exists_receive hasking.listens hanswers.dest hfits
    with ⟨loop₁, hreceive, hcompleted, hbuffer⟩
  have hextends₁ : Extends loop loop₁ := by
    rcases Extends.receive hreceive with ⟨loop', heq, hextends⟩
    rwa [Option.some.inj heq]
  have hreceive' : cfg.protocol.receive (.frontend i) (net.state (.frontend i)) answer
      = some (some loop₁) := by
    have hloop := hasking.frontend
    unfold Cluster.frontend at hloop
    rw [hloop]
    exact hreceive
  rcases Lib.Network.Reaches.deliver (A := Regular) (D := Fits) hanswer hfits hreceive'
    with ⟨net₁, hreaches₁, hloop₁, hsent₁, hothers⟩
  have hnet₁ := hreaches₁.holds hinv hasking.holds
  rcases reaches_read hdecodes hnet₁ hloop₁ hcompleted atFrontend thePlatform
    with ⟨net₂, loop₂, hreaches₂, hloop₂, hstep, hbackends⟩
  rcases lists_runRead hdecodes hanswers hfits (hworks.serving k hk) hcompleted hbuffer
    hworks.frontendUp hstep with ⟨hlists, hsequence⟩
  have hgathers : loop₁.completed[loop.completed.length]?.any Completion.isDeadline = false := by
    rw [hcompleted]
    rfl
  have hextends := hextends₁.trans (Extends.runHandler hgathers hstep)
  refine ⟨net₂, loop₂, hreaches₁.trans hreaches₂, ?_, hextends, hlists, ?_⟩
  . rcases hasking.asked with ⟨m, hm, hrequest, hmfits⟩
    exact {
      holds := hreaches₂.holds hinv hnet₁
      frontend := hloop₂
      listens := by
        rw [(EventLoop.step_runRead hcompleted (by decide) hstep).1]
        omega
      asked := by
        refine ⟨m, (hreaches₁.trans hreaches₂).sent.subset hm, ?_, hmfits⟩
        rw [hextends.sequence]
        exact hrequest
    }
  . intro k'
    rw [hbackends]
    apply hothers
    simp

-- One backend after the other.
theorem reaches_all {loop : EventLoop F} (hdecodes : cfg.theProtobuf.Decodes)
    (hends : Function.Injective cfg.endOf)
    (hserialize : ∀ message, message.isInitialized = true →
      cfg.theProtobuf.SerializeToString message ≠ [])
    (hworks : cfg.Works i ks load atFrontend atBackend thePlatform) {l : List κ}
    (hl : ∀ k ∈ l, k ∈ ks) (hasking : cfg.Asking i net loop)
    (hreceives : ∀ k ∈ l, Receives net k)
    : ∃ net' loop', cfg.Reaches net net' ∧ cfg.Asking i net' loop' ∧ Extends loop loop'
        ∧ ∀ k ∈ l, cfg.Lists k (atBackend k) load loop'.engine.itsFrontendSequence.toNat
          loop'.engine.itsServices := by
  induction l generalizing net loop with
  | nil => exact ⟨net, loop, .refl, hasking, .of_same rfl rfl, by simp⟩
  | cons k l ih =>
    rw [List.forall_mem_cons] at hl hreceives
    rcases hasking.asked with ⟨m, hm, hrequest, hmfits⟩
    rcases reaches_answered hdecodes hends hserialize hworks hl.1 hasking.holds hreceives.1 hm
      hrequest hmfits
      with ⟨net₁, answer, hreaches₁, hanswer, hanswers, hfits, hfrontends, hkept⟩
    have hasking₁ : cfg.Asking i net₁ loop := {
      holds := hreaches₁.holds (invariant_protocol hdecodes hends) hasking.holds
      frontend := by rw [hfrontends, hasking.frontend]
      listens := hasking.listens
      asked := ⟨m, hreaches₁.sent.subset hm, hrequest, hmfits⟩
    }
    rcases reaches_listed hdecodes hends hworks hl.1 hasking₁ hanswer hanswers hfits
      with ⟨net₂, loop₂, hreaches₂, hasking₂, hextends₂, hlists, hbackends⟩
    have hreceives₂ : ∀ k' ∈ l, Receives net₂ k' := by
      intro k' hk'
      rcases hkept k' (hreceives.2 k' hk') with ⟨loop', hloop', hone⟩
      exact ⟨loop', by rw [hbackends, hloop'], hone⟩
    rcases ih hl.2 hasking₂ hreceives₂ with ⟨net₃, loop₃, hreaches₃, hasking₃, hextends₃, hrest⟩
    refine ⟨net₃, loop₃, (hreaches₁.trans hreaches₂).trans hreaches₃, hasking₃,
      hextends₂.trans hextends₃, ?_⟩
    rw [List.forall_mem_cons]
    refine ⟨?_, hrest⟩
    rw [(hextends₂.trans hextends₃).sequence]
    exact hlists.extends hextends₃

end Answer

end ClusterConfig

namespace Cluster

open ClusterConfig

variable [DecidableEq ι] [DecidableEq κ]

section Sample

open Sample

theorem length_codec {wires : List Wire} {message : BroadcastMessage Rat} {n : Nat}
    (hwires : ∀ wire ∈ wires, wire.head.length + wire.tail.length ≤ 8189)
    (hmem : ∃ wire ∈ wires, wire.message = { message with seqnum? := none })
    (hseqnum : message.seqnum? = some (Int32.ofInt n)) (hn : n < 65535)
    : ((codec wires).SerializeToString message).length ≤ 8192 := by
  have hnumber : (Int32.ofInt n).toInt = n := by
    rw [Int32.toInt_ofInt_of_le (by omega) (by omega)]
  have hvarint : (varint n).length ≤ 3 := by
    unfold varint
    split
    . simp
    . split
      . simp
      . simp
  simp only [codec, hseqnum]
  cases hfind : wires.find? fun wire => wire.message = { message with seqnum? := none } with
  | none =>
    rcases hmem with ⟨wire, hwire, heq⟩
    exact absurd (decide_eq_true heq) (List.find?_eq_none.mp hfind wire hwire)
  | some wire =>
    have hlength := hwires wire (List.mem_of_find?_eq_some hfind)
    simp only [hnumber, Int.toNat_natCast]
    rw [if_pos (by omega), List.length_append, List.length_append]
    omega

-- The backend is started too late for the first request.
def lateStart : List (ClusterEvent Unit Unit Rat) := [
  .act (.frontend ()) (.launch false reactor clusterPlatform true),
  .act (.backend ()) (.launch false reactor clusterPlatform (.ok ()))
]

theorem works_cluster
    : cluster.Works () [()] 0 reactor (fun _ => Engine.handlers) clusterPlatform where
  frontendUp := rfl
  backendUp _ _ := rfl
  idle _ _ := rfl
  serving _ _ := by decide
  listeners j := by
    cases j with
    | zero => rfl
    | succ j => rfl
  listened := by decide
  currentLoad := rfl
  sendTo := rfl
  port := by decide
  throttle := by decide
  requestFits n hn :=
    length_codec (by decide) ⟨requestWire, List.mem_cons_self .., rfl⟩ rfl hn
  replyFits _ _ n hn :=
    length_codec (by decide) ⟨replyWire, List.mem_cons_of_mem _ (List.mem_singleton_self _), rfl⟩
      (congrArg (fun k => some (Int32.ofInt k)) (Int32.toInt_ofInt_of_le (by omega) (by omega))) hn

end Sample

end Cluster

end Sputnik
