import Sputnik.Cluster.Authentic
import Sputnik.Engine.Listeners
import Sputnik.Heartbeat.Lemmas

/-!
This module contains what a frontend sends: nothing, or the request of its next cycle.
-/

namespace Sputnik

open ClusterConfig

variable {F : Type} [FloatArith F] {ι κ : Type}

namespace Engine

omit [FloatArith F] in
theorem sendTo_sendRequests (thePlatform : Platform F) (theRequestBuffer : ByteString)
    (l : List ByteString) (k : Nat)
    : ∀ effect ∈ (sendRequests thePlatform theRequestBuffer l k).1,
        ∃ dest, effect = .sendTo theRequestBuffer dest := by
  induction l generalizing k with
  | nil => simp [sendRequests]
  | cons st l ih =>
    have hhead : ∀ effect ∈ (destinations thePlatform [st]).map (Effect.sendTo theRequestBuffer),
        ∃ dest, effect = .sendTo theRequestBuffer dest := by
      intro effect heffect
      rcases List.mem_map.mp heffect with ⟨dest, _, heq⟩
      exact ⟨dest, heq.symm⟩
    rw [sendRequests_cons]
    cases failure thePlatform k st with
    | some err => exact hhead
    | none =>
      intro effect heffect
      cases List.mem_append.mp heffect with
      | inl hfirst => apply hhead effect hfirst
      | inr hrest => apply ih _ effect hrest

omit [FloatArith F] in
theorem startServiceDiscovery_sends {e e' : Engine F} {theReactor : Reactor}
    {thePlatform : Platform F} {theProtobuf : Protobuf F} {effects : List Effect}
    (h : e.startServiceDiscovery theReactor thePlatform theProtobuf = .ok (e', effects))
    : e' = e.nextCycle
        ∧ ∃ sends, effects = sends ++ e.armed
          ∧ ∀ effect ∈ sends, ∃ dest,
            effect = .sendTo (e.requestBuffer theReactor theProtobuf) dest := by
  rw [startServiceDiscovery_eq] at h
  dsimp at h
  split at h
  . injection h with h
    injection h with he heffects
    exact ⟨he.symm, _, heffects.symm, sendTo_sendRequests _ _ _ _⟩
  . next hfails =>
    rw [not_or] at hfails
    cases hresult : (sendRequests thePlatform (e.requestBuffer theReactor theProtobuf)
        e.itsBackendUdpListeners 0).2 with
    | error err =>
      rw [hresult] at h
      contradiction
    | ok result => exact absurd hresult hfails.1

-- the engine after the part of `handleDeadlineTimer` before the next cycle
def cleaned (e : Engine F) (theReactor : Reactor) : Engine F :=
  { e with
    itsServices :=
      if e.purges then
        e.itsServices.latestSequence theReactor e.itsFrontendSequence.toNat
      else
        e.itsServices
    itsSkippedCycles := if e.purges then 0 else e.itsSkippedCycles + 1
    itsReceivedResponses := 0 }

theorem handleDeadlineTimer_sends {e e' : Engine F} {theReactor : Reactor}
    {thePlatform : Platform F} {theProtobuf : Protobuf F} {err : ErrorCode} {effects : List Effect}
    (hseq : e.itsFrontendSequence.toNat < 65535) (herr : err ≠ .operationAborted)
    (h : e.handleDeadlineTimer theReactor thePlatform theProtobuf err = .ok (e', effects))
    : if theReactor.isShuttingDown then
        e' = e.cleaned theReactor ∧ effects = [.cancel]
      else
        e' = (e.cleaned theReactor).nextCycle
          ∧ ∃ sends, effects = .cancel :: (sends ++ e.armed)
            ∧ ∀ effect ∈ sends, ∃ dest, effect
              = .sendTo ((e.cleaned theReactor).requestBuffer theReactor theProtobuf) dest := by
  simp only [handleDeadlineTimer, herr, if_false, cleanServices_eq theReactor hseq, bind,
    Except.bind] at h
  split at h
  . next hdown =>
    injection h with h
    injection h with he heffects
    rw [if_pos hdown]
    exact ⟨he.symm, heffects.symm⟩
  . next hdown =>
    rw [if_neg hdown]
    split at h
    . contradiction
    . next started hstart =>
      rcases startServiceDiscovery_sends hstart with ⟨he, sends, heffects, hsends⟩
      injection h with h
      injection h with he' heffects'
      rw [← he', ← heffects', he, heffects]
      exact ⟨rfl, sends, rfl, hsends⟩

omit [FloatArith F] in
theorem toNat_nextCycle {e : Engine F} (h : e.itsFrontendSequence.toNat < 65535)
    : e.nextCycle.itsFrontendSequence.toNat = (e.itsFrontendSequence.toNat + 1) % 65535 :=
  nextSequence_toNat h

theorem handleFrontendRead_fails {e e' : Engine F} {theReactor : Reactor}
    {theProtobuf : Protobuf F} {err : ErrorCode} {bytesTransferred : Nat} {effects : List Effect}
    (herr : err ≠ .success)
    (h : e.handleFrontendRead theReactor theProtobuf err bytesTransferred = .ok (e', effects))
    : e' = e := by
  simp only [handleFrontendRead, herr, if_false] at h
  split at h
  . injection h with h
    injection h with he _
    exact he.symm
  . injection h with h
    injection h with he _
    exact he.symm

-- A read changes the table and the count of the replies.
theorem handleFrontendRead_eq_ok {e e' : Engine F} {theReactor : Reactor} {theProtobuf : Protobuf F}
    {err : ErrorCode} {bytesTransferred : Nat} {effects : List Effect}
    (h : e.handleFrontendRead theReactor theProtobuf err bytesTransferred = .ok (e', effects))
    : ∃ itsServices itsReceivedResponses,
        e' = { e with itsServices, itsReceivedResponses } := by
  by_cases herr : err = .success
  . rw [herr, handleFrontendRead_success e theReactor rfl] at h
    cases hreply : e.processReply theReactor (theProtobuf.ParseFromString
        (e.itsReceiveBuffer.take bytesTransferred)).2 with
    | error err =>
      rw [hreply] at h
      contradiction
    | ok engine =>
      have hstep : e.cycleStep (.processReply theReactor (theProtobuf.ParseFromString
          (e.itsReceiveBuffer.take bytesTransferred)).2 []) = some engine := by
        rw [cycleStep_processReply, hreply]
        rfl
      rcases cycleStep_eq_some hstep with ⟨s', _, hengine⟩
      rw [hreply] at h
      injection h with h
      injection h with he _
      rw [← he, hengine]
      exact ⟨_, _, rfl⟩
  . rw [handleFrontendRead_fails herr h]
    exact ⟨_, _, rfl⟩

end Engine

namespace EventLoop

omit [FloatArith F] in
@[simp]
theorem engine_performAll (loop : EventLoop F) (effects : List Effect)
    : (loop.performAll effects).engine = loop.engine := by
  unfold performAll
  induction effects generalizing loop with
  | nil => rfl
  | cons effect effects ih =>
    rw [List.foldl_cons, ih]
    cases effect with
    | _ => rfl

omit [FloatArith F] in
theorem read_of_performAll {loop : EventLoop F} {effects : List Effect} {n : Nat}
    (h : .frontendRead .success n ∈ (loop.performAll effects).completed)
    : .frontendRead .success n ∈ loop.completed := by
  unfold performAll at h
  induction effects generalizing loop with
  | nil => assumption
  | cons effect effects ih =>
    rw [List.foldl_cons] at h
    have hperform := ih h
    cases effect with
    | cancel => simpa [perform, List.mem_replicate] using hperform
    | expiresAfter seconds => simpa [perform, List.mem_replicate] using hperform
    | _ => assumption

theorem runReply_eq_some {theProtobuf : Protobuf F} {loop loop' : EventLoop F} {index : Nat}
    {theReactor : Reactor} {between : List (List Removal)}
    (h : loop.runReply theProtobuf index theReactor between = some loop')
    : ∃ itsServices itsReceivedResponses,
        loop'.engine = { loop.engine with itsServices, itsReceivedResponses } := by
  unfold runReply at h
  split at h
  . rcases Option.map_eq_some_iff.mp h with ⟨engine, hstep, hloop'⟩
    rcases Engine.cycleStep_eq_some hstep with ⟨s', _, hengine⟩
    rw [← hloop', engine_performAll]
    exact ⟨_, _, hengine⟩
  . contradiction

end EventLoop

namespace ClusterConfig

variable {cfg : ClusterConfig ι κ F}

omit [FloatArith F] in
theorem requestBuffer_eq {i : ι} {e : Engine F} {theReactor : Reactor}
    (hconfig : e.toEngineConfig = cfg.frontends i) (hdown : theReactor.isShuttingDown = false)
    : e.requestBuffer theReactor cfg.theProtobuf
        =
      cfg.theProtobuf.SerializeToString (cfg.request i e.nextCycle.itsFrontendSequence.toNat) := by
  unfold Engine.requestBuffer Engine.sendDiscoveryRequest request
  rw [hdown, ← hconfig]
  rfl

theorem sentFrom_eq_nil {source : Endpoint} {effects : List Effect}
    (h : ∀ effect ∈ effects, effect.isSend = false) : sentFrom source effects = [] := by
  rw [List.eq_nil_iff_forall_not_mem]
  intro m hm
  have := h _ (mem_sentFrom.mp hm).2
  contradiction

omit [FloatArith F] in
theorem isRequest_unique {i : ι} {m : Datagram} {n n' : Nat} (hdecodes : cfg.theProtobuf.Decodes)
    (hfits : m.payload.length ≤ 8192) (h : cfg.IsRequest m i n) (h' : cfg.IsRequest m i n')
    : n = n' := by
  have hparse : ∀ {n}, cfg.IsRequest m i n →
      cfg.theProtobuf.ParseFromString m.payload = (true, cfg.request i n) := by
    intro n h
    rw [h.payload] at hfits ⊢
    exact hdecodes _ rfl hfits
  have heq := (hparse h).symm.trans (hparse h')
  simp only [request, Prod.mk.injEq, BroadcastMessage.mk.injEq, true_and, and_true,
    Option.some.injEq] at heq
  have hn := congrArg Int32.toInt heq
  have := h.number
  have := h'.number
  rw [Int32.toInt_ofInt_of_le (by omega) (by omega),
    Int32.toInt_ofInt_of_le (by omega) (by omega)] at hn
  omega

-- The number goes from `n` to `n'` and `out` is sent: nothing, or the request of the next cycle.
def SendsNext (cfg : ClusterConfig ι κ F) (i : ι) (n n' : Nat) (out : List Datagram) : Prop :=
  (n' = n ∧ out = []) ∨ (n' = (n + 1) % 65535 ∧ ∀ m ∈ out, cfg.IsRequest m i n')

omit [FloatArith F] in
theorem SendsNext.lt {i : ι} {n n' : Nat} {out : List Datagram} (h : cfg.SendsNext i n n' out)
    (hn : n < 65535) : n' < 65535 := by
  rcases h with ⟨hsame, _⟩ | ⟨hnext, _⟩
  . omega
  . omega

omit [FloatArith F] in
theorem isRequest_next {i : ι} {e : Engine F} {theReactor : Reactor} {sends armed : List Effect}
    (hconfig : e.toEngineConfig = cfg.frontends i) (hdown : theReactor.isShuttingDown = false)
    (hsequence : e.itsFrontendSequence.toNat < 65535)
    (hsends : ∀ effect ∈ sends, ∃ dest,
      effect = .sendTo (e.requestBuffer theReactor cfg.theProtobuf) dest)
    (harmed : ∀ effect ∈ armed, effect.isSend = false)
    : ∀ m ∈ sentFrom (cfg.endOf (.frontend i)) (sends ++ armed),
        cfg.IsRequest m i e.nextCycle.itsFrontendSequence.toNat := by
  intro m hm
  rcases mem_sentFrom.mp hm with ⟨hsource, hsend⟩
  have hpayload : m.payload = e.requestBuffer theReactor cfg.theProtobuf := by
    cases List.mem_append.mp hsend with
    | inl hsend =>
      rcases hsends _ hsend with ⟨dest, heq⟩
      injection heq
    | inr hsend =>
      have := harmed _ hsend
      contradiction
  exact {
    source := hsource
    payload := by rw [hpayload, requestBuffer_eq hconfig hdown]
    number := by
      rw [Engine.toNat_nextCycle hsequence]
      omega
  }

theorem launchFrontend_eq_some {i : ι} {pause : Bool} {theReactor : Reactor}
    {thePlatform : Platform F} {hooked : Bool} {loop : EventLoop F} {effects : List Effect}
    (h : cfg.launchFrontend i pause theReactor thePlatform hooked = some (loop, effects))
    : ∃ mode sends,
        loop.engine = Engine.nextCycle { Engine.new (cfg.frontends i) pause with
            itsServices := .init mode (cfg.frontends i).itsBalanceFactor
              (cfg.frontends i).itsStickyCookie }
          ∧ loop.outstanding = 1 ∧ (∀ n, .frontendRead .success n ∉ loop.completed)
          ∧ effects = sends ++ loop.engine.armed
          ∧ ∀ effect ∈ sends, ∃ dest, effect = .sendTo
            ((Engine.new (cfg.frontends i) pause).requestBuffer theReactor cfg.theProtobuf)
            dest := by
  unfold launchFrontend at h
  split at h
  . contradiction
  . next engine effects' hlaunch =>
    injection h with h
    injection h with hloop heffects
    unfold Engine.launch Engine.frontendMode at hlaunch
    simp only [bind, Except.bind] at hlaunch
    split at hlaunch
    . contradiction
    . next launched hmode =>
      split at hlaunch
      . injection hlaunch with hlaunch
        rw [hlaunch] at hmode
        split at hmode
        . contradiction
        . next itsServices hforwarding =>
          rcases Services.setForwarding_new hforwarding with ⟨mode, hservices⟩
          rw [hservices] at hmode
          rcases Engine.startServiceDiscovery_sends hmode with ⟨hengine, sends, hsent, hsends⟩
          have harmed : ∀ effect ∈ sends, effect.isSend = true := by
            intro effect heffect
            rcases hsends effect heffect with ⟨dest, heq⟩
            rw [heq]
            rfl
          refine ⟨mode, sends, ?_, ?_, ?_, ?_, hsends⟩
          . rw [← hloop, EventLoop.engine_performAll]
            exact hengine
          . rw [← hloop, hsent, EventLoop.outstanding_armed _ harmed]
            rfl
          . intro n hn
            rw [← hloop] at hn
            have := EventLoop.read_of_performAll hn
            contradiction
          . rw [← hloop, EventLoop.engine_performAll, ← heffects, hsent, hengine]
            rfl
      . contradiction

theorem sendsNext_handleDeadlineTimer {i : ι} {e e' : Engine F} {theReactor : Reactor}
    {thePlatform : Platform F} {err : ErrorCode} {effects : List Effect}
    (hconfig : e.toEngineConfig = cfg.frontends i) (hsequence : e.itsFrontendSequence.toNat < 65535)
    (h : e.handleDeadlineTimer theReactor thePlatform cfg.theProtobuf err = .ok (e', effects))
    : cfg.SendsNext i e.itsFrontendSequence.toNat e'.itsFrontendSequence.toNat
        (sentFrom (cfg.endOf (.frontend i)) effects) := by
  by_cases herr : err = .operationAborted
  . left
    simp only [Engine.handleDeadlineTimer, herr, if_true] at h
    injection h with h
    injection h with he heffects
    rw [← he, ← heffects]
    exact ⟨rfl, rfl⟩
  . have hcases := Engine.handleDeadlineTimer_sends hsequence herr h
    split at hcases
    . left
      rw [hcases.1, hcases.2]
      exact ⟨rfl, rfl⟩
    . next hdown =>
      right
      rcases hcases with ⟨he, sends, heffects, hsends⟩
      rw [he, heffects]
      refine ⟨Engine.toNat_nextCycle (e := e.cleaned theReactor) hsequence, ?_⟩
      apply isRequest_next (e := e.cleaned theReactor) hconfig (by simpa using hdown) hsequence
        hsends
      simp [Engine.armed, Effect.isSend]

theorem sendsNext_step {i : ι} {loop loop' : EventLoop F} {event : LoopEvent × Reactor × Platform F}
    (hconfig : loop.engine.toEngineConfig = cfg.frontends i)
    (hsequence : loop.engine.itsFrontendSequence.toNat < 65535)
    (h : loop.step cfg.theProtobuf event = some loop')
    : cfg.SendsNext i loop.engine.itsFrontendSequence.toNat loop'.engine.itsFrontendSequence.toNat
        (sentFrom (cfg.endOf (.frontend i)) (loop.effects cfg.theProtobuf event)) := by
  rcases event with ⟨event, theReactor, thePlatform⟩
  cases event with
  | datagramArrives datagram remoteEnd =>
    left
    simp only [EventLoop.step] at h
    split at h
    . contradiction
    . injection h with h
      rw [← h]
      exact ⟨rfl, rfl⟩
  | timerExpires =>
    left
    simp only [EventLoop.step] at h
    split at h
    . contradiction
    . injection h with h
      rw [← h]
      exact ⟨rfl, rfl⟩
  | runHandler index =>
    rcases EventLoop.step_runHandler h
      with ⟨completion, engine, effects, hcompleted, hhandle, hloop'⟩
    have heffects : loop.effects cfg.theProtobuf (.runHandler index, theReactor, thePlatform)
        = effects := by
      simp [EventLoop.effects, hcompleted, hhandle]
    rw [heffects, hloop', EventLoop.engine_performAll]
    cases completion with
    | frontendRead err n =>
      left
      rcases Engine.handleFrontendRead_eq_ok hhandle with ⟨_, _, hengine⟩
      refine ⟨by rw [hengine], ?_⟩
      apply sentFrom_eq_nil
      rw [EventLoop.effects_handleFrontendRead hhandle]
      split
      . simp
      . simp [Effect.isSend]
    | deadlineTimer err => apply sendsNext_handleDeadlineTimer hconfig hsequence hhandle

theorem sendsNext_launch {i : ι} {pause : Bool} {theReactor : Reactor} {thePlatform : Platform F}
    {hooked : Bool} {loop : EventLoop F} {effects : List Effect}
    (hdown : theReactor.isShuttingDown = false)
    (h : cfg.launchFrontend i pause theReactor thePlatform hooked = some (loop, effects))
    : cfg.SendsNext i 0 loop.engine.itsFrontendSequence.toNat
        (sentFrom (cfg.endOf (.frontend i)) effects) := by
  rcases launchFrontend_eq_some h with ⟨mode, sends, hengine, _, _, heffects, hsends⟩
  right
  rw [hengine, heffects]
  refine ⟨rfl, ?_⟩
  apply isRequest_next (e := Engine.new (cfg.frontends i) pause) rfl hdown (by simp [Engine.new])
    hsends
  simp [Engine.armed, Effect.isSend]

/-! What holds of a frontend in every run -/

structure FrontendCore (cfg : ClusterConfig ι κ F) (i : ι) (loop : EventLoop F) : Prop where
  toEngineConfig : loop.engine.toEngineConfig = cfg.frontends i
  sequence : loop.engine.itsFrontendSequence.toNat < 65535

theorem toEngineConfig_handleDeadlineTimer {e e' : Engine F} {theReactor : Reactor}
    {thePlatform : Platform F} {theProtobuf : Protobuf F} {err : ErrorCode} {effects : List Effect}
    (hsequence : e.itsFrontendSequence.toNat < 65535)
    (h : e.handleDeadlineTimer theReactor thePlatform theProtobuf err = .ok (e', effects))
    : e'.toEngineConfig = e.toEngineConfig := by
  by_cases herr : err = .operationAborted
  . simp only [Engine.handleDeadlineTimer, herr, if_true] at h
    injection h with h
    injection h with he _
    rw [← he]
  . have hcases := Engine.handleDeadlineTimer_sends hsequence herr h
    split at hcases
    . rw [hcases.1]
      rfl
    . rw [hcases.1]
      rfl

theorem FrontendCore.step {i : ι} {loop loop' : EventLoop F}
    {event : LoopEvent × Reactor × Platform F} (hloop : cfg.FrontendCore i loop)
    (h : loop.step cfg.theProtobuf event = some loop') : cfg.FrontendCore i loop' where
  toEngineConfig := by
    rw [← hloop.toEngineConfig]
    rcases event with ⟨event, theReactor, thePlatform⟩
    cases event with
    | datagramArrives datagram remoteEnd =>
      simp only [EventLoop.step] at h
      split at h
      . contradiction
      . injection h with h
        rw [← h]
        rfl
    | timerExpires =>
      simp only [EventLoop.step] at h
      split at h
      . contradiction
      . injection h with h
        rw [← h]
    | runHandler index =>
      rcases EventLoop.step_runHandler h with ⟨completion, engine, effects, _, hhandle, hloop'⟩
      rw [hloop', EventLoop.engine_performAll]
      cases completion with
      | frontendRead err n =>
        rcases Engine.handleFrontendRead_eq_ok hhandle with ⟨_, _, hengine⟩
        rw [hengine]
      | deadlineTimer err => apply toEngineConfig_handleDeadlineTimer hloop.sequence hhandle
  sequence := (sendsNext_step hloop.toEngineConfig hloop.sequence h).lt hloop.sequence

theorem FrontendCore.runReply {i : ι} {loop loop' : EventLoop F} {index : Nat}
    {theReactor : Reactor} {between : List (List Removal)} (hloop : cfg.FrontendCore i loop)
    (h : loop.runReply cfg.theProtobuf index theReactor between = some loop')
    : cfg.FrontendCore i loop' := by
  rcases EventLoop.runReply_eq_some h with ⟨itsServices, itsReceivedResponses, hengine⟩
  constructor
  . rw [hengine]
    exact hloop.toEngineConfig
  . rw [hengine]
    exact hloop.sequence

theorem FrontendCore.removeBackend {i : ι} {loop loop' : EventLoop F} {removal : Removal}
    (hloop : cfg.FrontendCore i loop) (h : loop.removeBackend removal = some loop')
    : cfg.FrontendCore i loop' := by
  rcases Option.map_eq_some_iff.mp h with ⟨itsServices, _, hloop'⟩
  rw [← hloop']
  exact ⟨hloop.toEngineConfig, hloop.sequence⟩

theorem frontendCore_launch {i : ι} {pause : Bool} {theReactor : Reactor}
    {thePlatform : Platform F} {hooked : Bool} {loop : EventLoop F} {effects : List Effect}
    (h : cfg.launchFrontend i pause theReactor thePlatform hooked = some (loop, effects))
    : cfg.FrontendCore i loop := by
  rcases launchFrontend_eq_some h with ⟨mode, _, hengine, _⟩
  constructor
  . rw [hengine]
    rfl
  . rw [hengine, Engine.toNat_nextCycle (by simp [Engine.new])]
    omega

theorem frontendCore_act {i : ι} {loop : EventLoop F} {a : FrontendAction F}
    {s' : Option (EventLoop F)} {out : List Datagram} (hloop : cfg.FrontendCore i loop)
    (h : cfg.actFrontend i (some loop) a = some (s', out))
    : ∃ loop', s' = some loop' ∧ cfg.FrontendCore i loop' := by
  cases a with
  | launch pause theReactor thePlatform hooked => contradiction
  | event event =>
    rcases event with ⟨event, theReactor, thePlatform⟩
    cases event with
    | datagramArrives datagram remoteEnd => contradiction
    | _ =>
      rcases Option.map_eq_some_iff.mp h with ⟨loop', hstep, heq⟩
      injection heq with hs' _
      exact ⟨loop', hs'.symm, hloop.step hstep⟩
  | runReply index theReactor between =>
    rcases Option.map_eq_some_iff.mp h with ⟨loop', hreply, heq⟩
    injection heq with hs' _
    exact ⟨loop', hs'.symm, hloop.runReply hreply⟩
  | removeBackend removal =>
    rcases Option.map_eq_some_iff.mp h with ⟨loop', hremove, heq⟩
    injection heq with hs' _
    exact ⟨loop', hs'.symm, hloop.removeBackend hremove⟩

omit [FloatArith F] in
theorem frontendCore_receive {i : ι} {loop : EventLoop F} {m : Datagram}
    {s' : Option (EventLoop F)} (hloop : cfg.FrontendCore i loop)
    (h : cfg.receiveFrontend i (some loop) m = some s')
    : ∃ loop', s' = some loop' ∧ cfg.FrontendCore i loop' := by
  simp only [receiveFrontend] at h
  split at h
  . split at h
    . contradiction
    . injection h with h
      exact ⟨_, h.symm, hloop.toEngineConfig, hloop.sequence⟩
  . contradiction

end ClusterConfig

end Sputnik
