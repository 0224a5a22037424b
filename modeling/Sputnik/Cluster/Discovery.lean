import Sputnik.Cluster.Withdrawal

/-!
This module contains that discovery works: a backend that reads a request answers it, and a frontend
that reads the answer in time lists what it announces, through the deadline of the cycle.
-/

namespace Sputnik

variable {F : Type} [FloatArith F] {ι κ : Type}

theorem CycleEvent.grows_ops_processReply {theReactor : Reactor} {theMessage : BroadcastMessage F}
    : ∀ op ∈ (CycleEvent.processReply theReactor theMessage []).ops, op.grows = true := by
  simp only [CycleEvent.ops, List.map_nil, interleave_nil]
  split
  . intro op hop
    rcases Engine.mem_replyOps hop with ⟨service, _, uri, heq⟩ | ⟨infoQuery, heq⟩
    . rw [heq]
      rfl
    . rw [heq]
      rfl
  . simp

namespace ClusterConfig

variable {cfg : ClusterConfig ι κ F}

/-! The answer of a backend -/

-- The datagram is in the buffer of the backend, whose handler has not run yet.
structure Reading (cfg : ClusterConfig ι κ F) (k : κ) (m : Datagram) (loop : BackendLoop F)
    : Prop where
  toEngineConfig : loop.engine.toEngineConfig = cfg.backends k
  pendingReceives : loop.pendingReceives = 0
  completed : loop.completed = [(.success, m.payload.length)]
  itsReceiveBuffer : loop.engine.itsReceiveBuffer.take m.payload.length = m.payload
  itsRemoteEnd : loop.engine.itsRemoteEnd = m.source

omit [FloatArith F] in
theorem reading_receive {k : κ} {loop loop' : BackendLoop F} {m : Datagram}
    {effects : List Effect} (hloop : cfg.BackendCore k loop) (hfits : Fits m)
    (h : loop.step cfg.theProtobuf (.datagramArrives m.payload m.source) = some (loop', effects))
    : cfg.Reading k m loop' := by
  have houtstanding := hloop.outstanding
  have htake : m.payload.take 8192 = m.payload := List.take_of_length_le hfits
  have hread := Engine.take_itsReceiveBuffer_fill loop.engine m.payload m.source
  simp only [BackendLoop.step, htake] at h hread
  split at h
  . contradiction
  . next pending hpending =>
    injection h with h
    injection h with hloop' _
    unfold BackendLoop.outstanding at houtstanding
    have hnone : loop.completed = [] := by
      apply List.eq_nil_of_length_eq_zero
      omega
    rw [← hloop', hnone]
    exact {
      toEngineConfig := hloop.toEngineConfig
      pendingReceives := by
        dsimp
        omega
      completed := rfl
      itsReceiveBuffer := hread
      itsRemoteEnd := rfl
    }

omit [FloatArith F] in
theorem Reading.instruct {k : κ} {m : Datagram} {loop : BackendLoop F} (h : cfg.Reading k m loop)
    (c : PauseCommand) : cfg.Reading k m { loop with engine := loop.engine.instruct c } where
  toEngineConfig := by
    dsimp
    rw [Engine.toEngineConfig_instruct, h.toEngineConfig]
  pendingReceives := h.pendingReceives
  completed := h.completed
  itsReceiveBuffer := by simpa using h.itsReceiveBuffer
  itsRemoteEnd := by simpa using h.itsRemoteEnd

-- No handler runs at the backend.
def Waits (k : κ) : ClusterEvent ι κ F → Prop
  | .act (.backend k') (.runHandler ..) => k' ≠ k
  | _ => True

variable [DecidableEq ι] [DecidableEq κ]

instance (k : κ) : ∀ event : ClusterEvent ι κ F, Decidable (Waits k event)
  | .act (.backend k') (.runHandler ..) => inferInstanceAs (Decidable (k' ≠ k))
  | .act (.backend _) (.launch ..) => .isTrue trivial
  | .act (.backend _) .receiveFails => .isTrue trivial
  | .act (.backend _) (.command _) => .isTrue trivial
  | .act (.frontend _) _ => .isTrue trivial
  | .deliver .. => .isTrue trivial

theorem reading_step {k : κ} {m : Datagram} {net net' : Cluster ι κ F} {event : ClusterEvent ι κ F}
    {loop : BackendLoop F} (hwaits : Waits k event) (h : net.step cfg.protocol event = some net')
    (hloop : net.backend k = some loop) (hreading : cfg.Reading k m loop)
    : ∃ loop', net'.backend k = some loop' ∧ cfg.Reading k m loop' := by
  unfold Cluster.backend at hloop ⊢
  by_cases hparty : Party.backend k = event.party
  . cases event with
    | deliver p m' =>
      cases hparty
      rcases Lib.Network.step_deliver h with ⟨_, s, hreceive, _⟩
      rw [hloop] at hreceive
      rcases Option.map_eq_some_iff.mp hreceive with ⟨done, hstep, _⟩
      simp only [BackendLoop.step, hreading.pendingReceives] at hstep
      contradiction
    | act p a =>
      cases hparty
      rcases Lib.Network.step_act h with ⟨s, out, hact, hnet'⟩
      rw [hloop] at hact
      rcases Option.bind_eq_some_iff.mp hact with ⟨event, hevent, hmap⟩
      rcases Option.map_eq_some_iff.mp hmap with ⟨done, hstep, heq⟩
      cases a with
      | launch pause theReactor thePlatform bound => contradiction
      | runHandler index theReactor thePlatform => exact absurd rfl hwaits
      | receiveFails =>
        rw [← Option.some.inj hevent] at hstep
        simp only [BackendLoop.step, hreading.pendingReceives] at hstep
        contradiction
      | command c =>
        rw [← Option.some.inj hevent] at hstep
        injection hstep with hdone
        rw [← hdone] at heq
        injection heq with hs _
        refine ⟨{ loop with engine := loop.engine.instruct c }, ?_, hreading.instruct c⟩
        rw [hnet', ← hs]
        dsimp only
        rw [Function.update_self]
  . refine ⟨loop, ?_, hreading⟩
    rw [Lib.Network.state_step_of_ne h hparty, hloop]

theorem reading_run {k : κ} {m : Datagram} {net net' : Cluster ι κ F}
    {events : List (ClusterEvent ι κ F)} {loop : BackendLoop F}
    (hwaits : ∀ event ∈ events, Waits k event)
    (h : Lib.run (Lib.Network.step cfg.protocol) net events = some net')
    (hloop : net.backend k = some loop) (hreading : cfg.Reading k m loop)
    : ∃ loop', net'.backend k = some loop' ∧ cfg.Reading k m loop' := by
  apply Lib.run_invariant
    (P := fun t => ∃ loop, Cluster.backend t k = some loop ∧ cfg.Reading k m loop)
    _ ⟨loop, hloop, hreading⟩ h
  rintro s event s' hevent ⟨loop, hloop, hreading⟩ hstep
  apply reading_step (hwaits event hevent) hstep hloop hreading

-- Nothing keeps the backend from answering.
structure Serves (loop : BackendLoop F) (theReactor : Reactor) (thePlatform : Platform F)
    : Prop where
  isShuttingDown : theReactor.isShuttingDown = false
  isLoadHigh : theReactor.isLoadHigh = false
  isPaused : (loop.engine.isPaused thePlatform).1 = false

omit [DecidableEq ι] [DecidableEq κ] in
theorem answer_of_reading {k : κ} {i : ι} {n : Nat} {m : Datagram} {loop : BackendLoop F}
    {index : Nat} {theReactor : Reactor} {thePlatform : Platform F} {s' : Option (BackendLoop F)}
    {out : List Datagram} (hdecodes : cfg.theProtobuf.Decodes)
    (hserialize : ∀ message, message.isInitialized = true →
      cfg.theProtobuf.SerializeToString message ≠ [])
    (hreading : cfg.Reading k m loop) (hrequest : cfg.IsRequest m i n) (hfits : Fits m)
    (hserves : Serves loop theReactor thePlatform)
    (h : cfg.actBackend k (some loop) (.runHandler index theReactor thePlatform) = some (s', out))
    : ∃ load, thePlatform.currentLoad = .ok load
        ∧ ∃ answer ∈ out, cfg.IsReply answer k theReactor load n
          ∧ answer.dest = cfg.endOf (.frontend i) := by
  simp only [actBackend, BackendAction.event?, Option.bind_some] at h
  rcases Option.map_eq_some_iff.mp h with ⟨⟨loop', effects⟩, hstep, heq⟩
  injection heq with _ hout
  rcases BackendLoop.step_runHandler hstep with ⟨err, b, engine, hcompleted, hhandle, _⟩
  rw [hreading.completed] at hcompleted
  have hentry := List.mem_of_getElem? hcompleted
  rw [List.mem_singleton, Prod.mk.injEq] at hentry
  rcases hentry with ⟨herr, hb⟩
  have hcases := Engine.handleBackendRead_eq_ok hhandle
  rw [if_neg (by simp [hserves.isShuttingDown]), if_neg (by simp [herr])] at hcases
  rcases hcases with ⟨hengine, hcases⟩
  rw [if_neg (by simp [hserves.isPaused, hserves.isLoadHigh])] at hcases
  rcases hcases with ⟨buffer, hprocess, heffects⟩
  have hreply := Engine.processRequest_eq_ok hserves.isShuttingDown hprocess
  have hconfig : engine.toEngineConfig = cfg.backends k := by
    rw [hengine, Engine.toEngineConfig_isPaused, hreading.toEngineConfig]
  have hparse : cfg.theProtobuf.ParseFromString m.payload = (true, cfg.request i n) := by
    have hlength : m.payload.length ≤ 8192 := hfits
    rw [hrequest.payload] at hlength ⊢
    exact hdecodes _ rfl hlength
  rw [hengine, Engine.itsReceiveBuffer_isPaused, hb, hreading.itsReceiveBuffer, hparse,
    if_pos (messageType_request i n), ← hengine, hconfig] at hreply
  rcases hreply with ⟨hport, hthrottle, load, hload, hbuffer⟩
  have hserialized : buffer = cfg.theProtobuf.SerializeToString (cfg.reply k theReactor load n) := by
    rw [hbuffer, ← reply_eq hconfig]
    rfl
  have hne : buffer ≠ [] := by
    rw [hserialized]
    apply hserialize _ Engine.reply_isInitialized
  refine ⟨load, hload, ⟨buffer, cfg.endOf (.backend k), m.source⟩, ?_, ?_, hrequest.source⟩
  . rw [← hout, mem_sentFrom, heffects, hengine, Engine.itsRemoteEnd_isPaused,
      hreading.itsRemoteEnd]
    simp [hne]
  . exact ⟨rfl, hserialized, hport, hthrottle⟩

/-! The table of a frontend -/

-- The action neither ends the cycle nor takes anything away.
def Gathers (loop : EventLoop F) : FrontendAction F → Prop
  | .event (.runHandler index, _, _) => loop.completed[index]?.any Completion.isDeadline = false
  | .runReply _ _ between => between = []
  | .removeBackend _ => False
  | _ => True

structure Extends (loop loop' : EventLoop F) : Prop where
  sequence : loop'.engine.itsFrontendSequence = loop.engine.itsFrontendSequence
  services : ∀ key,
    loop.engine.itsServices.serviceList key <+: loop'.engine.itsServices.serviceList key
  infoRequests : ∀ name,
    loop.engine.itsServices.infoRequests name <+: loop'.engine.itsServices.infoRequests name

namespace Extends

variable {loop loop' loop'' : EventLoop F}

omit [FloatArith F] in
theorem of_same (hsequence : loop'.engine.itsFrontendSequence = loop.engine.itsFrontendSequence)
    (hservices : loop'.engine.itsServices = loop.engine.itsServices) : Extends loop loop' where
  sequence := hsequence
  services key := by rw [hservices]
  infoRequests name := by rw [hservices]

omit [FloatArith F] in
theorem trans (h : Extends loop loop') (h' : Extends loop' loop'') : Extends loop loop'' where
  sequence := by rw [h'.sequence, h.sequence]
  services key := (h.services key).trans (h'.services key)
  infoRequests name := (h.infoRequests name).trans (h'.infoRequests name)

theorem runReply {theProtobuf : Protobuf F} {index : Nat} {theReactor : Reactor}
    (h : loop.runReply theProtobuf index theReactor [] = some loop') : Extends loop loop' := by
  unfold EventLoop.runReply at h
  split at h
  . rcases Option.map_eq_some_iff.mp h with ⟨engine, hstep, hloop'⟩
    rcases Engine.cycleStep_eq_some hstep with ⟨s', hrun, hengine⟩
    rw [← hloop']
    exact {
      sequence := by rw [EventLoop.engine_performAll, hengine]
      services := by
        intro key
        rw [EventLoop.engine_performAll, hengine]
        dsimp only
        rw [Services.serviceList_run_append hrun
          (fun op hop => ServicesOp.stale_of_grows (CycleEvent.grows_ops_processReply op hop))]
        apply List.prefix_append
      infoRequests := by
        intro name
        rw [EventLoop.engine_performAll, hengine]
        dsimp only
        rw [Services.infoRequests_run_append hrun CycleEvent.grows_ops_processReply]
        apply List.prefix_append
    }
  . contradiction

theorem runHandler {theProtobuf : Protobuf F} {index : Nat} {theReactor : Reactor}
    {thePlatform : Platform F}
    (hgathers : loop.completed[index]?.any Completion.isDeadline = false)
    (h : loop.step theProtobuf (.runHandler index, theReactor, thePlatform) = some loop')
    : Extends loop loop' := by
  rcases EventLoop.step_runHandler h with ⟨completion, engine, effects, hcompleted, hhandle, hloop'⟩
  rw [hcompleted, Option.any_some] at hgathers
  cases completion with
  | frontendRead err n =>
    by_cases herr : err = .success
    . rw [herr] at hcompleted
      have hreply : loop.runReply theProtobuf index theReactor [] = some loop' := by
        rw [EventLoop.runReply_nil hcompleted]
        exact h
      exact runReply hreply
    . have hsame : engine = loop.engine := Engine.handleFrontendRead_fails herr hhandle
      apply of_same
      . rw [hloop', EventLoop.engine_performAll, hsame]
      . rw [hloop', EventLoop.engine_performAll, hsame]
  | deadlineTimer err =>
    have herr : err = .operationAborted := by simpa [Completion.isDeadline] using hgathers
    rw [herr] at hhandle
    injection hhandle with hhandle
    injection hhandle with hengine _
    apply of_same
    . rw [hloop', EventLoop.engine_performAll, ← hengine]
    . rw [hloop', EventLoop.engine_performAll, ← hengine]

omit [DecidableEq ι] [DecidableEq κ] in
theorem act {i : ι} {a : FrontendAction F} {out : List Datagram} {s' : Option (EventLoop F)}
    (hgathers : Gathers loop a) (h : cfg.actFrontend i (some loop) a = some (s', out))
    : ∃ loop', s' = some loop' ∧ Extends loop loop' := by
  cases a with
  | launch pause theReactor thePlatform hooked => contradiction
  | removeBackend removal => contradiction
  | runReply index theReactor between =>
    rcases Option.map_eq_some_iff.mp h with ⟨loop', hreply, heq⟩
    injection heq with hs' _
    have hnone : between = [] := hgathers
    rw [hnone] at hreply
    exact ⟨loop', hs'.symm, runReply hreply⟩
  | event event =>
    rcases event with ⟨event, theReactor, thePlatform⟩
    cases event with
    | datagramArrives datagram remoteEnd => contradiction
    | timerExpires =>
      rcases Option.map_eq_some_iff.mp h with ⟨loop', hstep, heq⟩
      injection heq with hs' _
      refine ⟨loop', hs'.symm, ?_⟩
      simp only [EventLoop.step] at hstep
      split at hstep
      . contradiction
      . injection hstep with hloop'
        rw [← hloop']
        exact of_same rfl rfl
    | runHandler index =>
      rcases Option.map_eq_some_iff.mp h with ⟨loop', hstep, heq⟩
      injection heq with hs' _
      exact ⟨loop', hs'.symm, runHandler hgathers hstep⟩

omit [FloatArith F] [DecidableEq ι] [DecidableEq κ] in
theorem receive {i : ι} {m : Datagram} {s' : Option (EventLoop F)}
    (h : cfg.receiveFrontend i (some loop) m = some s')
    : ∃ loop', s' = some loop' ∧ Extends loop loop' := by
  simp only [receiveFrontend] at h
  split at h
  . split at h
    . contradiction
    . injection h with h
      exact ⟨_, h.symm, of_same rfl rfl⟩
  . contradiction

end Extends

-- The frontend does nothing that ends its cycle or takes anything away.
def Undisturbed (i : ι) (net : Cluster ι κ F) : ClusterEvent ι κ F → Prop
  | .act (.frontend j) a => j = i → ∀ loop, net.frontend i = some loop → Gathers loop a
  | _ => True

theorem extends_step {i : ι} {net net' : Cluster ι κ F} {event : ClusterEvent ι κ F}
    {loop : EventLoop F} (hundisturbed : Undisturbed i net event)
    (h : net.step cfg.protocol event = some net') (hloop : net.frontend i = some loop)
    : ∃ loop', net'.frontend i = some loop' ∧ Extends loop loop' := by
  unfold Cluster.frontend at hloop ⊢
  by_cases hparty : Party.frontend i = event.party
  . cases event with
    | deliver p m =>
      cases hparty
      rcases Lib.Network.step_deliver h with ⟨_, s, hreceive, hnet'⟩
      rw [hloop] at hreceive
      rcases Extends.receive hreceive with ⟨loop', hs, hextends⟩
      refine ⟨loop', ?_, hextends⟩
      rw [hnet', ← hs]
      dsimp only
      rw [Function.update_self]
    | act p a =>
      cases hparty
      rcases Lib.Network.step_act h with ⟨s, out, hact, hnet'⟩
      have hgathers := hundisturbed rfl loop hloop
      rw [hloop] at hact
      rcases Extends.act hgathers hact with ⟨loop', hs, hextends⟩
      refine ⟨loop', ?_, hextends⟩
      rw [hnet', ← hs]
      dsimp only
      rw [Function.update_self]
  . refine ⟨loop, ?_, Extends.of_same rfl rfl⟩
    rw [Lib.Network.state_step_of_ne h hparty, hloop]

theorem extends_run {i : ι} {net net' : Cluster ι κ F} {events : List (ClusterEvent ι κ F)}
    {loop : EventLoop F}
    (hundisturbed : Lib.Along (Lib.Network.step cfg.protocol)
      (fun net event _ => Undisturbed i net event) net events)
    (h : Lib.run (Lib.Network.step cfg.protocol) net events = some net')
    (hloop : net.frontend i = some loop)
    : ∃ loop', net'.frontend i = some loop' ∧ Extends loop loop' := by
  apply Lib.Along.run_invariant
    (I := fun t => ∃ loop', Cluster.frontend t i = some loop' ∧ Extends loop loop') _ _
    hundisturbed h
  . rintro s event s' ⟨loop₁, hloop₁, hextends₁⟩ hstep hevent
    rcases extends_step hevent hstep hloop₁ with ⟨loop₂, hloop₂, hextends₂⟩
    exact ⟨loop₂, hloop₂, hextends₁.trans hextends₂⟩
  . exact ⟨loop, hloop, Extends.of_same rfl rfl⟩

-- The table has what the reply of the backend to the request number `n` announces.
structure Lists (cfg : ClusterConfig ι κ F) (k : κ) (theReactor : Reactor) (load : F) (n : Nat)
    (s : Services F) : Prop where
  services : ∀ uri ∈ theReactor.getURIMap, ∀ key,
    (key = uri ∨ key = (cfg.announcer k).hostURI uri) →
      (cfg.announcer k).announcedService theReactor load (Int32.ofInt n) uri ∈ s.serviceList key
  infoRequests : ∀ name ∈ theReactor.getAdminRequestNames,
    (cfg.announcer k).announcedInfoRequest load (Int32.ofInt n) name ∈ s.infoRequests name

section Lists

omit [DecidableEq ι] [DecidableEq κ]

variable {k : κ} {theReactor : Reactor} {load : F} {n : Nat}

theorem Lists.extends {loop loop' : EventLoop F}
    (h : cfg.Lists k theReactor load n loop.engine.itsServices) (hextends : Extends loop loop')
    : cfg.Lists k theReactor load n loop'.engine.itsServices where
  services uri huri key hkey := (hextends.services key).subset (h.services uri huri key hkey)
  infoRequests name hname := (hextends.infoRequests name).subset (h.infoRequests name hname)

-- The entries of the current cycle outlast its purge.
theorem Lists.latestSequence {s : Services F} (h : cfg.Lists k theReactor load n s)
    (atFrontend : Reactor) (hn : (Int32.ofInt n).toInt = n)
    : cfg.Lists k theReactor load n (s.latestSequence atFrontend n) where
  services := by
    intro uri huri key hkey
    have hstep : s.step (.latestSequence atFrontend n) = some (s.latestSequence atFrontend n) := rfl
    rw [Services.mem_serviceList_latestSequence hstep]
    exact ⟨h.services uri huri key hkey, hn⟩
  infoRequests := by
    intro name hname
    have hstep : s.step (.latestSequence atFrontend n) = some (s.latestSequence atFrontend n) := rfl
    rw [Services.infoRequests_step hstep]
    apply List.mem_filter.mpr ⟨h.infoRequests name hname, decide_eq_true hn⟩

theorem Lists.runDeadline {loop loop' : EventLoop F} {index : Nat} {err : ErrorCode}
    {atFrontend : Reactor} {thePlatform : Platform F} {theProtobuf : Protobuf F}
    (h : cfg.Lists k theReactor load n loop.engine.itsServices)
    (hcurrent : loop.engine.itsFrontendSequence.toNat = n) (hn : n < 65535)
    (hdeadline : loop.completed[index]? = some (.deadlineTimer err)) (herr : err ≠ .operationAborted)
    (hstep : loop.step theProtobuf (.runHandler index, atFrontend, thePlatform) = some loop')
    : cfg.Lists k theReactor load n loop'.engine.itsServices := by
  rcases EventLoop.step_runHandler hstep
    with ⟨completion, engine, effects, hcompleted, hhandle, hloop'⟩
  rw [hdeadline, Option.some.injEq] at hcompleted
  rw [← hcompleted] at hhandle
  have hcases := Engine.handleDeadlineTimer_sends (by omega) herr hhandle
  have hnumber : (Int32.ofInt n).toInt = n := by
    rw [Int32.toInt_ofInt_of_le (by omega) (by omega)]
  have hcleaned : cfg.Lists k theReactor load n (loop.engine.cleaned atFrontend).itsServices := by
    unfold Engine.cleaned
    dsimp only
    split
    . rw [hcurrent]
      apply h.latestSequence atFrontend hnumber
    . exact h
  rw [hloop', EventLoop.engine_performAll]
  split at hcases
  . rw [hcases.1]
    exact hcleaned
  . rw [hcases.1]
    exact hcleaned

theorem lists_announcedOps {s s' : Services F} {atFrontend : Reactor}
    (h : Lib.run Services.step s
      ((cfg.announcer k).announcedOps theReactor load (Int32.ofInt n) atFrontend) = some s')
    : cfg.Lists k theReactor load n s' where
  services := by
    intro uri huri key hkey
    rw [Services.serviceList_run_append h
      (fun op hop => ServicesOp.stale_of_grows (Engine.grows_announcedOps op hop))]
    apply List.mem_append_right
    refine List.mem_flatMap.mpr
      ⟨_, Engine.mem_announcedOps.mpr (.inl ⟨uri, huri, key, hkey, rfl⟩), ?_⟩
    simp [Services.appended]
  infoRequests := by
    intro name hname
    rw [Services.infoRequests_run_append h Engine.grows_announcedOps]
    apply List.mem_append_right
    refine List.mem_flatMap.mpr ⟨_, Engine.mem_announcedOps.mpr (.inr ⟨name, hname, rfl⟩), ?_⟩
    simp [Services.appendedInfo, Engine.announcedInfoRequest]

theorem lists_runRead {log : List Datagram} {i : ι} {loop loop' : EventLoop F} {index b : Nat}
    {m : Datagram} {atFrontend : Reactor} {thePlatform : Platform F}
    (hdecodes : cfg.theProtobuf.Decodes) (hanswers : cfg.Answers log m k theReactor load i n)
    (hfits : Fits m) (huris : theReactor.getURIMap ≠ [])
    (hcompleted : loop.completed[index]? = some (.frontendRead .success b))
    (hbuffer : loop.engine.itsReceiveBuffer.take b = m.payload)
    (hdown : atFrontend.isShuttingDown = false)
    (h : loop.step cfg.theProtobuf (.runHandler index, atFrontend, thePlatform) = some loop')
    : cfg.Lists k theReactor load n loop'.engine.itsServices
        ∧ loop'.engine.itsFrontendSequence = loop.engine.itsFrontendSequence := by
  have hreply : cfg.theProtobuf.ParseFromString m.payload
      = (true, cfg.reply k theReactor load n) := by
    have hlength : m.payload.length ≤ 8192 := hfits
    rw [hanswers.isReply.payload] at hlength ⊢
    exact hdecodes _ Engine.reply_isInitialized hlength
  have haccepts : Engine.accepts atFrontend (cfg.reply k theReactor load n) = true := by
    rw [Engine.accepts_eq_true_iff]
    refine ⟨hdown, messageType_reply k theReactor load n, rfl, ?_⟩
    simpa [reply, Engine.reply, Engine.discoveryReply] using huris
  rw [← EventLoop.runReply_nil hcompleted] at h
  simp only [EventLoop.runReply, hcompleted, hbuffer, hreply] at h
  rcases Option.map_eq_some_iff.mp h with ⟨engine, hstep, hloop'⟩
  rcases Engine.cycleStep_eq_some hstep with ⟨s', hrun, hengine⟩
  simp only [CycleEvent.ops, haccepts, if_true, List.map_nil, interleave_nil] at hrun
  unfold reply at hrun
  rw [Engine.replyOps_reply hanswers.isReply.port hanswers.isReply.throttle] at hrun
  rw [← hloop', EventLoop.engine_performAll, hengine]
  exact ⟨lists_announcedOps hrun, rfl⟩

end Lists

end ClusterConfig

namespace Cluster

open ClusterConfig

variable [DecidableEq ι] [DecidableEq κ]

/--
A backend answers what it reads: where a request that fits into its buffer has been delivered to it,
the backend serves when its handler runs, and the handler returns, it sends the frontend an answer
with the number of the request, whatever happens before and in between.
-/
theorem answers_of_delivered (cfg : ClusterConfig ι κ F)
    (before between : List (ClusterEvent ι κ F)) (net₀ net₁ net₂ net₃ : Cluster ι κ F) (i : ι)
    (k : κ) (n : Nat) (m : Datagram) (index : Nat) (theReactor : Reactor) (thePlatform : Platform F)
    (hdecodes : cfg.theProtobuf.Decodes)
    (hserialize : ∀ message, message.isInitialized = true →
      cfg.theProtobuf.SerializeToString message ≠ [])
    (hbefore : Lib.run (Lib.Network.step cfg.protocol) init before = some net₀)
    (hrequest : cfg.IsRequest m i n) (hfits : Fits m)
    (hdeliver : net₀.step cfg.protocol (.deliver (.backend k) m) = some net₁)
    (hbetween : Lib.run (Lib.Network.step cfg.protocol) net₁ between = some net₂)
    (hwaits : ∀ event ∈ between, Waits k event)
    (hserves : ∀ loop, net₂.backend k = some loop → Serves loop theReactor thePlatform)
    (hrun : net₂.step cfg.protocol (.act (.backend k) (.runHandler index theReactor thePlatform))
      = some net₃)
    : ∃ load, thePlatform.currentLoad = .ok load
        ∧ ∃ answer ∈ net₃.sent, cfg.Answers net₃.sent answer k theReactor load i n := by
  rcases Lib.Network.step_deliver hdeliver with ⟨hsent, s, hreceive, hnet₁⟩
  have hinv := partyCore_run hbefore partyCore_init (.backend k)
  cases hstate : net₀.state (.backend k) with
  | none =>
    rw [hstate] at hreceive
    contradiction
  | some loop₀ =>
    rw [hstate] at hreceive hinv
    rcases Option.map_eq_some_iff.mp hreceive with ⟨⟨loop₁, effects⟩, harrives, hs⟩
    have hloop₁ : net₁.backend k = some loop₁ := by
      rw [hnet₁, ← hs]
      apply Function.update_self
    rcases reading_run hwaits hbetween hloop₁ (reading_receive hinv hfits harrives)
      with ⟨loop₂, hloop₂, hreading⟩
    rcases Lib.Network.step_act hrun with ⟨s', out, hact, hnet₃⟩
    have hstate₂ : net₂.state (.backend k) = some loop₂ := hloop₂
    rw [hstate₂] at hact
    rcases answer_of_reading hdecodes hserialize hreading hrequest hfits (hserves loop₂ hloop₂) hact
      with ⟨load, hload, answer, hanswer, hreply, hdest⟩
    have hm : m ∈ net₃.sent := by
      apply (Lib.Network.sent_step hrun).subset
      apply (Lib.Network.sent_run hbetween).subset
      apply (Lib.Network.sent_step hdeliver).subset hsent
    refine ⟨load, hload, answer, ?_, hreply, hdest, m, hm, hrequest, hfits⟩
    rw [hnet₃]
    apply List.mem_append_right _ hanswer

/--
A frontend lists what it reads: where the handler of a datagram finds the answer to the current
request, the answer announces a handler and the frontend does not shut down, all that the answer
announces is listed through the deadline of the cycle, whatever happens in between that takes no
backend away.
-/
theorem lists_of_answered (cfg : ClusterConfig ι κ F) (log : List Datagram)
    (between : List (ClusterEvent ι κ F)) (net₀ net₁ net₂ net₃ : Cluster ι κ F) (i : ι) (k : κ)
    (n : Nat) (m : Datagram) (load : F) (loop₀ loop₂ loop₃ : EventLoop F) (index b index' : Nat)
    (err : ErrorCode) (atBackend atFrontend atDeadline : Reactor) (thePlatform atEnd : Platform F)
    (hdecodes : cfg.theProtobuf.Decodes) (hanswers : cfg.Answers log m k atBackend load i n)
    (hfits : Fits m) (huris : atBackend.getURIMap ≠ []) (hloop₀ : net₀.frontend i = some loop₀)
    (hcurrent : loop₀.engine.itsFrontendSequence.toNat = n)
    (hcompleted : loop₀.completed[index]? = some (.frontendRead .success b))
    (hbuffer : loop₀.engine.itsReceiveBuffer.take b = m.payload)
    (hdown : atFrontend.isShuttingDown = false)
    (hread : net₀.step cfg.protocol
      (.act (.frontend i) (.event (.runHandler index, atFrontend, thePlatform))) = some net₁)
    (hbetween : Lib.run (Lib.Network.step cfg.protocol) net₁ between = some net₂)
    (hundisturbed : Lib.Along (Lib.Network.step cfg.protocol)
      (fun net event _ => Undisturbed i net event) net₁ between)
    (hloop₂ : net₂.frontend i = some loop₂)
    (hdeadline : loop₂.completed[index']? = some (.deadlineTimer err))
    (herr : err ≠ .operationAborted)
    (hend : net₂.step cfg.protocol
      (.act (.frontend i) (.event (.runHandler index', atDeadline, atEnd))) = some net₃)
    (hloop₃ : net₃.frontend i = some loop₃)
    : cfg.Lists k atBackend load n loop₃.engine.itsServices := by
  rcases hanswers.asked with ⟨request, _, hrequest, _⟩
  rcases step_runHandler hloop₀ hread with ⟨loop₁, hloop₁, hstep₁⟩
  rcases lists_runRead hdecodes hanswers hfits huris hcompleted hbuffer hdown hstep₁
    with ⟨hlists₁, hsequence₁⟩
  rcases extends_run hundisturbed hbetween hloop₁ with ⟨loop, hloop, hextends⟩
  rw [hloop₂, Option.some.injEq] at hloop
  rw [← hloop] at hextends
  rcases step_runHandler hloop₂ hend with ⟨loop', hloop', hstep₃⟩
  rw [hloop₃, Option.some.injEq] at hloop'
  rw [hloop']
  apply (hlists₁.extends hextends).runDeadline _ hrequest.number hdeadline herr hstep₃
  rw [hextends.sequence, hsequence₁, hcurrent]

section Sample

open Sample

theorem isRequest_firstRequest : cluster.IsRequest firstRequest () 1 where
  source := rfl
  payload := by decide
  number := by decide

theorem answers_firstReply
    : cluster.Answers [firstRequest] firstReply () Engine.handlers 0 () 1 where
  isReply := {
    source := rfl
    payload := by decide
    port := by decide
    throttle := by decide
  }
  dest := rfl
  asked := ⟨firstRequest, List.mem_singleton_self _, isRequest_firstRequest, by decide⟩

-- The backend is paused and goes on before its handler runs.
def interrupted : List (ClusterEvent Unit Unit Rat) :=
  [.act (.backend ()) (.command .setPause), .act (.backend ()) (.command .setContinue)]

theorem answers_of_delivered_sample
    : ∃ (net : Cluster Unit Unit Rat) (load : Rat), clusterPlatform.currentLoad = .ok load
        ∧ ∃ answer ∈ net.sent, cluster.Answers net.sent answer () Engine.handlers load () 1 := by
  have hrun : ((Lib.run (Lib.Network.step cluster.protocol) init (firstAnswer.take 2)).bind
      fun net₀ => (net₀.step cluster.protocol (.deliver (.backend ()) firstRequest)).bind
        fun net₁ => (Lib.run (Lib.Network.step cluster.protocol) net₁ interrupted).bind
          fun net₂ => if (backend net₂ ()).all (fun loop =>
              !(loop.engine.isPaused clusterPlatform).1) then
            net₂.step cluster.protocol
              (.act (.backend ()) (.runHandler 0 Engine.handlers clusterPlatform))
          else
            none).isSome = true := by
    decide
  rcases Option.isSome_iff_exists.mp hrun with ⟨net₃, hnet₃⟩
  rcases Option.bind_eq_some_iff.mp hnet₃ with ⟨net₀, hnet₀, hnet₃⟩
  rcases Option.bind_eq_some_iff.mp hnet₃ with ⟨net₁, hnet₁, hnet₃⟩
  rcases Option.bind_eq_some_iff.mp hnet₃ with ⟨net₂, hnet₂, hnet₃⟩
  rw [Option.ite_none_right_eq_some] at hnet₃
  refine ⟨net₃, ?_⟩
  apply answers_of_delivered cluster (firstAnswer.take 2) interrupted net₀ net₁ net₂ net₃ () () 1
    firstRequest 0 Engine.handlers clusterPlatform decodes_cluster
    (fun message _ => codec_ne_nil (by decide) message) hnet₀ isRequest_firstRequest (by decide)
    hnet₁ hnet₂ (by decide) _ hnet₃.2
  . intro loop hloop
    have hpaused := hnet₃.1
    rw [hloop] at hpaused
    exact ⟨rfl, rfl, by simpa using hpaused⟩

theorem lists_of_answered_sample
    : ∃ loop : EventLoop Rat, cluster.Lists () Engine.handlers 0 1 loop.engine.itsServices := by
  have hrun : ((Lib.run (Lib.Network.step cluster.protocol) init firstAnswer.dropLast).bind
      fun net₀ => (net₀.step cluster.protocol deadline).bind
        fun net₁ => (Lib.run (Lib.Network.step cluster.protocol) net₁ [expires]).bind
          fun net₂ => (net₂.step cluster.protocol deadline).bind
            fun net₃ => (frontend net₀ ()).bind fun loop₀ => (frontend net₂ ()).bind fun loop₂ =>
              if loop₀.engine.itsFrontendSequence.toNat = 1
                  ∧ loop₀.completed[0]? = some (.frontendRead .success 51)
                  ∧ loop₀.engine.itsReceiveBuffer.take 51 = firstReply.payload
                  ∧ loop₂.completed[0]? = some (.deadlineTimer .success) then
                (frontend net₃ ())
              else
                none).isSome = true := by
    decide
  rcases Option.isSome_iff_exists.mp hrun with ⟨loop₃, hloop₃⟩
  rcases Option.bind_eq_some_iff.mp hloop₃ with ⟨net₀, _, hloop₃⟩
  rcases Option.bind_eq_some_iff.mp hloop₃ with ⟨net₁, hnet₁, hloop₃⟩
  rcases Option.bind_eq_some_iff.mp hloop₃ with ⟨net₂, hnet₂, hloop₃⟩
  rcases Option.bind_eq_some_iff.mp hloop₃ with ⟨net₃, hnet₃, hloop₃⟩
  rcases Option.bind_eq_some_iff.mp hloop₃ with ⟨loop₀, hloop₀, hloop₃⟩
  rcases Option.bind_eq_some_iff.mp hloop₃ with ⟨loop₂, hloop₂, hloop₃⟩
  rw [Option.ite_none_right_eq_some] at hloop₃
  rcases hloop₃ with ⟨⟨hcurrent, hcompleted, hbuffer, hdeadline⟩, hloop₃⟩
  refine ⟨loop₃, ?_⟩
  apply lists_of_answered cluster [firstRequest] [expires] net₀ net₁ net₂ net₃ () () 1 firstReply 0
    loop₀ loop₂ loop₃ 0 51 0 .success Engine.handlers reactor reactor clusterPlatform
    clusterPlatform decodes_cluster answers_firstReply (by decide) (by decide) hloop₀ hcurrent hcompleted hbuffer
    rfl hnet₁ hnet₂ _ hloop₂ hdeadline (by decide) hnet₃ hloop₃
  intro net' _
  refine ⟨?_, trivial⟩
  intro _ loop _
  trivial

end Sample

end Cluster

end Sputnik
