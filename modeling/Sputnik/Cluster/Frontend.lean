import Sputnik.Cluster.Requests
import Sputnik.Engine.Listeners

/-!
This module contains where the entries of the table of a frontend come from: a reply of a backend
that the network has carried to it, and that answers a request of its own.
-/

namespace Sputnik

open ClusterConfig

variable {F : Type} [FloatArith F] {ι κ : Type}

namespace ClusterConfig

variable {cfg : ClusterConfig ι κ F}

/-! The entries of the table -/

-- what the operation adds has been announced
def AnnouncesOp (cfg : ClusterConfig ι κ F) (log : List Datagram) (i : ι) : ServicesOp F → Prop
  | .addService _ service theFrontendURI _ _ => cfg.AnnouncesService log i ⊤ theFrontendURI service
  | .addBackendInfoRequest infoRequest =>
    cfg.AnnouncesInfoRequest log i ⊤ infoRequest.itsName infoRequest
  | _ => True

structure AnnouncesTable (cfg : ClusterConfig ι κ F) (log : List Datagram) (i : ι)
    (P : κ → Nat → Prop) (s : Services F) : Prop where
  services : ∀ key, ∀ service ∈ s.serviceList key, cfg.AnnouncesService log i P key service
  infoRequests : ∀ name, ∀ infoRequest ∈ s.infoRequests name,
    cfg.AnnouncesInfoRequest log i P name infoRequest

theorem AnnouncesTable.mono {log more : List Datagram} {i : ι} {P : κ → Nat → Prop}
    {s : Services F} (h : cfg.AnnouncesTable log i P s)
    : cfg.AnnouncesTable (log ++ more) i P s where
  services key service hservice := (h.services key service hservice).mono
  infoRequests name infoRequest hinfo := (h.infoRequests name infoRequest hinfo).mono

theorem announcesTable_step {log : List Datagram} {i : ι} {s s' : Services F} {op : ServicesOp F}
    (hop : cfg.AnnouncesOp log i op) (hs : cfg.AnnouncesTable log i ⊤ s)
    (h : s.step op = some s') : cfg.AnnouncesTable log i ⊤ s' where
  services := by
    intro key service hservice
    rw [Services.serviceList_step h] at hservice
    unfold Services.stepList at hservice
    split at hservice
    . split at hservice
      . next hkey =>
        cases List.mem_append.mp hservice with
        | inl hold => apply hs.services key service hold
        | inr hnew =>
          rw [List.mem_singleton.mp hnew, ← hkey]
          exact hop
      . apply hs.services key service hservice
    . apply hs.services key service (List.mem_of_mem_filter hservice)
  infoRequests := by
    intro name infoRequest hinfo
    rw [Services.infoRequests_step h] at hinfo
    unfold Services.stepInfoRequests at hinfo
    split at hinfo
    . split at hinfo
      . next hname =>
        cases List.mem_append.mp hinfo with
        | inl hold => apply hs.infoRequests name infoRequest hold
        | inr hnew =>
          rw [List.mem_singleton.mp hnew, ← hname]
          exact hop
      . apply hs.infoRequests name infoRequest hinfo
    . apply hs.infoRequests name infoRequest (List.mem_of_mem_filter hinfo)
    . apply hs.infoRequests name infoRequest hinfo

theorem announcesTable_run {log : List Datagram} {i : ι} {s s' : Services F}
    {ops : List (ServicesOp F)} (hops : ∀ op ∈ ops, cfg.AnnouncesOp log i op)
    (hs : cfg.AnnouncesTable log i ⊤ s) (hrun : Lib.run Services.step s ops = some s')
    : cfg.AnnouncesTable log i ⊤ s' := by
  apply Lib.run_invariant _ hs hrun
  intro s op s' hop hs hstep
  apply announcesTable_step (hops op hop) hs hstep

theorem announcesTable_latestSequence {log : List Datagram} {i : ι} {s : Services F}
    (theReactor : Reactor) (n : Int) (hs : cfg.AnnouncesTable log i ⊤ s)
    : cfg.AnnouncesTable log i ⊤ (s.latestSequence theReactor n) := by
  have hstep : s.step (.latestSequence theReactor n) = some (s.latestSequence theReactor n) := rfl
  apply announcesTable_step _ hs hstep
  trivial

-- The operations of the reply to a frontend, and the removals between them.
theorem announcesOp_processReply {log : List Datagram} {i : ι} {m : Datagram} {k : κ}
    {theReactor atFrontend : Reactor} {load : F} {n : Nat} {between : List (List Removal)}
    (h : cfg.Announces log i m k theReactor load n)
    : ∀ op ∈ (CycleEvent.processReply atFrontend (cfg.reply k theReactor load n) between).ops,
        cfg.AnnouncesOp log i op := by
  intro op hop
  rcases CycleEvent.mem_ops_processReply hop with ⟨_, hreply | ⟨removal, heq⟩⟩
  . unfold reply at hreply
    rw [Engine.replyOps_reply h.answers.isReply.port h.answers.isReply.throttle] at hreply
    rcases Engine.mem_announcedOps.mp hreply
      with ⟨uri, huri, key, hkey, heq⟩ | ⟨name, hname, heq⟩
    . rw [heq]
      exact ⟨m, k, theReactor, load, n, uri, h, trivial, huri, hkey, rfl⟩
    . rw [heq]
      exact ⟨m, k, theReactor, load, n, h, trivial, hname, rfl⟩
  . rw [heq]
    trivial

theorem ops_processReply_request {i : ι} {n : Nat} {atFrontend : Reactor}
    {between : List (List Removal)}
    : (CycleEvent.processReply atFrontend (cfg.request i n) between).ops = [] := by
  have hrejects : Engine.accepts atFrontend (cfg.request i n) = false := by
    simp [Engine.accepts, messageType_request]
  simp [CycleEvent.ops, hrejects]

end ClusterConfig

namespace ClusterConfig

variable {cfg : ClusterConfig ι κ F}

/-! The frontends -/

structure FrontendInv (cfg : ClusterConfig ι κ F) (log : List Datagram) (i : ι)
    (loop : EventLoop F) : Prop extends cfg.FrontendCore i loop where
  outstanding : loop.outstanding ≤ 1
  read : ∀ n, .frontendRead .success n ∈ loop.completed →
    ∃ m ∈ log, m.dest = cfg.endOf (.frontend i) ∧ cfg.Authentic log m
      ∧ m.payload.length ≤ 8192 ∧ loop.engine.itsReceiveBuffer.take n = m.payload
  table : cfg.AnnouncesTable log i ⊤ loop.engine.itsServices

theorem FrontendInv.mono {log more : List Datagram} {i : ι} {loop : EventLoop F}
    (h : cfg.FrontendInv log i loop) : cfg.FrontendInv (log ++ more) i loop where
  toEngineConfig := h.toEngineConfig
  sequence := h.sequence
  outstanding := h.outstanding
  read := by
    intro n hn
    rcases h.read n hn with ⟨m, hm, hdest, hauthentic, hread⟩
    exact ⟨m, List.mem_append_left more hm, hdest, hauthentic.mono, hread⟩
  table := h.table.mono

-- What a handler may change: the table, the counters and the operations that are pending.
theorem FrontendInv.update {log : List Datagram} {i : ι} {loop loop' : EventLoop F}
    (h : cfg.FrontendInv log i loop) (hcore : cfg.FrontendCore i loop')
    (hbuffer : loop'.engine.itsReceiveBuffer = loop.engine.itsReceiveBuffer)
    (hcompleted : ∀ n, .frontendRead .success n ∈ loop'.completed →
      .frontendRead .success n ∈ loop.completed)
    (houtstanding : loop'.outstanding ≤ 1)
    (htable : cfg.AnnouncesTable log i ⊤ loop'.engine.itsServices)
    : cfg.FrontendInv log i loop' where
  toFrontendCore := hcore
  outstanding := houtstanding
  read := by
    intro n hn
    rcases h.read n (hcompleted n hn) with ⟨m, hm, hdest, hauthentic, hfits, hread⟩
    rw [hbuffer]
    exact ⟨m, hm, hdest, hauthentic, hfits, hread⟩
  table := htable

theorem announcesTable_cycleStep {log : List Datagram} {i : ι} {loop : EventLoop F} {n : Nat}
    {theReactor : Reactor} {between : List (List Removal)} {engine : Engine F}
    (hdecodes : cfg.theProtobuf.Decodes) (hends : Function.Injective cfg.endOf)
    (hloop : cfg.FrontendInv log i loop) (hread : .frontendRead .success n ∈ loop.completed)
    (h : loop.engine.cycleStep (.processReply theReactor
      (cfg.theProtobuf.ParseFromString (loop.engine.itsReceiveBuffer.take n)).2 between)
      = some engine)
    : cfg.AnnouncesTable log i ⊤ engine.itsServices := by
  rcases hloop.read n hread with ⟨m, hm, hdest, hauthentic, hfits, hbuffer⟩
  rcases Engine.cycleStep_eq_some h with ⟨s', hrun, hengine⟩
  rw [hbuffer] at hrun
  rw [hengine]
  dsimp
  rcases hauthentic.parse hdecodes hfits
    with ⟨i', seq, _, hparse⟩ | ⟨k, atBackend, load, i', seq, hanswers, hparse⟩
  . rw [hparse, ops_processReply_request, Lib.run_nil, Option.some.injEq] at hrun
    rw [← hrun]
    exact hloop.table
  . have hi : i' = i := by
      have := hends (hanswers.dest.symm.trans hdest)
      injection this
    rw [hi] at hanswers
    rw [hparse] at hrun
    apply announcesTable_run _ hloop.table hrun
    apply announcesOp_processReply ⟨hm, hfits, hanswers⟩

theorem frontendInv_runReply {log : List Datagram} {i : ι} {loop loop' : EventLoop F}
    {index : Nat} {theReactor : Reactor} {between : List (List Removal)}
    (hdecodes : cfg.theProtobuf.Decodes) (hends : Function.Injective cfg.endOf)
    (hloop : cfg.FrontendInv log i loop)
    (h : loop.runReply cfg.theProtobuf index theReactor between = some loop')
    : cfg.FrontendInv log i loop' := by
  have hreply := h
  unfold EventLoop.runReply at h
  split at h
  . next n hcompleted =>
    rcases Option.map_eq_some_iff.mp h with ⟨engine, hstep, hloop'⟩
    have hread := List.mem_of_getElem? hcompleted
    have hcount := EventLoop.countP_eraseIdx hcompleted
    rcases Engine.cycleStep_eq_some hstep with ⟨s', _, hengine⟩
    have htable := announcesTable_cycleStep hdecodes hends hloop hread hstep
    have hcore := hloop.toFrontendCore.runReply hreply
    rw [← hloop'] at hcore ⊢
    apply hloop.update hcore
    . simp [hengine]
    . intro n' hn'
      exact List.mem_of_mem_eraseIdx (EventLoop.read_of_performAll hn')
    . have houtstanding := hloop.outstanding
      simp only [Completion.isReceived, ne_eq, reduceCtorEq, not_false_eq_true, decide_true,
        if_true, EventLoop.outstanding] at hcount houtstanding
      simp only [EventLoop.performAll, List.foldl_cons, List.foldl_nil,
        EventLoop.outstanding_asyncReceiveFrom]
      simp only [EventLoop.outstanding]
      omega
    . simpa using htable
  . contradiction

-- The deadline replaces the table, if at all, by what is left of it.
theorem announcesTable_handleDeadlineTimer {log : List Datagram} {i : ι} {e e' : Engine F}
    {theReactor : Reactor} {thePlatform : Platform F} {err : ErrorCode} {effects : List Effect}
    (hsequence : e.itsFrontendSequence.toNat < 65535)
    (htable : cfg.AnnouncesTable log i ⊤ e.itsServices)
    (h : e.handleDeadlineTimer theReactor thePlatform cfg.theProtobuf err = .ok (e', effects))
    : cfg.AnnouncesTable log i ⊤ e'.itsServices ∧ e'.itsReceiveBuffer = e.itsReceiveBuffer := by
  by_cases herr : err = .operationAborted
  . simp only [Engine.handleDeadlineTimer, herr, if_true] at h
    injection h with h
    injection h with he _
    rw [← he]
    exact ⟨htable, rfl⟩
  . have hcleaned : cfg.AnnouncesTable log i ⊤ (e.cleaned theReactor).itsServices := by
      unfold Engine.cleaned
      dsimp
      split
      . apply announcesTable_latestSequence _ _ htable
      . exact htable
    have hcases := Engine.handleDeadlineTimer_sends hsequence herr h
    split at hcases
    . rw [hcases.1]
      exact ⟨hcleaned, rfl⟩
    . rw [hcases.1]
      exact ⟨hcleaned, rfl⟩

theorem frontendInv_runHandler {log : List Datagram} {i : ι} {loop loop' : EventLoop F}
    {index : Nat} {theReactor : Reactor} {thePlatform : Platform F}
    (hdecodes : cfg.theProtobuf.Decodes) (hends : Function.Injective cfg.endOf)
    (hloop : cfg.FrontendInv log i loop)
    (hafter : loop.DeadlineAfterReads (.runHandler index, theReactor, thePlatform))
    (h : loop.step cfg.theProtobuf (.runHandler index, theReactor, thePlatform) = some loop')
    : cfg.FrontendInv log i loop' := by
  have hone := ((EventLoop.receivesOne_step hloop.outstanding h).mpr hafter).1
  have hcore := hloop.toFrontendCore.step h
  rcases EventLoop.step_runHandler h with ⟨completion, engine, effects, hcompleted, hhandle, hloop'⟩
  have hengine : loop'.engine = engine := by simp [hloop']
  have hreads : ∀ n, .frontendRead .success n ∈ loop'.completed →
      .frontendRead .success n ∈ loop.completed := by
    intro n hn
    rw [hloop'] at hn
    exact List.mem_of_mem_eraseIdx (EventLoop.read_of_performAll hn)
  cases completion with
  | frontendRead err n =>
    by_cases herr : err = .success
    . rw [herr] at hcompleted
      have hreply : loop.runReply cfg.theProtobuf index theReactor [] = some loop' := by
        rw [EventLoop.runReply_nil hcompleted]
        exact h
      exact frontendInv_runReply hdecodes hends hloop hreply
    . have hsame : engine = loop.engine := Engine.handleFrontendRead_fails herr hhandle
      rw [hsame] at hengine
      apply hloop.update hcore _ hreads hone
      . rw [hengine]
        exact hloop.table
      . rw [hengine]
  | deadlineTimer err =>
    rcases announcesTable_handleDeadlineTimer hloop.sequence hloop.table hhandle
      with ⟨htable, hbuffer⟩
    rw [← hengine] at htable hbuffer
    exact hloop.update hcore hbuffer hreads hone htable

theorem frontendInv_timerExpires {log : List Datagram} {i : ι} {loop loop' : EventLoop F}
    {theReactor : Reactor} {thePlatform : Platform F} (hloop : cfg.FrontendInv log i loop)
    (h : loop.step cfg.theProtobuf (.timerExpires, theReactor, thePlatform) = some loop')
    : cfg.FrontendInv log i loop' := by
  have hone := ((EventLoop.receivesOne_step hloop.outstanding h).mpr trivial).1
  have hcore := hloop.toFrontendCore.step h
  simp only [EventLoop.step] at h
  split at h
  . contradiction
  . injection h with h
    apply hloop.update hcore _ _ hone
    . rw [← h]
      exact hloop.table
    . rw [← h]
    . intro n hn
      simpa [← h] using hn

theorem frontendInv_removeBackend {log : List Datagram} {i : ι} {loop loop' : EventLoop F}
    {removal : Removal} (hloop : cfg.FrontendInv log i loop)
    (h : loop.removeBackend removal = some loop') : cfg.FrontendInv log i loop' := by
  rcases Option.map_eq_some_iff.mp h with ⟨itsServices, hstep, hloop'⟩
  apply hloop.update (hloop.toFrontendCore.removeBackend h)
  . rw [← hloop']
  . intro n hn
    simpa [← hloop'] using hn
  . rw [← hloop']
    exact hloop.outstanding
  . rw [← hloop']
    apply announcesTable_step _ hloop.table hstep
    trivial

theorem frontendInv_receive {log : List Datagram} {i : ι} {loop loop' : EventLoop F} {m : Datagram}
    (hloop : cfg.FrontendInv log i loop) (hm : m ∈ log) (hauthentic : cfg.Authentic log m)
    (hfits : m.payload.length ≤ 8192)
    (h : cfg.receiveFrontend i (some loop) m = some (some loop'))
    : cfg.FrontendInv log i loop' := by
  have houtstanding := hloop.outstanding
  have htake : m.payload.take 8192 = m.payload := List.take_of_length_le hfits
  simp only [receiveFrontend] at h
  split at h
  . next hdest =>
    split at h
    . contradiction
    . next pending hpending =>
      injection h with h
      injection h with h
      unfold EventLoop.outstanding at houtstanding
      have hnone : loop.completed.countP Completion.isReceived = 0 := by omega
      rw [← h]
      exact {
        toFrontendCore := ⟨hloop.toEngineConfig, hloop.sequence⟩
        outstanding := by
          simp only [EventLoop.outstanding, EventLoop.receive, List.countP_append,
            List.countP_singleton, hnone]
          split
          . omega
          . omega
        read := by
          intro n hn
          simp only [EventLoop.receive, List.mem_append, List.mem_singleton] at hn
          cases hn with
          | inl hold =>
            have hreceived := EventLoop.received_eq_false hnone _ hold
            simp [Completion.isReceived] at hreceived
          | inr hnew =>
            injection hnew with _ hn
            refine ⟨m, hm, hdest, hauthentic, hfits, ?_⟩
            have hread := Engine.take_itsReceiveBuffer_fill loop.engine m.payload m.source
            rw [htake] at hread hn
            rw [hn]
            exact hread
        table := hloop.table
      }
  . contradiction

theorem announcesTable_init (log : List Datagram) (i : ι) (mode : ForwardingMode) (a : F)
    (cookieName : ByteString)
    : cfg.AnnouncesTable log i ⊤ (Services.init mode a cookieName) where
  services := by
    intro key service hservice
    rw [Services.serviceList_init] at hservice
    contradiction
  infoRequests := by
    intro name infoRequest hinfo
    rw [Services.infoRequests_init] at hinfo
    contradiction

theorem frontendInv_launch (log : List Datagram) {i : ι} {pause : Bool} {theReactor : Reactor}
    {thePlatform : Platform F} {hooked : Bool} {loop : EventLoop F} {effects : List Effect}
    (h : cfg.launchFrontend i pause theReactor thePlatform hooked = some (loop, effects))
    : cfg.FrontendInv log i loop := by
  rcases launchFrontend_eq_some h with ⟨mode, _, hengine, houtstanding, hreads, _, _⟩
  exact {
    toFrontendCore := frontendCore_launch h
    outstanding := by omega
    read := by
      intro n hn
      exact absurd hn (hreads n)
    table := by
      rw [hengine]
      apply announcesTable_init
  }

end ClusterConfig

end Sputnik
