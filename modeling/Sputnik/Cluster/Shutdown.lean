import Sputnik.Cluster.Routing
import Sputnik.Cluster.Withdrawal

/-!
This module contains what a frontend does once its reactor shuts down: it takes what it lists away
cycle by cycle, and asks no backend again.
-/

namespace Sputnik

variable {F : Type} [FloatArith F] {ι κ : Type}

namespace Services

theorem sublist_of_run {s s' : Services F} {ops : List (ServicesOp F)}
    (hrun : Lib.run step s ops = some s') (hops : ∀ op ∈ ops, op.grows = false)
    : (∀ key, (s'.serviceList key).Sublist (s.serviceList key))
        ∧ ∀ name, (s'.infoRequests name).Sublist (s.infoRequests name) := by
  apply Lib.run_invariant
    (P := fun t => (∀ key, (t.serviceList key).Sublist (s.serviceList key))
      ∧ ∀ name, (t.infoRequests name).Sublist (s.infoRequests name)) _ _ hrun
  . intro t op t' hop ⟨hservices, hinfos⟩ hstep
    have hgrows := hops op hop
    constructor
    . intro key
      rw [serviceList_step hstep]
      refine .trans ?_ (hservices key)
      cases op with
      | addService => contradiction
      | _ => exact List.filter_sublist
    . intro name
      rw [infoRequests_step hstep]
      refine .trans ?_ (hinfos name)
      cases op with
      | addBackendInfoRequest => contradiction
      | latestSequence => exact List.filter_sublist
      | _ => exact .refl _
  . exact ⟨fun _ => .refl _, fun _ => .refl _⟩

end Services

-- The second loop lists nothing that the first one does not list, and waits for no more deadlines.
structure Dwindles (loop loop' : EventLoop F) : Prop where
  sequence : loop'.engine.itsFrontendSequence = loop.engine.itsFrontendSequence
  services : ∀ key, (loop'.engine.itsServices.serviceList key).Sublist
    (loop.engine.itsServices.serviceList key)
  infoRequests : ∀ name, (loop'.engine.itsServices.infoRequests name).Sublist
    (loop.engine.itsServices.infoRequests name)
  waits : loop'.waits ≤ loop.waits

namespace Dwindles

variable {theProtobuf : Protobuf F} {loop loop' loop'' : EventLoop F}

omit [FloatArith F] in
theorem trans (h : Dwindles loop loop') (h' : Dwindles loop' loop'') : Dwindles loop loop'' where
  sequence := by rw [h'.sequence, h.sequence]
  services key := (h'.services key).trans (h.services key)
  infoRequests name := (h'.infoRequests name).trans (h.infoRequests name)
  waits := Nat.le_trans h'.waits h.waits

omit [FloatArith F] in
theorem of_same (hsequence : loop'.engine.itsFrontendSequence = loop.engine.itsFrontendSequence)
    (hservices : loop'.engine.itsServices = loop.engine.itsServices)
    (hwaits : loop'.waits = loop.waits) : Dwindles loop loop' where
  sequence := hsequence
  services key := by rw [hservices]
  infoRequests name := by rw [hservices]
  waits := Nat.le_of_eq hwaits

theorem of_run {ops : List (ServicesOp F)}
    (hsequence : loop'.engine.itsFrontendSequence = loop.engine.itsFrontendSequence)
    (hrun : Lib.run Services.step loop.engine.itsServices ops = some loop'.engine.itsServices)
    (hops : ∀ op ∈ ops, op.grows = false) (hwaits : loop'.waits ≤ loop.waits)
    : Dwindles loop loop' where
  sequence := hsequence
  services := (Services.sublist_of_run hrun hops).1
  infoRequests := (Services.sublist_of_run hrun hops).2
  waits := hwaits

theorem runReply {index : Nat} {theReactor : Reactor} {between : List (List Removal)}
    (hdown : theReactor.isShuttingDown = true)
    (h : loop.runReply theProtobuf index theReactor between = some loop')
    : Dwindles loop loop' := by
  rcases EventLoop.table_runReply h with ⟨ops, hrun, hops⟩
  rcases EventLoop.runReply_eq_some h with ⟨_, _, hengine⟩
  refine of_run ?_ hrun (hops hdown) ?_
  . rw [hengine]
  . unfold EventLoop.runReply at h
    split at h
    . next hcompleted =>
      have hcount := EventLoop.countP_isDeadline_eraseIdx hcompleted
      rcases Option.map_eq_some_iff.mp h with ⟨engine, _, hloop'⟩
      rw [← hloop', EventLoop.performAll, List.foldl_cons, List.foldl_nil,
        EventLoop.waits_asyncReceiveFrom]
      apply Nat.le_of_eq
      simpa [EventLoop.waits, Completion.isDeadline] using hcount
    . contradiction

theorem removeBackend {removal : Removal} (h : loop.removeBackend removal = some loop')
    : Dwindles loop loop' := by
  rcases Option.map_eq_some_iff.mp h with ⟨itsServices, hstep, hloop'⟩
  have hrun : Lib.run Services.step loop.engine.itsServices [removal.op] = some itsServices := by
    rw [Lib.run_cons, hstep]
    rfl
  rw [← hloop']
  refine of_run rfl hrun ?_ (Nat.le_refl _)
  simp [Removal.op, ServicesOp.grows]

-- The handler sends nothing, and does not wait again.
theorem runHandler {index : Nat} {theReactor : Reactor} {thePlatform : Platform F}
    (hsequence : loop.engine.itsFrontendSequence.toNat < 65535)
    (hdown : theReactor.isShuttingDown = true)
    (h : loop.step theProtobuf (.runHandler index, theReactor, thePlatform) = some loop')
    : Dwindles loop loop' ∧ ∀ effect ∈
        loop.effects theProtobuf (.runHandler index, theReactor, thePlatform),
          effect.isSend = false := by
  rcases EventLoop.table_runHandler hsequence h with ⟨ops, hrun, hops⟩
  rcases EventLoop.step_runHandler h with ⟨completion, engine, effects, hcompleted, hhandle, hloop'⟩
  have heffects : loop.effects theProtobuf (.runHandler index, theReactor, thePlatform)
      = effects := by
    simp only [EventLoop.effects, hcompleted, hhandle]
  have hcount := EventLoop.countP_isDeadline_eraseIdx hcompleted
  rw [heffects]
  cases completion with
  | frontendRead err n =>
    have hsent := EventLoop.effects_handleFrontendRead hhandle
    rcases Engine.handleFrontendRead_eq_ok hhandle with ⟨_, _, hengine⟩
    simp only [Completion.isDeadline, Bool.false_eq_true, if_false, Nat.add_zero] at hcount
    constructor
    . apply of_run _ hrun (hops hdown)
      . apply Nat.le_of_eq
        rw [hloop', hsent]
        split
        . exact congrArg (loop.pendingWaits + ·) hcount
        . exact congrArg (loop.pendingWaits + ·) hcount
      . rw [hloop', EventLoop.engine_performAll, hengine]
    . rw [hsent]
      split
      . simp
      . simp [Effect.isSend]
  | deadlineTimer err =>
    by_cases herr : err = .operationAborted
    . rw [herr] at hhandle hcount
      injection hhandle with hhandle
      injection hhandle with hengine hsent
      simp only [Completion.isDeadline, ne_eq, not_true_eq_false, decide_false, Bool.false_eq_true,
        if_false, Nat.add_zero] at hcount
      rw [← hsent]
      refine ⟨?_, by simp⟩
      apply of_run _ hrun (hops hdown)
      . apply Nat.le_of_eq
        rw [hloop', ← hsent]
        exact congrArg (loop.pendingWaits + ·) hcount
      . rw [hloop', EventLoop.engine_performAll, ← hengine]
    . have hcases := Engine.handleDeadlineTimer_sends hsequence herr hhandle
      rw [if_pos hdown] at hcases
      rw [hcases.2]
      refine ⟨?_, by simp [Effect.isSend]⟩
      apply of_run _ hrun (hops hdown)
      . rw [hloop', hcases.2, EventLoop.performAll, List.foldl_cons, List.foldl_nil,
          EventLoop.waits_cancel]
        apply Nat.add_le_add_left
        dsimp only
        omega
      . rw [hloop', EventLoop.engine_performAll, hcases.1]
        rfl

end Dwindles

namespace ClusterConfig

variable {cfg : ClusterConfig ι κ F} {log : List Datagram}

-- Whenever a handler runs at the frontend, its reactor shuts down.
def ShutsDown (i : ι) : ClusterEvent ι κ F → Prop
  | .act (.frontend j) (.event (.runHandler _, theReactor, _)) =>
    j = i → theReactor.isShuttingDown = true
  | .act (.frontend j) (.runReply _ theReactor _) => j = i → theReactor.isShuttingDown = true
  | _ => True

theorem dwindles_act {i : ι} {loop : EventLoop F} {a : FrontendAction F}
    {s' : Option (EventLoop F)} {out : List Datagram} (hloop : cfg.FrontendCore i loop)
    (hdown : ShutsDown i (.act (.frontend i) a : ClusterEvent ι κ F))
    (h : cfg.actFrontend i (some loop) a = some (s', out))
    : out = [] ∧ ∃ loop', s' = some loop' ∧ Dwindles loop loop' := by
  cases a with
  | launch pause theReactor thePlatform hooked => contradiction
  | runReply index theReactor between =>
    rcases Option.map_eq_some_iff.mp h with ⟨loop', hreply, heq⟩
    injection heq with hs' hout
    exact ⟨hout.symm, loop', hs'.symm, .runReply (hdown rfl) hreply⟩
  | removeBackend removal =>
    rcases Option.map_eq_some_iff.mp h with ⟨loop', hremove, heq⟩
    injection heq with hs' hout
    exact ⟨hout.symm, loop', hs'.symm, .removeBackend hremove⟩
  | event event =>
    rcases event with ⟨event, theReactor, thePlatform⟩
    cases event with
    | datagramArrives datagram remoteEnd => contradiction
    | timerExpires =>
      rcases Option.map_eq_some_iff.mp h with ⟨loop', hstep, heq⟩
      injection heq with hs' hout
      refine ⟨hout.symm, loop', hs'.symm, ?_⟩
      simp only [EventLoop.step] at hstep
      split at hstep
      . contradiction
      . next n hpending =>
        injection hstep with hloop'
        rw [← hloop']
        refine .of_same rfl rfl ?_
        simp only [EventLoop.waits, List.countP_append, hpending]
        simp [Completion.isDeadline]
        omega
    | runHandler index =>
      rcases Option.map_eq_some_iff.mp h with ⟨loop', hstep, heq⟩
      injection heq with hs' hout
      rcases Dwindles.runHandler hloop.sequence (hdown rfl) hstep with ⟨hdwindles, hsends⟩
      refine ⟨?_, loop', hs'.symm, hdwindles⟩
      rw [← hout]
      apply sentFrom_eq_nil hsends

omit [FloatArith F] in
theorem dwindles_receive {i : ι} {loop : EventLoop F} {m : Datagram}
    {s' : Option (EventLoop F)} (h : cfg.receiveFrontend i (some loop) m = some s')
    : ∃ loop', s' = some loop' ∧ Dwindles loop loop' := by
  simp only [receiveFrontend] at h
  split at h
  . split at h
    . contradiction
    . injection h with h
      refine ⟨_, h.symm, .of_same rfl rfl ?_⟩
      simp [EventLoop.waits, EventLoop.receive, Completion.isDeadline]
  . contradiction

variable [DecidableEq ι] [DecidableEq κ]

theorem dwindles_step {i : ι} {net net' : Cluster ι κ F} {event : ClusterEvent ι κ F}
    {loop : EventLoop F} (hends : Function.Injective cfg.endOf)
    (hnet : ∀ p, cfg.PartyCore p (net.state p)) (hdown : ShutsDown i event)
    (hloop : net.frontend i = some loop) (h : net.step cfg.protocol event = some net')
    : (∀ m ∈ net'.sent, m.source = cfg.endOf (.frontend i) → m ∈ net.sent)
        ∧ ∃ loop', net'.frontend i = some loop' ∧ Dwindles loop loop' := by
  have hinv := hnet (.frontend i)
  unfold Cluster.frontend at hloop ⊢
  rw [hloop] at hinv
  constructor
  . apply sent_silent hends _ h
    rintro a s' out rfl hact
    rw [hloop] at hact
    exact (dwindles_act hinv hdown hact).1
  . by_cases hparty : Party.frontend i = event.party
    . cases event with
      | deliver p m =>
        cases hparty
        rcases Lib.Network.step_deliver h with ⟨_, s, hreceive, hnet'⟩
        rw [hloop] at hreceive
        rcases dwindles_receive hreceive with ⟨loop', hs, hdwindles⟩
        refine ⟨loop', ?_, hdwindles⟩
        rw [hnet', ← hs]
        dsimp only
        rw [Function.update_self]
      | act p a =>
        cases hparty
        rcases Lib.Network.step_act h with ⟨s, out, hact, hnet'⟩
        rw [hloop] at hact
        rcases dwindles_act hinv hdown hact with ⟨_, loop', hs, hdwindles⟩
        refine ⟨loop', ?_, hdwindles⟩
        rw [hnet', ← hs]
        dsimp only
        rw [Function.update_self]
    . refine ⟨loop, ?_, .of_same rfl rfl rfl⟩
      rw [Lib.Network.state_step_of_ne h hparty, hloop]

end ClusterConfig

namespace Cluster

open ClusterConfig

variable [DecidableEq ι] [DecidableEq κ]

section Sample

open Sample

-- The last deadline of a frontend that shuts down.
def shutdown : List (ClusterEvent Unit Unit Rat) := [
  expires,
  .act (.frontend ()) (.event (.runHandler 0, { reactor with isShuttingDown := true },
    clusterPlatform))
]

end Sample

end Cluster

end Sputnik
