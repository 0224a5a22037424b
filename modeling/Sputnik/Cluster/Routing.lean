import Sputnik.Cluster.Safety
import Sputnik.Heartbeat.Refinement
import Sputnik.Services.Selection

/-!
This module contains that the table of every frontend of a cluster is one that the operations of the
table lead to, so that what holds of all such tables holds in the cluster, and where the frontends
send their requests.
-/

namespace Sputnik

variable {F : Type} [FloatArith F] {ι κ : Type}

namespace EventLoop

variable {theProtobuf : Protobuf F} {loop loop' : EventLoop F}

-- The table grows by replies only, and none is read while the reactor shuts down.
theorem table_runReply {index : Nat} {theReactor : Reactor} {between : List (List Removal)}
    (h : loop.runReply theProtobuf index theReactor between = some loop')
    : ∃ ops, Lib.run Services.step loop.engine.itsServices ops = some loop'.engine.itsServices
        ∧ (theReactor.isShuttingDown = true → ∀ op ∈ ops, op.grows = false) := by
  unfold runReply at h
  split at h
  . rcases Option.map_eq_some_iff.mp h with ⟨engine, hstep, hloop'⟩
    rcases Engine.cycleStep_eq_some hstep with ⟨s', hrun, hengine⟩
    rw [← hloop', engine_performAll, hengine]
    refine ⟨_, hrun, ?_⟩
    intro hdown
    simp [CycleEvent.ops, Engine.accepts, hdown]
  . contradiction

theorem table_runHandler {index : Nat} {theReactor : Reactor} {thePlatform : Platform F}
    (hsequence : loop.engine.itsFrontendSequence.toNat < 65535)
    (h : loop.step theProtobuf (.runHandler index, theReactor, thePlatform) = some loop')
    : ∃ ops, Lib.run Services.step loop.engine.itsServices ops = some loop'.engine.itsServices
        ∧ (theReactor.isShuttingDown = true → ∀ op ∈ ops, op.grows = false) := by
  rcases step_runHandler h with ⟨completion, engine, effects, hcompleted, hhandle, hloop'⟩
  have hengine : loop'.engine = engine := by rw [hloop', engine_performAll]
  cases completion with
  | frontendRead err n =>
    by_cases herr : err = .success
    . rw [herr] at hcompleted
      rw [← runReply_nil hcompleted] at h
      exact table_runReply h
    . have hsame : engine = loop.engine := Engine.handleFrontendRead_fails herr hhandle
      exact ⟨[], by rw [hengine, hsame]; rfl, by simp⟩
  | deadlineTimer err =>
    by_cases herr : err = .operationAborted
    . rw [herr] at hhandle
      injection hhandle with hhandle
      injection hhandle with hsame _
      exact ⟨[], by rw [hengine, ← hsame]; rfl, by simp⟩
    . have hcases := Engine.handleDeadlineTimer_sends hsequence herr hhandle
      have hservices : engine.itsServices = (loop.engine.cleaned theReactor).itsServices := by
        split at hcases
        . rw [hcases.1]
        . rw [hcases.1]
          rfl
      rw [hengine, hservices]
      unfold Engine.cleaned
      dsimp only
      split
      . refine ⟨[.latestSequence theReactor loop.engine.itsFrontendSequence.toNat], rfl, ?_⟩
        simp [ServicesOp.grows]
      . exact ⟨[], rfl, by simp⟩

end EventLoop

namespace ClusterConfig

variable {cfg : ClusterConfig ι κ F} {log : List Datagram}

-- Some operations lead from the empty table of the frontend to its present one.
def Tabled (cfg : ClusterConfig ι κ F) : ∀ p : Party ι κ, p.State F → Prop
  | .frontend i, some loop => ∃ mode ops,
    Lib.run Services.step (.init mode (cfg.frontends i).itsBalanceFactor
      (cfg.frontends i).itsStickyCookie) ops = some loop.engine.itsServices
  | _, _ => True

theorem Tabled.run {i : ι} {loop loop' : EventLoop F} (h : cfg.Tabled (.frontend i) (some loop))
    {ops : List (ServicesOp F)}
    (hrun : Lib.run Services.step loop.engine.itsServices ops = some loop'.engine.itsServices)
    : cfg.Tabled (.frontend i) (some loop') := by
  rcases h with ⟨mode, before, hbefore⟩
  refine ⟨mode, before ++ ops, ?_⟩
  rw [Lib.run_append, hbefore, Option.bind_some, hrun]

theorem tabled_act {i : ι} {s s' : Option (EventLoop F)} {a : FrontendAction F}
    {out : List Datagram} (hs : cfg.PartyInv log (.frontend i) s)
    (htabled : cfg.Tabled (.frontend i) s) (h : cfg.actFrontend i s a = some (s', out))
    : cfg.Tabled (.frontend i) s' := by
  cases s with
  | none =>
    cases a with
    | launch pause theReactor thePlatform hooked =>
      rcases Option.map_eq_some_iff.mp h with ⟨launched, hlaunch, heq⟩
      injection heq with hs' _
      rcases launchFrontend_eq_some hlaunch with ⟨mode, _, hengine, _⟩
      rw [← hs']
      refine ⟨mode, [], ?_⟩
      rw [hengine]
      rfl
    | event event => contradiction
    | runReply index theReactor between => contradiction
    | removeBackend removal => contradiction
  | some loop =>
    cases a with
    | launch pause theReactor thePlatform hooked => contradiction
    | runReply index theReactor between =>
      rcases Option.map_eq_some_iff.mp h with ⟨loop', hreply, heq⟩
      injection heq with hs' _
      rw [← hs']
      rcases EventLoop.table_runReply hreply with ⟨ops, hrun, _⟩
      exact htabled.run hrun
    | removeBackend removal =>
      rcases Option.map_eq_some_iff.mp h with ⟨loop', hremove, heq⟩
      injection heq with hs' _
      rcases Option.map_eq_some_iff.mp hremove with ⟨itsServices, hstep, hloop'⟩
      rw [← hs', ← hloop']
      refine htabled.run (?_ : Lib.run Services.step _ [removal.op] = _)
      rw [Lib.run_cons, hstep]
      rfl
    | event event =>
      rcases event with ⟨event, theReactor, thePlatform⟩
      cases event with
      | datagramArrives datagram remoteEnd => contradiction
      | timerExpires =>
        rcases Option.map_eq_some_iff.mp h with ⟨loop', hstep, heq⟩
        injection heq with hs' _
        simp only [EventLoop.step] at hstep
        split at hstep
        . contradiction
        . injection hstep with hloop'
          rw [← hs', ← hloop']
          exact htabled
      | runHandler index =>
        rcases Option.map_eq_some_iff.mp h with ⟨loop', hstep, heq⟩
        injection heq with hs' _
        rw [← hs']
        rcases EventLoop.table_runHandler hs.sequence hstep with ⟨ops, hrun, _⟩
        exact htabled.run hrun

omit [FloatArith F] in
theorem itsServices_receiveFrontend {i : ι} {loop : EventLoop F} {m : Datagram}
    {s' : Option (EventLoop F)} (h : cfg.receiveFrontend i (some loop) m = some s')
    : ∃ loop', s' = some loop' ∧ loop'.engine.itsServices = loop.engine.itsServices := by
  simp only [receiveFrontend] at h
  split at h
  . split at h
    . contradiction
    . injection h with h
      exact ⟨_, h.symm, rfl⟩
  . contradiction

theorem invariant_tabled (hdecodes : cfg.theProtobuf.Decodes)
    (hends : Function.Injective cfg.endOf)
    : Lib.Network.Invariant cfg.protocol (fun log p s => cfg.PartyInv log p s ∧ cfg.Tabled p s)
        cfg.Authentic Regular Fits where
  mono h := h.mono
  act := by
    intro log p s a s' out hs hregular hact
    rcases (invariant_protocol hdecodes hends).act hs.1 hregular hact with ⟨hs', hout⟩
    refine ⟨⟨hs', ?_⟩, hout⟩
    cases p with
    | backend k => trivial
    | frontend i => exact tabled_act hs.1 hs.2 hact
  receive := by
    intro log p s m s' hs hm hauthentic hfits h
    refine ⟨partyInv_receive hs.1 hm hauthentic hfits h, ?_⟩
    cases p with
    | backend k => trivial
    | frontend i =>
      cases s with
      | none => contradiction
      | some loop =>
        rcases itsServices_receiveFrontend h with ⟨loop', hloop', hservices⟩
        rw [hloop']
        rcases hs.2 with ⟨mode, ops, hrun⟩
        exact ⟨mode, ops, by rw [hservices]; exact hrun⟩
  frame hne hs ht hregular hact :=
    ⟨(invariant_protocol hdecodes hends).frame hne hs.1 ht.1 hregular hact, hs.2⟩

end ClusterConfig

namespace Cluster

open ClusterConfig

variable [DecidableEq ι] [DecidableEq κ]

/--
A frontend sends each request to a backend that has announced itself for it: after every regular run
in which what is delivered fits into the buffers, and for every draw, `getService` returns null, for
an empty list, or a service that a backend of the cluster has announced to the frontend under a
prefix of the requested path. It never throws.
-/
theorem forwards_announced (cfg : ClusterConfig ι κ F) (events : List (ClusterEvent ι κ F))
    (net : Cluster ι κ F) (i : ι) (loop : EventLoop F) (theReactor : Reactor)
    (theRequest : Request) (itsGenerator : Generator F) (hdecodes : cfg.theProtobuf.Decodes)
    (hends : Function.Injective cfg.endOf) (h : cfg.Proceeds Regular init events net)
    (hloop : net.frontend i = some loop)
    : (loop.engine.itsServices.resolvedList theRequest = []
          ∧ loop.engine.itsServices.getService theReactor theRequest itsGenerator = .ok none)
        ∨ ∃ key service,
          loop.engine.itsServices.getService theReactor theRequest itsGenerator = .ok (some service)
            ∧ key <+: theRequest.getResource
            ∧ cfg.AnnouncesService net.sent i ⊤ key service := by
  have hnet := (invariant_tabled hdecodes hends).holds_run h.meets h.run (by
    constructor
    . intro p
      refine ⟨holds_init.state p, ?_⟩
      cases p with
      | frontend i => trivial
      | backend k => trivial
    . simp [init])
  have hstate := hnet.state (.frontend i)
  unfold frontend at hloop
  rw [hloop] at hstate
  rcases hstate with ⟨hinv, mode, ops, hrun⟩
  rcases Services.allSelectable_run hrun with ⟨_, hentries⟩
  by_cases hempty : loop.engine.itsServices.resolvedList theRequest = []
  . left
    exact ⟨hempty, Services.getService_eq_none theReactor itsGenerator hempty⟩
  . right
    rcases Services.getService_eq_some theReactor itsGenerator
      (fun k entry hentry => ⟨(hentries k entry hentry).sameBackends,
        (hentries k entry hentry).weighted⟩) hempty with ⟨_, _, service, _, _, _, hget⟩
    refine ⟨loop.engine.itsServices.itsPrefixMap.translate theRequest.getResource, service, hget,
      (URIPrefixMap.routes_translate _ _).isPrefix, ?_⟩
    apply hinv.table.services
    exact Services.mem_resolvedList_of_getService hget

section Sample

open Sample

theorem forwards_announced_sample
    : ∃ (net : Cluster Unit Unit Rat) (loop : EventLoop Rat) (key : ByteString)
        (service : BackendService Rat), net.frontend () = some loop
          ∧ loop.engine.itsServices.getService reactor request generator = .ok (some service)
          ∧ key <+: request.getResource ∧ cluster.AnnouncesService net.sent () ⊤ key service := by
  have hrun : (Lib.run (Lib.Network.step cluster.protocol) init firstAnswer).any
      (fun net => (frontend net ()).any fun loop =>
        loop.engine.itsServices.resolvedList request ≠ []) = true := by
    decide
  rw [Option.any_eq_true] at hrun
  rcases hrun with ⟨net, hnet, hany⟩
  rw [Option.any_eq_true] at hany
  rcases hany with ⟨loop, hloop, hlisted⟩
  rw [decide_eq_true_eq] at hlisted
  rcases forwards_announced cluster firstAnswer net () loop reactor request generator
    decodes_cluster injective_endOf_cluster ⟨hnet, by decide⟩ hloop
    with ⟨hempty, _⟩ | ⟨key, service, hget, hkey, hannounces⟩
  . exact absurd hempty hlisted
  . exact ⟨net, loop, key, service, hloop, hget, hkey, hannounces⟩

end Sample

end Cluster

end Sputnik
