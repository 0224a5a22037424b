import Sputnik.Services.Rebuild
import Sputnik.Services.Removal
import Sputnik.Services.Throttle

/-!
This module contains which operations of a history an answer depends on, and that the order of
arrivals shows only in the order of the lists.
-/

namespace Sputnik

variable {F : Type}

namespace ServicesOp

def routes : ServicesOp F → Bool
  | .addService .. | .removeBackend .. | .latestSequence .. => true
  | _ => false

def informs : ServicesOp F → Bool
  | .addBackendInfoRequest _ | .latestSequence .. => true
  | _ => false

def throttles : ServicesOp F → Bool
  | .addService .. | .setBackendAlive .. | .signalBackendConnection .. => true
  | _ => false

theorem removes_of_grows {op : ServicesOp F} (h : op.grows = true) : op.removes = false := by
  cases op with
  | removeBackend theReactor theHostname thePort theURI => contradiction
  | _ => rfl

end ServicesOp

namespace Services

variable [FloatArith F]

/-! The operations that an answer depends on -/

theorem SameRoutes.refl (s : Services F) : s.SameRoutes s where
  newForwarder := rfl
  entries _ := rfl
  registered _ _ := Iff.rfl

theorem SameRoutes.skip {s s' t : Services F} {op : ServicesOp F} (hop : op.routes = false)
    (hsame : s.SameRoutes t) (h : s.step op = some s') : s'.SameRoutes t := by
  cases op with
  | addBackendInfoRequest theRequest =>
    rw [← Option.some.inj h]
    exact ⟨hsame.newForwarder, hsame.entries, hsame.registered⟩
  | setBackendAlive theHostName thePort =>
    rw [← Option.some.inj h]
    exact ⟨hsame.newForwarder, hsame.entries, hsame.registered⟩
  | signalBackendConnection theHostName thePort =>
    rw [← Option.some.inj h]
    exact ⟨hsame.newForwarder, hsame.entries, hsame.registered⟩
  | _ => contradiction

theorem SameRoutes.backends {s t : Services F} (hsame : s.SameRoutes t) (service : ByteString)
    (full : Bool) : t.backends service full = s.backends service full := by
  simp only [Services.backends, servicesUnder_eq, hsame.translate, hsame.serviceList]

theorem SameRoutes.getBackendList {s t : Services F} (hsame : s.SameRoutes t)
    (service : ByteString) : t.getBackendList service = s.getBackendList service := by
  simp only [Services.getBackendList, servicesUnder_eq, hsame.translate, hsame.serviceList]

theorem run_routes {s s' : Services F} {ops : List (ServicesOp F)}
    (h : Lib.run step s ops = some s')
    : ∃ t, Lib.run step s (ops.filter ServicesOp.routes) = some t ∧ s'.SameRoutes t := by
  apply Lib.run_filter _ _ (SameRoutes.refl s) h
  . intro s t op s' _ hsame hstep
    apply Lib.rel_some
    rw [← hstep]
    apply hsame.step
  . intro s t op s' hop hsame hstep
    apply hsame.skip hop hstep

theorem exists_step {op : ServicesOp F} (hop : op.removes = false) (s : Services F)
    : ∃ s', s.step op = some s' := by
  cases op with
  | removeBackend theReactor theHostname thePort theURI => contradiction
  | _ => exact ⟨_, rfl⟩

theorem run_informs {s s' : Services F} {ops : List (ServicesOp F)}
    (h : Lib.run step s ops = some s')
    : ∃ t, Lib.run step s (ops.filter ServicesOp.informs) = some t
        ∧ ∀ name, t.infoRequests name = s'.infoRequests name := by
  apply Lib.run_filter (R := fun s t => ∀ name, t.infoRequests name = s.infoRequests name) _ _
    (fun _ => rfl) h
  . intro s t op s' hop hsame hstep
    have hremoves : op.removes = false := by
      cases op with
      | removeBackend theReactor theHostname thePort theURI => contradiction
      | _ => rfl
    rcases exists_step hremoves t with ⟨t', ht'⟩
    refine ⟨t', ht', ?_⟩
    intro name
    rw [infoRequests_step hstep, infoRequests_step ht', hsame]
  . intro s t op s' hop hsame hstep name
    rw [infoRequests_step hstep, hsame]
    cases op with
    | addBackendInfoRequest theRequest => contradiction
    | latestSequence theReactor itsSequenceNumber => contradiction
    | _ => rfl

theorem run_throttles {s s' : Services F} {ops : List (ServicesOp F)}
    (h : Lib.run step s ops = some s')
    : ∃ t, Lib.run step s (ops.filter ServicesOp.throttles) = some t
        ∧ ∀ backend, t.sentinel backend = s'.sentinel backend := by
  apply Lib.run_filter (R := fun s t => ∀ backend, t.sentinel backend = s.sentinel backend) _ _
    (fun _ => rfl) h
  . intro s t op s' hop hsame hstep
    have hremoves : op.removes = false := by
      cases op with
      | removeBackend theReactor theHostname thePort theURI => contradiction
      | _ => rfl
    rcases exists_step hremoves t with ⟨t', ht'⟩
    refine ⟨t', ht', ?_⟩
    intro backend
    rw [sentinel_step hstep, sentinel_step ht', hsame]
  . intro s t op s' hop hsame hstep backend
    rw [sentinel_step hstep, hsame]
    cases op with
    | removeBackend theReactor theHostname thePort theURI => rfl
    | latestSequence theReactor itsSequenceNumber => rfl
    | addBackendInfoRequest theRequest => rfl
    | _ => contradiction

/--
Operations do not interfere: routing and the lists of backends depend on the services alone, the
backends of an info request on the info requests, and whether a backend is alive on the connections
to it.
-/
theorem answers_of_parts (mode : ForwardingMode) (a : F) (cookieName : ByteString)
    (ops : List (ServicesOp F)) (s : Services F)
    (hrun : Lib.run step (init mode a cookieName) ops = some s)
    : ∃ routed informed throttled,
        Lib.run step (init mode a cookieName) (ops.filter ServicesOp.routes) = some routed
          ∧ Lib.run step (init mode a cookieName) (ops.filter ServicesOp.informs) = some informed
          ∧ Lib.run step (init mode a cookieName) (ops.filter ServicesOp.throttles) = some throttled
          ∧ (∀ theReactor theRequest itsGenerator,
            s.getService theReactor theRequest itsGenerator
              =
            routed.getService theReactor theRequest itsGenerator)
          ∧ (∀ service full, s.backends service full = routed.backends service full)
          ∧ (∀ service, s.getBackendList service = routed.getBackendList service)
          ∧ (∀ infoRequestName,
            s.getInfoRequestBackendList infoRequestName
              =
            informed.getInfoRequestBackendList infoRequestName)
          ∧ ∀ theHostName thePort,
            s.queryBackendAlive theHostName thePort
              =
            throttled.queryBackendAlive theHostName thePort := by
  have hs := maintained_run hrun (maintained_init mode a cookieName)
  rcases run_routes hrun with ⟨routed, hrouted, hroutes⟩
  rcases run_informs hrun with ⟨informed, hinformed, hinforms⟩
  rcases run_throttles hrun with ⟨throttled, hthrottled, hthrottles⟩
  have hmaintained := maintained_run hrouted (maintained_init mode a cookieName)
  refine ⟨routed, informed, throttled, hrouted, hinformed, hthrottled, ?_, ?_, ?_, ?_, ?_⟩
  . intro theReactor theRequest itsGenerator
    rw [hroutes.getService hs hmaintained]
  . intro service full
    rw [hroutes.backends]
  . intro service
    rw [hroutes.getBackendList]
  . intro infoRequestName
    rw [getInfoRequestBackendList_eq, getInfoRequestBackendList_eq, hinforms]
  . intro theHostName thePort
    rw [queryBackendAlive_eq, queryBackendAlive_eq, hthrottles]

/-! The order of arrivals -/

structure SameUpToOrder (s t : Services F) : Prop where
  serviceList : ∀ k, (t.serviceList k).Perm (s.serviceList k)
  infoRequests : ∀ name, (t.infoRequests name).Perm (s.infoRequests name)
  registered : ∀ p id, t.itsPrefixMap.Registered p id ↔ s.itsPrefixMap.Registered p id

-- What the two tables answer, up to the order of what they list.
structure AnswersAlike (s t : Services F) : Prop where
  finds : ∀ theReactor theReactor' theRequest itsGenerator itsGenerator',
    t.getService theReactor' theRequest itsGenerator' = .ok none
      ↔
    s.getService theReactor theRequest itsGenerator = .ok none
  resolvedList : ∀ theRequest, (t.resolvedList theRequest).Perm (s.resolvedList theRequest)
  getBackendList : ∀ service, (t.getBackendList service).Perm (s.getBackendList service)
  getInfoRequestBackendList : ∀ infoRequestName,
    (t.getInfoRequestBackendList infoRequestName).Perm
      (s.getInfoRequestBackendList infoRequestName)
  getInfoRequestNames : ∀ name, name ∈ t.getInfoRequestNames ↔ name ∈ s.getInfoRequestNames

namespace SameUpToOrder

variable {s t : Services F}

omit [FloatArith F] in
theorem liveService (h : s.SameUpToOrder t) (service : BackendService F)
    : t.LiveService service ↔ s.LiveService service := by
  simp only [LiveService, (h.serviceList _).mem_iff]

omit [FloatArith F] in
theorem translate (h : s.SameUpToOrder t) (uri : ByteString)
    : t.itsPrefixMap.translate uri = s.itsPrefixMap.translate uri :=
  URIPrefixMap.translate_eq_of_registered h.registered uri

omit [FloatArith F] in
theorem stepList {l l' : List (BackendService F)} (h : l'.Perm l) (k : ByteString)
    (op : ServicesOp F) : (Services.stepList k l' op).Perm (Services.stepList k l op) := by
  unfold Services.stepList
  split
  . split
    . apply h.append_right
    . assumption
  . apply h.filter

omit [FloatArith F] in
theorem stepInfoRequests {l l' : List (BackendInfoRequest F)} (h : l'.Perm l) (name : ByteString)
    (op : ServicesOp F)
    : (Services.stepInfoRequests name l' op).Perm (Services.stepInfoRequests name l op) := by
  unfold Services.stepInfoRequests
  split
  . split
    . apply h.append_right
    . assumption
  . apply h.filter
  . assumption

theorem step (h : s.SameUpToOrder t) (op : ServicesOp F)
    : Option.Rel SameUpToOrder (s.step op) (t.step op) := by
  apply Lib.rel_of_iff (step_eq_none_congr h.liveService op)
  intro s' t' hs' ht'
  refine ⟨?_, ?_, ?_⟩
  . intro k
    rw [serviceList_step hs', serviceList_step ht']
    apply stepList (h.serviceList k)
  . intro name
    rw [infoRequests_step hs', infoRequests_step ht']
    apply stepInfoRequests (h.infoRequests name)
  . apply registered_step_congr h.liveService h.registered hs' ht'

theorem of_perm {s₀ : Services F} {ops ops' : List (ServicesOp F)}
    (hs : Lib.run Services.step s₀ ops = some s) (ht : Lib.run Services.step s₀ ops' = some t)
    (hperm : ops'.Perm ops) (hgrows : ∀ op ∈ ops, op.grows = true) : s.SameUpToOrder t := by
  have hgrows' : ∀ op ∈ ops', op.grows = true := by
    intro op hop
    apply hgrows op (hperm.mem_iff.mp hop)
  refine ⟨?_, ?_, ?_⟩
  . intro k
    rw [serviceList_run_append hs (fun op hop => ServicesOp.stale_of_grows (hgrows op hop)),
      serviceList_run_append ht (fun op hop => ServicesOp.stale_of_grows (hgrows' op hop))]
    apply (hperm.flatMap_right _).append_left
  . intro name
    rw [infoRequests_run_append hs hgrows, infoRequests_run_append ht hgrows']
    apply (hperm.flatMap_right _).append_left
  . intro p id
    rw [registered_run hs hgrows, registered_run ht hgrows']
    simp only [hperm.mem_iff]

omit [FloatArith F] in
theorem resolvedList (h : s.SameUpToOrder t) (theRequest : Request)
    : (t.resolvedList theRequest).Perm (s.resolvedList theRequest) := by
  unfold Services.resolvedList
  rw [h.translate]
  apply h.serviceList

theorem answersAlike {mode : ForwardingMode} (h : s.SameUpToOrder t) (hs : s.AllSelectable mode)
    (ht : t.AllSelectable mode) : s.AnswersAlike t where
  finds := by
    intro theReactor theReactor' theRequest itsGenerator itsGenerator'
    rw [getService_eq_none_iff hs, getService_eq_none_iff ht]
    constructor
    . intro hnil
      have hperm := h.resolvedList theRequest
      rw [hnil] at hperm
      apply hperm.nil_eq.symm
    . intro hnil
      have hperm := h.resolvedList theRequest
      rw [hnil] at hperm
      apply hperm.eq_nil
  resolvedList := h.resolvedList
  getBackendList := by
    intro service
    rw [getBackendList_eq, getBackendList_eq, h.translate]
    apply (h.serviceList _).map
  getInfoRequestBackendList := by
    intro infoRequestName
    rw [getInfoRequestBackendList_eq, getInfoRequestBackendList_eq]
    apply (h.infoRequests _).map
  getInfoRequestNames := by
    intro name
    rw [mem_getInfoRequestNames, mem_getInfoRequestNames]
    have hperm := h.infoRequests name
    constructor
    . intro hne hnil
      rw [hnil] at hperm
      exact hne hperm.eq_nil
    . intro hne hnil
      rw [hnil] at hperm
      exact hne hperm.nil_eq.symm

end SameUpToOrder

/--
The order in which announcements arrive shows in nothing but the order of the lists, also after any
further operations: two frontends that have seen the same announcements list the same backends.
-/
theorem answersAlike_of_perm (mode : ForwardingMode) (a : F) (cookieName : ByteString)
    (before arrivals arrivals' after : List (ServicesOp F)) (s : Services F)
    (hrun : Lib.run step (init mode a cookieName) before = some s)
    (hperm : arrivals'.Perm arrivals) (hgrows : ∀ op ∈ arrivals, op.grows = true)
    : Option.Rel AnswersAlike (Lib.run step s (arrivals ++ after))
        (Lib.run step s (arrivals' ++ after)) := by
  rcases run_isSome (fun op hop => ServicesOp.removes_of_grows (hgrows op hop)) s with ⟨t, ht⟩
  rcases run_isSome (fun op hop =>
    ServicesOp.removes_of_grows (hgrows op (hperm.mem_iff.mp hop))) s with ⟨t', ht'⟩
  have hselectable : ∀ {ops : List (ServicesOp F)} {u : Services F},
      Lib.run step s ops = some u → u.AllSelectable mode := by
    intro ops u hu
    apply Lib.run_invariant _ (allSelectable_run hrun) hu
    intro s op s' _ hs hstep
    apply allSelectable_step hstep hs
  have hsame := Lib.run_rel (fun _ _ op h => SameUpToOrder.step h op) after
    (SameUpToOrder.of_perm ht ht' hperm hgrows)
  apply Lib.rel_imp (R := SameUpToOrder)
  . rw [Lib.run_append, Lib.run_append, ht, ht']
    exact hsame
  . intro u u' hu hu' hsame
    apply hsame.answersAlike (hselectable hu) (hselectable hu')

section Sample

open Sample

theorem answers_of_parts_sample
    : ∃ s routed : Services Rat,
        Lib.run step (init .random 0 []) [add "a" "/wms" 1 false,
          .signalBackendConnection (ByteString.lit "a") 8080] = some s
          ∧ Lib.run step (init .random 0 []) [add "a" "/wms" 1 false] = some routed
          ∧ ∀ service, s.getBackendList service = routed.getBackendList service := by
  rcases answers_of_parts .random 0 [] [add "a" "/wms" 1 false,
    .signalBackendConnection (ByteString.lit "a") 8080] _ rfl
    with ⟨routed, _, _, hrouted, _, _, _, _, hlist, _⟩
  exact ⟨_, routed, rfl, hrouted, hlist⟩

theorem answersAlike_of_perm_sample
    : Option.Rel AnswersAlike
        (Lib.run step (init .sticky 2 []) ([add "a" "/wms" 1 true, add "b" "/wms" 1 false]
          ++ [.latestSequence reactor 1]))
        (Lib.run step (init .sticky 2 []) ([add "b" "/wms" 1 false, add "a" "/wms" 1 true]
          ++ [.latestSequence reactor 1])) := by
  apply answersAlike_of_perm .sticky 2 [] [] _ _ _ _ rfl (List.Perm.swap _ _ [])
  intro op hop
  cases hop with
  | head => rfl
  | tail _ hop =>
    cases hop with
    | head => rfl
    | tail _ hop => contradiction

end Sample

end Services

end Sputnik
