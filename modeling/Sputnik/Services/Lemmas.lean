import Sputnik.Lib.Run
import Sputnik.Services.Impl

/-!
This module contains what one operation does to the routing table: to the entry of a key, to the
registered prefixes and to the info requests.
-/

namespace Sputnik

open Std

variable {F : Type}

namespace Services

def serviceList (s : Services F) (k : ByteString) : List (BackendService F) :=
  (s.itsServicesByURI[k]?.map fun entry => entry.1).getD []

theorem serviceList_of_getElem? {s : Services F} {k : ByteString} {entry : ServiceEntry F}
    (h : s.itsServicesByURI[k]? = some entry) : s.serviceList k = entry.1 := by
  simp [serviceList, h]

@[simp]
theorem serviceList_init (mode : ForwardingMode) (a : F) (cookieName k : ByteString)
    : (init mode a cookieName).serviceList k = [] := by
  simp [serviceList, init]

theorem mem_serviceList {s : Services F} {k : ByteString} {service : BackendService F}
    : service ∈ s.serviceList k
        ↔
      ∃ entry, s.itsServicesByURI[k]? = some entry ∧ service ∈ entry.1 := by
  unfold serviceList
  cases s.itsServicesByURI[k]? with
  | none => simp
  | some entry => simp

def LiveService (s : Services F) (service : BackendService F) : Prop :=
  ∃ k, service ∈ s.serviceList k

def infoRequests (s : Services F) (name : ByteString) : List (BackendInfoRequest F) :=
  (s.itsBackendInfoRequests[name]?).getD []

@[simp]
theorem infoRequests_init (mode : ForwardingMode) (a : F) (cookieName name : ByteString)
    : (init mode a cookieName).infoRequests name = [] := by
  simp [infoRequests, init]

theorem registered_foldl_removeBackend (m : URIPrefixMap) (theURI : ByteString)
    (l : List (BackendService F)) (p id : ByteString)
    : (l.foldl (fun m it => m.removeBackend theURI it) m).Registered p id
        ↔
      m.Registered p id ∧ ¬(p = theURI ∧ ∃ it ∈ l, id = backendServiceId it) := by
  induction l generalizing m with
  | nil => simp
  | cons it l ih =>
    rw [List.foldl_cons, ih, URIPrefixMap.registered_removeBackend]
    simp only [List.mem_cons, exists_eq_or_imp]
    grind

theorem registered_foldl_lists (m : URIPrefixMap) (theURI : ByteString)
    (l : List (ByteString × ServiceEntry F)) (p id : ByteString)
    : (l.foldl (fun m e => e.2.1.foldl (fun m it => m.removeBackend theURI it) m) m).Registered p id
        ↔
      m.Registered p id ∧ ¬(p = theURI ∧ ∃ e ∈ l, ∃ it ∈ e.2.1, id = backendServiceId it) := by
  induction l generalizing m with
  | nil => simp
  | cons e l ih =>
    rw [List.foldl_cons, ih, registered_foldl_removeBackend]
    simp only [List.mem_cons, exists_eq_or_imp]
    grind

end Services

variable [FloatArith F]

namespace ServicesOp

def stale : ServicesOp F → BackendService F → Bool
  | .removeBackend _ theHostname thePort theURI => Services.namedBy theHostname thePort theURI
  | .latestSequence _ itsSequenceNumber => Services.outdated itsSequenceNumber
  | _ => fun _ => false

def removes : ServicesOp F → Bool
  | .removeBackend .. => true
  | _ => false

def grows : ServicesOp F → Bool
  | .addService .. | .addBackendInfoRequest _ => true
  | _ => false

def server? : ServicesOp F → Option (BackendServer F)
  | .addService _ theBackendService _ _ _ => some theBackendService.itsBackendServer
  | _ => none

omit [FloatArith F] in
theorem stale_of_grows {op : ServicesOp F} (h : op.grows = true) (it : BackendService F)
    : op.stale it = false := by
  cases op with
  | addService => rfl
  | addBackendInfoRequest => rfl
  | _ => contradiction

end ServicesOp

namespace Services

theorem run_isSome {ops : List (ServicesOp F)} (hops : ∀ op ∈ ops, op.removes = false)
    (s : Services F) : ∃ s', Lib.run step s ops = some s' := by
  induction ops generalizing s with
  | nil => exact ⟨s, rfl⟩
  | cons op ops ih =>
    rw [List.forall_mem_cons] at hops
    obtain ⟨s₁, hstep⟩ : ∃ s₁, s.step op = some s₁ := by
      cases op with
      | removeBackend theReactor theHostname thePort theURI =>
        have := hops.1
        contradiction
      | _ => exact ⟨_, rfl⟩
    rcases ih hops.2 s₁ with ⟨s', hrun⟩
    rw [Lib.run_cons, hstep]
    exact ⟨s', hrun⟩

def newEntry (s : Services F) : ServiceEntry F := ([], s.newForwarder)

def addEntry (theReactor : Reactor) (service : BackendService F) (theLoad : F)
    (entry : ServiceEntry F) : ServiceEntry F :=
  (entry.1 ++ [service],
    entry.2.addBackend service.itsBackendServer.itsName service.itsBackendServer.itsPort theLoad
      theReactor)

def purgeEntry (theReactor : Reactor) (stale : BackendService F → Bool) (entry : ServiceEntry F)
    : ServiceEntry F :=
  (entry.1.filter fun it => !stale it,
    (entry.1.filter stale).foldl (fun fw it => retire theReactor it fw) entry.2)

def stepEntry (s : Services F) (k : ByteString) (entry : Option (ServiceEntry F))
    : ServicesOp F → Option (ServiceEntry F)
  | .addService theReactor service theFrontendURI theLoad _ =>
    if theFrontendURI = k then
      some (addEntry theReactor service theLoad (entry.getD s.newEntry))
    else
      entry
  | .removeBackend theReactor theHostname thePort theURI =>
    entry.map (purgeEntry theReactor (namedBy theHostname thePort theURI))
  | .latestSequence theReactor itsSequenceNumber =>
    entry.map (purgeEntry theReactor (outdated itsSequenceNumber))
  | _ => entry

theorem getElem?_addService (s : Services F) (theReactor : Reactor) (service : BackendService F)
    (theFrontendURI : ByteString) (theLoad : F) (theThrottle : UInt32) (k : ByteString)
    : (s.addService theReactor service theFrontendURI theLoad theThrottle).itsServicesByURI[k]?
        =
      s.stepEntry k s.itsServicesByURI[k]?
        (.addService theReactor service theFrontendURI theLoad theThrottle) := by
  unfold addService stepEntry
  dsimp
  split
  . next list fw hentry =>
    rw [Lib.getElem?_insert_eq]
    split
    . next heq => simp [← heq, hentry, addEntry]
    . rfl
  . next hentry =>
    rw [Lib.getElem?_insert_eq]
    split
    . next heq => simp [← heq, hentry, addEntry, newEntry]
    . rfl

theorem getElem?_latestSequence (s : Services F) (theReactor : Reactor) (itsSequenceNumber : Int)
    (k : ByteString)
    : (s.latestSequence theReactor itsSequenceNumber).itsServicesByURI[k]?
        =
      s.itsServicesByURI[k]?.map (purgeEntry theReactor (outdated itsSequenceNumber)) := by
  unfold latestSequence
  dsimp
  rw [TreeMap.getElem?_map]
  congr
  funext entry
  apply Prod.ext
  . apply Lib.eraseLoop_fst
  . rw [Lib.eraseLoop_snd, purgeEntry, List.foldl_filter]

theorem removeFromList_eq (theReactor : Reactor) (theHostname : ByteString) (thePort : Int)
    (theURI : ByteString) (entry : ServiceEntry F) (m : URIPrefixMap)
    : removeFromList theReactor theHostname thePort theURI entry.1 m entry.2
        =
      ((purgeEntry theReactor (namedBy theHostname thePort theURI) entry).1,
        entry.1.foldl (fun m it => m.removeBackend theURI it) m,
        (purgeEntry theReactor (namedBy theHostname thePort theURI) entry).2) := by
  apply Prod.ext
  . apply Lib.eraseLoop_fst
  . apply Lib.eraseLoop_pair (fun (it : BackendService F) (m : URIPrefixMap) =>
      m.removeBackend theURI it)

-- A removal touches nothing but the lists and the prefixes.
theorem removeBackend_eq_some {s s' : Services F} {theReactor : Reactor}
    {theHostname : ByteString} {thePort : Int} {theURI : ByteString}
    (h : s.removeBackend theReactor theHostname thePort theURI = some s')
    : ∃ itsServicesByURI itsPrefixMap, s' = { s with itsServicesByURI, itsPrefixMap } := by
  unfold removeBackend at h
  dsimp at h
  split at h
  . exact ⟨_, _, (Option.some.inj h).symm⟩
  . contradiction

theorem getElem?_removeBackend {s s' : Services F} {theReactor : Reactor}
    {theHostname : ByteString} {thePort : Int} {theURI : ByteString}
    (h : s.removeBackend theReactor theHostname thePort theURI = some s') (k : ByteString)
    : s'.itsServicesByURI[k]?
        =
      s.itsServicesByURI[k]?.map (purgeEntry theReactor (namedBy theHostname thePort theURI)) := by
  unfold removeBackend at h
  dsimp at h
  split at h
  . rw [← Option.some.inj h]
    dsimp
    rw [Lib.getElem?_forEntries (g := fun _ => purgeEntry theReactor
      (namedBy theHostname thePort theURI))]
    intro _ entry m
    rw [removeFromList_eq]
  . contradiction

theorem getElem?_step {s s' : Services F} {op : ServicesOp F} (h : s.step op = some s')
    (k : ByteString) : s'.itsServicesByURI[k]? = s.stepEntry k s.itsServicesByURI[k]? op := by
  cases op with
  | addService theReactor service theFrontendURI theLoad theThrottle =>
    rw [← Option.some.inj h]
    apply getElem?_addService
  | removeBackend theReactor theHostname thePort theURI =>
    apply getElem?_removeBackend h
  | latestSequence theReactor itsSequenceNumber =>
    rw [← Option.some.inj h]
    apply getElem?_latestSequence
  | addBackendInfoRequest theRequest => rw [← Option.some.inj h]; rfl
  | setBackendAlive theHostName thePort => rw [← Option.some.inj h]; rfl
  | signalBackendConnection theHostName thePort => rw [← Option.some.inj h]; rfl

theorem newForwarder_step {s s' : Services F} {op : ServicesOp F} (h : s.step op = some s')
    : s'.newForwarder = s.newForwarder := by
  cases op with
  | removeBackend theReactor theHostname thePort theURI =>
    rcases removeBackend_eq_some h with ⟨_, _, rfl⟩
    rfl
  | _ =>
    rw [← Option.some.inj h]
    rfl

theorem entries_step {P : ServiceEntry F → Prop} {s s' : Services F} {op : ServicesOp F}
    (h : s.step op = some s')
    (hs : ∀ (k : ByteString) entry, s.itsServicesByURI[k]? = some entry → P entry)
    (hadd : ∀ theReactor service theFrontendURI theLoad theThrottle entry,
      op = .addService theReactor service theFrontendURI theLoad theThrottle →
        entry = s.newEntry ∨ P entry → P (addEntry theReactor service theLoad entry))
    (hpurge : ∀ theReactor (k : ByteString) entry, s.itsServicesByURI[k]? = some entry → P entry →
      P (purgeEntry theReactor op.stale entry))
    : ∀ (k : ByteString) entry, s'.itsServicesByURI[k]? = some entry → P entry := by
  intro k entry' hentry'
  rw [getElem?_step h] at hentry'
  cases op with
  | addService theReactor service theFrontendURI theLoad theThrottle =>
    simp only [stepEntry] at hentry'
    split at hentry'
    . rw [← Option.some.inj hentry']
      apply hadd _ _ _ _ _ _ rfl
      cases hentry : s.itsServicesByURI[k]? with
      | none => simp
      | some entry =>
        right
        apply hs k entry hentry
    . apply hs k entry' hentry'
  | removeBackend theReactor theHostname thePort theURI =>
    rcases Option.map_eq_some_iff.mp hentry' with ⟨entry, hentry, rfl⟩
    apply hpurge theReactor k entry hentry (hs k entry hentry)
  | latestSequence theReactor itsSequenceNumber =>
    rcases Option.map_eq_some_iff.mp hentry' with ⟨entry, hentry, rfl⟩
    apply hpurge theReactor k entry hentry (hs k entry hentry)
  | addBackendInfoRequest theRequest => apply hs k entry' hentry'
  | setBackendAlive theHostName thePort => apply hs k entry' hentry'
  | signalBackendConnection theHostName thePort => apply hs k entry' hentry'

/-! The service lists -/

def stepList (k : ByteString) (list : List (BackendService F)) (op : ServicesOp F)
    : List (BackendService F) :=
  match op with
  | .addService _ service theFrontendURI _ _ =>
    if theFrontendURI = k then list ++ [service] else list
  | _ => list.filter fun it => !op.stale it

theorem serviceList_step {s s' : Services F} {op : ServicesOp F} (h : s.step op = some s')
    (k : ByteString) : s'.serviceList k = stepList k (s.serviceList k) op := by
  unfold serviceList
  rw [getElem?_step h]
  cases op with
  | addService theReactor service theFrontendURI theLoad theThrottle =>
    simp only [stepEntry, stepList]
    split
    . cases s.itsServicesByURI[k]? with
      | none => rfl
      | some entry => rfl
    . rfl
  | removeBackend theReactor theHostname thePort theURI =>
    cases s.itsServicesByURI[k]? with
    | none => rfl
    | some entry => rfl
  | latestSequence theReactor itsSequenceNumber =>
    cases s.itsServicesByURI[k]? with
    | none => rfl
    | some entry => rfl
  | _ =>
    have : (fun (_ : BackendService F) => !false) = fun _ => true := rfl
    simp [stepEntry, stepList, ServicesOp.stale]

theorem mem_serviceList_removeBackend {s s' : Services F} {theReactor : Reactor}
    {theHostname : ByteString} {thePort : Int} {theURI : ByteString}
    (h : s.step (.removeBackend theReactor theHostname thePort theURI) = some s') {k : ByteString}
    {service : BackendService F}
    : service ∈ s'.serviceList k
        ↔
      service ∈ s.serviceList k ∧ namedBy theHostname thePort theURI service = false := by
  rw [serviceList_step h]
  simp [stepList, ServicesOp.stale]

theorem mem_serviceList_latestSequence {s s' : Services F} {theReactor : Reactor} {n : Int}
    (h : s.step (.latestSequence theReactor n) = some s') {k : ByteString}
    {service : BackendService F}
    : service ∈ s'.serviceList k ↔ service ∈ s.serviceList k ∧ service.itsSequenceNumber = n := by
  rw [serviceList_step h]
  simp [stepList, ServicesOp.stale, outdated]

theorem mem_serviceList_addService {s s' : Services F} {theReactor : Reactor}
    {new : BackendService F} {theFrontendURI : ByteString} {theLoad : F} {theThrottle : UInt32}
    (h : s.step (.addService theReactor new theFrontendURI theLoad theThrottle) = some s')
    {k : ByteString} {service : BackendService F}
    : service ∈ s'.serviceList k
        ↔
      service ∈ s.serviceList k ∨ (theFrontendURI = k ∧ service = new) := by
  rw [serviceList_step h]
  simp only [stepList]
  split
  . next heq => simp [heq]
  . next hne => simp [hne]

theorem serviceList_run {s s' : Services F} {ops : List (ServicesOp F)}
    (h : Lib.run step s ops = some s') (k : ByteString)
    : s'.serviceList k = ops.foldl (stepList k) (s.serviceList k) := by
  apply Lib.run_foldl _ h
  intro s op s' hstep
  apply serviceList_step hstep

omit [FloatArith F] in
theorem mem_foldl_stepList {k : ByteString} {ops : List (ServicesOp F)}
    {list : List (BackendService F)} {service : BackendService F}
    (hops : ∀ op ∈ ops, op.stale service = false) (hmem : service ∈ list)
    : service ∈ ops.foldl (stepList k) list := by
  induction ops generalizing list with
  | nil => assumption
  | cons op ops ih =>
    rw [List.forall_mem_cons] at hops
    rw [List.foldl_cons]
    apply ih hops.2
    unfold stepList
    split
    . split
      . apply List.mem_append_left
        assumption
      . assumption
    . simpa [hops.1] using hmem

omit [FloatArith F] in
theorem mem_foldl_stepList_of_add {theReactor : Reactor} {k : ByteString} {theLoad : F}
    {theThrottle : UInt32} {ops : List (ServicesOp F)} {list : List (BackendService F)}
    {service : BackendService F} (hops : ∀ op ∈ ops, op.stale service = false)
    (hadd : .addService theReactor service k theLoad theThrottle ∈ ops)
    : service ∈ ops.foldl (stepList k) list := by
  induction ops generalizing list with
  | nil => contradiction
  | cons op ops ih =>
    rw [List.forall_mem_cons] at hops
    rw [List.foldl_cons]
    cases List.mem_cons.mp hadd with
    | inl hop =>
      apply mem_foldl_stepList hops.2
      simp [← hop, stepList]
    | inr hadd => apply ih hops.2 hadd

omit [FloatArith F] in
theorem mem_of_mem_foldl_stepList {k : ByteString} {ops : List (ServicesOp F)}
    {list : List (BackendService F)} {service : BackendService F}
    (hmem : service ∈ ops.foldl (stepList k) list)
    : service ∈ list
        ∨ ∃ theReactor theLoad theThrottle,
          .addService theReactor service k theLoad theThrottle ∈ ops := by
  induction ops generalizing list with
  | nil => exact .inl hmem
  | cons op ops ih =>
    rw [List.foldl_cons] at hmem
    cases ih hmem with
    | inl hmem =>
      cases op with
      | addService theReactor new theFrontendURI theLoad theThrottle =>
        simp only [stepList] at hmem
        split at hmem
        . next hk =>
          cases List.mem_append.mp hmem with
          | inl hold => exact .inl hold
          | inr hnew =>
            right
            refine ⟨theReactor, theLoad, theThrottle, ?_⟩
            rw [List.mem_singleton.mp hnew, hk]
            apply List.mem_cons_self
        . exact .inl hmem
      | _ => exact .inl (List.mem_of_mem_filter hmem)
    | inr hadd =>
      rcases hadd with ⟨theReactor, theLoad, theThrottle, hadd⟩
      exact .inr ⟨theReactor, theLoad, theThrottle, List.mem_cons_of_mem op hadd⟩

def appended (k : ByteString) : ServicesOp F → List (BackendService F)
  | .addService _ service theFrontendURI _ _ => if theFrontendURI = k then [service] else []
  | _ => []

omit [FloatArith F] in
theorem mem_appended {k : ByteString} {op : ServicesOp F} {service : BackendService F}
    (h : service ∈ appended k op)
    : ∃ theReactor theLoad theThrottle,
        op = .addService theReactor service k theLoad theThrottle := by
  unfold appended at h
  split at h
  . next theReactor new theFrontendURI theLoad theThrottle =>
    split at h
    . next hk =>
      rw [List.mem_singleton.mp h, hk]
      exact ⟨theReactor, theLoad, theThrottle, rfl⟩
    . contradiction
  . contradiction

theorem serviceList_run_append {s s' : Services F} {ops : List (ServicesOp F)}
    (h : Lib.run step s ops = some s') (hops : ∀ op ∈ ops, ∀ it, op.stale it = false)
    (k : ByteString) : s'.serviceList k = s.serviceList k ++ ops.flatMap (appended k) := by
  apply Lib.run_flatMap _ h
  intro s op s' hop hstep
  rw [serviceList_step hstep]
  unfold stepList appended
  split
  . split
    . rfl
    . simp
  . simp [hops op hop]

theorem getElem?_run_of_appended_nil {s s' : Services F} {ops : List (ServicesOp F)}
    {k : ByteString} (h : Lib.run step s ops = some s') (hops : ∀ op ∈ ops, op.grows = true)
    (hk : ops.flatMap (appended k) = []) : s'.itsServicesByURI[k]? = s.itsServicesByURI[k]? := by
  apply Lib.run_invariant (P := fun t => t.itsServicesByURI[k]? = s.itsServicesByURI[k]?) _ rfl h
  intro t op t' hop ht hstep
  have hgrows := hops op hop
  have hnone := List.flatMap_eq_nil_iff.mp hk op hop
  rw [getElem?_step hstep, ht]
  cases op with
  | addService theReactor service theFrontendURI theLoad theThrottle =>
    simp only [appended] at hnone
    split at hnone
    . contradiction
    . next hne => simp [stepEntry, hne]
  | addBackendInfoRequest theRequest => rfl
  | _ => contradiction

/-! The info requests -/

def stepInfoRequests (name : ByteString) (requestList : List (BackendInfoRequest F))
    : ServicesOp F → List (BackendInfoRequest F)
  | .addBackendInfoRequest theRequest =>
    if theRequest.itsName = name then requestList ++ [theRequest] else requestList
  | .latestSequence _ itsSequenceNumber =>
    requestList.filter fun it => it.itsSequenceNumber = itsSequenceNumber
  | _ => requestList

theorem infoRequests_step {s s' : Services F} {op : ServicesOp F} (h : s.step op = some s')
    (name : ByteString)
    : s'.infoRequests name = stepInfoRequests name (s.infoRequests name) op := by
  cases op with
  | addBackendInfoRequest theRequest =>
    rw [← Option.some.inj h]
    simp only [infoRequests, addBackendInfoRequest, stepInfoRequests, Lib.getElem?_insert_eq]
    split
    . next heq => simp [heq]
    . rfl
  | latestSequence theReactor itsSequenceNumber =>
    rw [← Option.some.inj h]
    simp only [infoRequests, latestSequence, stepInfoRequests, TreeMap.getElem?_map]
    cases s.itsBackendInfoRequests[name]? with
    | none => rfl
    | some requestList => rfl
  | removeBackend theReactor theHostname thePort theURI =>
    rcases removeBackend_eq_some h with ⟨_, _, rfl⟩
    rfl
  | _ =>
    rw [← Option.some.inj h]
    rfl

theorem infoRequests_run {s s' : Services F} {ops : List (ServicesOp F)}
    (h : Lib.run step s ops = some s') (name : ByteString)
    : s'.infoRequests name = ops.foldl (stepInfoRequests name) (s.infoRequests name) := by
  apply Lib.run_foldl _ h
  intro s op s' hstep
  apply infoRequests_step hstep

def appendedInfo (name : ByteString) : ServicesOp F → List (BackendInfoRequest F)
  | .addBackendInfoRequest theRequest => if theRequest.itsName = name then [theRequest] else []
  | _ => []

theorem infoRequests_run_append {s s' : Services F} {ops : List (ServicesOp F)}
    (h : Lib.run step s ops = some s') (hops : ∀ op ∈ ops, op.grows = true) (name : ByteString)
    : s'.infoRequests name = s.infoRequests name ++ ops.flatMap (appendedInfo name) := by
  apply Lib.run_flatMap _ h
  intro s op s' hop hstep
  have hgrows := hops op hop
  rw [infoRequests_step hstep]
  cases op with
  | addService theReactor service theFrontendURI theLoad theThrottle =>
    simp [stepInfoRequests, appendedInfo]
  | addBackendInfoRequest theRequest =>
    simp only [stepInfoRequests, appendedInfo]
    split
    . rfl
    . simp
  | _ => contradiction

theorem itsBackendInfoRequests_run_of_appendedInfo_nil {s s' : Services F}
    {ops : List (ServicesOp F)} {name : ByteString} (h : Lib.run step s ops = some s')
    (hops : ∀ op ∈ ops, op.grows = true) (hname : ops.flatMap (appendedInfo name) = [])
    : s'.itsBackendInfoRequests[name]? = s.itsBackendInfoRequests[name]? := by
  apply Lib.run_invariant (P := fun t =>
    t.itsBackendInfoRequests[name]? = s.itsBackendInfoRequests[name]?) _ rfl h
  intro t op t' hop ht hstep
  have hgrows := hops op hop
  have hnone := List.flatMap_eq_nil_iff.mp hname op hop
  rw [← ht]
  cases op with
  | addService theReactor service theFrontendURI theLoad theThrottle =>
    rw [← Option.some.inj hstep]
    rfl
  | addBackendInfoRequest theRequest =>
    rw [← Option.some.inj hstep]
    simp only [appendedInfo] at hnone
    split at hnone
    . contradiction
    . next hne => simp only [addBackendInfoRequest, Lib.getElem?_insert_eq, if_neg hne]
  | _ => contradiction

/-! The sentinels -/

theorem itsSentinels_addService (s : Services F) (theReactor : Reactor)
    (service : BackendService F) (theFrontendURI : ByteString) (theLoad : F) (theThrottle : UInt32)
    (k : ByteString)
    : (s.addService theReactor service theFrontendURI theLoad theThrottle).itsSentinels[k]?
        =
      if sentinelName service.itsBackendServer.itsName service.itsBackendServer.itsPort = k then
        some { itsThrottle := theThrottle }
      else
        s.itsSentinels[k]? := by
  simp only [addService, Lib.getElem?_insert_eq, Lib.getElem?_erase_eq]
  split
  . rfl
  . rfl

theorem itsSentinels_run_of_ne {s s' : Services F} {ops : List (ServicesOp F)}
    {theHostName k : ByteString} {thePort : Int} (h : Lib.run step s ops = some s')
    (hops : ∀ op ∈ ops, op.grows = true ∧ ∀ server, op.server? = some server →
      server.nameAndPort = (theHostName, thePort))
    (hk : k ≠ sentinelName theHostName thePort) : s'.itsSentinels[k]? = s.itsSentinels[k]? := by
  apply Lib.run_invariant (P := fun t => t.itsSentinels[k]? = s.itsSentinels[k]?) _ rfl h
  intro t op t' hop ht hstep
  rw [← ht]
  rcases hops op hop with ⟨hgrows, hserver⟩
  cases op with
  | addService theReactor service theFrontendURI theLoad theThrottle =>
    have hname := hserver service.itsBackendServer rfl
    simp only [BackendServer.nameAndPort, Prod.mk.injEq] at hname
    rw [← Option.some.inj hstep, itsSentinels_addService, hname.1, hname.2, if_neg (Ne.symm hk)]
  | addBackendInfoRequest theRequest =>
    rw [← Option.some.inj hstep]
    rfl
  | _ => contradiction

/-! The prefix map -/

def StepRegistered (s : Services F) (p id : ByteString) : ServicesOp F → Prop
  | .addService _ service theFrontendURI _ _ =>
    s.itsPrefixMap.Registered p id
      ∨ (service.definesPrefix = true ∧ p = theFrontendURI ∧ id = backendServiceId service)
  | .removeBackend _ _ _ theURI =>
    s.itsPrefixMap.Registered p id
      ∧ ¬(p = theURI ∧ ∃ it, s.LiveService it ∧ id = backendServiceId it)
  | _ => s.itsPrefixMap.Registered p id

theorem registered_step {s s' : Services F} {op : ServicesOp F} (h : s.step op = some s')
    (p id : ByteString) : s'.itsPrefixMap.Registered p id ↔ s.StepRegistered p id op := by
  cases op with
  | addService theReactor service theFrontendURI theLoad theThrottle =>
    rw [← Option.some.inj h]
    simp only [addService, StepRegistered]
    split
    . next hdefines => simp [hdefines, URIPrefixMap.registered_addPrefix]
    . next hdefines => simp [hdefines]
  | removeBackend theReactor theHostname thePort theURI =>
    simp only [step, removeBackend] at h
    split at h
    . rw [← Option.some.inj h]
      simp only [Lib.forEntries_snd, removeFromList_eq, registered_foldl_lists, StepRegistered,
        LiveService, mem_serviceList, Prod.exists, TreeMap.mem_toList_iff_getElem?_eq_some]
      grind
    . contradiction
  | _ =>
    rw [← Option.some.inj h]
    rfl

theorem registered_of_run {s s' : Services F} {ops : List (ServicesOp F)}
    (hrun : Lib.run step s ops = some s')
    (hops : ∀ op ∈ ops, ∀ k, ∀ service ∈ appended k op, service.definesPrefix = false)
    {p id : ByteString} (h : s'.itsPrefixMap.Registered p id) : s.itsPrefixMap.Registered p id := by
  induction ops generalizing s with
  | nil => rwa [Option.some.inj hrun]
  | cons op ops ih =>
    rcases Lib.run_cons_eq_some.mp hrun with ⟨s₁, hstep, hrest⟩
    rw [List.forall_mem_cons] at hops
    have hreg := (registered_step hstep p id).mp (ih hrest hops.2)
    cases op with
    | addService theReactor service theFrontendURI theLoad theThrottle =>
      cases hreg with
      | inl hold => assumption
      | inr hnew =>
        have hdefines := hops.1 theFrontendURI service (by simp [appended])
        rw [hnew.1] at hdefines
        contradiction
    | removeBackend theReactor theHostname thePort theURI => apply hreg.1
    | _ => assumption

def Registers (p id : ByteString) : ServicesOp F → Prop
  | .addService _ service theFrontendURI _ _ =>
    service.definesPrefix = true ∧ p = theFrontendURI ∧ id = backendServiceId service
  | _ => False

theorem registered_run {s s' : Services F} {ops : List (ServicesOp F)}
    (h : Lib.run step s ops = some s') (hops : ∀ op ∈ ops, op.grows = true) (p id : ByteString)
    : s'.itsPrefixMap.Registered p id
        ↔
      s.itsPrefixMap.Registered p id ∨ ∃ op ∈ ops, Registers p id op := by
  induction ops generalizing s with
  | nil =>
    rw [Option.some.inj h]
    simp
  | cons op ops ih =>
    rcases Lib.run_cons_eq_some.mp h with ⟨s₁, hstep, hrest⟩
    rw [List.forall_mem_cons] at hops
    rw [ih hrest hops.2, registered_step hstep]
    simp only [List.mem_cons, exists_eq_or_imp, ← or_assoc]
    cases op with
    | addService theReactor service theFrontendURI theLoad theThrottle => rfl
    | addBackendInfoRequest theRequest => simp [StepRegistered, Registers]
    | _ =>
      have := hops.1
      contradiction

end Services

end Sputnik
