import Sputnik.Services.Alignment

/-!
This module contains why `getService` always finds the service of the index it draws: the list of a
key and the backend list of its forwarder hold the same backends equally often in every reachable
state.
-/

namespace Sputnik

variable {F : Type}

namespace Services

def SameBackends (entry : ServiceEntry F) : Prop :=
  (entry.1.map BackendService.nameAndPort).Perm
    (entry.2.itsBackendInfos.map BackendInfo.nameAndPort)

theorem SameBackends.length_eq {entry : ServiceEntry F} (h : SameBackends entry)
    : entry.1.length = entry.2.itsBackendInfos.length := by
  have := List.Perm.length_eq h
  simpa using this

end Services

variable [FloatArith F]

namespace Services

structure Selectable (mode : ForwardingMode) (entry : ServiceEntry F) : Prop where
  sameBackends : SameBackends entry
  weighted : entry.2.Weighted
  forwarder : entry.2.mode = mode

def AllSelectable (mode : ForwardingMode) (s : Services F) : Prop :=
  s.newForwarder.mode = mode
    ∧ ∀ (k : ByteString) entry, s.itsServicesByURI[k]? = some entry → Selectable mode entry

theorem sameBackends_addEntry (theReactor : Reactor) (service : BackendService F) (theLoad : F)
    {entry : ServiceEntry F} (h : SameBackends entry)
    : SameBackends (addEntry theReactor service theLoad entry) := by
  unfold SameBackends at h ⊢
  simp only [addEntry, BackendForwarder.itsBackendInfos_addBackend, List.map_append]
  apply List.Perm.append h
  apply List.Perm.refl

theorem sameBackends_purgeEntry (theReactor : Reactor) (stale : BackendService F → Bool)
    {entry : ServiceEntry F} (h : SameBackends entry)
    : SameBackends (purgeEntry theReactor stale entry) := by
  unfold SameBackends at h ⊢
  simp only [purgeEntry, itsBackendInfos_foldl_retire]
  apply Lib.perm_map_eraseKeys stale h

theorem weighted_foldl_retire (theReactor : Reactor) (l : List (BackendService F))
    (fw : BackendForwarder F) (h : fw.Weighted)
    : (l.foldl (fun fw it => retire theReactor it fw) fw).Weighted := by
  induction l generalizing fw with
  | nil => assumption
  | cons it l ih =>
    apply ih
    apply BackendForwarder.weighted_removeBackend

theorem mode_foldl_retire (theReactor : Reactor) (l : List (BackendService F))
    (fw : BackendForwarder F)
    : (l.foldl (fun fw it => retire theReactor it fw) fw).mode = fw.mode := by
  induction l generalizing fw with
  | nil => rfl
  | cons it l ih =>
    rw [List.foldl_cons, ih]
    apply BackendForwarder.mode_removeBackend

theorem sameBackends_newEntry (s : Services F) : SameBackends s.newEntry := by
  apply List.Perm.refl

theorem selectable_addEntry {mode : ForwardingMode} (theReactor : Reactor)
    (service : BackendService F) (theLoad : F) {entry : ServiceEntry F}
    (hsame : SameBackends entry) (hmode : entry.2.mode = mode)
    : Selectable mode (addEntry theReactor service theLoad entry) where
  sameBackends := sameBackends_addEntry theReactor service theLoad hsame
  weighted := by
    apply BackendForwarder.weighted_addBackend
  forwarder := by
    rw [← hmode]
    apply BackendForwarder.mode_addBackend

theorem selectable_purgeEntry {mode : ForwardingMode} (theReactor : Reactor)
    (stale : BackendService F → Bool) {entry : ServiceEntry F} (h : Selectable mode entry)
    : Selectable mode (purgeEntry theReactor stale entry) where
  sameBackends := sameBackends_purgeEntry theReactor stale h.sameBackends
  weighted := by
    apply weighted_foldl_retire
    apply h.weighted
  forwarder := by
    rw [← h.forwarder]
    apply mode_foldl_retire

theorem allSelectable_init (mode : ForwardingMode) (a : F) (cookieName : ByteString)
    : AllSelectable mode (init mode a cookieName) := by
  constructor
  . rfl
  . simp [init]

theorem allSelectable_step {mode : ForwardingMode} {s s' : Services F} {op : ServicesOp F}
    (h : s.step op = some s') (hs : s.AllSelectable mode) : s'.AllSelectable mode := by
  rcases hs with ⟨hnew, hentries⟩
  constructor
  . rw [newForwarder_step h]
    assumption
  . apply entries_step h hentries
    . intro theReactor service theFrontendURI theLoad theThrottle entry _ hentry
      cases hentry with
      | inl hfresh =>
        rw [hfresh]
        apply selectable_addEntry theReactor service theLoad (sameBackends_newEntry s) hnew
      | inr hold =>
        apply selectable_addEntry theReactor service theLoad hold.sameBackends hold.forwarder
    . intro theReactor k entry _ hold
      apply selectable_purgeEntry theReactor op.stale hold

theorem allSelectable_run {mode : ForwardingMode} {a : F} {cookieName : ByteString}
    {ops : List (ServicesOp F)} {s : Services F}
    (hrun : Lib.run step (init mode a cookieName) ops = some s) : s.AllSelectable mode := by
  apply Lib.run_invariant _ (allSelectable_init mode a cookieName) hrun
  intro s op s' _ hs hstep
  apply allSelectable_step hstep hs

def resolvedList (s : Services F) (theRequest : Request) : List (BackendService F) :=
  s.serviceList (s.itsPrefixMap.translate theRequest.getResource)

theorem getService_eq_none {s : Services F} (theReactor : Reactor) {theRequest : Request}
    (itsGenerator : Generator F) (hempty : s.resolvedList theRequest = [])
    : s.getService theReactor theRequest itsGenerator = .ok none := by
  unfold resolvedList serviceList at hempty
  unfold getService
  dsimp
  split
  . rfl
  . next list fw hentry =>
    simp only [hentry, Option.map_some, Option.getD_some] at hempty
    simp [hempty]

theorem mem_resolvedList_of_getService {s : Services F} {theReactor : Reactor}
    {theRequest : Request} {itsGenerator : Generator F} {service : BackendService F}
    (h : s.getService theReactor theRequest itsGenerator = .ok (some service))
    : service ∈ s.resolvedList theRequest := by
  unfold getService at h
  dsimp at h
  split at h
  . injection h with h
    contradiction
  . next list fw hentry =>
    split at h
    . injection h with h
      contradiction
    . split at h
      . contradiction
      . split at h
        . next found hfound =>
          injection h with h
          injection h with h
          unfold resolvedList
          rw [serviceList_of_getElem? hentry, ← h]
          apply List.mem_of_getElem? hfound
        . contradiction

theorem getService_of_getElem? {s : Services F} {theReactor : Reactor} {theRequest : Request}
    {itsGenerator : Generator F} {entry : ServiceEntry F} {i : Nat} {service : BackendService F}
    (hentry : s.itsServicesByURI[s.itsPrefixMap.translate theRequest.getResource]? = some entry)
    (hi : entry.2.getBackend theReactor theRequest itsGenerator = .ok i)
    (hservice : entry.1[i]? = some service)
    : s.getService theReactor theRequest itsGenerator = .ok (some service) := by
  have hne : entry.1 ≠ [] := by
    apply List.ne_nil_of_mem
    apply List.mem_of_getElem? hservice
  unfold getService
  simp [hentry, hi, hservice, hne]

theorem getService_eq_some {s : Services F} (theReactor : Reactor) {theRequest : Request}
    (itsGenerator : Generator F) (hselectable : ∀ (k : ByteString) entry,
      s.itsServicesByURI[k]? = some entry → SameBackends entry ∧ entry.2.Weighted)
    (hne : s.resolvedList theRequest ≠ [])
    : ∃ entry i service,
        s.itsServicesByURI[s.itsPrefixMap.translate theRequest.getResource]? = some entry
          ∧ entry.2.getBackend theReactor theRequest itsGenerator = .ok i
          ∧ entry.1[i]? = some service
          ∧ s.getService theReactor theRequest itsGenerator = .ok (some service) := by
  unfold resolvedList serviceList at hne
  cases hentry : s.itsServicesByURI[s.itsPrefixMap.translate theRequest.getResource]? with
  | none => simp [hentry] at hne
  | some entry =>
    simp only [hentry, Option.map_some, Option.getD_some, ne_eq] at hne
    rcases hselectable _ entry hentry with ⟨hsame, hweighted⟩
    have hlength := hsame.length_eq
    have hinfos : entry.2.itsBackendInfos ≠ [] := by
      intro hnil
      rw [hnil] at hlength
      apply hne (List.length_eq_zero_iff.mp hlength)
    rcases BackendForwarder.getBackend_lt theReactor theRequest itsGenerator
      hweighted hinfos with ⟨i, hi, hlt⟩
    rw [← hlength] at hlt
    have hservice := List.getElem?_eq_getElem hlt
    exact ⟨entry, i, entry.1[i], rfl, hi, hservice, getService_of_getElem? hentry hi hservice⟩

/--
In every reachable state the lists and the forwarders hold the same backends, with one weight for
each of them, and `getService` returns null for an empty list and else one of its elements.
-/
theorem getService_of_run (mode : ForwardingMode) (a : F) (cookieName : ByteString)
    (ops : List (ServicesOp F)) (s : Services F)
    (hrun : Lib.run step (init mode a cookieName) ops = some s)
    : (∀ (k : ByteString) entry, s.itsServicesByURI[k]? = some entry → Selectable mode entry)
        ∧ ∀ (theReactor : Reactor) (theRequest : Request) (itsGenerator : Generator F),
          (s.resolvedList theRequest = []
              ∧ s.getService theReactor theRequest itsGenerator = .ok none)
            ∨ ∃ service ∈ s.resolvedList theRequest,
              s.getService theReactor theRequest itsGenerator = .ok (some service) := by
  rcases allSelectable_run hrun with ⟨_, hentries⟩
  refine ⟨hentries, ?_⟩
  intro theReactor theRequest itsGenerator
  by_cases hempty : s.resolvedList theRequest = []
  . left
    exact ⟨hempty, getService_eq_none theReactor itsGenerator hempty⟩
  . right
    have hselectable : ∀ (k : ByteString) entry, s.itsServicesByURI[k]? = some entry →
        SameBackends entry ∧ entry.2.Weighted := by
      intro k entry hentry
      exact ⟨(hentries k entry hentry).sameBackends, (hentries k entry hentry).weighted⟩
    rcases getService_eq_some theReactor itsGenerator hselectable hempty
      with ⟨entry, i, service, hentry, _, hservice, hget⟩
    refine ⟨service, ?_, hget⟩
    unfold resolvedList
    rw [serviceList_of_getElem? hentry]
    apply List.mem_of_getElem? hservice

section Sample

open Sample

theorem getService_of_run_sample
    : ∃ s, Lib.run step (init .leastConnections 0 [])
        [add "a" "/wms" 1 false, add "b" "/wms" 1 false, add "a" "/wms" 2 false,
          .latestSequence reactor 2] = some s
        ∧ ∀ (k : ByteString) entry, s.itsServicesByURI[k]? = some entry →
          Selectable .leastConnections entry := by
  refine ⟨_, rfl, ?_⟩
  rcases getService_of_run .leastConnections 0 []
    [add "a" "/wms" 1 false, add "b" "/wms" 1 false, add "a" "/wms" 2 false,
      .latestSequence reactor 2] _ rfl with ⟨hentries, _⟩
  assumption

end Sample

end Services

end Sputnik
