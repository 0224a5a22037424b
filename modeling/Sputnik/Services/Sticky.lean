import Mathlib.Data.Set.Function
import Sputnik.Services.Selection

/-!
This module contains why the sticky forwarder keeps a client on its backend: two tables that list
the same set of backends at a key, in any order and with any repetitions, send it to the same one.
-/

namespace Sputnik

variable {F : Type} [FloatArith F]

namespace Services

structure StickyTable (a : F) (cookieName : ByteString) (s : Services F) : Prop where
  selectable : s.AllSelectable .sticky
  aligned : s.Aligned
  newForwarder : s.newForwarder.settings = (.sticky, a, cookieName)
  settings : ∀ (k : ByteString) entry, s.itsServicesByURI[k]? = some entry →
    entry.2.settings = (.sticky, a, cookieName)

theorem settings_foldl_retire (theReactor : Reactor) (l : List (BackendService F))
    (fw : BackendForwarder F)
    : (l.foldl (fun fw it => retire theReactor it fw) fw).settings = fw.settings := by
  induction l generalizing fw with
  | nil => rfl
  | cons it l ih =>
    rw [List.foldl_cons, ih]
    apply BackendForwarder.settings_removeBackend

theorem stickyTable_init (a : F) (cookieName : ByteString)
    : StickyTable a cookieName (init .sticky a cookieName) where
  selectable := allSelectable_init .sticky a cookieName
  aligned := aligned_init .sticky a cookieName
  newForwarder := rfl
  settings := by simp [init]

theorem stickyTable_step {a : F} {cookieName : ByteString} {s s' : Services F} {op : ServicesOp F}
    (h : s.step op = some s') (hload : op.AnnouncesLoad) (horder : s.RetiresInOrder op)
    (hs : StickyTable a cookieName s) : StickyTable a cookieName s' where
  selectable := allSelectable_step h hs.selectable
  aligned := aligned_step h hload horder hs.aligned
  newForwarder := by
    rw [newForwarder_step h]
    exact hs.newForwarder
  settings := by
    apply entries_step h hs.settings
    . intro theReactor service theFrontendURI theLoad theThrottle entry _ hentry
      simp only [addEntry, BackendForwarder.settings_addBackend]
      cases hentry with
      | inl hnew =>
        rw [hnew]
        exact hs.newForwarder
      | inr hold => assumption
    . intro theReactor k entry _ hentry
      simp only [purgeEntry, settings_foldl_retire]
      assumption

theorem stickyTable_run {a : F} {cookieName : ByteString} {s s' : Services F}
    {ops : List (ServicesOp F)} (hrun : Lib.run step s ops = some s')
    (hload : ∀ op ∈ ops, op.AnnouncesLoad) (hstale : ∀ op ∈ ops, ∀ it, op.stale it = false)
    (hs : StickyTable a cookieName s) : StickyTable a cookieName s' := by
  apply Lib.run_invariant _ hs hrun
  intro s op s' hop hs hstep
  apply stickyTable_step hstep (hload op hop) _ hs
  apply retiresInOrder_of_not_stale (hstale op hop)

-- The purge of a list in which the entries of an earlier cycle stand before those of the last one.
theorem stickyTable_latestSequence {a : F} {cookieName : ByteString} {s : Services F}
    (theReactor : Reactor) {n itsSequenceNumber : Int}
    (hlists : ∀ k, ∃ old new, s.serviceList k = old ++ new
      ∧ (∀ service ∈ old, service.itsSequenceNumber = n)
      ∧ ∀ service ∈ new, service.itsSequenceNumber = itsSequenceNumber)
    (hs : StickyTable a cookieName s)
    : StickyTable a cookieName (s.latestSequence theReactor itsSequenceNumber) := by
  have hstep : s.step (.latestSequence theReactor itsSequenceNumber)
      = some (s.latestSequence theReactor itsSequenceNumber) := rfl
  apply stickyTable_step hstep trivial _ hs
  intro k entry hentry
  rcases hlists k with ⟨old, new, hlist, hold, hnew⟩
  rw [serviceList_of_getElem? hentry] at hlist
  have hstays : ∀ service ∈ new,
      (ServicesOp.latestSequence (F := F) theReactor itsSequenceNumber).stale service = false := by
    intro service hservice
    simp [ServicesOp.stale, outdated, hnew service hservice]
  rw [hlist, List.pairwise_append]
  refine ⟨?_, ?_, ?_⟩
  . apply List.pairwise_of_forall_mem_list
    intro first hfirst second hsecond hstay hgo
    simp only [ServicesOp.stale, outdated, hold first hfirst, hold second hsecond] at hstay hgo
    rw [hstay] at hgo
    contradiction
  . apply List.pairwise_of_forall_mem_list
    intro first hfirst second hsecond _ hgo
    rw [hstays second hsecond] at hgo
    contradiction
  . intro first _ second hsecond _ hgo
    rw [hstays second hsecond] at hgo
    contradiction

structure Serves (a : F) (cookieName k : ByteString) (backends : Set (ByteString × Int))
    (s : Services F) : Prop where
  table : StickyTable a cookieName s
  backends : ∀ backend, backend ∈ (s.serviceList k).map BackendService.nameAndPort
    ↔ backend ∈ backends

theorem getService_sticky {a : F} {cookieName k : ByteString} {backends : Set (ByteString × Int)}
    {s : Services F} (hs : s.Serves a cookieName k backends) (hbackends : backends.Nonempty)
    (huncaptured : ∀ p id, s.itsPrefixMap.Registered p id → ¬(p <+: k)) (theReactor : Reactor)
    {theRequest : Request} (hresource : theRequest.getResource = k) (itsGenerator : Generator F)
    : ∃ entry service info, s.itsServicesByURI[k]? = some entry
        ∧ s.getService theReactor theRequest itsGenerator = .ok (some service)
        ∧ entry.2.itsBackendInfos[entry.2.stickySelect theReactor
          (BackendForwarder.extractKey cookieName theRequest)]? = some info
        ∧ info.nameAndPort = service.nameAndPort := by
  have hkey : s.itsPrefixMap.translate theRequest.getResource = k := by
    rw [hresource, URIPrefixMap.translate_eq_self huncaptured]
  have hne : s.resolvedList theRequest ≠ [] := by
    rcases hbackends with ⟨backend, hbackend⟩
    rcases List.mem_map.mp ((hs.backends backend).mpr hbackend) with ⟨service, hservice, _⟩
    unfold resolvedList
    rw [hkey]
    apply List.ne_nil_of_mem hservice
  have hselectable : ∀ (k : ByteString) entry, s.itsServicesByURI[k]? = some entry →
      SameBackends entry ∧ entry.2.Weighted := by
    intro k entry hentry
    have hentry := hs.table.selectable.2 k entry hentry
    exact ⟨hentry.sameBackends, hentry.weighted⟩
  rcases getService_eq_some theReactor itsGenerator hselectable hne
    with ⟨entry, i, service, hentry, hi, hservice, hget⟩
  rw [hkey] at hentry
  have hsettings := hs.table.settings k entry hentry
  simp only [BackendForwarder.settings, Prod.mk.injEq] at hsettings
  rcases hsettings with ⟨hmode, _, hcookie⟩
  simp only [BackendForwarder.getBackend, hmode, BackendForwarder.stickyGetBackend, hcookie] at hi
  split at hi
  . contradiction
  . injection hi with hi
    refine ⟨entry, service, service.info, hentry, hget, ?_, rfl⟩
    have haligned := alignedEntry_iff.mp (hs.table.aligned k entry hentry)
    rw [hi, haligned, List.getElem?_map, hservice]
    rfl

theorem getService_same [LawfulFloatArith F] {a : F} {cookieName k : ByteString}
    {backends : Set (ByteString × Int)} {s s' : Services F} (hs : s.Serves a cookieName k backends)
    (hs' : s'.Serves a cookieName k backends) (hbackends : backends.Nonempty)
    (huncaptured : ∀ p id, s.itsPrefixMap.Registered p id → ¬(p <+: k))
    (huncaptured' : ∀ p id, s'.itsPrefixMap.Registered p id → ¬(p <+: k))
    {theReactor theReactor' : Reactor} {theRequest theRequest' : Request}
    (hresource : theRequest.getResource = k) (hresource' : theRequest'.getResource = k)
    (hkey : BackendForwarder.extractKey cookieName theRequest'
      = BackendForwarder.extractKey cookieName theRequest)
    (hscores : Set.InjOn
      (BackendForwarder.stickyScore (BackendForwarder.extractKey cookieName theRequest)) backends)
    (hstatus : theReactor'.getBackendRequestStatus = theReactor.getBackendRequestStatus)
    (hrange : ∀ backend, 0 ≤ BackendForwarder.status theReactor backend
      ∧ BackendForwarder.status theReactor backend ≤ BackendForwarder.intMax)
    (hfits : BackendForwarder.LeastFits a theReactor backends)
    (itsGenerator itsGenerator' : Generator F)
    : ∃ service service',
        s.getService theReactor theRequest itsGenerator = .ok (some service)
          ∧ s'.getService theReactor' theRequest' itsGenerator' = .ok (some service')
          ∧ service.nameAndPort = service'.nameAndPort := by
  rcases getService_sticky hs hbackends huncaptured theReactor hresource itsGenerator
    with ⟨entry, service, info, hentry, hget, hinfo, hname⟩
  rcases getService_sticky hs' hbackends huncaptured' theReactor' hresource' itsGenerator'
    with ⟨entry', service', info', hentry', hget', hinfo', hname'⟩
  have hkeys : ∀ {s : Services F} {entry : ServiceEntry F}, s.Serves a cookieName k backends →
      s.itsServicesByURI[k]? = some entry →
        ∀ backend, backend ∈ entry.2.itsBackendInfos.map BackendInfo.nameAndPort
          ↔ backend ∈ backends := by
    intro s entry hs hentry backend
    rw [alignedEntry_iff.mp (hs.table.aligned k entry hentry), List.map_map,
      ← hs.backends backend, serviceList_of_getElem? hentry]
    rfl
  have hmem : info ∈ entry.2.itsBackendInfos := List.mem_of_getElem? hinfo
  have hcoefficients : ∀ {s : Services F} {entry : ServiceEntry F},
      s.Serves a cookieName k backends → s.itsServicesByURI[k]? = some entry →
        entry.2.itsBalancingCoefficient = a := by
    intro s entry hs hentry
    have h := hs.table.settings k entry hentry
    simp only [BackendForwarder.settings, Prod.mk.injEq] at h
    exact h.2.1
  have hcoefficient : entry'.2.itsBalancingCoefficient = entry.2.itsBalancingCoefficient := by
    rw [hcoefficients hs hentry, hcoefficients hs' hentry']
  have hbackends : entry.2.backends = backends := Set.ext (hkeys hs hentry)
  rcases BackendForwarder.stickySelect_same
    (List.ne_nil_of_mem hmem)
    (fun backend => (hkeys hs hentry backend).trans (hkeys hs' hentry' backend).symm)
    hcoefficient hstatus hrange (by rwa [hcoefficients hs hentry, hbackends])
    (fun info hinfo info' hinfo' => hscores
      ((hkeys hs hentry _).mp (List.mem_map_of_mem hinfo))
      ((hkeys hs hentry _).mp (List.mem_map_of_mem hinfo')))
    with ⟨best, best', hbest, hbest', hsame⟩
  refine ⟨service, service', hget, hget', ?_⟩
  rw [hbest] at hinfo
  rw [hkey, hbest'] at hinfo'
  rw [← hname, ← hname', ← Option.some.inj hinfo, ← Option.some.inj hinfo']
  assumption

end Services

end Sputnik
