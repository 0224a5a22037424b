import Sputnik.Services.Sticky
import Sputnik.URIPrefixMap.History

/-!
This module contains what `getService` makes of the history of a table: the weights of a forwarder
are always those of its present backends, so that the table may be rebuilt at any time.
-/

namespace Sputnik

open Std

variable {F : Type} [FloatArith F]

theorem URIPrefixMap.translate_eq_of_registered {m m' : URIPrefixMap}
    (h : ∀ p id, m'.Registered p id ↔ m.Registered p id) (uri : ByteString)
    : m'.translate uri = m.translate uri := by
  apply translate_congr
  ext p
  simp only [registered, Set.mem_ofPred_eq, h]

namespace BackendForwarder

def setBackends (fw : BackendForwarder F) (backends : List (BackendInfo F))
    (theReactor : Reactor) : BackendForwarder F :=
  redistribute { fw with itsBackendInfos := backends } theReactor

-- The other modes either do not draw from the distribution or rebalance before they do.
def UpToDate (fw : BackendForwarder F) : Prop :=
  fw.mode = .inverseLoad → fw.itsDistribution = fw.inverseLoadWeights

theorem upToDate_redistribute (fw : BackendForwarder F) (theReactor : Reactor)
    : (fw.redistribute theReactor).UpToDate := by
  intro hmode
  rw [mode_redistribute] at hmode
  simp [redistribute, hmode, inverseLoadWeights]

@[simp]
theorem settings_setBackends (fw : BackendForwarder F) (backends : List (BackendInfo F))
    (theReactor : Reactor) : (fw.setBackends backends theReactor).settings = fw.settings := by
  unfold setBackends
  apply settings_redistribute

@[simp]
theorem itsBackendInfos_setBackends (fw : BackendForwarder F) (backends : List (BackendInfo F))
    (theReactor : Reactor) : (fw.setBackends backends theReactor).itsBackendInfos = backends := by
  unfold setBackends
  apply itsBackendInfos_redistribute

theorem upToDate_setBackends (fw : BackendForwarder F) (backends : List (BackendInfo F))
    (theReactor : Reactor) : (fw.setBackends backends theReactor).UpToDate := by
  unfold setBackends
  apply upToDate_redistribute

theorem getBackend_congr {fw fw' : BackendForwarder F} (hsettings : fw'.settings = fw.settings)
    (hinfos : fw'.itsBackendInfos = fw.itsBackendInfos) (h : fw.UpToDate) (h' : fw'.UpToDate)
    (theReactor : Reactor) (theRequest : Request) (itsGenerator : Generator F)
    : fw'.getBackend theReactor theRequest itsGenerator
        =
      fw.getBackend theReactor theRequest itsGenerator := by
  simp only [settings, Prod.mk.injEq] at hsettings
  rcases hsettings with ⟨hmode, hcoefficient, hcookie⟩
  cases hcase : fw.mode with
  | random => simp [getBackend, hmode, hcase, randomGetBackend, hinfos]
  | doubleRandom => simp [getBackend, hmode, hcase, doubleRandomGetBackend, hinfos]
  | sticky =>
    simp [getBackend, hmode, hcase, stickyGetBackend, stickySelect, hinfos, hcookie, hcoefficient]
  | inverseLoad =>
    have hweights : fw'.inverseLoadWeights = fw.inverseLoadWeights := by
      simp [inverseLoadWeights, hinfos, hcoefficient]
    simp [getBackend, hmode, hcase, rebalance, h hcase, h' (hmode.trans hcase), hweights]
  | inverseConnections =>
    simp [getBackend, hmode, hcase, rebalance, redistribute, inverseConnectionsWeights, hinfos,
      hcoefficient]
  | leastConnections =>
    simp [getBackend, hmode, hcase, rebalance, redistribute, leastConnectionsWeights, hinfos]
  | exponentialConnections =>
    simp [getBackend, hmode, hcase, rebalance, redistribute, exponentialConnectionsWeights, hinfos,
      hcoefficient]

end BackendForwarder

namespace Services

/-! The removal that restarts the frontend -/

theorem removeBackend_eq_none_iff {s : Services F} {theReactor : Reactor}
    {theHostname : ByteString} {thePort : Int} {theURI : ByteString}
    : s.removeBackend theReactor theHostname thePort theURI = none
        ↔
      ∀ service, s.LiveService service →
        namedBy theHostname thePort theURI service = true := by
  unfold removeBackend
  dsimp
  rw [ite_eq_right_iff]
  simp only [reduceCtorEq, imp_false, Bool.not_eq_true, List.any_eq_false,
    TreeMap.mem_toList_iff_getElem?_eq_some, Prod.forall, Bool.not_eq_false', List.isEmpty_iff]
  have hlookup : ∀ k : ByteString,
      (Lib.forEntries (fun _ (entry : ServiceEntry F) itsPrefixMap =>
          (((removeFromList theReactor theHostname thePort theURI entry.1 itsPrefixMap entry.2).1,
            (removeFromList theReactor theHostname thePort theURI entry.1 itsPrefixMap
              entry.2).2.2),
            (removeFromList theReactor theHostname thePort theURI entry.1 itsPrefixMap
              entry.2).2.1))
        s.itsServicesByURI s.itsPrefixMap).1[k]?
        =
      s.itsServicesByURI[k]?.map (purgeEntry theReactor (namedBy theHostname thePort theURI)) := by
    intro k
    rw [Lib.getElem?_forEntries (g := fun _ => purgeEntry theReactor
      (namedBy theHostname thePort theURI))]
    intro _ entry m
    rw [removeFromList_eq]
  simp only [hlookup, Option.map_eq_some_iff, LiveService, mem_serviceList]
  constructor
  . rintro h service ⟨k, entry, hentry, hservice⟩
    have hnil := h k _ _ ⟨entry, hentry, rfl⟩
    rw [List.filter_eq_nil_iff] at hnil
    simpa using hnil service hservice
  . rintro h k list fw ⟨entry, hentry, heq⟩
    have hlist : list = (purgeEntry theReactor (namedBy theHostname thePort theURI) entry).1 := by
      rw [heq]
    rw [hlist]
    apply List.filter_eq_nil_iff.mpr
    intro service hservice
    simp [h service ⟨k, entry, hentry, hservice⟩]

/-! Tables with the same routes -/

structure Maintained (s : Services F) : Prop where
  settings : ∀ (k : ByteString) entry, s.itsServicesByURI[k]? = some entry →
    entry.2.settings = s.newForwarder.settings
  upToDate : ∀ (k : ByteString) entry, s.itsServicesByURI[k]? = some entry → entry.2.UpToDate

theorem upToDate_foldl_retire (theReactor : Reactor) (l : List (BackendService F))
    {fw : BackendForwarder F} (h : fw.UpToDate)
    : (l.foldl (fun fw it => retire theReactor it fw) fw).UpToDate := by
  induction l generalizing fw with
  | nil => assumption
  | cons it l ih =>
    rw [List.foldl_cons]
    apply ih
    apply BackendForwarder.upToDate_redistribute

theorem maintained_init (mode : ForwardingMode) (a : F) (cookieName : ByteString)
    : (init mode a cookieName).Maintained where
  settings := by simp [init]
  upToDate := by simp [init]

theorem maintained_step {s s' : Services F} {op : ServicesOp F} (h : s.step op = some s')
    (hs : s.Maintained) : s'.Maintained where
  settings := by
    rw [newForwarder_step h]
    apply entries_step h hs.settings
    . intro theReactor service theFrontendURI theLoad theThrottle entry _ hentry
      simp only [addEntry, BackendForwarder.settings_addBackend]
      cases hentry with
      | inl hnew => rw [hnew, newEntry]
      | inr hold => assumption
    . intro theReactor k entry _ hentry
      simp only [purgeEntry, settings_foldl_retire]
      assumption
  upToDate := by
    apply entries_step h hs.upToDate
    . intro theReactor service theFrontendURI theLoad theThrottle entry _ _
      apply BackendForwarder.upToDate_redistribute
    . intro theReactor k entry _ hentry
      apply upToDate_foldl_retire theReactor _ hentry

theorem maintained_run {s s' : Services F} {ops : List (ServicesOp F)}
    (hrun : Lib.run step s ops = some s') (hs : s.Maintained) : s'.Maintained := by
  apply Lib.run_invariant _ hs hrun
  intro s op s' _ hs hstep
  apply maintained_step hstep hs

section LiveServices

variable {s t : Services F} (hlive : ∀ service, t.LiveService service ↔ s.LiveService service)

include hlive

theorem step_eq_none_congr (op : ServicesOp F) : s.step op = none ↔ t.step op = none := by
  cases op with
  | removeBackend theReactor theHostname thePort theURI =>
    simp only [step, removeBackend_eq_none_iff, hlive]
  | _ => simp [step]

theorem registered_step_congr {s' t' : Services F} {op : ServicesOp F}
    (hregistered : ∀ p id, t.itsPrefixMap.Registered p id ↔ s.itsPrefixMap.Registered p id)
    (hs' : s.step op = some s') (ht' : t.step op = some t') (p id : ByteString)
    : t'.itsPrefixMap.Registered p id ↔ s'.itsPrefixMap.Registered p id := by
  rw [registered_step hs', registered_step ht']
  cases op with
  | removeBackend theReactor theHostname thePort theURI =>
    simp only [StepRegistered, hregistered, hlive]
  | _ => simp only [StepRegistered, hregistered]

end LiveServices

def backendsOf (entry : ServiceEntry F) : List (BackendService F) × List (BackendInfo F) :=
  (entry.1, entry.2.itsBackendInfos)

-- All that routing reads but for the weights and the order in which prefixes were registered.
structure SameRoutes (s t : Services F) : Prop where
  newForwarder : t.newForwarder = s.newForwarder
  entries : ∀ k : ByteString,
    t.itsServicesByURI[k]?.map backendsOf = s.itsServicesByURI[k]?.map backendsOf
  registered : ∀ p id, t.itsPrefixMap.Registered p id ↔ s.itsPrefixMap.Registered p id

namespace SameRoutes

variable {s t : Services F}

theorem serviceList (h : s.SameRoutes t) (k : ByteString)
    : t.serviceList k = s.serviceList k := by
  have hentries := congrArg (fun entry => (entry.map Prod.fst).getD []) (h.entries k)
  simp only [Option.map_map] at hentries
  exact hentries

theorem liveService (h : s.SameRoutes t) (service : BackendService F)
    : t.LiveService service ↔ s.LiveService service := by
  simp only [LiveService, h.serviceList]

theorem translate (h : s.SameRoutes t) (uri : ByteString)
    : t.itsPrefixMap.translate uri = s.itsPrefixMap.translate uri :=
  URIPrefixMap.translate_eq_of_registered h.registered uri

theorem stepEntry (h : s.SameRoutes t) (k : ByteString) (op : ServicesOp F)
    : (t.stepEntry k t.itsServicesByURI[k]? op).map backendsOf
        =
      (s.stepEntry k s.itsServicesByURI[k]? op).map backendsOf := by
  have hentries := h.entries k
  cases hs : s.itsServicesByURI[k]? with
  | none =>
    cases ht : t.itsServicesByURI[k]? with
    | none => cases op <;> simp [Services.stepEntry, newEntry, h.newForwarder]
    | some entry' => simp [hs, ht] at hentries
  | some entry =>
    cases ht : t.itsServicesByURI[k]? with
    | none => simp [hs, ht] at hentries
    | some entry' =>
      simp only [hs, ht, Option.map_some, Option.some.injEq, backendsOf, Prod.mk.injEq]
        at hentries
      cases op <;>
        simp [Services.stepEntry, backendsOf, addEntry, purgeEntry, itsBackendInfos_foldl_retire,
          hentries, apply_ite]

theorem step (h : s.SameRoutes t) (op : ServicesOp F)
    : Option.Rel SameRoutes (s.step op) (t.step op) := by
  apply Lib.rel_of_iff (step_eq_none_congr h.liveService op)
  intro s' t' hs' ht'
  refine ⟨?_, ?_, ?_⟩
  . rw [newForwarder_step hs', newForwarder_step ht', h.newForwarder]
  . intro k
    rw [getElem?_step hs', getElem?_step ht', h.stepEntry]
  . apply registered_step_congr h.liveService h.registered hs' ht'

theorem getService (h : s.SameRoutes t) (hs : s.Maintained) (ht : t.Maintained)
    (theReactor : Reactor) (theRequest : Request) (itsGenerator : Generator F)
    : t.getService theReactor theRequest itsGenerator
        =
      s.getService theReactor theRequest itsGenerator := by
  have hentries := h.entries (s.itsPrefixMap.translate theRequest.getResource)
  simp only [Services.getService, h.translate]
  cases hentry : s.itsServicesByURI[s.itsPrefixMap.translate theRequest.getResource]? with
  | none =>
    rw [hentry, Option.map_none, Option.map_eq_none_iff] at hentries
    rw [hentries]
  | some entry =>
    rw [hentry, Option.map_some, Option.map_eq_some_iff] at hentries
    rcases hentries with ⟨entry', hentry', heq⟩
    simp only [backendsOf, Prod.mk.injEq] at heq
    have hget := BackendForwarder.getBackend_congr
      (by rw [ht.settings _ _ hentry', hs.settings _ _ hentry, h.newForwarder]) heq.2
      (hs.upToDate _ _ hentry) (ht.upToDate _ _ hentry') theReactor theRequest itsGenerator
    simp only [hentry', heq.1, hget]

end SameRoutes

-- Every forwarder of the table made anew, for the backends it has now.
def rebuilt (s : Services F) (theReactor : Reactor) : Services F :=
  { s with
    itsServicesByURI := s.itsServicesByURI.map fun _ entry =>
      (entry.1, s.newForwarder.setBackends entry.2.itsBackendInfos theReactor) }

theorem getElem?_rebuilt (s : Services F) (theReactor : Reactor) (k : ByteString)
    : (s.rebuilt theReactor).itsServicesByURI[k]?
        =
      s.itsServicesByURI[k]?.map fun entry =>
        (entry.1, s.newForwarder.setBackends entry.2.itsBackendInfos theReactor) := by
  unfold rebuilt
  dsimp
  rw [TreeMap.getElem?_map]

theorem maintained_rebuilt (s : Services F) (theReactor : Reactor)
    : (s.rebuilt theReactor).Maintained where
  settings := by
    intro k entry hentry
    rw [getElem?_rebuilt] at hentry
    rcases Option.map_eq_some_iff.mp hentry with ⟨old, _, rfl⟩
    apply BackendForwarder.settings_setBackends
  upToDate := by
    intro k entry hentry
    rw [getElem?_rebuilt] at hentry
    rcases Option.map_eq_some_iff.mp hentry with ⟨old, _, rfl⟩
    apply BackendForwarder.upToDate_setBackends

theorem sameRoutes_rebuilt (s : Services F) (theReactor : Reactor)
    : s.SameRoutes (s.rebuilt theReactor) where
  newForwarder := rfl
  entries := by
    intro k
    rw [getElem?_rebuilt, Option.map_map]
    congr
    funext entry
    simp [backendsOf]
  registered _ _ := Iff.rfl

/--
The weights of the forwarders are no state of their own: where all forwarders are made anew at any
time, with any connection counts, the frontend goes on giving the same answers to the same draws.
-/
theorem getService_rebuilt (mode : ForwardingMode) (a : F) (cookieName : ByteString)
    (before after : List (ServicesOp F)) (s : Services F)
    (hrun : Lib.run step (init mode a cookieName) before = some s) (atRebuild : Reactor)
    : Option.Rel
        (fun s' t' => ∀ theReactor theRequest itsGenerator,
          t'.getService theReactor theRequest itsGenerator
            =
          s'.getService theReactor theRequest itsGenerator)
        (Lib.run step s after) (Lib.run step (s.rebuilt atRebuild) after) := by
  have hs := maintained_run hrun (maintained_init mode a cookieName)
  have hsame := Lib.run_rel (fun _ _ op h => SameRoutes.step h op) after
    (sameRoutes_rebuilt s atRebuild)
  apply Lib.rel_imp hsame
  intro s' t' hs' ht' hsame
  apply hsame.getService (maintained_run hs' hs)
  apply maintained_run ht' (maintained_rebuilt s atRebuild)

section Sample

open Sample

theorem getService_rebuilt_sample
    : ∃ s, Lib.run step (init .inverseLoad 2 []) [add "a" "/wms" 1 false, add "b" "/wms" 1 false]
          = some s
        ∧ Option.Rel
          (fun s' t' => ∀ theReactor theRequest itsGenerator,
            t'.getService theReactor theRequest itsGenerator
              =
            s'.getService theReactor theRequest itsGenerator)
          (Lib.run step s [.removeBackend reactor (ByteString.lit "a") 8080 []])
          (Lib.run step (s.rebuilt reactor) [.removeBackend reactor (ByteString.lit "a") 8080 []])
    := by
  refine ⟨_, rfl, ?_⟩
  apply getService_rebuilt .inverseLoad 2 [] [add "a" "/wms" 1 false, add "b" "/wms" 1 false] _ _
    rfl reactor

end Sample

/--
The frontend is restarted by no operation but a removal that takes every service there is, which it
also does where there is none.
-/
theorem restarts_iff (s : Services F) (ops : List (ServicesOp F))
    : Lib.run step s ops = none
        ↔
      ∃ before after t theReactor theHostname thePort theURI,
        ops = before ++ .removeBackend theReactor theHostname thePort theURI :: after
          ∧ Lib.run step s before = some t
          ∧ ∀ k, ∀ service ∈ t.serviceList k, namedBy theHostname thePort theURI service = true := by
  rw [Lib.run_eq_none_iff]
  constructor
  . rintro ⟨before, op, after, t, hops, hbefore, hfails⟩
    cases op with
    | removeBackend theReactor theHostname thePort theURI =>
      refine ⟨before, after, t, theReactor, theHostname, thePort, theURI, hops, hbefore, ?_⟩
      intro k service hservice
      exact removeBackend_eq_none_iff.mp hfails service ⟨k, hservice⟩
    | _ => contradiction
  . rintro ⟨before, after, t, theReactor, theHostname, thePort, theURI, hops, hbefore, hnamed⟩
    refine ⟨before, _, after, t, hops, hbefore, removeBackend_eq_none_iff.mpr ?_⟩
    rintro service ⟨k, hservice⟩
    exact hnamed k service hservice

end Services

end Sputnik
