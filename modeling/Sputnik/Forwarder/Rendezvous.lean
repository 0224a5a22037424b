import Mathlib.Data.Set.Function
import Sputnik.Forwarder.Select

/-!
This module contains what the selection of the sticky forwarder promises: the index it returns, that
frontends with the same backends agree, and that a change of one backend remaps few keys.
-/

namespace Sputnik

namespace BackendForwarder

variable {F : Type} [FloatArith F]

def threshold (fw : BackendForwarder F) (theReactor : Reactor) : Int :=
  stickyThreshold fw.itsBalancingCoefficient (minCount theReactor fw.itsBackendInfos)

omit [FloatArith F] in
theorem stickySkip_eq_false_iff {theReactor : Reactor} {t : Int} {info : BackendInfo F}
    : stickySkip theReactor t info.nameAndPort = false ↔ connectionCount theReactor info ≤ t := by
  simp only [stickySkip, decide_eq_false_iff_not, Int.not_lt]
  rfl

omit [FloatArith F] in
theorem stickySkip_eq_true_iff {theReactor : Reactor} {t : Int} {info : BackendInfo F}
    : stickySkip theReactor t info.nameAndPort = true ↔ t < connectionCount theReactor info := by
  simp only [stickySkip, decide_eq_true_eq]
  rfl

theorem isFirstBest_threshold [LawfulFloatArith F] {fw : BackendForwarder F} {theReactor : Reactor}
    (key : ByteString) (hinfos : fw.itsBackendInfos ≠ [])
    (hrange : ∀ backend, 0 ≤ status theReactor backend ∧ status theReactor backend ≤ intMax)
    (hfits : LeastFits fw.itsBalancingCoefficient theReactor fw.backends)
    : ∃ info, Lib.IsFirstBest
        (fun info => stickySkip theReactor (fw.threshold theReactor) info.nameAndPort)
        (fun info => stickyScore key info.nameAndPort)
        fw.itsBackendInfos (fw.stickySelect theReactor key) info := by
  apply isFirstBest_stickySelect key hinfos hrange
  exact (thresholdFits_minCount hinfos hrange).mpr hfits

section MinCount

variable {theReactor : Reactor}
  (hrange : ∀ backend, 0 ≤ status theReactor backend ∧ status theReactor backend ≤ intMax)

omit [FloatArith F] in
include hrange in
theorem minCount_nonneg (infos : List (BackendInfo F)) : 0 ≤ minCount theReactor infos := by
  by_cases hinfos : infos = []
  . rw [hinfos]
    simp [minCount, intMax]
  . rcases List.mem_map.mp (minCount_mem hinfos hrange) with ⟨info, _, hcount⟩
    rw [← hcount]
    exact (hrange info.nameAndPort).1

omit [FloatArith F] in
theorem minCount_anti {infos infos' : List (BackendInfo F)} (h : ∀ info ∈ infos', info ∈ infos)
    : minCount theReactor infos ≤ minCount theReactor infos' := by
  simp only [minCount_eq, List.map_map]
  apply Lib.foldl_min_anti
  intro count hcount
  rcases List.mem_map.mp hcount with ⟨info, hinfo, hstatus⟩
  rw [← hstatus]
  exact List.mem_map_of_mem (f := status theReactor ∘ BackendInfo.nameAndPort) (h info hinfo)

end MinCount

/--
The sticky forwarder returns the index of the first backend with the greatest score among those
whose count stays within the bound that the least count sets, where this bound is an `int`.
-/
theorem sticky_firstBest [LawfulFloatArith F] (fw : BackendForwarder F) (theReactor : Reactor)
    (theRequest : Request) (itsGenerator : Generator F) (hmode : fw.mode = .sticky)
    (hinfos : fw.itsBackendInfos ≠ [])
    (hrange : ∀ backend, 0 ≤ status theReactor backend ∧ status theReactor backend ≤ intMax)
    (hfits : LeastFits fw.itsBalancingCoefficient theReactor fw.backends)
    : let key := extractKey fw.itsCookieName theRequest
      ∃ least i info,
        least ∈ fw.itsBackendInfos.map (connectionCount theReactor)
          ∧ (∀ other ∈ fw.itsBackendInfos, least ≤ connectionCount theReactor other)
          ∧ stickyThreshold fw.itsBalancingCoefficient least
            = FloatArith.truncMul (stickyFactor fw.itsBalancingCoefficient) least
              + kConnectionSlack
          ∧ fw.getBackend theReactor theRequest itsGenerator = .ok i
          ∧ i < fw.itsBackendInfos.length
          ∧ fw.itsBackendInfos[i]? = some info
          ∧ connectionCount theReactor info ≤ stickyThreshold fw.itsBalancingCoefficient least
          ∧ (∀ other ∈ fw.itsBackendInfos,
            connectionCount theReactor other ≤ stickyThreshold fw.itsBalancingCoefficient least →
              stickyScore key other.nameAndPort ≤ stickyScore key info.nameAndPort)
          ∧ ∀ j other, j < i → fw.itsBackendInfos[j]? = some other →
            connectionCount theReactor other ≤ stickyThreshold fw.itsBalancingCoefficient least →
              stickyScore key other.nameAndPort < stickyScore key info.nameAndPort := by
  intro key
  have hthreshold := (thresholdFits_minCount hinfos hrange).mpr hfits
  rcases isFirstBest_stickySelect key hinfos hrange hthreshold with ⟨info, hbest⟩
  refine ⟨minCount theReactor fw.itsBackendInfos, fw.stickySelect theReactor key, info,
    minCount_mem hinfos hrange, ?_, stickyThreshold_of_fits hthreshold,
    getBackend_sticky theReactor theRequest itsGenerator hmode hinfos, hbest.lt_length,
    hbest.getElem?, stickySkip_eq_false_iff.mp hbest.eligible, ?_, ?_⟩
  . intro other hother
    apply minCount_le hother
  . intro other hother hcount
    apply hbest.greatest other hother
    rwa [stickySkip_eq_false_iff]
  . intro j other hj hother hcount
    apply hbest.first j other hj hother
    rwa [stickySkip_eq_false_iff]

section Sample

open Sample

def backendInfo (name : String) : BackendInfo Rat where
  hostName := ByteString.lit name
  port := 8080
  load := 1

def stickyForwarder (names : List String) : BackendForwarder Rat :=
  { new .sticky 2 [] with itsBackendInfos := names.map backendInfo }

theorem status_reactor (backend : ByteString × Int)
    : 0 ≤ status reactor backend ∧ status reactor backend ≤ intMax := by
  simp [status, reactor, intMax]

theorem leastFits_reactor (backends : Set (ByteString × Int))
    : LeastFits (2 : Rat) reactor backends := by
  intro backend _ _
  change ThresholdFits (2 : Rat) 0
  decide

theorem sticky_firstBest_sample
    : ∃ i info, (stickyForwarder ["a", "b"]).getBackend reactor request generator = .ok i
        ∧ i < 2 ∧ (stickyForwarder ["a", "b"]).itsBackendInfos[i]? = some info
        ∧ ∀ other ∈ (stickyForwarder ["a", "b"]).itsBackendInfos,
          connectionCount reactor other ≤ stickyThreshold (2 : Rat) 0 →
            stickyScore (extractKey [] request) other.nameAndPort
              ≤ stickyScore (extractKey [] request) info.nameAndPort := by
  rcases sticky_firstBest (stickyForwarder ["a", "b"]) reactor request generator rfl (by decide)
    status_reactor (leastFits_reactor _)
    with ⟨least, i, info, hleast, _, _, hget, hlt, hinfo, _, hgreatest, _⟩
  have hzero : least = 0 := by
    rcases List.mem_map.mp hleast with ⟨_, _, hcount⟩
    exact hcount.symm
  rw [hzero] at hgreatest
  exact ⟨i, info, hget, hlt, hinfo, hgreatest⟩

end Sample

section Agreement

variable (fw fw' : BackendForwarder F) (theReactor theReactor' : Reactor)
  (theRequest theRequest' : Request) (itsGenerator itsGenerator' : Generator F)

-- Both lists are empty and both calls throw, or the entries have the same host name and port.
def SelectsSame : Prop :=
  (fw.itsBackendInfos = [] ∧ fw'.itsBackendInfos = []
      ∧ fw.getBackend theReactor theRequest itsGenerator = .error noBackendsAvailable
      ∧ fw'.getBackend theReactor' theRequest' itsGenerator' = .error noBackendsAvailable)
    ∨ ∃ i i' info info',
      fw.getBackend theReactor theRequest itsGenerator = .ok i
        ∧ fw'.getBackend theReactor' theRequest' itsGenerator' = .ok i'
        ∧ fw.itsBackendInfos[i]? = some info ∧ fw'.itsBackendInfos[i']? = some info'
        ∧ info.hostName = info'.hostName ∧ info.port = info'.port

variable {fw fw' theReactor theReactor' theRequest theRequest' itsGenerator itsGenerator'}

omit [FloatArith F] in
theorem backends_eq_empty_iff : fw.backends = ∅ ↔ fw.itsBackendInfos = [] := by
  rw [Set.eq_empty_iff_forall_notMem, ← List.map_eq_nil_iff (f := BackendInfo.nameAndPort),
    List.eq_nil_iff_forall_not_mem]
  rfl

-- Where the threshold does not fit, every backend is skipped.
theorem stickySelect_of_not_fits (key : ByteString) (hinfos : fw.itsBackendInfos ≠ [])
    (hrange : ∀ backend, 0 ≤ status theReactor backend ∧ status theReactor backend ≤ intMax)
    (hfits : ¬LeastFits fw.itsBalancingCoefficient theReactor fw.backends)
    : fw.stickySelect theReactor key = 0 := by
  have hnegative := stickyThreshold_of_not_fits
    (fun h => hfits ((thresholdFits_minCount hinfos hrange).mp h))
  unfold stickySelect
  dsimp only
  rw [Lib.argMaxLoop_of_skip]
  intro info _
  rw [stickySkip_eq_true_iff]
  have hnonneg : 0 ≤ connectionCount theReactor info := (hrange info.nameAndPort).1
  omega

theorem selectsSame_iff (hmode : fw.mode = .sticky) (hmode' : fw'.mode = .sticky)
    (hinfos : fw.itsBackendInfos ≠ []) (hinfos' : fw'.itsBackendInfos ≠ [])
    (hkey : extractKey fw'.itsCookieName theRequest' = extractKey fw.itsCookieName theRequest)
    : SelectsSame fw fw' theReactor theReactor' theRequest theRequest' itsGenerator itsGenerator'
        ↔
      let key := extractKey fw.itsCookieName theRequest
      ∃ info info', fw.itsBackendInfos[fw.stickySelect theReactor key]? = some info
        ∧ fw'.itsBackendInfos[fw'.stickySelect theReactor' key]? = some info'
        ∧ info.nameAndPort = info'.nameAndPort := by
  have hget := getBackend_sticky theReactor theRequest itsGenerator hmode hinfos
  have hget' := getBackend_sticky theReactor' theRequest' itsGenerator' hmode' hinfos'
  rw [hkey] at hget'
  simp only [SelectsSame, hinfos, false_and, false_or, hget, hget', Except.ok.injEq,
    BackendInfo.nameAndPort, Prod.mk.injEq]
  constructor
  . rintro ⟨_, _, info, info', rfl, rfl, hinfo⟩
    exact ⟨info, info', hinfo⟩
  . rintro ⟨info, info', hinfo⟩
    exact ⟨_, _, info, info', rfl, rfl, hinfo⟩

/--
Two sticky forwarders that hold the same set of backends, in any order and with any repetitions and
loads, send a key to the same backend exactly if the threshold stays within the range of `int` or
their lists begin with the same backend, the first one being returned where it does not.
-/
theorem sticky_agree_iff [LawfulFloatArith F] (fw fw' : BackendForwarder F)
    (theReactor theReactor' : Reactor) (theRequest theRequest' : Request)
    (itsGenerator itsGenerator' : Generator F) (hmode : fw.mode = .sticky)
    (hmode' : fw'.mode = .sticky) (hsame : fw.backends = fw'.backends)
    (hcoefficient : fw'.itsBalancingCoefficient = fw.itsBalancingCoefficient)
    (hstatus : theReactor'.getBackendRequestStatus = theReactor.getBackendRequestStatus)
    (hkey : extractKey fw'.itsCookieName theRequest' = extractKey fw.itsCookieName theRequest)
    (hrange : ∀ backend, 0 ≤ status theReactor backend ∧ status theReactor backend ≤ intMax)
    (hscores : Set.InjOn (stickyScore (extractKey fw.itsCookieName theRequest)) fw.backends)
    : SelectsSame fw fw' theReactor theReactor' theRequest theRequest' itsGenerator itsGenerator'
        ↔
      LeastFits fw.itsBalancingCoefficient theReactor fw.backends
        ∨ fw.itsBackendInfos.head?.map BackendInfo.nameAndPort
          = fw'.itsBackendInfos.head?.map BackendInfo.nameAndPort := by
  have hnil : fw.itsBackendInfos = [] ↔ fw'.itsBackendInfos = [] := by
    rw [← backends_eq_empty_iff, hsame, backends_eq_empty_iff]
  by_cases hinfos : fw.itsBackendInfos = []
  . have hinfos' := hnil.mp hinfos
    refine iff_of_true ?_ (.inr (by rw [hinfos, hinfos']))
    left
    refine ⟨hinfos, hinfos', ?_, ?_⟩
    . apply getBackend_sticky_nil theReactor theRequest itsGenerator hmode hinfos
    . apply getBackend_sticky_nil theReactor' theRequest' itsGenerator' hmode' hinfos'
  have hinfos' : fw'.itsBackendInfos ≠ [] := fun h => hinfos (hnil.mpr h)
  rw [selectsSame_iff hmode hmode' hinfos hinfos' hkey]
  by_cases hfits : LeastFits fw.itsBalancingCoefficient theReactor fw.backends
  . refine iff_of_true ?_ (.inl hfits)
    apply stickySelect_same hinfos (Set.ext_iff.mp hsame) hcoefficient hstatus hrange hfits
    intro info hinfo info' hinfo'
    apply hscores (List.mem_map_of_mem hinfo) (List.mem_map_of_mem hinfo')
  . have hstatus' : status theReactor' = status theReactor := by
      unfold status
      rw [hstatus]
    have hfits' : ¬LeastFits fw'.itsBalancingCoefficient theReactor' fw'.backends := by
      unfold LeastFits
      rw [hcoefficient, hstatus', ← hsame]
      exact hfits
    have hrange' : ∀ backend, 0 ≤ status theReactor' backend
        ∧ status theReactor' backend ≤ intMax := by rwa [hstatus']
    dsimp only
    rw [stickySelect_of_not_fits _ hinfos hrange hfits,
      stickySelect_of_not_fits _ hinfos' hrange' hfits', List.head?_eq_getElem?,
      List.head?_eq_getElem?]
    simp only [hfits, false_or]
    rcases List.exists_cons_of_ne_nil hinfos with ⟨info, _, hlist⟩
    rcases List.exists_cons_of_ne_nil hinfos' with ⟨info', _, hlist'⟩
    simp [hlist, hlist']

section Sample

open Sample

theorem injOn_stickyScore
    : Set.InjOn (stickyScore (extractKey [] request)) (stickyForwarder ["a", "b"]).backends := by
  simp only [Set.InjOn, backends, stickyForwarder, Set.mem_ofPred_eq]
  decide

theorem sticky_agree_iff_sample
    : SelectsSame (stickyForwarder ["a", "b"]) (stickyForwarder ["b", "a", "b"]) reactor reactor
        request request generator generator := by
  apply (sticky_agree_iff (stickyForwarder ["a", "b"]) (stickyForwarder ["b", "a", "b"])
    reactor reactor request request generator generator rfl rfl
    (Set.ext (by simp [backends, stickyForwarder, or_comm])) rfl rfl rfl status_reactor
    injOn_stickyScore).mpr
  exact .inl (leastFits_reactor _)

-- With one connection at each backend the product is 10^10, and each list returns its first entry.
theorem not_sticky_agree
    : ¬∀ (fw fw' : BackendForwarder Rat) (theReactor theReactor' : Reactor)
        (theRequest theRequest' : Request) (itsGenerator itsGenerator' : Generator Rat),
        fw.mode = .sticky → fw'.mode = .sticky → fw.backends = fw'.backends →
          fw'.itsBalancingCoefficient = fw.itsBalancingCoefficient →
            theReactor'.getBackendRequestStatus = theReactor.getBackendRequestStatus →
              extractKey fw'.itsCookieName theRequest' = extractKey fw.itsCookieName theRequest →
                (∀ backend, 0 ≤ status theReactor backend
                  ∧ status theReactor backend ≤ intMax) →
                  Set.InjOn (stickyScore (extractKey fw.itsCookieName theRequest)) fw.backends →
                    SelectsSame fw fw' theReactor theReactor' theRequest theRequest' itsGenerator
                      itsGenerator' := by
  intro h
  have hsame := h { stickyForwarder ["a", "b"] with itsBalancingCoefficient := 10000000000 }
    { stickyForwarder ["b", "a"] with itsBalancingCoefficient := 10000000000 }
    { reactor with getBackendRequestStatus := fun _ _ => 1 }
    { reactor with getBackendRequestStatus := fun _ _ => 1 } request request generator generator
    rfl rfl (Set.ext (by simp [backends, stickyForwarder, or_comm])) rfl rfl rfl
    (by simp [status, intMax]) injOn_stickyScore
  rcases hsame with ⟨hnil, _⟩ | ⟨i, i', info, info', hget, hget', hinfo, hinfo', hname, _⟩
  . contradiction
  . have hi : i = 0 := by
      injection hget with hi
      rw [← hi]
      decide
    have hi' : i' = 0 := by
      injection hget' with hi'
      rw [← hi']
      decide
    rw [hi] at hinfo
    rw [hi'] at hinfo'
    rw [← Option.some.inj hinfo, ← Option.some.inj hinfo'] at hname
    revert hname
    decide

end Sample

end Agreement

section Remapping

variable (theReactor : Reactor) (theRequest : Request) (itsGenerator itsGenerator' : Generator F)

-- The new entry is the last one of the list.
def AdditionRemaps (fw added : BackendForwarder F) : Prop :=
  ∃ j, added.getBackend theReactor theRequest itsGenerator' = .ok j
    ∧ (j = fw.itsBackendInfos.length
      ∨ fw.getBackend theReactor theRequest itsGenerator = .ok j
      ∨ ∃ i info, fw.getBackend theReactor theRequest itsGenerator = .ok i
        ∧ fw.itsBackendInfos[i]? = some info
        ∧ added.threshold theReactor < connectionCount theReactor info)

def RemovalRemaps (erased : Nat) (fw removed : BackendForwarder F) : Prop :=
  ∃ i j info info', fw.getBackend theReactor theRequest itsGenerator = .ok i
    ∧ fw.itsBackendInfos[i]? = some info
    ∧ removed.getBackend theReactor theRequest itsGenerator' = .ok j
    ∧ removed.itsBackendInfos[j]? = some info'
    ∧ (info' = info ∨ i = erased ∨ fw.threshold theReactor < connectionCount theReactor info')

variable {theReactor} [MonotoneFloatArith F]

theorem stickyThreshold_mono {a : F} {count count' : Int} (hcount : 0 ≤ count)
    (hle : count ≤ count') (hfits : ThresholdFits a count')
    : ThresholdFits a count ∧ stickyThreshold a count ≤ stickyThreshold a count' := by
  rcases MonotoneFloatArith.truncMul_mono hcount hle (one_lt_stickyFactor a) hfits.1
    with ⟨hproduct, hmul⟩
  have hpositive := LawfulFloatArith.le_truncMul hcount (one_lt_stickyFactor a) hproduct
  have hsum := hfits.2
  have hthreshold : ThresholdFits a count := by
    refine ⟨hproduct, ?_⟩
    simp only [FitsInt, kConnectionSlack] at hsum ⊢
    omega
  rw [stickyThreshold_of_fits hthreshold, stickyThreshold_of_fits hfits]
  refine ⟨hthreshold, ?_⟩
  omega

theorem threshold_anti {fw fw' : BackendForwarder F} {theReactor : Reactor}
    (hrange : ∀ backend, 0 ≤ status theReactor backend ∧ status theReactor backend ≤ intMax)
    (hcoefficient : fw.itsBalancingCoefficient = fw'.itsBalancingCoefficient)
    (hinfos : ∀ info ∈ fw'.itsBackendInfos, info ∈ fw.itsBackendInfos)
    (hne : fw'.itsBackendInfos ≠ [])
    (hfits : LeastFits fw'.itsBalancingCoefficient theReactor fw'.backends)
    : LeastFits fw.itsBalancingCoefficient theReactor fw.backends
        ∧ fw.threshold theReactor ≤ fw'.threshold theReactor := by
  have hne' : fw.itsBackendInfos ≠ [] := by
    rcases List.exists_mem_of_ne_nil _ hne with ⟨info, hinfo⟩
    apply List.ne_nil_of_mem (hinfos info hinfo)
  have hthreshold := (thresholdFits_minCount hne hrange).mpr hfits
  rcases stickyThreshold_mono (minCount_nonneg hrange fw.itsBackendInfos)
    (minCount_anti hinfos) hthreshold with ⟨hthreshold', hle⟩
  unfold threshold
  rw [hcoefficient]
  exact ⟨(thresholdFits_minCount hne' hrange).mp hthreshold', hle⟩

omit [FloatArith F] [MonotoneFloatArith F] in
theorem stickySkip_mono {theReactor : Reactor} {t t' : Int} (hle : t ≤ t')
    {info : BackendInfo F} (h : stickySkip theReactor t info.nameAndPort = false)
    : stickySkip theReactor t' info.nameAndPort = false := by
  rw [stickySkip_eq_false_iff] at h ⊢
  omega

theorem addBackend_remaps {fw : BackendForwarder F} (theReactor' : Reactor) (hostName : ByteString)
    (port : Int) (load : F) (hmode : fw.mode = .sticky)
    (hrange : ∀ backend, 0 ≤ status theReactor backend ∧ status theReactor backend ≤ intMax)
    (hfits : LeastFits fw.itsBalancingCoefficient theReactor fw.backends)
    : AdditionRemaps theReactor theRequest itsGenerator itsGenerator' fw
        (fw.addBackend hostName port load theReactor') := by
  let added := fw.addBackend hostName port load theReactor'
  have hadded : added.itsBackendInfos = fw.itsBackendInfos ++ [⟨hostName, port, load⟩] :=
    itsBackendInfos_addBackend fw theReactor' hostName port load
  have hadded_ne : added.itsBackendInfos ≠ [] := by simp [hadded]
  have hmode' : added.mode = .sticky := by simp [added, hmode]
  have hcookie : added.itsCookieName = fw.itsCookieName := by simp [added]
  let key := extractKey fw.itsCookieName theRequest
  refine ⟨added.stickySelect theReactor key, ?_, ?_⟩
  . rw [getBackend_sticky theReactor theRequest itsGenerator' hmode' hadded_ne, hcookie]
  by_cases hinfos : fw.itsBackendInfos = []
  . left
    have hlt := stickySelect_lt added theReactor key hadded_ne
    rw [hadded, hinfos] at hlt
    rw [hinfos]
    simpa using hlt
  have hget := getBackend_sticky theReactor theRequest itsGenerator hmode hinfos
  have hmem : ∀ info ∈ fw.itsBackendInfos, info ∈ added.itsBackendInfos := by
    intro info hinfo
    rw [hadded]
    apply List.mem_append_left _ hinfo
  rcases threshold_anti hrange (by simp [added]) hmem hinfos hfits with ⟨hfits', hle⟩
  rcases isFirstBest_threshold key hinfos hrange hfits with ⟨info, hbest⟩
  rcases isFirstBest_threshold key hadded_ne hrange hfits' with ⟨info', hbest'⟩
  rw [hadded] at hbest'
  rcases hbest.append_cases hbest' (fun info => stickySkip_mono hle) with hlast | hsame | hskip
  . exact .inl hlast
  . right
    left
    rw [hget, hsame]
  . right
    right
    refine ⟨_, info, hget, hbest.getElem?, ?_⟩
    rwa [stickySkip_eq_true_iff] at hskip

theorem removeBackend_remaps {fw : BackendForwarder F} (theReactor' : Reactor)
    (hostName : ByteString) (port : Int) (hmode : fw.mode = .sticky)
    (hrange : ∀ backend, 0 ≤ status theReactor backend ∧ status theReactor backend ≤ intMax)
    (hremoved_ne : (fw.removeBackend hostName port theReactor').itsBackendInfos ≠ [])
    (hfits' : LeastFits fw.itsBalancingCoefficient theReactor
      (fw.removeBackend hostName port theReactor').backends)
    : RemovalRemaps theReactor theRequest itsGenerator itsGenerator'
        (fw.itsBackendInfos.findIdx fun it => it.nameAndPort = (hostName, port)) fw
        (fw.removeBackend hostName port theReactor') := by
  let removed := fw.removeBackend hostName port theReactor'
  have hremoved : removed.itsBackendInfos = fw.itsBackendInfos.eraseIdx
      (fw.itsBackendInfos.findIdx fun it => it.nameAndPort = (hostName, port)) :=
    itsBackendInfos_removeBackend_eq_eraseIdx fw theReactor' hostName port
  have hinfos : fw.itsBackendInfos ≠ [] := by
    intro hnil
    rw [hremoved, hnil] at hremoved_ne
    contradiction
  have hmode' : removed.mode = .sticky := by simp [removed, hmode]
  have hcookie : removed.itsCookieName = fw.itsCookieName := by simp [removed]
  let key := extractKey fw.itsCookieName theRequest
  have hget := getBackend_sticky theReactor theRequest itsGenerator hmode hinfos
  have hget' := getBackend_sticky theReactor theRequest itsGenerator' hmode' hremoved_ne
  rw [hcookie] at hget'
  have hcoefficient : fw.itsBalancingCoefficient = removed.itsBalancingCoefficient := by
    simp [removed]
  have hmem : ∀ info ∈ removed.itsBackendInfos, info ∈ fw.itsBackendInfos := by
    intro info hinfo
    rw [hremoved] at hinfo
    apply List.mem_of_mem_eraseIdx hinfo
  rw [hcoefficient] at hfits'
  rcases threshold_anti hrange hcoefficient hmem hremoved_ne hfits' with ⟨hfits, hle⟩
  rcases isFirstBest_threshold key hinfos hrange hfits with ⟨info, hbest⟩
  rcases isFirstBest_threshold key hremoved_ne hrange hfits' with ⟨info', hbest'⟩
  refine ⟨_, _, info, info', hget, hbest.getElem?, hget', hbest'.getElem?, ?_⟩
  rw [hremoved] at hbest'
  rcases hbest.eraseIdx_cases hbest' (fun info => stickySkip_mono hle)
    with herased | hsame | hskip
  . exact .inr (.inl herased)
  . left
    have hinfo := hbest.getElem?
    have hinfo' := hbest'.getElem?
    rw [List.getElem?_eraseIdx] at hinfo'
    grind
  . right
    right
    rwa [stickySkip_eq_true_iff] at hskip

/--
Adding or removing one backend only moves the keys that go to it, or that the bound on the
connections moves, as long as the bound of the shorter list stays within the range of `int`.
-/
theorem sticky_remapsMinimally (fw : BackendForwarder F) (theReactor theReactor' : Reactor)
    (theRequest : Request) (itsGenerator itsGenerator' : Generator F) (hostName : ByteString)
    (port : Int) (load : F) (hmode : fw.mode = .sticky)
    (hrange : ∀ backend, 0 ≤ status theReactor backend ∧ status theReactor backend ≤ intMax)
    : (LeastFits fw.itsBalancingCoefficient theReactor fw.backends →
          AdditionRemaps theReactor theRequest itsGenerator itsGenerator' fw
            (fw.addBackend hostName port load theReactor'))
        ∧ ((fw.removeBackend hostName port theReactor').itsBackendInfos ≠ [] →
          LeastFits fw.itsBalancingCoefficient theReactor
            (fw.removeBackend hostName port theReactor').backends →
          RemovalRemaps theReactor theRequest itsGenerator itsGenerator'
            (fw.itsBackendInfos.findIdx fun it => it.nameAndPort = (hostName, port)) fw
            (fw.removeBackend hostName port theReactor')) := by
  constructor
  . apply addBackend_remaps theRequest itsGenerator itsGenerator' theReactor' hostName port load
      hmode hrange
  . apply removeBackend_remaps theRequest itsGenerator itsGenerator' theReactor' hostName port
      hmode hrange

section Sample

open Sample

theorem sticky_remapsMinimally_sample
    : AdditionRemaps reactor request generator generator (stickyForwarder ["a", "b"])
          ((stickyForwarder ["a", "b"]).addBackend (ByteString.lit "c") 8080 1 reactor)
        ∧ RemovalRemaps reactor request generator generator 0 (stickyForwarder ["a", "b"])
          ((stickyForwarder ["a", "b"]).removeBackend (ByteString.lit "a") 8080 reactor) := by
  constructor
  . exact (sticky_remapsMinimally (stickyForwarder ["a", "b"]) reactor reactor request generator
      generator (ByteString.lit "c") 8080 1 rfl status_reactor).1 (leastFits_reactor _)
  . exact (sticky_remapsMinimally (stickyForwarder ["a", "b"]) reactor reactor request generator
      generator (ByteString.lit "a") 8080 1 rfl status_reactor).2 (by decide) (leastFits_reactor _)

end Sample

end Remapping

end BackendForwarder

end Sputnik
