import Sputnik.Forwarder.Rendezvous
import Sputnik.Services.Selection

/-!
This module contains which services `getService` can return: every backend of the list that a
request is routed to is returned for some draw of the generator and some load of the backends.
-/

namespace Sputnik

variable {F : Type}

def Generator.constant (i : Nat) : Generator F where
  discrete w := if i < w.length then i else 0
  uniform _ n := if i < n then i else 0
  discrete_lt := by
    intro w hw
    split
    . assumption
    . apply List.length_pos_of_ne_nil hw
  uniform_lt := by
    intro k n hn
    split
    . assumption
    . assumption

-- All backends but one have `count` active connections.
def Reactor.busyBut (backend : ByteString × Int) (count : Int) : Reactor where
  isShuttingDown := false
  isLoadHigh := false
  getBackendRequestStatus hostName port := if (hostName, port) = backend then 0 else count
  getURIMap := []
  isURIPrefix _ := false
  getAdminRequestNames := []

variable [FloatArith F]

namespace BackendForwarder

theorem getBackend_constant {fw : BackendForwarder F} {i : Nat} (theReactor : Reactor)
    (theRequest : Request) (hmode : fw.mode ≠ .sticky) (hweighted : fw.Weighted)
    (hi : i < fw.itsBackendInfos.length)
    : fw.getBackend theReactor theRequest (.constant i) = .ok i := by
  have hinfos : fw.itsBackendInfos ≠ [] := by
    intro hnil
    rw [hnil] at hi
    contradiction
  unfold getBackend
  split
  . simp [randomGetBackend, hinfos, Generator.constant, hi]
  . simp [doubleRandomGetBackend, hinfos, Generator.constant, hi]
  . contradiction
  all_goals
    next hdraws =>
      have hlength : (fw.rebalance theReactor).itsDistribution.length
          = fw.itsBackendInfos.length := by
        rw [weighted_rebalance theReactor hweighted (by rw [mode_rebalance, hdraws]; rfl),
          itsBackendInfos_rebalance]
      simp [Generator.constant, hlength, hi]

omit [FloatArith F] in
theorem minCount_busyBut {infos : List (BackendInfo F)} {info : BackendInfo F} {count : Int}
    (hinfo : info ∈ infos) (hcount : 0 ≤ count)
    : minCount (.busyBut info.nameAndPort count) infos = 0 := by
  apply Int.le_antisymm
  . apply Int.le_trans (minCount_le hinfo)
    apply Int.le_of_eq
    exact if_pos rfl
  . rw [minCount_eq]
    rcases Lib.foldl_min_mem_or_eq ((infos.map BackendInfo.nameAndPort).map
      (status (.busyBut info.nameAndPort count))) intMax with hmem | heq
    . rcases List.mem_map.mp hmem with ⟨backend, _, hstatus⟩
      rw [← hstatus]
      unfold status Reactor.busyBut
      dsimp
      split
      . omega
      . assumption
    . rw [heq]
      decide

theorem stickySelect_busyBut [LawfulFloatArith F] {fw : BackendForwarder F} {info : BackendInfo F}
    (hinfo : info ∈ fw.itsBackendInfos) (key : ByteString)
    : let busy := stickyThreshold fw.itsBalancingCoefficient 0 + 1
      ∃ chosen,
        fw.itsBackendInfos[fw.stickySelect (.busyBut info.nameAndPort busy) key]? = some chosen
          ∧ chosen.nameAndPort = info.nameAndPort := by
  intro busy
  have hthreshold : 0 ≤ stickyThreshold fw.itsBalancingCoefficient 0 := by
    rw [stickyThreshold_zero]
    decide
  have hcount : minCount (.busyBut info.nameAndPort busy) fw.itsBackendInfos = 0 := by
    apply minCount_busyBut hinfo
    omega
  have hidle : connectionCount (.busyBut info.nameAndPort busy) info = 0 := if_pos rfl
  rcases isFirstBest_of_not_skip key ⟨info, hinfo, by
    rw [stickySkip_eq_false_iff, hcount, hidle]
    assumption⟩ with ⟨chosen, hbest⟩
  refine ⟨chosen, hbest.getElem?, ?_⟩
  have heligible := stickySkip_eq_false_iff.mp hbest.eligible
  rw [hcount] at heligible
  by_contra hne
  have hbusy : connectionCount (.busyBut info.nameAndPort busy) chosen = busy := if_neg hne
  omega

end BackendForwarder

namespace Services

-- In sticky mode the load makes the choice fall on the name and port, not on one of their services.
theorem exists_getService [LawfulFloatArith F] {mode : ForwardingMode} {s : Services F}
    (hs : s.AllSelectable mode) (haligned : s.Aligned) (theRequest : Request)
    {service : BackendService F} (hservice : service ∈ s.resolvedList theRequest)
    : ∃ theReactor itsGenerator found,
        s.getService theReactor theRequest itsGenerator = .ok (some found)
          ∧ found.nameAndPort = service.nameAndPort := by
  rcases mem_serviceList.mp hservice with ⟨entry, hentry, hmem⟩
  have hselectable := hs.2 _ entry hentry
  have hinfos := alignedEntry_iff.mp (haligned _ entry hentry)
  by_cases hmode : entry.2.mode = .sticky
  . have hinfo : service.info ∈ entry.2.itsBackendInfos := by
      rw [hinfos]
      apply List.mem_map_of_mem hmem
    rcases BackendForwarder.stickySelect_busyBut hinfo
      (BackendForwarder.extractKey entry.2.itsCookieName theRequest) with ⟨chosen, hchosen, hname⟩
    have hfound := hchosen
    rw [hinfos, List.getElem?_map, Option.map_eq_some_iff] at hfound
    rcases hfound with ⟨found, hfound, hinfo'⟩
    refine ⟨_, .constant 0, found, getService_of_getElem? hentry
      (BackendForwarder.getBackend_sticky _ theRequest _ hmode (List.ne_nil_of_mem hinfo)) hfound,
      ?_⟩
    rw [← BackendService.nameAndPort_info, hinfo', hname]
    rfl
  . rcases List.mem_iff_getElem?.mp hmem with ⟨i, hi⟩
    have hlt : i < entry.2.itsBackendInfos.length := by
      rw [hinfos, List.length_map]
      exact (List.getElem?_eq_some_iff.mp hi).1
    exact ⟨.busyBut service.nameAndPort 0, .constant i, service, getService_of_getElem? hentry
      (BackendForwarder.getBackend_constant _ theRequest hmode hselectable.weighted hlt) hi, rfl⟩

end Services

end Sputnik
