import Sputnik.Forwarder.Sticky

/-!
This module contains `getBackend` of all forwarders, and why its index stays below the number of
backends.
-/

namespace Sputnik

namespace BackendForwarder

variable {F : Type} [FloatArith F]

def noBackendsAvailable : Error := .fmi (ByteString.lit "No backends available!")

-- `uniform_int_distribution{0, size - 1}` is the uniform distribution over `size` values.
def randomGetBackend (fw : BackendForwarder F) (itsGenerator : Generator F) : Except Error Nat :=
  if fw.itsBackendInfos.isEmpty then
    .error noBackendsAvailable
  else
    .ok (itsGenerator.uniform 0 fw.itsBackendInfos.length)

def doubleRandomGetBackend (fw : BackendForwarder F) (theReactor : Reactor)
    (itsGenerator : Generator F) : Except Error Nat :=
  if fw.itsBackendInfos.isEmpty then
    .error noBackendsAvailable
  else
    let num1 := itsGenerator.uniform 0 fw.itsBackendInfos.length
    let num2 := itsGenerator.uniform 1 fw.itsBackendInfos.length
    match fw.itsBackendInfos[num1]?, fw.itsBackendInfos[num2]? with
    | some info1, some info2 =>
      let count1 := connectionCount theReactor info1
      let count2 := connectionCount theReactor info2
      .ok (if count1 ≤ count2 then num1 else num2)
    | _, _ => .error .outOfRange

def stickyGetBackend (fw : BackendForwarder F) (theReactor : Reactor) (theRequest : Request)
    : Except Error Nat :=
  if fw.itsBackendInfos.isEmpty then
    .error noBackendsAvailable
  else
    .ok (fw.stickySelect theReactor (extractKey fw.itsCookieName theRequest))

/-
The modes that rebalance recompute the weights on every call, so that storing the weights computed
here back into the forwarder would not be seen by any later call.
-/
def getBackend (fw : BackendForwarder F) (theReactor : Reactor) (theRequest : Request)
    (itsGenerator : Generator F) : Except Error Nat :=
  match fw.mode with
  | .random => fw.randomGetBackend itsGenerator
  | .doubleRandom => fw.doubleRandomGetBackend theReactor itsGenerator
  | .sticky => fw.stickyGetBackend theReactor theRequest
  | .inverseLoad | .inverseConnections | .leastConnections | .exponentialConnections =>
    .ok (itsGenerator.discrete (fw.rebalance theReactor).itsDistribution)

theorem getBackend_sticky {fw : BackendForwarder F} (theReactor : Reactor) (theRequest : Request)
    (itsGenerator : Generator F) (hmode : fw.mode = .sticky) (hinfos : fw.itsBackendInfos ≠ [])
    : fw.getBackend theReactor theRequest itsGenerator
        =
      .ok (fw.stickySelect theReactor (extractKey fw.itsCookieName theRequest)) := by
  simp [getBackend, hmode, stickyGetBackend, hinfos]

theorem getBackend_sticky_nil {fw : BackendForwarder F} (theReactor : Reactor)
    (theRequest : Request) (itsGenerator : Generator F) (hmode : fw.mode = .sticky)
    (hinfos : fw.itsBackendInfos = [])
    : fw.getBackend theReactor theRequest itsGenerator = .error noBackendsAvailable := by
  simp [getBackend, hmode, stickyGetBackend, hinfos]

def Weighted (fw : BackendForwarder F) : Prop :=
  drawsFromDistribution fw.mode = true → fw.itsDistribution.length = fw.itsBackendInfos.length

theorem weighted_redistribute (fw : BackendForwarder F) (theReactor : Reactor)
    : (fw.redistribute theReactor).Weighted := by
  unfold Weighted
  intro h
  rw [mode_redistribute] at h
  rw [length_itsDistribution_redistribute fw theReactor h, itsBackendInfos_redistribute]

theorem weighted_addBackend (fw : BackendForwarder F) (hostName : ByteString) (port : Int)
    (load : F) (theReactor : Reactor)
    : (fw.addBackend hostName port load theReactor).Weighted := by
  unfold addBackend
  apply weighted_redistribute

theorem weighted_removeBackend (fw : BackendForwarder F) (hostName : ByteString) (port : Int)
    (theReactor : Reactor) : (fw.removeBackend hostName port theReactor).Weighted := by
  unfold removeBackend
  apply weighted_redistribute

theorem weighted_rebalance {fw : BackendForwarder F} (theReactor : Reactor) (h : fw.Weighted)
    : (fw.rebalance theReactor).Weighted := by
  unfold rebalance
  split
  all_goals first
    | apply weighted_redistribute
    | assumption

theorem mode_rebalance (fw : BackendForwarder F) (theReactor : Reactor)
    : (fw.rebalance theReactor).mode = fw.mode := by
  unfold rebalance
  split
  all_goals first
    | apply mode_redistribute
    | rfl

theorem discrete_rebalance_lt {fw : BackendForwarder F} (theReactor : Reactor)
    (itsGenerator : Generator F) (hweighted : fw.Weighted)
    (hmode : drawsFromDistribution fw.mode = true) (hinfos : fw.itsBackendInfos ≠ [])
    : itsGenerator.discrete (fw.rebalance theReactor).itsDistribution
        < fw.itsBackendInfos.length := by
  have hlength : (fw.rebalance theReactor).itsDistribution.length = fw.itsBackendInfos.length := by
    rw [weighted_rebalance theReactor hweighted (by rwa [mode_rebalance]),
      itsBackendInfos_rebalance]
  rw [← hlength]
  apply itsGenerator.discrete_lt
  intro hnil
  rw [hnil] at hlength
  apply hinfos (List.length_eq_zero_iff.mp hlength.symm)

theorem getBackend_lt {fw : BackendForwarder F} (theReactor : Reactor) (theRequest : Request)
    (itsGenerator : Generator F) (hweighted : fw.Weighted) (hinfos : fw.itsBackendInfos ≠ [])
    : ∃ i, fw.getBackend theReactor theRequest itsGenerator = .ok i
        ∧ i < fw.itsBackendInfos.length := by
  have hpos : 0 < fw.itsBackendInfos.length := List.length_pos_iff.mpr hinfos
  have hdraw : ∀ k, itsGenerator.uniform k fw.itsBackendInfos.length < fw.itsBackendInfos.length :=
    fun k => itsGenerator.uniform_lt k _ hpos
  unfold getBackend
  split
  . simpa [randomGetBackend, hinfos] using hdraw 0
  . simp only [doubleRandomGetBackend, List.isEmpty_iff, hinfos, if_false,
      List.getElem?_eq_getElem (hdraw 0), List.getElem?_eq_getElem (hdraw 1)]
    split
    . exact ⟨_, rfl, hdraw 0⟩
    . exact ⟨_, rfl, hdraw 1⟩
  . simp only [stickyGetBackend, List.isEmpty_iff, hinfos, if_false]
    refine ⟨_, rfl, ?_⟩
    apply stickySelect_lt
    assumption
  all_goals
    next hmode =>
      refine ⟨_, rfl, ?_⟩
      apply discrete_rebalance_lt theReactor itsGenerator hweighted _ hinfos
      rw [hmode]
      rfl

end BackendForwarder

namespace Sample

def generator : Generator Rat where
  discrete _ := 0
  uniform _ _ := 0
  discrete_lt := by
    intro w hw
    apply List.length_pos_of_ne_nil hw
  uniform_lt := by
    intro k n hn
    assumption

end Sample

end Sputnik
