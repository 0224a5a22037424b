import Mathlib.Algebra.Order.Field.Rat
import Sputnik.Forwarder.Basic
import Sputnik.Lib.ArgMax
import Sputnik.Lib.Weights

/-!
This module contains the weights of the forwarders in exact arithmetic: what they add up to, how
they are ordered, and when the division by their sum is defined.
-/

namespace Sputnik

namespace BackendForwarder

-- the first pass of the loops, a negative minimum being none
def leastCount {F : Type} (theReactor : Reactor) (infos : List (BackendInfo F)) : Int :=
  infos.foldl
    (fun minCount info =>
      let count := connectionCount theReactor info
      if minCount < 0 then count else min minCount count)
    (-1)

section LeastCount

variable {F : Type} {theReactor : Reactor}
  (hcount : ∀ info : BackendInfo F, 0 ≤ connectionCount theReactor info)

include hcount

theorem foldl_leastCount (infos : List (BackendInfo F)) {minCount : Int} (hmin : 0 ≤ minCount)
    : infos.foldl
          (fun minCount info =>
            let count := connectionCount theReactor info
            if minCount < 0 then count else min minCount count)
          minCount
        =
      (infos.map (connectionCount theReactor)).foldl min minCount := by
  induction infos generalizing minCount with
  | nil => rfl
  | cons info infos ih =>
    have hset : ¬minCount < 0 := by omega
    have hnext : 0 ≤ min minCount (connectionCount theReactor info) :=
      le_min hmin (hcount info)
    rw [List.foldl_cons, List.map_cons, List.foldl_cons, ← ih hnext]
    dsimp
    rw [if_neg hset]

theorem leastCount_cons (info : BackendInfo F) (infos : List (BackendInfo F))
    : leastCount theReactor (info :: infos)
        =
      (infos.map (connectionCount theReactor)).foldl min (connectionCount theReactor info) := by
  rw [← foldl_leastCount hcount infos (hcount info)]
  rfl

theorem leastCount_le {infos : List (BackendInfo F)} {info : BackendInfo F} (hinfo : info ∈ infos)
    : leastCount theReactor infos ≤ connectionCount theReactor info := by
  cases infos with
  | nil => contradiction
  | cons first infos =>
    rw [leastCount_cons hcount]
    cases List.mem_cons.mp hinfo with
    | inl heq =>
      rw [heq]
      apply Lib.foldl_min_le
    | inr hinfo =>
      apply Lib.foldl_min_le_of_mem
      apply List.mem_map_of_mem hinfo

theorem exists_leastCount {infos : List (BackendInfo F)} (hinfos : infos ≠ [])
    : ∃ info ∈ infos, connectionCount theReactor info = leastCount theReactor infos := by
  cases infos with
  | nil => contradiction
  | cons first infos =>
    rw [leastCount_cons hcount]
    cases Lib.foldl_min_mem_or_eq (infos.map (connectionCount theReactor))
      (connectionCount theReactor first) with
    | inl hmem =>
      rcases List.mem_map.mp hmem with ⟨info, hinfo, heq⟩
      exact ⟨info, List.mem_cons_of_mem first hinfo, heq⟩
    | inr heq => exact ⟨first, List.mem_cons_self, heq.symm⟩

theorem eq_leastCount_iff {infos : List (BackendInfo F)} {info : BackendInfo F}
    (hinfo : info ∈ infos)
    : connectionCount theReactor info = leastCount theReactor infos
        ↔
      ∀ other ∈ infos, connectionCount theReactor info ≤ connectionCount theReactor other := by
  constructor
  . intro heq other hother
    rw [heq]
    apply leastCount_le hcount hother
  . intro hle
    rcases exists_leastCount hcount (List.ne_nil_of_mem hinfo) with ⟨least, hleast, heq⟩
    have := hle least hleast
    have := leastCount_le hcount hinfo
    omega

end LeastCount

section Exact

-- what `redistribute` computes in exact arithmetic
def exactWeights (exp : Rat → Rat) (fw : BackendForwarder Rat) (theReactor : Reactor) : List Rat :=
  (@redistribute Rat (exactArith exp) fw theReactor).itsDistribution

variable (exp : Rat → Rat) (fw : BackendForwarder Rat) (theReactor : Reactor)

def loadDivisor (info : BackendInfo Rat) : Rat :=
  1 + fw.itsBalancingCoefficient * max 1 info.load

def connectionsDivisor (info : BackendInfo Rat) : Rat :=
  1 + fw.itsBalancingCoefficient * connectionCount theReactor info

def exponentialWeight (info : BackendInfo Rat) : Rat :=
  exp (-fw.itsBalancingCoefficient * connectionCount theReactor info)

-- the second pass of the loops
def leastWeight (info : BackendInfo Rat) : Rat :=
  if connectionCount theReactor info = leastCount theReactor fw.itsBackendInfos then 1 else 0

theorem exact_accumulate (v : List Rat)
    : @FloatArith.accumulate Rat (exactArith exp) v = v.sum := by
  rw [List.sum_eq_foldl]
  rfl

theorem exact_normalize (v : List Rat)
    : @normalize Rat (exactArith exp) v = Lib.normalized v := by
  unfold normalize Lib.normalized
  rw [exact_accumulate]

theorem exact_max (a b : Rat) : @FloatArith.max Rat (exactArith exp) a b = max a b := by
  unfold FloatArith.max
  split
  . next h => rw [max_eq_right (of_decide_eq_true h).le]
  . next h =>
    have hle : b ≤ a := not_lt.mp fun hlt => h (decide_eq_true hlt)
    rw [max_eq_left hle]

theorem exactWeights_inverseLoad (hmode : fw.mode = .inverseLoad)
    : exactWeights exp fw theReactor
        =
      Lib.normalized (fw.itsBackendInfos.map fun info => 1 / fw.loadDivisor info) := by
  unfold exactWeights redistribute
  rw [hmode]
  dsimp
  unfold inverseLoadWeights
  simp only [exact_normalize, exact_max]
  rfl

theorem exactWeights_inverseConnections (hmode : fw.mode = .inverseConnections)
    : exactWeights exp fw theReactor
        =
      Lib.normalized
        (fw.itsBackendInfos.map fun info => 1 / fw.connectionsDivisor theReactor info) := by
  unfold exactWeights redistribute
  rw [hmode]
  apply exact_normalize

theorem exactWeights_exponentialConnections (hmode : fw.mode = .exponentialConnections)
    : exactWeights exp fw theReactor
        =
      Lib.normalized (fw.itsBackendInfos.map (exponentialWeight exp fw theReactor)) := by
  unfold exactWeights redistribute
  rw [hmode]
  apply exact_normalize

theorem exactWeights_leastConnections (hmode : fw.mode = .leastConnections)
    (hpos : 0 < (fw.itsBackendInfos.map (fw.leastWeight theReactor)).sum)
    : exactWeights exp fw theReactor
        =
      Lib.normalized (fw.itsBackendInfos.map (fw.leastWeight theReactor)) := by
  have hlt : decide (0 < @FloatArith.accumulate Rat (exactArith exp)
      (fw.itsBackendInfos.map (fw.leastWeight theReactor))) = true := by
    rw [exact_accumulate]
    apply decide_eq_true hpos
  unfold exactWeights redistribute
  rw [hmode, ← exact_normalize exp]
  apply if_pos hlt

theorem leastWeight_nonneg (info : BackendInfo Rat) : 0 ≤ fw.leastWeight theReactor info := by
  unfold leastWeight
  split
  . exact zero_le_one
  . exact le_rfl

section Weights

variable (hcount : ∀ info : BackendInfo Rat, 0 ≤ connectionCount theReactor info)
  (hinfos : fw.itsBackendInfos ≠ [])

include hcount

theorem leastWeight_pos_iff {info : BackendInfo Rat} (hinfo : info ∈ fw.itsBackendInfos)
    : 0 < fw.leastWeight theReactor info
        ↔
      ∀ other ∈ fw.itsBackendInfos,
        connectionCount theReactor info ≤ connectionCount theReactor other := by
  rw [← eq_leastCount_iff hcount hinfo]
  unfold leastWeight
  split
  . next heq => simp [heq]
  . next hne => simp [hne]

theorem leastWeight_anti {x y : BackendInfo Rat} (hx : x ∈ fw.itsBackendInfos)
    (hle : connectionCount theReactor x ≤ connectionCount theReactor y)
    : fw.leastWeight theReactor y ≤ fw.leastWeight theReactor x := by
  have hleast := leastCount_le hcount hx
  unfold leastWeight
  split
  . next hy =>
    have hx : connectionCount theReactor x = leastCount theReactor fw.itsBackendInfos := by omega
    rw [if_pos hx]
  . apply leastWeight_nonneg

include hinfos

theorem sum_leastWeight_pos : 0 < (fw.itsBackendInfos.map (fw.leastWeight theReactor)).sum := by
  rw [Lib.sum_pos_iff]
  . rcases exists_leastCount hcount hinfos with ⟨info, hinfo, heq⟩
    exact ⟨_, List.mem_map_of_mem hinfo, by simp [leastWeight, heq]⟩
  . intro w hw
    rcases List.mem_map.mp hw with ⟨info, _, rfl⟩
    apply leastWeight_nonneg

theorem inverseConnections_distributes (ha : 0 ≤ fw.itsBalancingCoefficient)
    (hmode : fw.mode = .inverseConnections)
    : (∀ info ∈ fw.itsBackendInfos, fw.connectionsDivisor theReactor info ≠ 0)
        ∧ Lib.NormalizesTo
            (fw.itsBackendInfos.map fun info => 1 / fw.connectionsDivisor theReactor info)
            (exactWeights exp fw theReactor)
        ∧ Lib.DistributesBy (connectionCount theReactor) fw.itsBackendInfos
            (exactWeights exp fw theReactor) := by
  have hvalue : ∀ info ∈ fw.itsBackendInfos, (0 : Rat) ≤ connectionCount theReactor info := by
    intro info _
    exact_mod_cast hcount info
  rw [exactWeights_inverseConnections exp fw theReactor hmode]
  refine ⟨?_, ⟨?_, rfl⟩, ?_⟩
  . intro info hinfo
    exact (Lib.inverse_divisor_pos ha hvalue hinfo).ne'
  . exact (Lib.sum_inverse_pos ha hvalue hinfos).ne'
  . apply Lib.distributesBy_inverse ha hvalue hinfos
    intro x _ y _ hle
    exact_mod_cast hle

omit hcount in
theorem inverseLoad_distributes (ha : 0 ≤ fw.itsBalancingCoefficient)
    (hmode : fw.mode = .inverseLoad)
    : (∀ info ∈ fw.itsBackendInfos, fw.loadDivisor info ≠ 0)
        ∧ Lib.NormalizesTo (fw.itsBackendInfos.map fun info => 1 / fw.loadDivisor info)
            (exactWeights exp fw theReactor)
        ∧ Lib.DistributesBy (fun info => max 1 info.load) fw.itsBackendInfos
            (exactWeights exp fw theReactor) := by
  have hvalue : ∀ info ∈ fw.itsBackendInfos, (0 : Rat) ≤ max 1 info.load := by
    intro info _
    apply le_trans zero_le_one (le_max_left 1 info.load)
  rw [exactWeights_inverseLoad exp fw theReactor hmode]
  refine ⟨?_, ⟨?_, rfl⟩, ?_⟩
  . intro info hinfo
    exact (Lib.inverse_divisor_pos ha hvalue hinfo).ne'
  . exact (Lib.sum_inverse_pos ha hvalue hinfos).ne'
  . apply Lib.distributesBy_inverse ha hvalue hinfos
    intro x _ y _ hle
    assumption

theorem leastConnections_distributes (hmode : fw.mode = .leastConnections)
    : Lib.NormalizesTo (fw.itsBackendInfos.map (fw.leastWeight theReactor))
          (exactWeights exp fw theReactor)
        ∧ Lib.DistributesBy (connectionCount theReactor) fw.itsBackendInfos
            (exactWeights exp fw theReactor)
        ∧ ∀ (i : Nat) (info : BackendInfo Rat) (w : Rat), fw.itsBackendInfos[i]? = some info →
            (exactWeights exp fw theReactor)[i]? = some w →
              (0 < w ↔ ∀ other ∈ fw.itsBackendInfos,
                connectionCount theReactor info ≤ connectionCount theReactor other) := by
  have hsum := sum_leastWeight_pos fw theReactor hcount hinfos
  rw [exactWeights_leastConnections exp fw theReactor hmode hsum]
  refine ⟨⟨hsum.ne', rfl⟩, ?_, ?_⟩
  . apply Lib.distributesBy_normalized _ hsum
    . intro x hx y _ hle
      apply leastWeight_anti fw theReactor hcount hx hle
    . intro info _
      apply leastWeight_nonneg
  . intro i info w hinfo hw
    rw [Lib.normalized_pos_iff hsum hinfo hw]
    apply leastWeight_pos_iff fw theReactor hcount (List.mem_of_getElem? hinfo)

/--
The three forwarders divide by no zero. They give each entry one non-negative weight, to a total of
1, that does not increase with its count (with its load where this is above 1, for `InverseLoad`),
and `LeastConnections` gives a positive one exactly to the entries with the least count.
-/
theorem redistribute_distributes (ha : 0 ≤ fw.itsBalancingCoefficient)
    : (fw.mode = .inverseConnections →
        (∀ info ∈ fw.itsBackendInfos, fw.connectionsDivisor theReactor info ≠ 0)
          ∧ Lib.NormalizesTo
              (fw.itsBackendInfos.map fun info => 1 / fw.connectionsDivisor theReactor info)
              (exactWeights exp fw theReactor)
          ∧ Lib.DistributesBy (connectionCount theReactor) fw.itsBackendInfos
              (exactWeights exp fw theReactor))
      ∧ (fw.mode = .inverseLoad →
          (∀ info ∈ fw.itsBackendInfos, fw.loadDivisor info ≠ 0)
            ∧ Lib.NormalizesTo (fw.itsBackendInfos.map fun info => 1 / fw.loadDivisor info)
                (exactWeights exp fw theReactor)
            ∧ Lib.DistributesBy (fun info => max 1 info.load) fw.itsBackendInfos
                (exactWeights exp fw theReactor))
      ∧ (fw.mode = .leastConnections →
          Lib.NormalizesTo (fw.itsBackendInfos.map (fw.leastWeight theReactor))
              (exactWeights exp fw theReactor)
            ∧ Lib.DistributesBy (connectionCount theReactor) fw.itsBackendInfos
                (exactWeights exp fw theReactor)
            ∧ ∀ (i : Nat) (info : BackendInfo Rat) (w : Rat), fw.itsBackendInfos[i]? = some info →
                (exactWeights exp fw theReactor)[i]? = some w →
                  (0 < w ↔ ∀ other ∈ fw.itsBackendInfos,
                    connectionCount theReactor info ≤ connectionCount theReactor other)) := by
  refine ⟨?_, ?_, ?_⟩
  . intro hmode
    apply inverseConnections_distributes exp fw theReactor hcount hinfos ha hmode
  . intro hmode
    apply inverseLoad_distributes exp fw theReactor hinfos ha hmode
  . intro hmode
    apply leastConnections_distributes exp fw theReactor hcount hinfos hmode

end Weights

section Sample

def forwarder (mode : ForwardingMode) : BackendForwarder Rat where
  mode := mode
  itsBackendInfos := [⟨ByteString.lit "a", 8080, 1⟩, ⟨ByteString.lit "b", 8080, 1⟩]
  itsDistribution := [1]
  itsBalancingCoefficient := 2
  itsCookieName := []

def counting (count : ByteString → Int) : Reactor :=
  { Sample.reactor with getBackendRequestStatus := fun hostName _ => count hostName }

def busyBut (hostName : String) : Reactor :=
  counting fun name => if name = ByteString.lit hostName then 3 else 52

theorem redistribute_distributes_sample
    : Lib.DistributesBy (connectionCount (busyBut "b"))
        (forwarder .leastConnections).itsBackendInfos
        (exactWeights id (forwarder .leastConnections) (busyBut "b")) := by
  have hcount : ∀ info : BackendInfo Rat, 0 ≤ connectionCount (busyBut "b") info := by
    intro info
    unfold connectionCount busyBut counting
    dsimp
    split
    . omega
    . omega
  have hdistributes := redistribute_distributes id (forwarder .leastConnections)
    (busyBut "b") hcount (by simp [forwarder]) (by norm_num [forwarder])
  exact (hdistributes.2.2 rfl).2.1

end Sample

-- The sum of the weights is positive, and the probabilities are defined and total 1.
structure ExponentialNormalizes : Prop where
  sum_pos : 0 < (fw.itsBackendInfos.map (exponentialWeight exp fw theReactor)).sum
  defined : Lib.NormalizesTo (fw.itsBackendInfos.map (exponentialWeight exp fw theReactor))
    (exactWeights exp fw theReactor)
  total : (exactWeights exp fw theReactor).sum = 1

variable {exp fw theReactor} (hnonneg : ∀ x, 0 ≤ exp x) (hmode : fw.mode = .exponentialConnections)

include hnonneg hmode

theorem exponentialNormalizes_iff
    : ExponentialNormalizes exp fw theReactor
        ↔
      ∃ info ∈ fw.itsBackendInfos, exponentialWeight exp fw theReactor info ≠ 0 := by
  have hsum := Lib.sum_pos_iff (v := fw.itsBackendInfos.map (exponentialWeight exp fw theReactor))
    (by simp [exponentialWeight, hnonneg])
  have hweights := exactWeights_exponentialConnections exp fw theReactor hmode
  have hpos : 0 < (fw.itsBackendInfos.map (exponentialWeight exp fw theReactor)).sum
      ↔ ∃ info ∈ fw.itsBackendInfos, exponentialWeight exp fw theReactor info ≠ 0 := by
    rw [hsum]
    simp
  rw [← hpos]
  constructor
  . intro h
    exact h.sum_pos
  . intro h
    refine ⟨h, ⟨h.ne', hweights⟩, ?_⟩
    rw [hweights]
    apply Lib.sum_normalized h.ne'

/--
The weights are normalised exactly if the exponential of one entry does not underflow to zero: where
a product of the coefficient and a count is at most 87, and not where all are at least 104.
-/
theorem exponential_defined_iff (hzero : ∀ x, x ≤ -104 → exp x = 0)
    (hpos : ∀ x, -87 ≤ x → 0 < exp x)
    : (ExponentialNormalizes exp fw theReactor
          ↔
        ∃ info ∈ fw.itsBackendInfos,
          exp (-fw.itsBalancingCoefficient * connectionCount theReactor info) ≠ 0)
      ∧ ((∃ info ∈ fw.itsBackendInfos,
            fw.itsBalancingCoefficient * connectionCount theReactor info ≤ 87) →
          ExponentialNormalizes exp fw theReactor)
      ∧ ((∀ info ∈ fw.itsBackendInfos,
            104 ≤ fw.itsBalancingCoefficient * connectionCount theReactor info) →
          ¬ExponentialNormalizes exp fw theReactor) := by
  have hiff : ExponentialNormalizes exp fw theReactor ↔ ∃ info ∈ fw.itsBackendInfos,
      exponentialWeight exp fw theReactor info ≠ 0 := exponentialNormalizes_iff hnonneg hmode
  refine ⟨hiff, ?_, ?_⟩
  . rintro ⟨info, hinfo, hle⟩
    apply hiff.mpr
    refine ⟨info, hinfo, ?_⟩
    have := hpos (-fw.itsBalancingCoefficient * connectionCount theReactor info) (by linarith)
    exact this.ne'
  . intro hbusy hnormalizes
    rcases hiff.mp hnormalizes with ⟨info, hinfo, hne⟩
    apply hne
    apply hzero
    have := hbusy info hinfo
    linarith

end Exact

section Sample

-- underflows as single precision does
def underflowing (x : Rat) : Rat := if x ≤ -104 then 0 else 1

theorem underflowing_nonneg (x : Rat) : 0 ≤ underflowing x := by
  unfold underflowing
  split
  . exact le_rfl
  . exact zero_le_one

theorem underflowing_pos (x : Rat) (h : -87 ≤ x) : 0 < underflowing x := by
  have hlarge : ¬x ≤ -104 := by
    intro hle
    linarith
  simp [underflowing, hlarge]

theorem underflowing_zero (x : Rat) (h : x ≤ -104) : underflowing x = 0 := if_pos h

theorem exponential_defined_iff_sample
    : ExponentialNormalizes underflowing (forwarder .exponentialConnections) (busyBut "b") := by
  apply (exponential_defined_iff underflowing_nonneg rfl underflowing_zero underflowing_pos).2.1
  have hcount : connectionCount (busyBut "b") (⟨ByteString.lit "b", 8080, 1⟩ : BackendInfo Rat) = 3
    := by decide
  refine ⟨⟨ByteString.lit "b", 8080, 1⟩, by decide, ?_⟩
  rw [hcount]
  norm_num [forwarder]

-- With the default coefficient, 52 active connections on every backend are enough.
theorem not_exponentialNormalizes_busy
    : ¬∀ (exp : Rat → Rat), (∀ x, 0 ≤ exp x) → (∀ x, x ≤ -104 → exp x = 0) →
        (∀ x, -87 ≤ x → 0 < exp x) →
          ∀ (fw : BackendForwarder Rat) (theReactor : Reactor),
            fw.mode = .exponentialConnections → fw.itsBackendInfos ≠ [] →
            0 < fw.itsBalancingCoefficient →
            (∀ info : BackendInfo Rat, 0 ≤ connectionCount theReactor info) →
              ExponentialNormalizes exp fw theReactor := by
  intro h
  have hnormalizes := h underflowing underflowing_nonneg underflowing_zero underflowing_pos
    (forwarder .exponentialConnections) (counting fun _ => 52) rfl (by simp [forwarder])
    (by norm_num [forwarder]) (fun _ => Int.natCast_nonneg 52)
  rcases (exponentialNormalizes_iff underflowing_nonneg rfl).mp hnormalizes with ⟨info, _, hne⟩
  apply hne
  apply underflowing_zero
  have hcount : connectionCount (counting fun _ => 52) info = 52 := rfl
  rw [hcount]
  norm_num [forwarder]

end Sample

end BackendForwarder

end Sputnik
