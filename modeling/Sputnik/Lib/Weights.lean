import Mathlib.Algebra.BigOperators.Ring.List
import Mathlib.Algebra.Order.BigOperators.Group.List
import Mathlib.Algebra.Order.Field.Basic
import Mathlib.Tactic.Linarith

/-!
This module contains the weights that the elements of a list get when a function of the elements is
divided by its sum over the list.
-/

namespace Lib

variable {α β K : Type*} [Field K]

def normalized (v : List K) : List K := v.map fun w => w / v.sum

theorem sum_normalized {v : List K} (h : v.sum ≠ 0) : (normalized v).sum = 1 := by
  unfold normalized
  simp only [div_eq_mul_inv]
  rw [List.sum_map_mul_right, List.map_id']
  apply mul_inv_cancel₀ h

structure NormalizesTo (v weights : List K) : Prop where
  sum_ne_zero : v.sum ≠ 0
  eq : weights = normalized v

theorem getElem?_normalized_map {f : α → K} {l : List α} {i : Nat} {x : α} {w : K}
    (hx : l[i]? = some x) (hw : (normalized (l.map f))[i]? = some w) : w = f x / (l.map f).sum := by
  simp only [normalized, List.getElem?_map, hx, Option.map_some, Option.some.injEq] at hw
  exact hw.symm

variable [LinearOrder K]

/--
There is one weight for each element, the total is 1, and the weights decrease with the load.
-/
structure DistributesBy [LE β] (load : α → β) (l : List α) (weights : List K) : Prop where
  length : weights.length = l.length
  nonneg : ∀ w ∈ weights, 0 ≤ w
  total : weights.sum = 1
  antitone : ∀ (i j : Nat) (x y : α) (v w : K), l[i]? = some x → l[j]? = some y →
    weights[i]? = some v → weights[j]? = some w → load x ≤ load y → w ≤ v
  equal : ∀ (i j : Nat) (x y : α) (v w : K), l[i]? = some x → l[j]? = some y →
    weights[i]? = some v → weights[j]? = some w → load x = load y → v = w

variable [Preorder β]

theorem DistributesBy.of_map {load : α → β} {l : List α} {g : α → K} (hnonneg : ∀ x ∈ l, 0 ≤ g x)
    (htotal : (l.map g).sum = 1)
    (hanti : ∀ x ∈ l, ∀ y ∈ l, load x ≤ load y → g y ≤ g x)
    : DistributesBy load l (l.map g) := by
  have hle : ∀ (i j : Nat) (x y : α) (v w : K), l[i]? = some x → l[j]? = some y →
      (l.map g)[i]? = some v → (l.map g)[j]? = some w → load x ≤ load y → w ≤ v := by
    intro i j x y v w hx hy hv hw hload
    simp only [List.getElem?_map, hx, hy, Option.map_some, Option.some.injEq] at hv hw
    rw [← hv, ← hw]
    apply hanti x (List.mem_of_getElem? hx) y (List.mem_of_getElem? hy) hload
  refine ⟨by simp, ?_, htotal, hle, ?_⟩
  . intro w hw
    rcases List.mem_map.mp hw with ⟨x, hx, rfl⟩
    apply hnonneg x hx
  . intro i j x y v w hx hy hv hw hload
    apply le_antisymm
    . apply hle j i y x w v hy hx hw hv
      rw [hload]
    . apply hle i j x y v w hx hy hv hw
      rw [hload]

variable [IsStrictOrderedRing K]

theorem sum_pos_iff {v : List K} (hv : ∀ w ∈ v, 0 ≤ w) : 0 < v.sum ↔ ∃ w ∈ v, w ≠ 0 := by
  constructor
  . intro hsum
    by_contra hnone
    have hzero : v.sum = 0 := by
      apply List.sum_eq_zero
      intro w hw
      by_contra hne
      exact hnone ⟨w, hw, hne⟩
    rw [hzero] at hsum
    exact lt_irrefl 0 hsum
  . rintro ⟨w, hw, hne⟩
    have hpos : 0 < w := lt_of_le_of_ne (hv w hw) hne.symm
    apply lt_of_lt_of_le hpos (List.single_le_sum hv w hw)

theorem distributesBy_normalized {load : α → β} {l : List α} {f : α → K}
    (hnonneg : ∀ x ∈ l, 0 ≤ f x) (hpos : 0 < (l.map f).sum)
    (hanti : ∀ x ∈ l, ∀ y ∈ l, load x ≤ load y → f y ≤ f x)
    : DistributesBy load l (normalized (l.map f)) := by
  have htotal := sum_normalized hpos.ne'
  unfold normalized at *
  rw [List.map_map] at *
  apply DistributesBy.of_map _ htotal
  . intro x hx y hy hload
    apply div_le_div_of_nonneg_right (hanti x hx y hy hload) hpos.le
  . intro x hx
    apply div_nonneg (hnonneg x hx) hpos.le

theorem normalized_pos_iff {f : α → K} {l : List α} (hpos : 0 < (l.map f).sum) {i : Nat} {x : α}
    {w : K} (hx : l[i]? = some x) (hw : (normalized (l.map f))[i]? = some w) : 0 < w ↔ 0 < f x := by
  rw [getElem?_normalized_map hx hw, div_pos_iff_of_pos_right hpos]

-- The weight is the inverse of one plus a multiple of the load.
section Inverse

variable {load : α → β} {value : α → K} {l : List α} {a : K} (ha : 0 ≤ a)
  (hvalue : ∀ x ∈ l, 0 ≤ value x)

include ha hvalue

theorem inverse_divisor_pos {x : α} (hx : x ∈ l) : 0 < 1 + a * value x := by
  have := mul_nonneg ha (hvalue x hx)
  linarith

theorem sum_inverse_pos (hl : l ≠ []) : 0 < (l.map fun x => 1 / (1 + a * value x)).sum := by
  have hpos : ∀ x ∈ l, 0 < 1 / (1 + a * value x) := by
    intro x hx
    apply one_div_pos.mpr (inverse_divisor_pos ha hvalue hx)
  rw [sum_pos_iff]
  . rcases List.exists_mem_of_ne_nil l hl with ⟨x, hx⟩
    exact ⟨_, List.mem_map_of_mem hx, (hpos x hx).ne'⟩
  . intro w hw
    rcases List.mem_map.mp hw with ⟨x, hx, rfl⟩
    exact (hpos x hx).le

theorem distributesBy_inverse (hl : l ≠ [])
    (hmono : ∀ x ∈ l, ∀ y ∈ l, load x ≤ load y → value x ≤ value y)
    : DistributesBy load l (normalized (l.map fun x => 1 / (1 + a * value x))) := by
  apply distributesBy_normalized _ (sum_inverse_pos ha hvalue hl)
  . intro x hx y hy hload
    apply one_div_le_one_div_of_le (inverse_divisor_pos ha hvalue hx)
    have := mul_le_mul_of_nonneg_left (hmono x hx y hy hload) ha
    linarith
  . intro x hx
    exact (one_div_pos.mpr (inverse_divisor_pos ha hvalue hx)).le

end Inverse

end Lib
