import Mathlib.Algebra.BigOperators.Fin
import Mathlib.Data.Finset.Prod
import Mathlib.Data.Fintype.Prod

/-!
This module contains the lesser of two draws: how many of all pairs of draws choose an element.
-/

namespace Lib

section Lesser

open Finset

variable {α β : Type*} [LinearOrder β]

-- The one with the lesser value, and the first one where they are equal.
def lesser (c : α → β) (p : α × α) : α := if c p.1 ≤ c p.2 then p.1 else p.2

theorem lesser_eq_iff {c : α → β} {p : α × α} {i : α}
    : lesser c p = i ↔ p.1 = i ∧ c i ≤ c p.2 ∨ c i < c p.1 ∧ p.2 = i := by
  unfold lesser
  constructor
  . intro h
    split at h
    . next hle =>
      rw [h] at hle
      exact .inl ⟨h, hle⟩
    . next hlt =>
      rw [h, not_le] at hlt
      exact .inr ⟨hlt, h⟩
  . rintro (⟨hfirst, hle⟩ | ⟨hlt, hsecond⟩)
    . rw [hfirst, if_pos hle]
    . rw [hsecond, if_neg (not_le.mpr hlt)]

variable [Fintype α] [DecidableEq α]

-- A draw of `i` first wins all ties, and a draw of `i` second none of them.
theorem card_lesser_eq (c : α → β) (i : α)
    : #{p : α × α | lesser c p = i} = #{j | c i ≤ c j} + #{j | c i < c j} := by
  have hunion : univ.filter (fun p : α × α => lesser c p = i)
      = ({i} ×ˢ univ.filter fun j => c i ≤ c j) ∪ (univ.filter fun j => c i < c j) ×ˢ {i} := by
    ext p
    simp only [mem_filter, mem_univ, true_and, mem_union, mem_product, mem_singleton,
      lesser_eq_iff]
  have hdisjoint : Disjoint ({i} ×ˢ univ.filter fun j => c i ≤ c j)
      ((univ.filter fun j => c i < c j) ×ˢ {i}) := by
    rw [disjoint_left]
    intro p hfirst hsecond
    simp only [mem_product, mem_singleton, mem_filter, mem_univ, true_and] at hfirst hsecond
    rw [hfirst.1] at hsecond
    exact lt_irrefl _ hsecond.1
  rw [hunion, card_union_of_disjoint hdisjoint, card_product, card_product, card_singleton,
    one_mul, mul_one]

theorem card_lesser_mem {c : α → β} {S : Finset α} {b : β} (hS : ∀ i ∈ S, c i = b)
    : #{p : α × α | lesser c p ∈ S} = #S * (#{j | b ≤ c j} + #{j | b < c j}) := by
  have hfibers : ∀ i ∈ S,
      #((univ.filter fun p : α × α => lesser c p ∈ S).filter fun p => lesser c p = i)
        = #{j | b ≤ c j} + #{j | b < c j} := by
    intro i hi
    rw [← hS i hi, ← card_lesser_eq, filter_filter]
    congr 1
    ext p
    simp only [mem_filter, mem_univ, true_and, and_iff_right_iff_imp]
    intro h
    rwa [h]
  have hmaps : ∀ p ∈ univ.filter (fun p : α × α => lesser c p ∈ S), lesser c p ∈ S := by
    intro p hp
    exact (mem_filter.mp hp).2
  rw [card_eq_sum_card_fiberwise hmaps, sum_congr rfl hfibers, sum_const, smul_eq_mul]

omit [Fintype α] [DecidableEq α] in
theorem card_filter_getElem (l : List α) (p : α → Bool)
    : #{i : Fin l.length | p l[i.1]} = l.countP p := by
  rw [card_filter, Fin.sum_univ_fun_getElem l (fun x => if p x then 1 else 0)]
  induction l with
  | nil => rfl
  | cons x l ih => simp [List.countP_cons, ih, Nat.add_comm]

end Lesser

end Lib
