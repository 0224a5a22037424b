import Mathlib.Data.List.Nodup

/-!
This module contains the loop over a list that leaves out every element whose key it has seen.
-/

namespace Lib

variable {α κ : Type*} [DecidableEq κ]

def dedupBy (key : α → κ) : List α → List κ → List α
  | [], _ => []
  | x :: rest, seen =>
    if key x ∈ seen then
      dedupBy key rest seen
    else
      x :: dedupBy key rest (key x :: seen)

variable {key : α → κ} {l : List α} {seen : List κ} {x : α}

theorem mem_of_mem_dedupBy (h : x ∈ dedupBy key l seen) : x ∈ l ∧ key x ∉ seen := by
  induction l generalizing seen with
  | nil => contradiction
  | cons y rest ih =>
    unfold dedupBy at h
    split at h
    . have hrest := ih h
      exact ⟨List.mem_cons_of_mem y hrest.1, hrest.2⟩
    . next hy =>
      cases List.mem_cons.mp h with
      | inl heq =>
        rw [heq]
        exact ⟨List.mem_cons_self, hy⟩
      | inr h =>
        have hrest := ih h
        exact ⟨List.mem_cons_of_mem y hrest.1, fun hx => hrest.2 (List.mem_cons_of_mem _ hx)⟩

theorem exists_mem_dedupBy (hx : x ∈ l) (hseen : key x ∉ seen)
    : ∃ y ∈ dedupBy key l seen, key y = key x := by
  induction l generalizing seen with
  | nil => contradiction
  | cons z rest ih =>
    unfold dedupBy
    split
    . next hz =>
      apply ih _ hseen
      cases List.mem_cons.mp hx with
      | inl heq =>
        rw [heq] at hseen
        contradiction
      | inr hx => assumption
    . by_cases hkey : key x = key z
      . exact ⟨z, List.mem_cons_self, hkey.symm⟩
      . have hrest : x ∈ rest := by
          cases List.mem_cons.mp hx with
          | inl heq =>
            rw [heq] at hkey
            contradiction
          | inr hx => assumption
        have hnew : key x ∉ key z :: seen := by simp [hkey, hseen]
        rcases ih hrest hnew with ⟨y, hy, heq⟩
        exact ⟨y, List.mem_cons_of_mem z hy, heq⟩

theorem nodup_map_dedupBy (key : α → κ) (l : List α) (seen : List κ)
    : ((dedupBy key l seen).map key).Nodup := by
  induction l generalizing seen with
  | nil => simp [dedupBy]
  | cons x rest ih =>
    unfold dedupBy
    split
    . apply ih
    . rw [List.map_cons, List.nodup_cons]
      refine ⟨?_, ih _⟩
      intro h
      rcases List.mem_map.mp h with ⟨y, hy, hkey⟩
      apply (mem_of_mem_dedupBy hy).2
      simp [hkey]

end Lib
