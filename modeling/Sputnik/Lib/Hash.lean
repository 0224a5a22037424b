import Mathlib.Logic.Function.Basic

/-!
This module contains folds whose step is injective in the state and in the element, as the step of
an unkeyed byte-wise hash is: what they keep apart.
-/

namespace Lib

variable {α σ : Type*}

def DifferAtOne (l m : List α) : Prop := l.length = m.length ∧ ∃! i : Nat, l[i]? ≠ m[i]?

theorem differAtOne_of_split {a b : α} (hne : a ≠ b) (before after : List α)
    : DifferAtOne (before ++ a :: after) (before ++ b :: after) := by
  refine ⟨by simp, before.length, by simpa using hne, ?_⟩
  intro j hj
  by_contra hother
  apply hj
  simp only [List.getElem?_append, List.getElem?_cons]
  split
  . rfl
  . have : j - before.length ≠ 0 := by omega
    simp [this]

theorem DifferAtOne.split {l m : List α} (h : DifferAtOne l m)
    : ∃ before a b after, a ≠ b ∧ l = before ++ a :: after ∧ m = before ++ b :: after := by
  rcases h with ⟨hlength, i, hi, hunique⟩
  dsimp at hi hunique
  have hbelow : i < l.length := by
    by_contra hge
    apply hi
    rw [List.getElem?_eq_none (by omega), List.getElem?_eq_none (by omega)]
  have hbelow' : i < m.length := by omega
  have hsame : ∀ j, j ≠ i → l[j]? = m[j]? := by
    intro j hj
    by_contra hne
    exact hj (hunique j hne)
  have htake : l.take i = m.take i := by
    apply List.ext_getElem?
    intro j
    simp only [List.getElem?_take]
    split
    . apply hsame
      omega
    . rfl
  have hdrop : l.drop (i + 1) = m.drop (i + 1) := by
    apply List.ext_getElem?
    intro j
    simp only [List.getElem?_drop]
    apply hsame
    omega
  refine ⟨l.take i, l[i], m[i], l.drop (i + 1), ?_, ?_, ?_⟩
  . intro heq
    apply hi
    rw [List.getElem?_eq_getElem hbelow, List.getElem?_eq_getElem hbelow', heq]
  . rw [← List.drop_eq_getElem_cons hbelow, List.take_append_drop]
  . rw [htake, hdrop, ← List.drop_eq_getElem_cons hbelow', List.take_append_drop]

variable {f : σ → α → σ}

theorem foldl_injective (hstate : ∀ a, Function.Injective fun s => f s a) (l : List α)
    : Function.Injective fun s => l.foldl f s := by
  induction l with
  | nil => exact Function.injective_id
  | cons a l ih => exact ih.comp (hstate a)

theorem foldl_ne_of_differAtOne (hstate : ∀ a, Function.Injective fun s => f s a)
    (helem : ∀ s, Function.Injective (f s)) {l m : List α} (h : DifferAtOne l m) (s : σ)
    : l.foldl f s ≠ m.foldl f s := by
  rcases h.split with ⟨before, a, b, after, hne, rfl, rfl⟩
  rw [List.foldl_append, List.foldl_append, List.foldl_cons, List.foldl_cons]
  -- the difference comes up at the one place, and no later step loses it
  apply (foldl_injective hstate after).ne
  apply (helem _).ne hne

end Lib
