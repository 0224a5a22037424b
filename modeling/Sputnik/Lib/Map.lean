import Mathlib.Tactic.Common
import Mathlib.Data.Option.Basic

/-!
This module contains ordered maps in the way `std::map` is used: lookups after an insertion, and
the loop that walks over all entries, rewrites every value in place and carries a state along.
-/

namespace Lib

open Std

variable {κ β σ : Type*} {cmp : κ → κ → Ordering} [TransCmp cmp] [LawfulEqCmp cmp]

theorem getElem?_insert_eq [DecidableEq κ] (m : TreeMap κ β cmp) (k a : κ) (v : β)
    : (m.insert k v)[a]? = if k = a then some v else m[a]? := by
  rw [TreeMap.getElem?_insert]
  simp only [LawfulEqCmp.compare_eq_iff_eq]

theorem getElem?_erase_eq [DecidableEq κ] (m : TreeMap κ β cmp) (k a : κ)
    : (m.erase k)[a]? = if k = a then none else m[a]? := by
  rw [TreeMap.getElem?_erase]
  simp only [LawfulEqCmp.compare_eq_iff_eq]

theorem distinct_toList (m : TreeMap κ β cmp) : m.toList.Pairwise fun a b => a.1 ≠ b.1 := by
  apply List.Pairwise.imp _ (TreeMap.distinct_keys_toList (t := m))
  intro a b hne heq
  apply hne
  rw [heq]
  apply ReflCmp.compare_self

theorem find?_toList [DecidableEq κ] (m : TreeMap κ β cmp) (k : κ)
    : (m.toList.find? fun p => p.1 = k) = m[k]?.map fun v => (k, v) := by
  cases hk : m[k]? with
  | none =>
    rw [Option.map_none, List.find?_eq_none]
    intro p hp hkey
    rw [TreeMap.mem_toList_iff_getElem?_eq_some, of_decide_eq_true hkey, hk] at hp
    contradiction
  | some v =>
    have hmem : (k, v) ∈ m.toList := by rwa [TreeMap.mem_toList_iff_getElem?_eq_some]
    cases hfind : m.toList.find? fun p => p.1 = k with
    | none =>
      have := List.find?_eq_none.mp hfind (k, v) hmem
      simp at this
    | some p =>
      have hp := List.mem_of_find?_eq_some hfind
      have hkey : p.1 = k := by simpa using List.find?_some hfind
      rw [TreeMap.mem_toList_iff_getElem?_eq_some, hkey, hk] at hp
      rw [Option.map_some, ← hkey, Option.some.inj hp]

theorem flatMap_toList {α : Type*} [DecidableEq κ] (m : TreeMap κ β cmp) (k : κ) (g : β → List α)
    : (m.toList.flatMap fun p => if p.1 = k then g p.2 else []) = (m[k]?.map g).getD [] := by
  have hlist : ∀ l : List (κ × β), l.Pairwise (fun a b => a.1 ≠ b.1) →
      (l.flatMap fun p => if p.1 = k then g p.2 else [])
        =
      ((l.find? fun p => p.1 = k).map fun p => g p.2).getD [] := by
    intro l
    induction l with
    | nil => simp
    | cons p l ih =>
      intro hl
      rcases List.pairwise_cons.mp hl with ⟨hp, hl⟩
      rw [List.flatMap_cons, ih hl]
      by_cases hk : p.1 = k
      . have hnone : (l.find? fun q => q.1 = k) = none := by
          rw [List.find?_eq_none]
          intro q hq
          simpa [← hk] using fun h => hp q hq h.symm
        simp [hk, hnone]
      . simp [hk]
  rw [hlist m.toList (distinct_toList m), find?_toList, Option.map_map]
  rfl

def forEntries (f : κ → β → σ → β × σ) (m : TreeMap κ β cmp) (s : σ) : TreeMap κ β cmp × σ :=
  m.foldl
    (fun acc k v =>
      let (v, s) := f k v acc.2
      (acc.1.insert k v, s))
    (m, s)

section ForEntries

variable (f : κ → β → σ → β × σ) {g : κ → β → β}

theorem forEntries_list [DecidableEq κ] (hg : ∀ k v s, (f k v s).1 = g k v) (l : List (κ × β))
    (hl : l.Pairwise fun a b => a.1 ≠ b.1) (m : TreeMap κ β cmp) (s : σ) (k : κ)
    : (l.foldl (fun acc p => (acc.1.insert p.1 (f p.1 p.2 acc.2).1, (f p.1 p.2 acc.2).2)) (m, s)).1[k]?
        =
      match l.find? fun p => p.1 = k with
      | some p => some (g k p.2)
      | none => m[k]? := by
  induction l generalizing m s with
  | nil => rfl
  | cons p l ih =>
    rcases List.pairwise_cons.mp hl with ⟨hp, hl⟩
    rw [List.foldl_cons, ih hl]
    by_cases hk : p.1 = k
    . have hnone : l.find? (fun q => decide (q.1 = k)) = none := by
        rw [List.find?_eq_none]
        intro q hq
        simpa [← hk] using fun h => hp q hq h.symm
      rw [hnone]
      simp only [hk, hg, List.find?_cons, decide_true, getElem?_insert_eq, if_true]
    . simp only [hk, List.find?_cons, decide_false, getElem?_insert_eq, if_false]

theorem getElem?_forEntries [DecidableEq κ] (hg : ∀ k v s, (f k v s).1 = g k v)
    (m : TreeMap κ β cmp) (s : σ) (k : κ)
    : (forEntries f m s).1[k]? = m[k]?.map (g k) := by
  unfold forEntries
  rw [TreeMap.foldl_eq_foldl_toList]
  have := forEntries_list f hg m.toList (distinct_toList m) m s k
  dsimp at this ⊢
  rw [this, find?_toList]
  cases m[k]? with
  | none => rfl
  | some v => rfl

omit [TransCmp cmp] [LawfulEqCmp cmp] in
theorem forEntries_snd (m : TreeMap κ β cmp) (s : σ)
    : (forEntries f m s).2 = m.toList.foldl (fun s p => (f p.1 p.2 s).2) s := by
  unfold forEntries
  rw [TreeMap.foldl_eq_foldl_toList]
  generalize m.toList = l
  suffices h : ∀ m' : TreeMap κ β cmp,
      (l.foldl (fun acc p => (acc.1.insert p.1 (f p.1 p.2 acc.2).1, (f p.1 p.2 acc.2).2)) (m', s)).2
        =
      l.foldl (fun s p => (f p.1 p.2 s).2) s by
    apply h
  induction l generalizing s with
  | nil => simp
  | cons p l ih =>
    intro m'
    rw [List.foldl_cons, List.foldl_cons]
    apply ih

end ForEntries

end Lib
