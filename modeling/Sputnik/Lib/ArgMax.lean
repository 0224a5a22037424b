import Mathlib.Order.MinMax
import Mathlib.Order.Defs.LinearOrder
import Mathlib.Tactic.Common

/-!
This module contains the loop that selects the index of the first element with the greatest score,
skipping the elements that are not eligible, and what its result is for every list. The least value
of a list, on which eligibility may depend, is next to it.
-/

namespace Lib

variable {α β κ : Type*}

structure Best (β : Type*) where
  index : Nat
  score : β
  first : Bool

section Loop

variable [LinearOrder β]

def argMaxLoop (skip : α → Bool) (score : α → β) : List α → Nat → Best β → Best β
  | [], _, best => best
  | x :: rest, i, best =>
    if skip x then
      argMaxLoop skip score rest (i + 1) best
    else if best.first || best.score < score x then
      argMaxLoop skip score rest (i + 1) { index := i, score := score x, first := false }
    else
      argMaxLoop skip score rest (i + 1) best

variable {skip : α → Bool} {score : α → β}

structure IsFirstBest (skip : α → Bool) (score : α → β) (l : List α) (i : Nat) (x : α) : Prop where
  getElem? : l[i]? = some x
  eligible : skip x = false
  greatest : ∀ y ∈ l, skip y = false → score y ≤ score x
  first : ∀ j y, j < i → l[j]? = some y → skip y = false → score y < score x

namespace IsFirstBest

variable {l : List α} {i : Nat} {x y : α}

theorem lt_length (h : IsFirstBest skip score l i x) : i < l.length := by
  have := h.getElem?
  rw [List.getElem?_eq_some_iff] at this
  rcases this with ⟨hi, -⟩
  assumption

theorem mem (h : IsFirstBest skip score l i x) : x ∈ l :=
  List.mem_of_getElem? h.getElem?

theorem append_skip (h : IsFirstBest skip score l i x)
    (hy : skip y = false → score y ≤ score x) : IsFirstBest skip score (l ++ [y]) i x where
  getElem? := by
    rw [List.getElem?_append_left h.lt_length]
    exact h.getElem?
  eligible := h.eligible
  greatest := by
    intro z hz hskip
    cases List.mem_append.mp hz with
    | inl hz => apply h.greatest z hz hskip
    | inr hz =>
      rw [List.mem_singleton.mp hz] at hskip ⊢
      apply hy hskip
  first := by
    intro j z hj hz
    have := h.lt_length
    rw [List.getElem?_append_left (by omega)] at hz
    apply h.first j z hj hz

theorem append_best (hskip : skip y = false)
    (hbest : ∀ z ∈ l, skip z = false → score z < score y)
    : IsFirstBest skip score (l ++ [y]) l.length y where
  getElem? := by simp
  eligible := hskip
  greatest := by
    intro z hz hzskip
    cases List.mem_append.mp hz with
    | inl hz => apply le_of_lt (hbest z hz hzskip)
    | inr hz => rw [List.mem_singleton.mp hz]
  first := by
    intro j z hj hz
    rw [List.getElem?_append_left hj] at hz
    apply hbest z (List.mem_of_getElem? hz)

variable {skip' : α → Bool} {j : Nat} {z : α}

/-
Of two lists that differ by one element, where the elements of the shorter one are not eligible in
it more often, or not less often, than in the longer one.
-/

theorem append_cases (h : IsFirstBest skip score l i x)
    (h' : IsFirstBest skip' score (l ++ [z]) j y)
    (hskip : ∀ w, skip' w = false → skip w = false)
    : j = l.length ∨ j = i ∨ skip' x = true := by
  have hj := h'.lt_length
  rw [List.length_append, List.length_singleton] at hj
  by_cases hlast : j = l.length
  . exact .inl hlast
  right
  cases hx : skip' x with
  | true => exact .inr rfl
  | false =>
    left
    have hy := h'.getElem?
    rw [List.getElem?_append_left (by omega)] at hy
    have hylex : score y ≤ score x :=
      h.greatest y (List.mem_of_getElem? hy) (hskip y h'.eligible)
    have hxley : score x ≤ score y := h'.greatest x (List.mem_append_left _ h.mem) hx
    rcases Nat.lt_trichotomy i j with hlt | heq | hgt
    . have hfirst := h'.first i x hlt
      rw [List.getElem?_append_left h.lt_length] at hfirst
      have := hfirst h.getElem? hx
      exact absurd hylex (not_le_of_gt this)
    . exact heq.symm
    . have := h.first j y hgt hy (hskip y h'.eligible)
      exact absurd hxley (not_le_of_gt this)

theorem eraseIdx_cases {e : Nat} (h : IsFirstBest skip score l i x)
    (h' : IsFirstBest skip' score (l.eraseIdx e) j y)
    (hskip : ∀ w, skip w = false → skip' w = false)
    : i = e ∨ (i = if j < e then j else j + 1) ∨ skip y = true := by
  by_cases herased : i = e
  . exact .inl herased
  right
  cases hy : skip y with
  | true => exact .inr rfl
  | false =>
    left
    -- where the two elements stand in the other list
    have hyl : l[if j < e then j else j + 1]? = some y := by
      rw [← h'.getElem?, List.getElem?_eraseIdx]
      split
      . rfl
      . rfl
    have hxl : (l.eraseIdx e)[if i < e then i else i - 1]? = some x := by
      rw [← h.getElem?, List.getElem?_eraseIdx]
      grind
    have hx : skip' x = false := hskip x h.eligible
    have hylex : score y ≤ score x := h.greatest y (List.mem_of_getElem? hyl) hy
    have hxley : score x ≤ score y := h'.greatest x (List.mem_of_getElem? hxl) hx
    rcases Nat.lt_trichotomy i (if j < e then j else j + 1) with hlt | heq | hgt
    . have := h'.first _ x (by grind) hxl hx
      exact absurd hylex (not_le_of_gt this)
    . exact heq
    . have := h.first _ y hgt hyl hy
      exact absurd hxley (not_le_of_gt this)

end IsFirstBest

def BestOf (skip : α → Bool) (score : α → β) (l : List α) (best : Best β) : Prop :=
  if best.first then
    ∀ x ∈ l, skip x = true
  else
    ∃ x, IsFirstBest skip score l best.index x ∧ best.score = score x

theorem bestOf_argMaxLoop (l done : List α) (best : Best β) (h : BestOf skip score done best)
    : BestOf skip score (done ++ l) (argMaxLoop skip score l done.length best) := by
  induction l generalizing done best with
  | nil => simpa [argMaxLoop] using h
  | cons x rest ih =>
    have hsplit : done ++ x :: rest = (done ++ [x]) ++ rest := by simp
    have hlength : done.length + 1 = (done ++ [x]).length := by simp
    unfold argMaxLoop
    rw [hsplit, hlength]
    split
    . next hskip =>
      apply ih
      unfold BestOf at h ⊢
      split
      . next hfirst =>
        simp only [hfirst, if_true] at h
        intro y hy
        cases List.mem_append.mp hy with
        | inl hy => apply h y hy
        | inr hy => rwa [List.mem_singleton.mp hy]
      . next hfirst =>
        simp only [hfirst] at h
        rcases h with ⟨y, hy, hscore⟩
        exact ⟨y, hy.append_skip (by simp [hskip]), hscore⟩
    . next hskip =>
      simp only [Bool.not_eq_true] at hskip
      split
      . next hbetter =>
        apply ih
        simp only [BestOf, Bool.false_eq_true, if_false]
        refine ⟨x, IsFirstBest.append_best hskip ?_, rfl⟩
        intro z hz hzskip
        unfold BestOf at h
        split at h
        . simp [h z hz] at hzskip
        . next hfirst =>
          rcases h with ⟨y, hy, hscore⟩
          simp only [hfirst, Bool.false_or, decide_eq_true_eq] at hbetter
          rw [hscore] at hbetter
          apply lt_of_le_of_lt (hy.greatest z hz hzskip) hbetter
      . next hworse =>
        simp only [Bool.or_eq_true, decide_eq_true_eq, not_or, Bool.not_eq_true, not_lt] at hworse
        apply ih
        unfold BestOf at h ⊢
        simp only [hworse.1, Bool.false_eq_true, if_false] at h ⊢
        rcases h with ⟨y, hy, hscore⟩
        refine ⟨y, hy.append_skip ?_, hscore⟩
        intro _
        rw [← hscore]
        exact hworse.2

theorem isFirstBest_argMaxLoop {l : List α} {best : Best β} (hinit : best.first = true)
    (hex : ∃ x ∈ l, skip x = false)
    : ∃ x, IsFirstBest skip score l (argMaxLoop skip score l 0 best).index x := by
  have hnil : BestOf skip score [] best := by simp [BestOf, hinit]
  have h := bestOf_argMaxLoop l [] best hnil
  simp only [List.nil_append, List.length_nil] at h
  unfold BestOf at h
  split at h
  . rcases hex with ⟨x, hx, hskip⟩
    simp [h x hx] at hskip
  . rcases h with ⟨x, hx, -⟩
    exact ⟨x, hx⟩

theorem argMaxLoop_of_skip {l : List α} (i : Nat) {best : Best β} (h : ∀ x ∈ l, skip x = true)
    : argMaxLoop skip score l i best = best := by
  induction l generalizing i with
  | nil => rfl
  | cons x l ih =>
    rw [List.forall_mem_cons] at h
    simp only [argMaxLoop, h.1, if_true]
    apply ih _ h.2

theorem index_argMaxLoop_lt {l : List α} {best : Best β} (hinit : best.first = true)
    (hindex : best.index = 0) (hl : l ≠ [])
    : (argMaxLoop skip score l 0 best).index < l.length := by
  by_cases hex : ∃ x ∈ l, skip x = false
  . have hbest : ∃ x, IsFirstBest skip score l (argMaxLoop skip score l 0 best).index x :=
      isFirstBest_argMaxLoop hinit hex
    rcases hbest with ⟨x, hx⟩
    apply hx.lt_length
  . simp only [not_exists, not_and, Bool.not_eq_false] at hex
    rw [argMaxLoop_of_skip 0 hex, hindex]
    apply List.length_pos_iff.mpr hl

end Loop

section Keys

variable [LinearOrder β] {skip : κ → Bool} {score : κ → β} {key : α → κ}

/--
Where eligibility and score depend on a key only, and no two keys have the same score, the key of
the selected element depends on nothing but the set of keys.
-/
theorem IsFirstBest.key_eq {l m : List α} {i j : Nat} {x y : α}
    (hx : IsFirstBest (fun a => skip (key a)) (fun a => score (key a)) l i x)
    (hy : IsFirstBest (fun a => skip (key a)) (fun a => score (key a)) m j y)
    (hset : ∀ k, k ∈ l.map key ↔ k ∈ m.map key)
    (hinj : ∀ a ∈ l, ∀ b ∈ l, score (key a) = score (key b) → key a = key b)
    : key x = key y := by
  have hyl : key y ∈ l.map key := (hset (key y)).mpr (List.mem_map_of_mem hy.mem)
  have hxm : key x ∈ m.map key := (hset (key x)).mp (List.mem_map_of_mem hx.mem)
  rcases List.mem_map.mp hyl with ⟨a, ha, hay⟩
  rcases List.mem_map.mp hxm with ⟨b, hb, hbx⟩
  have hle : score (key y) ≤ score (key x) := by
    rw [← hay]
    apply hx.greatest a ha
    rw [hay]
    exact hy.eligible
  have hge : score (key x) ≤ score (key y) := by
    rw [← hbx]
    apply hy.greatest b hb
    rw [hbx]
    exact hx.eligible
  have := hinj x hx.mem a ha (by rw [hay]; exact le_antisymm hge hle)
  rw [this, hay]

end Keys

section Least

variable [LinearOrder β] {l m : List β} {d x : β}

theorem foldl_min_le (l : List β) (d : β) : l.foldl min d ≤ d := by
  induction l generalizing d with
  | nil => apply le_refl
  | cons y l ih =>
    rw [List.foldl_cons]
    apply le_trans (ih (min d y))
    apply min_le_left

theorem foldl_min_le_of_mem (h : x ∈ l) : l.foldl min d ≤ x := by
  induction l generalizing d with
  | nil => contradiction
  | cons y l ih =>
    rw [List.foldl_cons]
    cases List.mem_cons.mp h with
    | inl h =>
      rw [h]
      apply le_trans (foldl_min_le l (min d y))
      apply min_le_right
    | inr h => apply ih h

theorem foldl_min_mem_or_eq (l : List β) (d : β) : l.foldl min d ∈ l ∨ l.foldl min d = d := by
  induction l generalizing d with
  | nil => exact .inr rfl
  | cons y l ih =>
    rw [List.foldl_cons]
    cases ih (min d y) with
    | inl h => exact .inl (List.mem_cons_of_mem y h)
    | inr h =>
      cases min_choice d y with
      | inl hd =>
        right
        rw [h, hd]
      | inr hy =>
        left
        rw [h, hy]
        apply List.mem_cons_self

theorem foldl_min_mem (hl : l ≠ []) (hd : ∀ x ∈ l, x ≤ d) : l.foldl min d ∈ l := by
  cases foldl_min_mem_or_eq l d with
  | inl h => assumption
  | inr h =>
    rcases List.exists_mem_of_ne_nil l hl with ⟨x, hx⟩
    have hle : d ≤ x := by
      rw [← h]
      apply foldl_min_le_of_mem hx
    rw [h, le_antisymm hle (hd x hx)]
    assumption

theorem foldl_min_anti (h : ∀ x ∈ m, x ∈ l) : l.foldl min d ≤ m.foldl min d := by
  cases foldl_min_mem_or_eq m d with
  | inl hmem => apply foldl_min_le_of_mem (h _ hmem)
  | inr heq =>
    rw [heq]
    apply foldl_min_le

theorem foldl_min_congr (h : ∀ x, x ∈ l ↔ x ∈ m) : l.foldl min d = m.foldl min d := by
  apply le_antisymm
  . apply foldl_min_anti
    intro x hx
    exact (h x).mpr hx
  . apply foldl_min_anti
    intro x hx
    exact (h x).mp hx

end Least

end Lib
