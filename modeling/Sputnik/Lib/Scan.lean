import Mathlib.Data.Multiset.AddSub
import Mathlib.Data.Multiset.Filter

/-!
This module contains the erase-while-iterating loop over a list (every element is visited, then
either erased or stepped over), and what happens to a second list that is kept next to the scanned
one and loses, for each erased element, its first entry with the same key.
-/

namespace Lib

variable {α β κ σ τ : Type*}

def eraseLoop (visit : α → σ → σ) (stale : α → Bool) (onErase : α → σ → σ)
    : List α → σ → List α × σ
  | [], s => ([], s)
  | it :: rest, s =>
    let s := visit it s
    if stale it then
      eraseLoop visit stale onErase rest (onErase it s)
    else
      let (kept, s) := eraseLoop visit stale onErase rest s
      (it :: kept, s)

section EraseLoop

variable (visit : α → σ → σ) (stale : α → Bool) (onErase : α → σ → σ)

theorem eraseLoop_fst (l : List α) (s : σ)
    : (eraseLoop visit stale onErase l s).1 = l.filter fun it => !stale it := by
  induction l generalizing s with
  | nil => rfl
  | cons it rest ih =>
    unfold eraseLoop
    dsimp
    split
    . next h => simp [h, ih]
    . next h => simp [h, ih]

theorem eraseLoop_snd (l : List α) (s : σ)
    : (eraseLoop visit stale onErase l s).2
        =
      l.foldl (fun s it => if stale it then onErase it (visit it s) else visit it s) s := by
  induction l generalizing s with
  | nil => rfl
  | cons it rest ih =>
    unfold eraseLoop
    dsimp
    split
    . next h => rw [ih]
    . next h => rw [ih]

end EraseLoop

section EraseLoopPair

variable (visit : α → σ → σ) (stale : α → Bool) (onErase : α → τ → τ)

theorem eraseLoop_pair (l : List α) (s : σ) (t : τ)
    : (eraseLoop (fun it st => (visit it st.1, st.2)) stale (fun it st => (st.1, onErase it st.2))
        l (s, t)).2
        =
      (l.foldl (fun s it => visit it s) s, (l.filter stale).foldl (fun t it => onErase it t) t) := by
  rw [eraseLoop_snd]
  induction l generalizing s t with
  | nil => rfl
  | cons it rest ih =>
    simp only [List.foldl_cons]
    cases h : stale it with
    | true => simp [h, ih]
    | false => simp [h, ih]

end EraseLoopPair

section EraseKeys

variable [DecidableEq κ]

def eraseKeys (key : β → κ) (l : List β) (ks : List κ) : List β :=
  ks.foldl (fun l k => l.eraseP fun b => key b = k) l

variable {key : β → κ}

@[simp]
theorem eraseKeys_nil (l : List β) : eraseKeys key l [] = l := rfl

@[simp]
theorem eraseKeys_cons (l : List β) (k : κ) (ks : List κ)
    : eraseKeys key l (k :: ks) = eraseKeys key (l.eraseP fun b => key b = k) ks := rfl

theorem map_eraseP_key (l : List β) (k : κ)
    : (l.eraseP fun b => key b = k).map key = (l.map key).erase k := by
  rw [List.erase_eq_eraseP', List.eraseP_map]
  rfl

theorem coe_map_eraseKeys (l : List β) (ks : List κ)
    : (((eraseKeys key l ks).map key : List κ) : Multiset κ)
        =
      (l.map key : Multiset κ) - (ks : Multiset κ) := by
  induction ks generalizing l with
  | nil => simp
  | cons k ks ih =>
    rw [eraseKeys_cons, ih, map_eraseP_key, ← Multiset.coe_erase, ← Multiset.cons_coe,
      Multiset.sub_cons]

theorem perm_map_eraseKeys {key' : α → κ} {l : List α} {m : List β} (stale : α → Bool)
    (h : (l.map key').Perm (m.map key))
    : ((l.filter fun it => !stale it).map key').Perm
        ((eraseKeys key m ((l.filter stale).map key')).map key) := by
  have hsplit : (l.map key' : Multiset κ)
      = ((l.filter fun it => !stale it).map key' : Multiset κ)
        + ((l.filter stale).map key' : Multiset κ) := by
    rw [Multiset.coe_add, ← List.map_append, Multiset.coe_eq_coe]
    apply List.Perm.map
    have := List.filter_append_perm (fun it => !stale it) l
    simpa using this.symm
  rw [← Multiset.coe_eq_coe] at h ⊢
  rw [coe_map_eraseKeys, ← h, hsplit, Multiset.add_sub_cancel_right]

variable {f : α → β} {key' : α → κ}

theorem eraseKeys_map_of_pairwise (hkey : ∀ a, key (f a) = key' a) (stale : α → Bool)
    (l : List α)
    (h : l.Pairwise fun a b => stale a = false → stale b = true → key' a ≠ key' b)
    : eraseKeys key (l.map f) ((l.filter stale).map key')
        =
      (l.filter fun it => !stale it).map f := by
  -- `kept` is the part of the list the scan has stepped over
  suffices hgen : ∀ kept : List α,
      (∀ a ∈ kept, ∀ b ∈ l, stale b = true → key' a ≠ key' b) →
        eraseKeys key (kept.map f ++ l.map f) ((l.filter stale).map key')
          =
        kept.map f ++ (l.filter fun it => !stale it).map f by
    simpa using hgen []
  induction l with
  | nil => simp
  | cons b l ih =>
    intro kept hkept
    rcases List.pairwise_cons.mp h with ⟨hb, hl⟩
    cases hstale : stale b with
    | true =>
      have hskip : ∀ x ∈ kept.map f, ¬ (decide (key x = key' b) = true) := by
        intro x hx
        rcases List.mem_map.mp hx with ⟨a, ha, rfl⟩
        simpa [hkey] using hkept a ha b (by simp) hstale
      simp only [List.filter_cons, hstale, if_true, List.map_cons, eraseKeys_cons,
        Bool.not_true, Bool.false_eq_true, if_false]
      rw [List.eraseP_append_right _ hskip, List.eraseP_cons_of_pos (by simp [hkey])]
      apply ih hl
      intro a ha c hc
      apply hkept a ha c (by simp [hc])
    | false =>
      have hnext := ih hl (kept ++ [b]) (by
        intro a ha c hc hcstale
        cases List.mem_append.mp ha with
        | inl ha => apply hkept a ha c (by simp [hc]) hcstale
        | inr ha =>
          rw [List.mem_singleton.mp ha]
          apply hb c hc hstale hcstale)
      simpa [hstale] using hnext

end EraseKeys

end Lib
