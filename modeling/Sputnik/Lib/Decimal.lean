import Mathlib.Data.Nat.Digits.Lemmas

/-!
This module contains the decimal rendering of integers as byte strings, and why a rendered integer
can be read back from the end of a string it was appended to after a separator.
-/

namespace Lib

theorem append_separator_inj {α : Type*} {c : α} {a a' b b' : List α} (hb : c ∉ b) (hb' : c ∉ b')
    (h : a ++ c :: b = a' ++ c :: b') : a = a' ∧ b = b' := by
  induction a generalizing a' with
  | nil =>
    cases a' with
    | nil => simpa using h
    | cons x a' =>
      simp only [List.nil_append, List.cons_append, List.cons.injEq] at h
      rw [h.2] at hb
      simp at hb
  | cons y a ih =>
    cases a' with
    | nil =>
      simp only [List.nil_append, List.cons_append, List.cons.injEq] at h
      rw [← h.2] at hb'
      simp at hb'
    | cons x a' =>
      simp only [List.cons_append, List.cons.injEq] at h
      rcases h with ⟨hxy, h⟩
      have := ih h
      simp [hxy, this]

namespace Decimal

def minus : UInt8 := 45

def digit (d : Nat) : UInt8 := UInt8.ofNat (48 + d)

def ofNat (n : Nat) : List UInt8 :=
  if n = 0 then [digit 0] else ((Nat.digits 10 n).map digit).reverse

def ofInt : Int → List UInt8
  | .ofNat n => ofNat n
  | .negSucc n => minus :: ofNat (n + 1)

theorem digit_toNat {d : Nat} (hd : d < 10) : (digit d).toNat = 48 + d := by
  unfold digit
  rw [UInt8.toNat_ofNat']
  omega

theorem digit_inj {d e : Nat} (hd : d < 10) (he : e < 10) (h : digit d = digit e) : d = e := by
  have : (digit d).toNat = (digit e).toNat := by rw [h]
  rw [digit_toNat hd, digit_toNat he] at this
  omega

theorem mem_ofNat {n : Nat} {b : UInt8} (hb : b ∈ ofNat n) : ∃ d, d < 10 ∧ b = digit d := by
  unfold ofNat at hb
  split at hb
  . exact ⟨0, by omega, by simpa using hb⟩
  . rcases List.mem_map.mp (List.mem_reverse.mp hb) with ⟨d, hd, rfl⟩
    exact ⟨d, Nat.digits_lt_base (by omega) hd, rfl⟩

theorem minus_notMem_ofNat (n : Nat) : minus ∉ ofNat n := by
  intro h
  rcases mem_ofNat h with ⟨d, hd, hdigit⟩
  have : minus.toNat = 48 + d := by rw [hdigit, digit_toNat hd]
  have : minus.toNat = 45 := rfl
  omega

theorem map_digit_inj {l m : List Nat} (hl : ∀ d ∈ l, d < 10) (hm : ∀ d ∈ m, d < 10)
    (h : l.map digit = m.map digit) : l = m := by
  induction l generalizing m with
  | nil =>
    cases m with
    | nil => rfl
    | cons e m => simp at h
  | cons d l ih =>
    cases m with
    | nil => simp at h
    | cons e m =>
      simp only [List.map_cons, List.cons.injEq] at h
      have hde : d = e := digit_inj (hl d (by simp)) (hm e (by simp)) h.1
      have hlm : l = m := ih (by simp_all) (by simp_all) h.2
      rw [hde, hlm]

theorem ofNat_injective : Function.Injective ofNat := by
  have hzero : ∀ n, n ≠ 0 → ofNat n ≠ ofNat 0 := by
    intro n hn h
    simp only [ofNat, hn, if_false, if_true, ← List.map_reverse] at h
    have hdigits : (Nat.digits 10 n).reverse = [0] := by
      apply map_digit_inj _ (by simp) (by simpa using h)
      intro d hd
      apply Nat.digits_lt_base (by omega) (List.mem_reverse.mp hd)
    have hlast := Nat.getLast_digit_ne_zero 10 hn
    have : Nat.digits 10 n = [0] := by simpa using congrArg List.reverse hdigits
    simp [this] at hlast
  intro n m h
  by_cases hn : n = 0
  . by_cases hm : m = 0
    . rw [hn, hm]
    . rw [hn] at h
      exact absurd h.symm (hzero m hm)
  . by_cases hm : m = 0
    . rw [hm] at h
      exact absurd h (hzero n hn)
    . simp only [ofNat, hn, hm, if_false, List.reverse_inj] at h
      rw [← Nat.digits_inj_iff (b := 10)]
      apply map_digit_inj _ _ h
      . intro d hd
        apply Nat.digits_lt_base (by omega) hd
      . intro d hd
        apply Nat.digits_lt_base (by omega) hd

theorem ofInt_injective : Function.Injective ofInt := by
  intro i j h
  cases i with
  | ofNat n =>
    cases j with
    | ofNat m => rw [ofNat_injective h]
    | negSucc m =>
      have : minus ∈ ofNat n := by
        simp only [ofInt] at h
        simp [h]
      exact absurd this (minus_notMem_ofNat n)
  | negSucc n =>
    cases j with
    | ofNat m =>
      have : minus ∈ ofNat m := by
        simp only [ofInt] at h
        simp [← h]
      exact absurd this (minus_notMem_ofNat m)
    | negSucc m =>
      simp only [ofInt, List.cons.injEq, true_and] at h
      have := ofNat_injective h
      rw [Nat.succ.inj this]

theorem notMem_ofInt {c : UInt8} (hminus : c ≠ minus) (hdigit : ∀ d, d < 10 → c ≠ digit d)
    (i : Int) : c ∉ ofInt i := by
  have hnat : ∀ n, c ∉ ofNat n := by
    intro n hc
    rcases mem_ofNat hc with ⟨d, hd, hcd⟩
    apply hdigit d hd hcd
  cases i with
  | ofNat n => apply hnat n
  | negSucc n =>
    simp only [ofInt, List.mem_cons, not_or]
    exact ⟨hminus, hnat (n + 1)⟩

-- The separator may occur in the string, only not in the rendered integer.
theorem append_ofInt_inj {c : UInt8} (hminus : c ≠ minus) (hdigit : ∀ d, d < 10 → c ≠ digit d)
    {s t : List UInt8} {i j : Int} (h : s ++ c :: ofInt i = t ++ c :: ofInt j)
    : s = t ∧ i = j := by
  have hparts := append_separator_inj (notMem_ofInt hminus hdigit i)
    (notMem_ofInt hminus hdigit j) h
  exact ⟨hparts.1, ofInt_injective hparts.2⟩

example : ofInt (-8081) = [45, 56, 48, 56, 49] := by decide

end Decimal

end Lib
