import Mathlib.Data.List.Induction
import Mathlib.Data.Option.Basic

/-!
This module contains runs of a partial step function over a list of events, and the rules that
carry a property of one step to all steps of a run. `Along step R s es` says that every step which
the run from `s` over `es` takes satisfies `R`.
-/

namespace Lib

variable {σ ε : Type*}

def run (step : σ → ε → Option σ) (s : σ) : List ε → Option σ
  | [] => some s
  | e :: es => (step s e).bind fun s' => run step s' es

def Along (step : σ → ε → Option σ) (R : σ → ε → σ → Prop) (s : σ) : List ε → Prop
  | [] => True
  | e :: es => ∀ s', step s e = some s' → R s e s' ∧ Along step R s' es

-- Every event of the run meets `P` in the state it finds, also one that fails.
def Throughout (step : σ → ε → Option σ) (P : σ → ε → Prop) (s : σ) : List ε → Prop
  | [] => True
  | e :: es => P s e ∧ ∀ s', step s e = some s' → Throughout step P s' es

variable {step : σ → ε → Option σ}

@[simp]
theorem run_nil (s : σ) : run step s [] = some s := rfl

theorem run_cons (s : σ) (e : ε) (es : List ε)
    : run step s (e :: es) = (step s e).bind fun s' => run step s' es := rfl

theorem run_cons_eq_some {s t : σ} {e : ε} {es : List ε}
    : run step s (e :: es) = some t ↔ ∃ s', step s e = some s' ∧ run step s' es = some t := by
  rw [run_cons, Option.bind_eq_some_iff]

theorem run_append (s : σ) (es fs : List ε)
    : run step s (es ++ fs) = (run step s es).bind fun s' => run step s' fs := by
  induction es generalizing s with
  | nil => rfl
  | cons e es ih =>
    simp only [List.cons_append, run_cons, Option.bind_assoc]
    congr
    funext s'
    apply ih

theorem run_invariant {P : σ → Prop} {es : List ε}
    (hstep : ∀ s e s', e ∈ es → P s → step s e = some s' → P s')
    : ∀ {s t : σ}, P s → run step s es = some t → P t := by
  induction es with
  | nil =>
    intro s t hs hrun
    simp only [run_nil, Option.some.injEq] at hrun
    rwa [← hrun]
  | cons e es ih =>
    intro s t hs hrun
    rcases run_cons_eq_some.mp hrun with ⟨s', hs', hrest⟩
    have hinv : P s' := hstep s e s' (by simp) hs hs'
    apply ih _ hinv hrest
    intro r f r' hf
    apply hstep
    simp [hf]

-- What a step makes of a part of the state, a run makes by a fold.
theorem run_foldl {τ : Type*} {view : σ → τ} {f : τ → ε → τ}
    (hstep : ∀ s e s', step s e = some s' → view s' = f (view s) e)
    : ∀ {es : List ε} {s t : σ}, run step s es = some t → view t = es.foldl f (view s) := by
  intro es
  induction es with
  | nil =>
    intro s t hrun
    simp only [run_nil, Option.some.injEq] at hrun
    rw [hrun, List.foldl_nil]
  | cons e es ih =>
    intro s t hrun
    rcases run_cons_eq_some.mp hrun with ⟨s', hs', hrest⟩
    rw [ih hrest, hstep s e s' hs', List.foldl_cons]

theorem run_flatMap {α : Type*} {view : σ → List α} {added : ε → List α} {es : List ε}
    (hstep : ∀ s e s', e ∈ es → step s e = some s' → view s' = view s ++ added e)
    : ∀ {s t : σ}, run step s es = some t → view t = view s ++ es.flatMap added := by
  induction es with
  | nil =>
    intro s t hrun
    simp only [run_nil, Option.some.injEq] at hrun
    simp [hrun]
  | cons e es ih =>
    intro s t hrun
    rcases run_cons_eq_some.mp hrun with ⟨s', hs', hrest⟩
    rw [ih _ hrest, hstep s e s' (by simp) hs', List.flatMap_cons, List.append_assoc]
    intro r f r' hf
    apply hstep
    simp [hf]

-- The rule for properties that speak about the events so far.
theorem run_history {P : List ε → σ → Prop} {all : List ε} {s t : σ}
    (hstep : ∀ es s e s', es ++ [e] <+: all → P es s → step s e = some s' → P (es ++ [e]) s')
    (hs : P [] s) (hrun : run step s all = some t) : P all t := by
  suffices h : ∀ es, es <+: all → ∀ t, run step s es = some t → P es t by
    apply h all List.prefix_rfl t hrun
  intro es
  induction es using List.reverseRecOn with
  | nil =>
    intro _ t hrun
    rw [run_nil, Option.some.injEq] at hrun
    rwa [← hrun]
  | append_singleton es e ih =>
    intro hprefix t hrun
    rw [run_append, Option.bind_eq_some_iff] at hrun
    rcases hrun with ⟨s', hbefore, hlast⟩
    rcases run_cons_eq_some.mp hlast with ⟨t', hs', hnil⟩
    rw [run_nil, Option.some.injEq] at hnil
    rw [← hnil]
    apply hstep es s' e t' hprefix _ hs'
    apply ih ((List.prefix_append es [e]).trans hprefix) s' hbefore

/--
The rule for refinements: where a run of the abstract machine answers every step of the concrete
one, the concrete machine refines the abstract one.
-/
theorem run_refines {τ δ : Type*} {step' : τ → δ → Option τ} {R : σ → τ → Prop}
    (hstep : ∀ s e s' t, R s t → step s e = some s' → ∃ fs t', run step' t fs = some t' ∧ R s' t')
    : ∀ {es : List ε} {s s' : σ} {t : τ}, R s t → run step s es = some s' →
        ∃ fs t', run step' t fs = some t' ∧ R s' t' := by
  intro es
  induction es with
  | nil =>
    intro s s' t hR hrun
    rw [run_nil, Option.some.injEq] at hrun
    rw [← hrun]
    exact ⟨[], t, rfl, hR⟩
  | cons e es ih =>
    intro s s' t hR hrun
    rcases run_cons_eq_some.mp hrun with ⟨s₁, hs₁, hrest⟩
    rcases hstep s e s₁ t hR hs₁ with ⟨fs, t₁, hfs, hR₁⟩
    rcases ih hR₁ hrest with ⟨gs, t', hgs, hR'⟩
    refine ⟨fs ++ gs, t', ?_, hR'⟩
    rw [run_append, hfs, Option.bind_some, hgs]

theorem run_eq_none_iff {s : σ} {es : List ε}
    : run step s es = none
        ↔
      ∃ before e after t, es = before ++ e :: after ∧ run step s before = some t
        ∧ step t e = none := by
  constructor
  . intro hrun
    induction es generalizing s with
    | nil => contradiction
    | cons e es ih =>
      cases hstep : step s e with
      | none => exact ⟨[], e, es, s, rfl, rfl, hstep⟩
      | some s' =>
        rw [run_cons, hstep, Option.bind_some] at hrun
        rcases ih hrun with ⟨before, e', after, t, rfl, hbefore, hfails⟩
        exact ⟨e :: before, e', after, t, rfl, run_cons_eq_some.mpr ⟨s', hstep, hbefore⟩, hfails⟩
  . rintro ⟨before, e, after, t, rfl, hbefore, hfails⟩
    rw [run_append, hbefore, Option.bind_some, run_cons, hfails, Option.bind_none]

theorem rel_some {R : σ → σ → Prop} {s : σ} {b : Option σ} (h : Option.Rel R (some s) b)
    : ∃ t, b = some t ∧ R s t := by
  cases h with
  | some hR => exact ⟨_, rfl, hR⟩

theorem rel_imp {R Q : σ → σ → Prop} {a b : Option σ} (h : Option.Rel R a b)
    (hQ : ∀ s t, a = some s → b = some t → R s t → Q s t) : Option.Rel Q a b := by
  cases h with
  | none => exact .none
  | some hR => exact .some (hQ _ _ rfl rfl hR)

-- Two partial steps that fail together, and otherwise keep their results alike.
theorem rel_of_iff {R : σ → σ → Prop} {a b : Option σ} (hnone : a = none ↔ b = none)
    (hsome : ∀ s t, a = some s → b = some t → R s t) : Option.Rel R a b := by
  cases ha : a with
  | none =>
    rw [hnone.mp ha]
    exact .none
  | some s =>
    cases hb : b with
    | none =>
      rw [hnone.mpr hb] at ha
      contradiction
    | some t => exact .some (hsome s t ha hb)

-- The rule for two states that the same events keep alike, also where one of them fails.
theorem run_rel {R : σ → σ → Prop}
    (hstep : ∀ s t e, R s t → Option.Rel R (step s e) (step t e))
    : ∀ (es : List ε) {s t : σ}, R s t → Option.Rel R (run step s es) (run step t es) := by
  intro es
  induction es with
  | nil =>
    intro s t hR
    exact .some hR
  | cons e es ih =>
    intro s t hR
    have h := hstep s t e hR
    rw [run_cons, run_cons]
    generalize step s e = a, step t e = b at h
    cases h with
    | none => exact .none
    | some hR' => exact ih hR'

/--
The rule for noninterference: where the events that `p` leaves out are not seen through `R`, a run
looks the same without them.
-/
theorem run_filter {R : σ → σ → Prop} {p : ε → Bool}
    (hstep : ∀ s t e s', p e = true → R s t → step s e = some s' →
      ∃ t', step t e = some t' ∧ R s' t')
    (hskip : ∀ s t e s', p e = false → R s t → step s e = some s' → R s' t)
    : ∀ {es : List ε} {s t s' : σ}, R s t → run step s es = some s' →
        ∃ t', run step t (es.filter p) = some t' ∧ R s' t' := by
  intro es
  induction es with
  | nil =>
    intro s t s' hR hrun
    rw [run_nil, Option.some.injEq] at hrun
    rw [← hrun]
    exact ⟨t, rfl, hR⟩
  | cons e es ih =>
    intro s t s' hR hrun
    rcases run_cons_eq_some.mp hrun with ⟨s₁, hs₁, hrest⟩
    cases hp : p e with
    | true =>
      rcases hstep s t e s₁ hp hR hs₁ with ⟨t₁, ht₁, hR₁⟩
      rcases ih hR₁ hrest with ⟨t', ht', hR'⟩
      refine ⟨t', ?_, hR'⟩
      rw [List.filter_cons_of_pos hp]
      exact run_cons_eq_some.mpr ⟨t₁, ht₁, ht'⟩
    | false =>
      rw [List.filter_cons_of_neg (by simp [hp])]
      apply ih (hskip s t e s₁ hp hR hs₁) hrest

theorem Throughout.append {P : σ → ε → Prop} {s t : σ} {es fs : List ε}
    (h : Throughout step P s (es ++ fs)) (hrun : run step s es = some t)
    : Throughout step P t fs := by
  induction es generalizing s with
  | nil =>
    rw [run_nil, Option.some.injEq] at hrun
    rwa [← hrun]
  | cons e es ih =>
    rcases run_cons_eq_some.mp hrun with ⟨s', hs', hrest⟩
    apply ih (h.2 s' hs') hrest

theorem Throughout.cons {P : σ → ε → Prop} {s s' : σ} {e : ε} {es : List ε} (he : P s e)
    (hstep : step s e = some s') (hes : Throughout step P s' es)
    : Throughout step P s (e :: es) := by
  refine ⟨he, ?_⟩
  intro t ht
  rw [hstep, Option.some.injEq] at ht
  rwa [← ht]

namespace Along

variable {R C : σ → ε → σ → Prop}

instance decidable [∀ s e s', Decidable (R s e s')]
    : ∀ (s : σ) (es : List ε), Decidable (Along step R s es)
  | _, [] => isTrue trivial
  | s, e :: es =>
    match h : step s e with
    | none => isTrue (by simp [Along, h])
    | some s' =>
      have := decidable s' es
      decidable_of_iff (R s e s' ∧ Along step R s' es) (by simp [Along, h])

/--
The rule for conditional invariants: where every step that meets `C` keeps `I` and gives `R`,
a run whose steps all meet `C` satisfies `R` at every step.
-/
theorem of_invariant {I : σ → Prop}
    (hstep : ∀ s e s', I s → step s e = some s' → C s e s' → R s e s' ∧ I s')
    : ∀ (es : List ε) {s : σ}, I s → Along step C s es → Along step R s es := by
  intro es
  induction es with
  | nil => simp [Along]
  | cons e es ih =>
    intro s hs hC s' hs'
    rcases hC s' hs' with ⟨hCs, hCrest⟩
    rcases hstep s e s' hs hs' hCs with ⟨hR, hs1⟩
    exact ⟨hR, ih hs1 hCrest⟩

theorem run_invariant {I : σ → Prop}
    (hstep : ∀ s e s', I s → step s e = some s' → C s e s' → I s')
    : ∀ {es : List ε} {s t : σ}, I s → Along step C s es → run step s es = some t → I t := by
  intro es
  induction es with
  | nil =>
    intro s t hs _ hrun
    simp only [run_nil, Option.some.injEq] at hrun
    rwa [← hrun]
  | cons e es ih =>
    intro s t hs hC hrun
    rcases run_cons_eq_some.mp hrun with ⟨s', hs', hrest⟩
    rcases hC s' hs' with ⟨hCs, hCrest⟩
    apply ih (hstep s e s' hs hs' hCs) hCrest hrest

theorem of_forall_mem {P : ε → Prop} {es : List ε} (hP : ∀ e ∈ es, P e) (s : σ)
    : Along step (fun _ e _ => P e) s es := by
  induction es generalizing s with
  | nil => trivial
  | cons e es ih =>
    rw [List.forall_mem_cons] at hP
    intro s' _
    exact ⟨hP.1, ih hP.2 s'⟩

theorem and {s : σ} {es : List ε} (hR : Along step R s es) (hC : Along step C s es)
    : Along step (fun s e s' => R s e s' ∧ C s e s') s es := by
  induction es generalizing s with
  | nil => trivial
  | cons e es ih =>
    intro s' hs'
    rcases hR s' hs' with ⟨hRs, hRrest⟩
    rcases hC s' hs' with ⟨hCs, hCrest⟩
    exact ⟨⟨hRs, hCs⟩, ih hRrest hCrest⟩

theorem append {s t : σ} {es fs : List ε} (hes : Along step R s es) (hrun : run step s es = some t)
    (hfs : Along step R t fs) : Along step R s (es ++ fs) := by
  induction es generalizing s with
  | nil =>
    rw [run_nil, Option.some.injEq] at hrun
    rwa [hrun]
  | cons e es ih =>
    intro s' hs'
    rcases hes s' hs' with ⟨hR, hrest⟩
    rcases run_cons_eq_some.mp hrun with ⟨s₁, hs₁, hrun₁⟩
    rw [hs', Option.some.injEq] at hs₁
    rw [← hs₁] at hrun₁
    exact ⟨hR, ih hrest hrun₁⟩

theorem iff_of_invariant {I : σ → Prop}
    (hiff : ∀ s e s', I s → step s e = some s' → (R s e s' ↔ C s e s'))
    (hstep : ∀ s e s', I s → step s e = some s' → C s e s' → I s')
    {s : σ} (hs : I s) (es : List ε) : Along step R s es ↔ Along step C s es := by
  constructor
  . apply of_invariant (I := I) _ es hs
    intro s e s' hs hs' hR
    have hC := (hiff s e s' hs hs').mp hR
    exact ⟨hC, hstep s e s' hs hs' hC⟩
  . apply of_invariant (I := I) _ es hs
    intro s e s' hs hs' hC
    exact ⟨(hiff s e s' hs hs').mpr hC, hstep s e s' hs hs' hC⟩

end Along

end Lib
