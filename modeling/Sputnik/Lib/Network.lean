import Mathlib.Logic.Function.Basic
import Sputnik.Lib.Run

/-!
This module contains parties that exchange messages over a network. It may lose, repeat, delay and
reorder messages but makes none up: what was sent once can be delivered at any later time, or
never. The rule for invariants looks at one step of one party at a time.
-/

namespace Lib

variable {π μ : Type*} {σ α : π → Type*}

structure Protocol (π : Type*) (σ α : π → Type*) (μ : Type*) where
  -- what a party does on its own, next to the messages it sends
  act : ∀ p, σ p → α p → Option (σ p × List μ)
  receive : ∀ p, σ p → μ → Option (σ p)

structure Network (σ : π → Type*) (μ : Type*) where
  state : ∀ p, σ p
  -- everything sent so far, in order
  sent : List μ

inductive NetworkEvent (α : π → Type*) (μ : Type*) where
  | act (p : π) (a : α p)
  | deliver (p : π) (m : μ)

def NetworkEvent.party : NetworkEvent α μ → π
  | act p _ => p
  | deliver p _ => p

namespace Network

variable [DecidableEq π] [DecidableEq μ]

def step (P : Protocol π σ α μ) (net : Network σ μ) : NetworkEvent α μ → Option (Network σ μ)
  | .act p a =>
    (P.act p (net.state p) a).map fun done =>
      { state := Function.update net.state p done.1, sent := net.sent ++ done.2 }
  | .deliver p m =>
    if m ∈ net.sent then
      (P.receive p (net.state p) m).map fun s =>
        { net with state := Function.update net.state p s }
    else
      none

variable {P : Protocol π σ α μ} {net net' : Network σ μ}

theorem step_act {p : π} {a : α p} (h : net.step P (.act p a) = some net')
    : ∃ s out, P.act p (net.state p) a = some (s, out)
        ∧ net' = { state := Function.update net.state p s, sent := net.sent ++ out } := by
  rcases Option.map_eq_some_iff.mp h with ⟨⟨s, out⟩, hact, hnet⟩
  exact ⟨s, out, hact, hnet.symm⟩

theorem step_deliver {p : π} {m : μ} (h : net.step P (.deliver p m) = some net')
    : m ∈ net.sent ∧ ∃ s, P.receive p (net.state p) m = some s
        ∧ net' = { net with state := Function.update net.state p s } := by
  simp only [step] at h
  split at h
  . next hm =>
    rcases Option.map_eq_some_iff.mp h with ⟨s, hreceive, hnet⟩
    exact ⟨hm, s, hreceive, hnet.symm⟩
  . contradiction

theorem state_step_of_ne {event : NetworkEvent α μ} {q : π} (h : net.step P event = some net')
    (hq : q ≠ event.party) : net'.state q = net.state q := by
  cases event with
  | act p a =>
    rcases step_act h with ⟨s, out, _, rfl⟩
    apply Function.update_of_ne hq
  | deliver p m =>
    rcases step_deliver h with ⟨_, s, _, rfl⟩
    apply Function.update_of_ne hq

theorem sent_step {event : NetworkEvent α μ} (h : net.step P event = some net')
    : net.sent <+: net'.sent := by
  cases event with
  | act p a =>
    rcases step_act h with ⟨s, out, _, rfl⟩
    apply List.prefix_append
  | deliver p m =>
    rcases step_deliver h with ⟨_, s, _, rfl⟩
    apply List.prefix_rfl

theorem sent_run {events : List (NetworkEvent α μ)} (h : run (step P) net events = some net')
    : net.sent <+: net'.sent := by
  apply Lib.run_invariant (P := fun t => net.sent <+: t.sent) _ List.prefix_rfl h
  intro t event t' _ ht hstep
  apply ht.trans (sent_step hstep)

-- The rule for what every party keeps on its own, whatever it receives.
theorem state_run {I : ∀ p, σ p → Prop} {events : List (NetworkEvent α μ)}
    (hact : ∀ p s a s' out, I p s → P.act p s a = some (s', out) → I p s')
    (hreceive : ∀ p s m s', I p s → P.receive p s m = some s' → I p s')
    (h : run (step P) net events = some net') (hnet : ∀ p, I p (net.state p))
    : ∀ p, I p (net'.state p) := by
  apply Lib.run_invariant (P := fun t => ∀ p, I p (t.state p)) _ hnet h
  intro t event t' _ ht hstep q
  by_cases hq : q = event.party
  . subst hq
    cases event with
    | act p a =>
      rcases step_act hstep with ⟨s, out, ha, rfl⟩
      simpa [NetworkEvent.party] using hact p _ a s out (ht p) ha
    | deliver p m =>
      rcases step_deliver hstep with ⟨_, s, hm, rfl⟩
      simpa [NetworkEvent.party] using hreceive p _ m s (ht p) hm
  . rw [state_step_of_ne hstep hq]
    exact ht q

/-
`I` speaks about one party and all messages sent so far, `M` about one message and all messages
sent so far. `A` and `D` are what the rule may assume of the actions and of the deliveries of a run.
-/
structure Invariant (P : Protocol π σ α μ) (I : List μ → ∀ p, σ p → Prop)
    (M : List μ → μ → Prop) (A : ∀ p, σ p → α p → Prop) (D : μ → Prop) : Prop where
  mono : ∀ {log more m}, M log m → M (log ++ more) m
  act : ∀ {log p s a s' out}, I log p s → A p s a → P.act p s a = some (s', out) →
    I (log ++ out) p s' ∧ ∀ m ∈ out, M (log ++ out) m
  receive : ∀ {log p s m s'}, I log p s → m ∈ log → M log m → D m →
    P.receive p s m = some s' → I log p s'
  -- the messages of one party leave the others alone
  frame : ∀ {log p q s t a t' out}, p ≠ q → I log p s → I log q t → A q t a →
    P.act q t a = some (t', out) → I (log ++ out) p s

structure Holds (I : List μ → ∀ p, σ p → Prop) (M : List μ → μ → Prop) (net : Network σ μ)
    : Prop where
  state : ∀ p, I net.sent p (net.state p)
  sent : ∀ m ∈ net.sent, M net.sent m

def Meets (A : ∀ p, σ p → α p → Prop) (D : μ → Prop) (net : Network σ μ)
    : NetworkEvent α μ → Prop
  | .act p a => A p (net.state p) a
  | .deliver _ m => D m

instance {A : ∀ p, σ p → α p → Prop} {D : μ → Prop} [∀ p s a, Decidable (A p s a)]
    [DecidablePred D] (net : Network σ μ)
    : ∀ event : NetworkEvent α μ, Decidable (net.Meets A D event)
  | .act p a => inferInstanceAs (Decidable (A p (net.state p) a))
  | .deliver _ m => inferInstanceAs (Decidable (D m))

section Invariant

variable {I : List μ → ∀ p, σ p → Prop} {M : List μ → μ → Prop} {A : ∀ p, σ p → α p → Prop}
  {D : μ → Prop}

theorem Invariant.holds_step (hinv : Invariant P I M A D) {event : NetworkEvent α μ}
    (hmeets : net.Meets A D event) (h : net.step P event = some net') (hnet : net.Holds I M)
    : net'.Holds I M := by
  cases event with
  | act p a =>
    rcases step_act h with ⟨s, out, hact, rfl⟩
    rcases hinv.act (hnet.state p) hmeets hact with ⟨hp, hout⟩
    constructor
    . intro q
      by_cases hq : q = p
      . subst hq
        simpa using hp
      . have hframe := hinv.frame hq (hnet.state q) (hnet.state p) hmeets hact
        simpa [Function.update_of_ne hq] using hframe
    . intro m hm
      cases List.mem_append.mp hm with
      | inl hold => apply hinv.mono (hnet.sent m hold)
      | inr hnew => apply hout m hnew
  | deliver p m =>
    rcases step_deliver h with ⟨hm, s, hreceive, rfl⟩
    constructor
    . intro q
      by_cases hq : q = p
      . subst hq
        simpa using hinv.receive (hnet.state q) hm (hnet.sent m hm) hmeets hreceive
      . simpa [Function.update_of_ne hq] using hnet.state q
    . exact hnet.sent

/-- In a run whose events all meet the assumptions the invariant holds to the end. -/
theorem Invariant.holds_run (hinv : Invariant P I M A D) {events : List (NetworkEvent α μ)}
    (hmeets : Along (step P) (fun net event _ => net.Meets A D event) net events)
    (h : run (step P) net events = some net') (hnet : net.Holds I M) : net'.Holds I M := by
  apply Along.run_invariant _ hnet hmeets h
  intro s event s' hs hstep hevent
  apply hinv.holds_step hevent hstep hs

end Invariant

/-! What a run can bring about -/

-- Some run whose events all meet the assumptions leads from one state to the other.
def Reaches (P : Protocol π σ α μ) (A : ∀ p, σ p → α p → Prop) (D : μ → Prop)
    (net net' : Network σ μ) : Prop :=
  ∃ events, run (step P) net events = some net'
    ∧ Along (step P) (fun net event _ => net.Meets A D event) net events

namespace Reaches

variable {A : ∀ p, σ p → α p → Prop} {D : μ → Prop} {net'' : Network σ μ}

theorem refl : Reaches P A D net net := ⟨[], rfl, trivial⟩

theorem trans (h : Reaches P A D net net') (h' : Reaches P A D net' net'')
    : Reaches P A D net net'' := by
  rcases h with ⟨events, hrun, hmeets⟩
  rcases h' with ⟨events', hrun', hmeets'⟩
  refine ⟨events ++ events', ?_, hmeets.append hrun hmeets'⟩
  rw [run_append, hrun, Option.bind_some, hrun']

theorem single {event : NetworkEvent α μ} (h : net.step P event = some net')
    (hmeets : net.Meets A D event) : Reaches P A D net net' :=
  ⟨[event], run_cons_eq_some.mpr ⟨net', h, rfl⟩, fun _ _ => ⟨hmeets, trivial⟩⟩

theorem act {p : π} {a : α p} {s : σ p} {out : List μ} (hmeets : A p (net.state p) a)
    (h : P.act p (net.state p) a = some (s, out))
    : ∃ net', Reaches P A D net net' ∧ net'.state p = s ∧ net'.sent = net.sent ++ out
        ∧ ∀ q, q ≠ p → net'.state q = net.state q := by
  refine ⟨{ state := Function.update net.state p s, sent := net.sent ++ out }, ?_, ?_, rfl, ?_⟩
  . have hstep : net.step P (.act p a)
        = some { state := Function.update net.state p s, sent := net.sent ++ out } := by
      simp [step, h]
    exact single hstep hmeets
  . apply Function.update_self
  . intro q hq
    apply Function.update_of_ne hq

theorem deliver {p : π} {m : μ} {s : σ p} (hm : m ∈ net.sent) (hmeets : D m)
    (h : P.receive p (net.state p) m = some s)
    : ∃ net', Reaches P A D net net' ∧ net'.state p = s ∧ net'.sent = net.sent
        ∧ ∀ q, q ≠ p → net'.state q = net.state q := by
  refine ⟨{ net with state := Function.update net.state p s }, ?_, ?_, rfl, ?_⟩
  . have hstep : net.step P (.deliver p m)
        = some { net with state := Function.update net.state p s } := by
      simp [step, h, hm]
    exact single hstep hmeets
  . apply Function.update_self
  . intro q hq
    apply Function.update_of_ne hq

theorem holds {I : List μ → ∀ p, σ p → Prop} {M : List μ → μ → Prop} (h : Reaches P A D net net')
    (hinv : Invariant P I M A D) (hnet : net.Holds I M) : net'.Holds I M := by
  rcases h with ⟨events, hrun, hmeets⟩
  exact hinv.holds_run hmeets hrun hnet

theorem sent (h : Reaches P A D net net') : net.sent <+: net'.sent := by
  rcases h with ⟨events, hrun, _⟩
  exact sent_run hrun

end Reaches

end Network

end Lib
