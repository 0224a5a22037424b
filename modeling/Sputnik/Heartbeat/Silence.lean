import Sputnik.Heartbeat.Lemmas

/-!
This module contains how long a frontend forgives silence: how many cycles in a row have to pass
without a reply to their own request before a deadline empties the routing table.
-/

namespace Sputnik

variable {F : Type}

theorem Cycle.accepted_pos {n : Int} {c : Cycle F} (h : c.answered n = true) : 0 < c.accepted := by
  rcases List.any_eq_true.mp h with ⟨event, hevent, hanswers⟩
  unfold accepted
  rw [List.countP_pos_iff]
  refine ⟨event, hevent, ?_⟩
  cases event with
  | processReply theReactor theMessage between =>
    simp only [CycleEvent.answers, Bool.and_eq_true] at hanswers
    exact hanswers.1
  | removeBackend removal => contradiction

def Services.HasService (s : Services F) : Prop := ∃ k, ∃ service, service ∈ s.serviceList k

variable [FloatArith F]

namespace Frontend

-- a frontend next to the number of cycles in a row without an accepted reply to their own request
def observe (theProtobuf : Protobuf F) (o : Frontend F × Nat) (c : Cycle F)
    : Option (Frontend F × Nat) :=
  (o.1.step theProtobuf c).map fun f' =>
    (f', if c.answered o.1.sequence then 0 else o.2 + 1)

def EmptiesAfterSilence (o : Frontend F × Nat) (c : Cycle F) (o' : Frontend F × Nat) : Prop :=
  ∀ e, o.1.engine.cycleRun c.events = some e → e.itsServices.HasService →
    ¬o'.1.engine.itsServices.HasService → o'.2 = o.1.engine.itsMaxSkippedCycles.toNat + 1

def AnsweredOrSilent (o : Frontend F × Nat) (c : Cycle F) : Prop :=
  (0 < c.accepted → c.answered o.1.sequence = true)
    ∧ (c.accepted % 4294967296 = 0 → c.accepted = 0)

/-
The counter of skipped cycles counts modulo `m + 1`. What survives more than `m` silent cycles does
so because the sequence numbers have come around, or because the counter overflows before it
exceeds `m`.
-/
structure CountsSilence (m : UInt32) (o : Frontend F × Nat) : Prop where
  ready : o.1.Ready
  limit : o.1.engine.itsMaxSkippedCycles = m
  skipped : o.1.engine.itsSkippedCycles.toNat = o.2 % (m.toNat + 1)
  held : o.1.waiting = true → ∃ n, n < 65535
    ∧ (n + o.2 + 1) % 65535 = o.1.engine.itsFrontendSequence.toNat
    ∧ ∀ k, ∀ service ∈ o.1.engine.itsServices.serviceList k, service.itsSequenceNumber = (n : Nat)
  survived : o.1.engine.itsServices.HasService →
    o.2 ≤ m.toNat ∨ 65535 ∣ m.toNat + 1 ∨ m.toNat + 1 = 4294967296

theorem answered_step {m : UInt32} {f f' : Frontend F} {c : Cycle F} {before : Services F}
    {streak : Nat} (hf : CountsSilence m (f, streak)) (h : f.Cycled c before f')
    (hpurges : f.purges c = true) (hanswered : c.answered f.sequence = true)
    (hremoves : ∀ op ∈ c.ops, op.removes = false)
    : f'.engine.itsServices.HasService ∧ CountsSilence m (f', 0) := by
  rcases Cycle.hasService_of_answered hanswered hremoves h.ran with ⟨k, service, hservice, hn⟩
  constructor
  . refine ⟨k, service, ?_⟩
    rw [mem_serviceList_purge h hpurges]
    exact ⟨hservice, hn⟩
  . exact {
      ready := h.ready
      limit := by
        rw [h.toEngineConfig]
        exact hf.limit
      skipped := by
        rw [h.itsSkippedCycles, if_pos hpurges]
        simp
      held := by
        intro hwaiting
        refine ⟨f.engine.itsFrontendSequence.toNat, hf.ready.itsFrontendSequence, ?_, ?_⟩
        . rw [h.itsFrontendSequence hwaiting]
          rfl
        . intro k service hmem
          exact ((mem_serviceList_purge h hpurges).mp hmem).2
      survived := by
        intro _
        left
        apply Nat.zero_le
    }

theorem succ_mod_of_lt {x d : Nat} (h : x % d + 1 < d) : (x + 1) % d = x % d + 1 := by
  rw [← Nat.mod_add_mod, Nat.mod_eq_of_lt h]

theorem succ_mod_of_eq {x d : Nat} (h : x % d + 1 = d) : (x + 1) % d = 0 := by
  rw [← Nat.mod_add_mod, h, Nat.mod_self]

namespace CountsSilence

variable {m : UInt32} {f : Frontend F} {streak : Nat} (hf : CountsSilence m (f, streak))
  (hskipped : f.engine.itsSkippedCycles.toNat = m.toNat)

omit [FloatArith F] in
include hf hskipped in
theorem succ_streak_mod : (streak + 1) % (m.toNat + 1) = 0 := by
  apply succ_mod_of_eq
  rw [← hf.skipped, hskipped]

omit [FloatArith F] in
include hf hskipped in
theorem streak_eq_of_le (hle : streak ≤ m.toNat) : streak = m.toNat := by
  have hstreak := hf.skipped
  dsimp at hstreak
  rw [hskipped, Nat.mod_eq_of_lt (by omega)] at hstreak
  omega

end CountsSilence

-- A silent deadline that purges ends the last of `m + 1` cycles, or of a multiple of them.
theorem silentPurge_empties {m : UInt32} {f f' : Frontend F} {c : Cycle F} {streak : Nat}
    (hf : CountsSilence m (f, streak)) (h : f.Cycled c f.engine.itsServices f')
    (hpurges : f.purges c = true)
    (hskipped : f.engine.itsSkippedCycles.toNat = m.toNat) (hm : m.toNat + 1 ≠ 4294967296)
    (hservice : f.engine.itsServices.HasService) (hempty : ¬f'.engine.itsServices.HasService)
    : streak + 1 = m.toNat + 1 := by
  rcases hf.held h.waiting with ⟨n, hn, hsequence, hheld⟩
  dsimp at hsequence hheld
  by_contra hne
  have hlong : 65535 ∣ m.toNat + 1 := by
    rcases hf.survived hservice with hle | hdvd | hmax
    . have := hf.streak_eq_of_le hskipped hle
      omega
    . assumption
    . contradiction
  have hround : 65535 ∣ streak + 1 := by
    apply Nat.dvd_trans hlong
    apply Nat.dvd_of_mod_eq_zero (hf.succ_streak_mod hskipped)
  -- the sequence numbers of the services have come around
  rcases hservice with ⟨k, service, hmem⟩
  apply hempty
  refine ⟨k, service, ?_⟩
  rw [mem_serviceList_purge h hpurges, hheld k service hmem]
  refine ⟨hmem, ?_⟩
  unfold sequence
  omega

theorem silentPurge_counts {m : UInt32} {f f' : Frontend F} {c : Cycle F} {streak : Nat}
    (hf : CountsSilence m (f, streak)) (h : f.Cycled c f.engine.itsServices f')
    (hpurges : f.purges c = true) (hskipped : f.engine.itsSkippedCycles.toNat = m.toNat)
    : CountsSilence m (f', streak + 1) := by
  rcases hf.held h.waiting with ⟨n, hn, hsequence, hheld⟩
  dsimp at hsequence hheld
  exact {
    ready := h.ready
    limit := by
      rw [h.toEngineConfig]
      apply hf.limit
    skipped := by
      rw [h.itsSkippedCycles, if_pos hpurges, hf.succ_streak_mod hskipped]
      rfl
    held := by
      intro hwaiting
      refine ⟨n, hn, ?_, ?_⟩
      . rw [h.itsFrontendSequence hwaiting]
        dsimp
        omega
      . intro k service hmem
        apply hheld k service ((mem_serviceList_purge h hpurges).mp hmem).1
    survived := by
      rintro ⟨k, service, hmem⟩
      rcases (mem_serviceList_purge h hpurges).mp hmem with ⟨hbefore, hcurrent⟩
      rw [hheld k service hbefore] at hcurrent
      unfold sequence at hcurrent
      rcases hf.survived ⟨k, service, hbefore⟩ with hle | hdvd | hmax
      . have := hf.streak_eq_of_le hskipped hle
        right
        left
        omega
      . exact .inr (.inl hdvd)
      . exact .inr (.inr hmax)
  }

theorem silentKeep_step {m : UInt32} {f f' : Frontend F} {c : Cycle F} {streak : Nat}
    (hf : CountsSilence m (f, streak)) (h : f.Cycled c f.engine.itsServices f')
    (hpurges : f.purges c = false)
    (hskipped : f.engine.itsSkippedCycles.toNat < m.toNat ∨ m.toNat + 1 = 4294967296)
    : f'.engine.itsServices = f.engine.itsServices ∧ CountsSilence m (f', streak + 1) := by
  rcases hf.held h.waiting with ⟨n, hn, hsequence, hheld⟩
  have hcount := hf.skipped
  dsimp at hsequence hheld hcount
  have hsame : f'.engine.itsServices = f.engine.itsServices := by
    rw [h.itsServices, hpurges, if_neg (by decide)]
  have hnext : f'.engine.itsSkippedCycles.toNat
      = (f.engine.itsSkippedCycles.toNat + 1) % 4294967296 := by
    apply h.toNat_itsSkippedCycles hpurges
  have hm := m.toNat_lt
  refine ⟨hsame, ?_⟩
  exact {
    ready := h.ready
    limit := by
      rw [h.toEngineConfig]
      exact hf.limit
    skipped := by
      dsimp
      cases hskipped with
      | inl hlt =>
        have hsucc : (streak + 1) % (m.toNat + 1) = streak % (m.toNat + 1) + 1 :=
          succ_mod_of_lt (by omega)
        rw [hnext, Nat.mod_eq_of_lt (by omega), hsucc, hcount]
      | inr hmax =>
        rw [hnext, hcount, hmax, Nat.mod_add_mod]
    held := by
      intro hwaiting
      refine ⟨n, hn, ?_, ?_⟩
      . rw [h.itsFrontendSequence hwaiting]
        dsimp
        omega
      . dsimp
        rwa [hsame]
    survived := by
      dsimp
      rw [hsame]
      intro hservice
      rcases hf.survived hservice with hle | hdvd | hmax
      . cases hskipped with
        | inl hlt =>
          left
          dsimp at hle
          rw [Nat.mod_eq_of_lt (by omega)] at hcount
          omega
        | inr hmax => exact .inr (.inr hmax)
      . exact .inr (.inl hdvd)
      . exact .inr (.inr hmax)
  }

omit [FloatArith F] in
theorem purges_silent_iff {m : UInt32} {f : Frontend F} {c : Cycle F} (haccepted : c.accepted = 0)
    (hlimit : f.engine.itsMaxSkippedCycles = m) (hle : f.engine.itsSkippedCycles.toNat ≤ m.toNat)
    : f.purges c = true
        ↔
      f.engine.itsSkippedCycles.toNat = m.toNat ∧ m.toNat + 1 ≠ 4294967296 := by
  have hm := m.toNat_lt
  have hreceived : ¬0 < UInt32.ofNat c.accepted := by
    rw [haccepted]
    decide
  simp only [purges, hreceived, decide_false, Bool.false_or, decide_eq_true_eq,
    UInt32.lt_iff_toNat_lt, UInt32.toNat_add, UInt32.toNat_one, hlimit]
  omega

theorem countsSilence_step {m : UInt32} {theProtobuf : Protobuf F} {o o' : Frontend F × Nat}
    {c : Cycle F} (ho : CountsSilence m o) (hremoves : ∀ op ∈ c.ops, op.removes = false)
    (hc : AnsweredOrSilent o c) (hstep : observe theProtobuf o c = some o')
    : EmptiesAfterSilence o c o' ∧ CountsSilence m o' := by
  rcases o with ⟨f, streak⟩
  rcases Option.map_eq_some_iff.mp hstep with ⟨f', hf', ho'⟩
  rcases step_eq_some ho.ready hf' with ⟨e, hrun, h⟩
  rcases hc with ⟨hanswered, hoverflow⟩
  have hskipped := ho.skipped
  have hlimit := ho.limit
  dsimp at hskipped hlimit hanswered
  have hle : f.engine.itsSkippedCycles.toNat < m.toNat + 1 := by
    rw [hskipped]
    apply Nat.mod_lt
    omega
  have hm := m.toNat_lt
  by_cases haccepted : c.accepted = 0
  . have hops := Cycle.ops_of_silent (Cycle.silent_iff.mpr haccepted) hremoves
    have hsame : f.engine.itsServices = e.itsServices := by
      have hran := h.ran
      rw [hops] at hran
      apply Option.some.inj hran
    rw [← hsame] at h
    have hunanswered : c.answered f.sequence = false := by
      rw [← Bool.not_eq_true]
      intro htrue
      have := Cycle.accepted_pos htrue
      omega
    rw [← ho', hunanswered, if_neg (by decide)]
    have hpurges := purges_silent_iff haccepted hlimit (by omega)
    cases hcase : f.purges c with
    | true =>
      rcases hpurges.mp hcase with ⟨hmax, hne⟩
      refine ⟨?_, silentPurge_counts ho h hcase hmax⟩
      intro e' hrun' hservice hempty
      rw [hrun] at hrun'
      rw [← Option.some.inj hrun', ← hsame] at hservice
      rw [hlimit]
      apply silentPurge_empties ho h hcase hmax hne hservice hempty
    | false =>
      rw [hcase] at hpurges
      rcases silentKeep_step ho h hcase (by
        simp only [Bool.false_eq_true, false_iff] at hpurges
        omega) with ⟨hkeeps, hcounts⟩
      refine ⟨?_, hcounts⟩
      intro e' hrun' hservice hempty
      rw [hrun] at hrun'
      rw [← Option.some.inj hrun', ← hsame, ← hkeeps] at hservice
      contradiction
  . have hown := hanswered (by omega)
    rw [← ho', hown, if_pos rfl]
    have hpurges : f.purges c = true := by
      apply purges_of_accepted
      omega
    rcases answered_step ho h hpurges hown hremoves with ⟨hservice, hcounts⟩
    refine ⟨?_, hcounts⟩
    intro _ _ _ hempty
    contradiction

theorem countsSilence_launched {config : EngineConfig F} {f : Frontend F} (h : Launched config f)
    : CountsSilence config.itsMaxSkippedCycles (f, 0) where
  ready := h.ready
  limit := by rw [h.toEngineConfig]
  skipped := by
    rw [h.itsSkippedCycles]
    simp
  held := by
    intro _
    rcases h.itsServices with ⟨mode, hinit⟩
    refine ⟨0, by omega, ?_, ?_⟩
    . rw [h.itsFrontendSequence]
      rfl
    . rw [hinit]
      simp
  survived := by
    intro _
    left
    apply Nat.zero_le

/--
In a run without `removeBackend` in which every cycle with accepted replies has one that answers its
own request, and in which the counter of the replies does not overflow to 0, a deadline empties the
table only as the last of `itsMaxSkippedCycles + 1` cycles in a row without such an answer.
-/
theorem emptiesAfterSilence_along (config : EngineConfig F) (pause : Bool) (theReactor : Reactor)
    (thePlatform : Platform F) (theProtobuf : Protobuf F) (f : Frontend F)
    (cycles : List (Cycle F))
    (hlaunch : launch config pause theReactor thePlatform theProtobuf = some f)
    (hremoves : ∀ c ∈ cycles, ∀ op ∈ c.ops, op.removes = false)
    (hanswered : Lib.Along (observe theProtobuf) (fun o c _ => AnsweredOrSilent o c) (f, 0) cycles)
    : Lib.Along (observe theProtobuf) EmptiesAfterSilence (f, 0) cycles := by
  apply Lib.Along.of_invariant (I := CountsSilence config.itsMaxSkippedCycles) _ cycles
    (countsSilence_launched (launch_eq_some hlaunch))
    (Lib.Along.and (Lib.Along.of_forall_mem hremoves _) hanswered)
  intro o c o' ho hstep hc
  apply countsSilence_step ho hc.1 hc.2 hstep

section Sample

open Sample

theorem emptiesAfterSilence_along_sample
    : ∃ f, launch config false reactor platform protobuf = some f
        ∧ Lib.Along (observe protobuf) EmptiesAfterSilence (f, 0)
          [replies 1 2, replies 2 0, replies 3 0, replies 4 0] := by
  refine ⟨_, rfl, ?_⟩
  apply emptiesAfterSilence_along config false reactor platform protobuf _ _ rfl
  . decide
  . unfold AnsweredOrSilent
    decide

-- The second cycle has only a late reply to the request of the first one.
theorem not_emptiesAfterSilence_lateReply
    : ¬∀ (config : EngineConfig Rat) (pause : Bool) (theReactor : Reactor)
        (thePlatform : Platform Rat) (theProtobuf : Protobuf Rat) (f : Frontend Rat)
        (cycles : List (Cycle Rat)),
        launch config pause theReactor thePlatform theProtobuf = some f →
          (∀ c ∈ cycles, ∀ op ∈ c.ops, op.removes = false) →
            Lib.Along (observe theProtobuf) EmptiesAfterSilence (f, 0) cycles := by
  intro h
  obtain ⟨f, hlaunch⟩ : ∃ f, launch config false reactor platform protobuf = some f := ⟨_, rfl⟩
  rcases firstCycle (launch_eq_some hlaunch) rfl with ⟨f₁, h₁⟩
  have hlisteners : f₁.engine.itsBackendUdpListeners = [] := by
    rw [h₁.waits.toEngineConfig]
    rfl
  rcases replies_step 1 1 h₁.waits.ready h₁.waits.waiting hlisteners with ⟨f₂, hstep₂, _⟩
  rcases step_eq_some h₁.waits.ready hstep₂ with ⟨e, hrun₂, h₂⟩
  have hpurges : f₁.purges (replies 1 1) = true := by
    apply purges_of_accepted
    decide
  have hservice : e.itsServices.HasService := by
    rcases Cycle.hasService_of_answered (n := 1) rfl
      (removes_replies 1 1) h₂.ran with ⟨k, service, hmem, _⟩
    exact ⟨k, service, hmem⟩
  have hempty : ¬f₂.engine.itsServices.HasService := by
    rintro ⟨k, service, hmem⟩
    rw [mem_serviceList_purge h₂ hpurges, h₁.waits.sequence] at hmem
    cases Cycle.sequence_of_mem (carries_replies 1 1) h₂.ran hmem.1 with
    | inl hold =>
      have := h₁.waits.older k service hold
      omega
    | inr hnew =>
      rw [hmem.2] at hnew
      contradiction
  have halong := h config false reactor platform protobuf f [replies 1 1, replies 1 1] hlaunch
    (by decide)
  have hobserve₁ : observe protobuf (f, 0) (replies 1 1) = some (f₁, 0) := by
    unfold observe
    rw [h₁.step, h₁.sequence]
    rfl
  have hobserve₂ : observe protobuf (f₁, 0) (replies 1 1) = some (f₂, 1) := by
    unfold observe
    rw [hstep₂, h₁.waits.sequence]
    rfl
  rcases (halong _ hobserve₁).2 _ hobserve₂ with ⟨hempties, _⟩
  have hstreak := hempties e hrun₂ hservice hempty
  rw [h₁.waits.toEngineConfig] at hstreak
  have hthree : 1 = 3 := hstreak
  contradiction

end Sample

end Frontend

end Sputnik
