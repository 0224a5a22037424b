import Sputnik.Heartbeat.Retention
import Sputnik.Heartbeat.Silence
import Sputnik.Heartbeat.Sticky

/-!
This module contains the exact boundary of the forgiveness: which deadline of a block of silent
cycles empties the routing table, and that the ones before it leave the table as it is.
-/

namespace Sputnik

variable {F : Type}

structure Services.Emptied (s : Services F) : Prop where
  services : ∀ k, s.serviceList k = []
  infoRequests : ∀ name, s.infoRequests name = []

namespace Frontend

-- What a cycle starts with, where `o.2` silent cycles in a row have ended just before it.
structure StartsCycle (m : UInt32) (o : Frontend F × Nat) : Prop where
  itsReceivedResponses : o.1.engine.itsReceivedResponses = 0
  itsSkippedCycles : o.1.engine.itsSkippedCycles.toNat = o.2 % (m.toNat + 1)
  limit : o.1.engine.itsSkippedCycles ≤ m

-- `o'.2` is the place of the silent cycle in its block, counted from one.
structure Forgives (m : UInt32) (o : Frontend F × Nat) (c : Cycle F) (o' : Frontend F × Nat)
    : Prop where
  starts : StartsCycle m o'
  kept : c.silent = true → ¬m.toNat + 1 ∣ o'.2 →
    o'.1.engine.itsServices = o.1.engine.itsServices
  emptied : c.silent = true → m.toNat + 1 ∣ o'.2 → o'.1.engine.itsServices.Emptied

theorem startsCycle_of_mod {m : UInt32} {f : Frontend F} {streak : Nat}
    (hf : f.HoldsLastAnswered m)
    (hskipped : f.engine.itsSkippedCycles.toNat = streak % (m.toNat + 1))
    : StartsCycle m (f, streak) where
  itsReceivedResponses := hf.ready.itsReceivedResponses
  itsSkippedCycles := hskipped
  limit := by
    rw [UInt32.le_iff_toNat_le, ← hf.limit]
    exact hf.skipped

variable [FloatArith F]

-- a frontend next to the number of silent cycles in a row that have just ended
def watch (theProtobuf : Protobuf F) (o : Frontend F × Nat) (c : Cycle F)
    : Option (Frontend F × Nat) :=
  (o.1.step theProtobuf c).map fun f' => (f', if c.silent then o.2 + 1 else 0)

theorem emptied_purge {n : Int} {f f' : Frontend F} {c : Cycle F}
    (h : f.Cycled c f.engine.itsServices f') (hpurges : f.purges c = true) (hn : n ≠ f.sequence)
    (hheld : OneSequence n f.engine.itsServices) : f'.engine.itsServices.Emptied where
  services := by
    intro k
    rw [serviceList_purge h hpurges, hheld.filter_serviceList hn]
  infoRequests := by
    intro name
    rw [infoRequests_purge h hpurges, hheld.filter_infoRequests hn]

/-
The counter of skipped cycles is the place in the block modulo `m + 1`, so that the deadline that
purges is the one of a multiple of `m + 1`. What it finds is at most `m + 1` sequence numbers old.
-/
theorem forgives_silent {m : UInt32} {f f' : Frontend F} {c : Cycle F} {streak : Nat}
    (hm : m.toNat + 1 < 65535) (hf : f.HoldsLastAnswered m) (hf' : f'.HoldsLastAnswered m)
    (hskipped : f.engine.itsSkippedCycles.toNat = streak % (m.toNat + 1))
    (h : f.Cycled c f.engine.itsServices f') (hsilent : c.silent = true)
    : f'.engine.itsSkippedCycles.toNat = (streak + 1) % (m.toNat + 1)
        ∧ Forgives m (f, streak) c (f', streak + 1) := by
  have haccepted := Cycle.silent_iff.mp hsilent
  have hlimit := hf.limit
  have hle := hf.skipped
  rw [hlimit] at hle
  have hpurges := purges_silent_iff haccepted hlimit hle
  cases hcase : f.purges c with
  | true =>
    rcases hpurges.mp hcase with ⟨hmax, _⟩
    rcases hf.held h.waiting with ⟨n, hn, hsequence, hheld⟩
    have hround : (streak + 1) % (m.toNat + 1) = 0 := by
      apply succ_mod_of_eq
      rw [← hskipped, hmax]
    have hzero : f'.engine.itsSkippedCycles.toNat = (streak + 1) % (m.toNat + 1) := by
      rw [h.itsSkippedCycles, if_pos hcase, hround]
      rfl
    refine ⟨hzero, startsCycle_of_mod hf' hzero, ?_, ?_⟩
    . intro _ hndvd
      exact absurd (Nat.dvd_of_mod_eq_zero hround) hndvd
    . intro _ _
      apply emptied_purge h hcase _ hheld
      unfold sequence
      omega
  | false =>
    rw [hcase] at hpurges
    have hless : f.engine.itsSkippedCycles.toNat < m.toNat := by
      simp only [Bool.false_eq_true, false_iff] at hpurges
      omega
    have hnext : (streak + 1) % (m.toNat + 1) = streak % (m.toNat + 1) + 1 := by
      apply succ_mod_of_lt
      omega
    have hcount : f'.engine.itsSkippedCycles.toNat = (streak + 1) % (m.toNat + 1) := by
      rw [h.toNat_itsSkippedCycles hcase, hnext]
      omega
    refine ⟨hcount, startsCycle_of_mod hf' hcount, ?_, ?_⟩
    . intro _ _
      dsimp
      rw [h.itsServices, hcase, if_neg (by decide)]
    . intro _ hdvd
      dsimp at hdvd
      have := Nat.mod_eq_zero_of_dvd hdvd
      omega

theorem forgives_answered {m : UInt32} {f f' : Frontend F} {c : Cycle F} {before : Services F}
    (hf' : f'.HoldsLastAnswered m) (h : f.Cycled c before f') (hanswered : c.silent = false)
    (hcount : c.accepted % 4294967296 = 0 → c.accepted = 0) {streak : Nat}
    : f'.engine.itsSkippedCycles.toNat = 0 % (m.toNat + 1)
        ∧ Forgives m (f, streak) c (f', 0) := by
  have hpurges : f.purges c = true := by
    apply purges_of_accepted
    intro hzero
    rw [Cycle.silent_iff.mpr (hcount hzero)] at hanswered
    contradiction
  have hzero : f'.engine.itsSkippedCycles.toNat = 0 % (m.toNat + 1) := by
    rw [h.itsSkippedCycles, if_pos hpurges, Nat.zero_mod]
    rfl
  refine ⟨hzero, startsCycle_of_mod hf' hzero, ?_, ?_⟩
  . intro hsilent
    rw [hanswered] at hsilent
    contradiction
  . intro hsilent
    rw [hanswered] at hsilent
    contradiction

theorem forgives_step {m : UInt32} {theProtobuf : Protobuf F} {o o' : Frontend F × Nat}
    {c : Cycle F} (hm : m.toNat + 1 < 65535) (hremoves : ∀ op ∈ c.ops, op.removes = false)
    (hcount : c.accepted % 4294967296 = 0 → c.accepted = 0)
    (ho : o.1.HoldsLastAnswered m ∧ o.1.engine.itsSkippedCycles.toNat = o.2 % (m.toNat + 1))
    (hstep : watch theProtobuf o c = some o')
    : Forgives m o c o'
        ∧ o'.1.HoldsLastAnswered m
        ∧ o'.1.engine.itsSkippedCycles.toNat = o'.2 % (m.toNat + 1) := by
  rcases o with ⟨f, streak⟩
  rcases Option.map_eq_some_iff.mp hstep with ⟨f', hf', ho'⟩
  rcases ho with ⟨hf, hskipped⟩
  dsimp at hf hskipped
  rcases step_eq_some hf.ready hf' with ⟨e, _, h⟩
  have hnext := (holdsLastAnswered_step hm hcount hf hf').2
  rw [← ho']
  cases hsilent : c.silent with
  | true =>
    have hran := h.ran
    rw [Cycle.ops_of_silent hsilent hremoves, Lib.run_nil, Option.some.injEq] at hran
    rw [← hran] at h
    rw [if_pos rfl]
    rcases forgives_silent hm hf hnext hskipped h hsilent with ⟨hskipped', hforgives⟩
    exact ⟨hforgives, hnext, hskipped'⟩
  | false =>
    rw [if_neg (by decide)]
    rcases forgives_answered hnext h hsilent hcount with ⟨hskipped', hforgives⟩
    exact ⟨hforgives, hnext, hskipped'⟩

/--
Where no cycle accepts a positive multiple of 2^32 replies and no backend is removed, the deadlines
of a block of silent cycles empty the table at every multiple of `itsMaxSkippedCycles + 1`, and
leave all of it as it is at the others.
-/
theorem forgives_along (config : EngineConfig F) (pause : Bool) (theReactor : Reactor)
    (thePlatform : Platform F) (theProtobuf : Protobuf F) (f : Frontend F)
    (cycles : List (Cycle F))
    (hlaunch : launch config pause theReactor thePlatform theProtobuf = some f)
    (hskip : config.itsMaxSkippedCycles.toNat + 1 < 65535)
    (hremoves : ∀ c ∈ cycles, ∀ op ∈ c.ops, op.removes = false)
    (hcount : ∀ c ∈ cycles, c.accepted % 4294967296 = 0 → c.accepted = 0)
    : StartsCycle config.itsMaxSkippedCycles (f, 0)
        ∧ Lib.Along (watch theProtobuf) (Forgives config.itsMaxSkippedCycles) (f, 0) cycles := by
  have hlaunched := launch_eq_some hlaunch
  have hf := holdsLastAnswered_launched hlaunched
  have hzero : f.engine.itsSkippedCycles.toNat = 0 % (config.itsMaxSkippedCycles.toNat + 1) := by
    rw [hlaunched.itsSkippedCycles, Nat.zero_mod]
    rfl
  refine ⟨startsCycle_of_mod hf hzero, ?_⟩
  apply Lib.Along.of_invariant (I := fun o => o.1.HoldsLastAnswered config.itsMaxSkippedCycles
    ∧ o.1.engine.itsSkippedCycles.toNat = o.2 % (config.itsMaxSkippedCycles.toNat + 1)) _ cycles
    ⟨hf, hzero⟩
    (Lib.Along.and (Lib.Along.of_forall_mem hremoves _) (Lib.Along.of_forall_mem hcount _))
  intro o c o' ho hstep hc
  apply forgives_step hskip hc.1 hc.2 ho hstep

section Sample

open Sample

theorem forgives_along_sample
    : ∃ f, launch config false reactor platform protobuf = some f
        ∧ StartsCycle 2 (f, 0)
        ∧ Lib.Along (watch protobuf) (Forgives 2) (f, 0)
          [replies 1 2, replies 2 0, replies 3 0, replies 4 0, replies 5 0] := by
  refine ⟨_, rfl, ?_⟩
  apply forgives_along config false reactor platform protobuf _ _ rfl
  . decide
  . decide
  . decide

-- The 2^32 replies of the second cycle are taken for none, so that the block starts one cycle late.
theorem not_forgives_overflow
    : ¬∀ (config : EngineConfig Rat) (pause : Bool) (theReactor : Reactor)
        (thePlatform : Platform Rat) (theProtobuf : Protobuf Rat) (f : Frontend Rat)
        (cycles : List (Cycle Rat)),
        launch config pause theReactor thePlatform theProtobuf = some f →
          config.itsMaxSkippedCycles.toNat + 1 < 65535 →
            (∀ c ∈ cycles, ∀ op ∈ c.ops, op.removes = false) →
              StartsCycle config.itsMaxSkippedCycles (f, 0)
                ∧ Lib.Along (watch theProtobuf) (Forgives config.itsMaxSkippedCycles) (f, 0)
                  cycles := by
  intro h
  obtain ⟨f, hlaunch⟩ : ∃ f, launch stickyConfig false reactor platform protobuf = some f :=
    ⟨_, rfl⟩
  rcases overflow_run (launch_eq_some hlaunch) with ⟨f₄, hrun, _, _, hempty⟩
  rcases firstCycle (launch_eq_some hlaunch) rfl with ⟨f₁, h₁⟩
  rcases waits_step h₁.waits rfl 2 rfl (by omega) 4294967296 with ⟨f₂, _, hstep₂, h₂, _⟩
  rcases kept_overflow h₁ h₂ (by omega) (by decide) with ⟨k, service, hservice, _⟩
  simp only [overflow, Lib.run_cons, h₁.step, hstep₂, Option.bind_some] at hrun
  rcases Option.bind_eq_some_iff.mp hrun with ⟨f₃, hstep₃, hrest⟩
  rcases Option.bind_eq_some_iff.mp hrest with ⟨_, hstep₄, heq⟩
  rw [Lib.run_nil, Option.some.injEq] at heq
  rw [heq] at hstep₄
  have hremoves : ∀ c ∈ overflow, ∀ op ∈ c.ops, op.removes = false := by
    simp only [overflow, List.forall_mem_cons]
    refine ⟨removes_replies 1 1, removes_replies 2 4294967296, removes_replies 3 0,
      removes_replies 4 0, ?_⟩
    simp
  have halong := (h stickyConfig false reactor platform protobuf f overflow hlaunch (by decide)
    hremoves).2
  rcases (halong (f₁, 0) (by simp [watch, h₁.step, silent_replies])).2 (f₂, 0)
    (by simp [watch, hstep₂, silent_replies]) with ⟨_, hrest₂⟩
  rcases hrest₂ (f₃, 1) (by simp [watch, hstep₃, silent_replies]) with ⟨hforgives₃, hrest₃⟩
  rcases hrest₃ (f₄, 2) (by simp [watch, hstep₄, silent_replies]) with ⟨hforgives₄, _⟩
  have hkept : f₄.engine.itsServices = f₂.engine.itsServices := by
    have hplace₄ : ¬2 + 1 ∣ 2 := by decide
    have hplace₃ : ¬2 + 1 ∣ 1 := by decide
    apply Eq.trans (hforgives₄.kept rfl hplace₄) (hforgives₃.kept rfl hplace₃)
  rw [← hkept, hempty] at hservice
  contradiction

end Sample

end Frontend

end Sputnik
