import Sputnik.Heartbeat.Lemmas

/-!
This module contains what the routing table holds after a deadline: what the replies of the cycle
have added under its sequence number, and nothing else.
-/

namespace Sputnik

variable {F : Type}

/-! The reference: the operations of one cycle, of which only those that carry `n` count -/

def arrivedService (n : Int) (k : ByteString) (list : List (BackendService F))
    : ServicesOp F → List (BackendService F)
  | .addService _ service theFrontendURI _ _ =>
    if theFrontendURI = k ∧ service.itsSequenceNumber = n then list ++ [service] else list
  | .removeBackend _ theHostname thePort theURI =>
    list.filter fun it => !Services.namedBy theHostname thePort theURI it
  | _ => list

def arrivedInfo (n : Int) (name : ByteString) (requestList : List (BackendInfoRequest F))
    : ServicesOp F → List (BackendInfoRequest F)
  | .addBackendInfoRequest theRequest =>
    if theRequest.itsName = name ∧ theRequest.itsSequenceNumber = n then
      requestList ++ [theRequest]
    else
      requestList
  | _ => requestList

structure OneSequence (n : Int) (s : Services F) : Prop where
  services : ∀ k, ∀ service ∈ s.serviceList k, service.itsSequenceNumber = n
  infoRequests : ∀ name, ∀ theRequest ∈ s.infoRequests name, theRequest.itsSequenceNumber = n

theorem OneSequence.filter_serviceList {n n' : Int} {s : Services F} (h : OneSequence n s)
    (hn : n ≠ n') (k : ByteString)
    : (s.serviceList k).filter (fun it => it.itsSequenceNumber = n') = [] := by
  rw [List.filter_eq_nil_iff]
  intro service hmem
  rw [h.services k service hmem]
  simpa using hn

theorem OneSequence.filter_infoRequests {n n' : Int} {s : Services F} (h : OneSequence n s)
    (hn : n ≠ n') (name : ByteString)
    : (s.infoRequests name).filter (fun it => it.itsSequenceNumber = n') = [] := by
  rw [List.filter_eq_nil_iff]
  intro theRequest hmem
  rw [h.infoRequests name theRequest hmem]
  simpa using hn

theorem filter_stepList {n : Int} {k : ByteString} {list : List (BackendService F)}
    {op : ServicesOp F} (hop : CycleEvent.IsCycleOp op)
    : (Services.stepList k list op).filter (fun it => it.itsSequenceNumber = n)
        =
      arrivedService n k (list.filter fun it => it.itsSequenceNumber = n) op := by
  cases op with
  | addService theReactor service theFrontendURI theLoad theThrottle =>
    simp only [Services.stepList, arrivedService]
    by_cases hk : theFrontendURI = k
    . by_cases hn : service.itsSequenceNumber = n
      . simp [hk, hn]
      . simp [hk, hn]
    . simp [hk]
  | removeBackend theReactor theHostname thePort theURI =>
    simp only [Services.stepList, arrivedService, ServicesOp.stale, List.filter_filter]
    congr 1
    funext it
    apply Bool.and_comm
  | addBackendInfoRequest theRequest =>
    simp [Services.stepList, arrivedService, ServicesOp.stale]
  | _ => contradiction

theorem filter_foldl_stepList {n : Int} {k : ByteString} {ops : List (ServicesOp F)}
    (hops : ∀ op ∈ ops, CycleEvent.IsCycleOp op) (list : List (BackendService F))
    : (ops.foldl (Services.stepList k) list).filter (fun it => it.itsSequenceNumber = n)
        =
      ops.foldl (arrivedService n k) (list.filter fun it => it.itsSequenceNumber = n) := by
  induction ops generalizing list with
  | nil => rfl
  | cons op ops ih =>
    rw [List.forall_mem_cons] at hops
    rw [List.foldl_cons, List.foldl_cons, ih hops.2, filter_stepList hops.1]

theorem filter_stepInfoRequests {n : Int} {name : ByteString}
    {requestList : List (BackendInfoRequest F)} {op : ServicesOp F}
    (hop : CycleEvent.IsCycleOp op)
    : (Services.stepInfoRequests name requestList op).filter (fun it => it.itsSequenceNumber = n)
        =
      arrivedInfo n name (requestList.filter fun it => it.itsSequenceNumber = n) op := by
  cases op with
  | addBackendInfoRequest theRequest =>
    simp only [Services.stepInfoRequests, arrivedInfo]
    by_cases hname : theRequest.itsName = name
    . by_cases hn : theRequest.itsSequenceNumber = n
      . simp [hname, hn]
      . simp [hname, hn]
    . simp [hname]
  | addService theReactor service theFrontendURI theLoad theThrottle => rfl
  | removeBackend theReactor theHostname thePort theURI => rfl
  | _ => contradiction

theorem filter_foldl_stepInfoRequests {n : Int} {name : ByteString} {ops : List (ServicesOp F)}
    (hops : ∀ op ∈ ops, CycleEvent.IsCycleOp op) (requestList : List (BackendInfoRequest F))
    : (ops.foldl (Services.stepInfoRequests name) requestList).filter
          (fun it => it.itsSequenceNumber = n)
        =
      ops.foldl (arrivedInfo n name) (requestList.filter fun it => it.itsSequenceNumber = n) := by
  induction ops generalizing requestList with
  | nil => rfl
  | cons op ops ih =>
    rw [List.forall_mem_cons] at hops
    rw [List.foldl_cons, List.foldl_cons, ih hops.2, filter_stepInfoRequests hops.1]

theorem sequence_foldl_arrivedService {n : Int} {k : ByteString} {ops : List (ServicesOp F)}
    {list : List (BackendService F)} (hlist : ∀ service ∈ list, service.itsSequenceNumber = n)
    : ∀ service ∈ ops.foldl (arrivedService n k) list, service.itsSequenceNumber = n := by
  induction ops generalizing list with
  | nil => assumption
  | cons op ops ih =>
    rw [List.foldl_cons]
    apply ih
    unfold arrivedService
    intro service hmem
    split at hmem
    . split at hmem
      . next hnew =>
        cases List.mem_append.mp hmem with
        | inl hmem => apply hlist service hmem
        | inr hmem =>
          rw [List.mem_singleton.mp hmem]
          exact hnew.2
      . apply hlist service hmem
    . apply hlist service
      apply List.mem_of_mem_filter hmem
    . apply hlist service hmem

namespace Frontend

/-
At the start of a cycle the table holds the entries of the last cycle that was answered, as many
cycles ago as have been skipped since.
-/
structure HoldsLastAnswered (m : UInt32) (f : Frontend F) : Prop where
  ready : f.Ready
  limit : f.engine.itsMaxSkippedCycles = m
  skipped : f.engine.itsSkippedCycles.toNat ≤ f.engine.itsMaxSkippedCycles.toNat
  held : f.waiting = true → ∃ n, n < 65535
    ∧ (n + f.engine.itsSkippedCycles.toNat + 1) % 65535 = f.engine.itsFrontendSequence.toNat
    ∧ OneSequence n f.engine.itsServices

theorem holdsLastAnswered_launched [FloatArith F] {config : EngineConfig F} {f : Frontend F}
    (h : Launched config f) : f.HoldsLastAnswered config.itsMaxSkippedCycles where
  ready := h.ready
  limit := by rw [h.toEngineConfig]
  skipped := by
    rw [h.itsSkippedCycles]
    apply Nat.zero_le
  held := by
    intro _
    rcases h.itsServices with ⟨mode, hinit⟩
    refine ⟨0, by omega, ?_, ?_⟩
    . rw [h.itsSkippedCycles, h.itsFrontendSequence]
      rfl
    . rw [hinit]
      constructor
      . simp
      . simp

end Frontend

variable [FloatArith F]

theorem oneSequence_silent {n : Int} {c : Cycle F} {s s' : Services F} (hsilent : c.silent = true)
    (hrun : Lib.run Services.step s c.ops = some s') (hs : OneSequence n s) : OneSequence n s' := by
  apply Lib.run_invariant _ hs hrun
  intro s op s' hop hs hstep
  rcases Cycle.removal_of_silent hsilent hop with ⟨removal, hremoval⟩
  rw [hremoval] at hstep
  constructor
  . intro k service hmem
    rw [Services.serviceList_step hstep] at hmem
    apply hs.services k service
    apply List.mem_of_mem_filter hmem
  . intro name theRequest hmem
    rw [Services.infoRequests_step hstep] at hmem
    apply hs.infoRequests name theRequest hmem

namespace Frontend

def HoldsThisCycle (f : Frontend F) (c : Cycle F) (f' : Frontend F) : Prop :=
  0 < c.accepted →
    (∀ k, f'.engine.itsServices.serviceList k = c.ops.foldl (arrivedService f.sequence k) [])
      ∧ ∀ name, f'.engine.itsServices.infoRequests name
        = c.ops.foldl (arrivedInfo f.sequence name) []

theorem oneSequence_purge {f f' : Frontend F} {c : Cycle F} {before : Services F}
    (h : f.Cycled c before f') (hpurges : f.purges c = true)
    : OneSequence f.sequence f'.engine.itsServices where
  services := by
    intro k service hmem
    exact ((mem_serviceList_purge h hpurges).mp hmem).2
  infoRequests := by
    intro name theRequest hmem
    rw [infoRequests_purge h hpurges] at hmem
    simpa using List.of_mem_filter hmem

theorem holdsThisCycle_purge {n : Int} {f f' : Frontend F} {c : Cycle F} {before : Services F}
    (h : f.Cycled c before f') (hpurges : f.purges c = true) (hn : n ≠ f.sequence)
    (hheld : OneSequence n f.engine.itsServices) : f.HoldsThisCycle c f' := by
  intro _
  constructor
  . intro k
    rw [serviceList_purge h hpurges, Services.serviceList_run h.ran,
      filter_foldl_stepList Cycle.isCycleOp_ops, hheld.filter_serviceList hn]
  . intro name
    rw [infoRequests_purge h hpurges, Services.infoRequests_run h.ran,
      filter_foldl_stepInfoRequests Cycle.isCycleOp_ops, hheld.filter_infoRequests hn]

theorem holdsLastAnswered_step {m : UInt32} {theProtobuf : Protobuf F} {f f' : Frontend F}
    {c : Cycle F} (hskip : m.toNat + 1 < 65535)
    (hcount : c.accepted % 4294967296 = 0 → c.accepted = 0) (hf : f.HoldsLastAnswered m)
    (hstep : f.step theProtobuf c = some f')
    : f.HoldsThisCycle c f' ∧ f'.HoldsLastAnswered m := by
  rcases step_eq_some hf.ready hstep with ⟨e, _, h⟩
  rcases hf.held h.waiting with ⟨n, hn, hsequence, hheld⟩
  have hskipped := hf.skipped
  rw [hf.limit] at hskipped
  have hlimit : f'.engine.itsMaxSkippedCycles = m := by
    rw [h.toEngineConfig]
    exact hf.limit
  have hpurges := purges_eq_true_iff (f := f) (c := c) (by omega)
  rw [hf.limit] at hpurges
  cases hcase : f.purges c with
  | true =>
    have hzero : f'.engine.itsSkippedCycles = 0 := by
      rw [h.itsSkippedCycles, if_pos hcase]
    constructor
    . apply holdsThisCycle_purge h hcase _ hheld
      unfold sequence
      omega
    . refine ⟨h.ready, hlimit, by simp [hzero], ?_⟩
      intro hwaiting
      refine ⟨f.engine.itsFrontendSequence.toNat, hf.ready.itsFrontendSequence, ?_, ?_⟩
      . rw [h.itsFrontendSequence hwaiting, hzero]
        rfl
      . apply oneSequence_purge h hcase
  | false =>
    rw [hcase] at hpurges
    have haccepted : c.accepted = 0 := by
      apply hcount
      by_contra hne
      exact absurd (hpurges.mpr (.inl hne)) (by decide)
    have hless : f.engine.itsSkippedCycles.toNat + 1 ≤ m.toNat := by
      by_contra hgt
      exact absurd (hpurges.mpr (.inr (by omega))) (by decide)
    have hnext : f'.engine.itsSkippedCycles.toNat = f.engine.itsSkippedCycles.toNat + 1 := by
      rw [h.toNat_itsSkippedCycles hcase]
      omega
    constructor
    . intro hpos
      omega
    . refine ⟨h.ready, hlimit, by rw [hlimit, hnext]; assumption, ?_⟩
      intro hwaiting
      refine ⟨n, hn, ?_, ?_⟩
      . rw [h.itsFrontendSequence hwaiting, hnext]
        omega
      . rw [h.itsServices, if_neg (by simp [hcase])]
        apply oneSequence_silent (Cycle.silent_iff.mpr haccepted) h.ran hheld

/--
Where no cycle accepts a positive multiple of 2^32 replies, every deadline of a cycle with accepted
replies leaves exactly what these replies have added under the sequence number of the cycle.
-/
theorem holdsThisCycle_along (config : EngineConfig F) (pause : Bool) (theReactor : Reactor)
    (thePlatform : Platform F) (theProtobuf : Protobuf F) (f : Frontend F)
    (cycles : List (Cycle F))
    (hlaunch : launch config pause theReactor thePlatform theProtobuf = some f)
    (hskip : config.itsMaxSkippedCycles.toNat + 1 < 65535)
    (hcount : ∀ c ∈ cycles, c.accepted % 4294967296 = 0 → c.accepted = 0)
    : Lib.Along (step theProtobuf) HoldsThisCycle f cycles := by
  apply Lib.Along.of_invariant (I := HoldsLastAnswered config.itsMaxSkippedCycles) _ cycles
    (holdsLastAnswered_launched (launch_eq_some hlaunch)) (Lib.Along.of_forall_mem hcount f)
  intro f c f' hf hstep hc
  apply holdsLastAnswered_step hskip hc hf hstep

section Sample

open Sample

theorem holdsThisCycle_along_sample
    : ∃ f, launch config false reactor platform protobuf = some f
        ∧ Lib.Along (step protobuf) HoldsThisCycle f
          [replies 1 2, replies 2 0, replies 3 0, replies 4 1] := by
  refine ⟨_, rfl, ?_⟩
  apply holdsThisCycle_along config false reactor platform protobuf _ _ rfl
  . decide
  . decide

theorem kept_overflow {config : EngineConfig Rat} {f f₁ f₂ : Frontend Rat} {s : Services Rat}
    {n : Nat} (h₁ : FirstCycle config f f₁) (h₂ : f₁.Cycled (replies 2 n) s f₂)
    (hn : n % 4294967296 = 0) (hm : 0 < config.itsMaxSkippedCycles.toNat)
    : ∃ k, ∃ service ∈ f₂.engine.itsServices.serviceList k, service.itsSequenceNumber < 2 := by
  have hpurges : f₁.purges (replies 2 n) = false := by
    apply purges_eq_false
    . rwa [accepted_replies]
    . rw [h₁.skipped, h₁.waits.toEngineConfig]
      assumption
  rcases h₁.service with ⟨k, service, hservice⟩
  refine ⟨k, service, ?_, h₁.waits.older k service hservice⟩
  rw [h₂.itsServices, hpurges, if_neg (by decide), Services.serviceList_run h₂.ran]
  apply Services.mem_foldl_stepList _ hservice
  intro op hop
  apply CycleEvent.stale_eq_false (Cycle.isCycleOp_ops op hop) (removes_replies 2 n op hop)

/-
After 2^32 replies the counter is 0 again, so that the deadline takes the cycle for a silent one and
leaves the entries of the cycle before in the table.
-/
theorem replies_overflow {f f₁ : Frontend Rat} (h₁ : FirstCycle config f f₁) (n : Nat)
    (hpos : 0 < n) (hn : n % 4294967296 = 0)
    : ∃ f₂, f₁.step protobuf (replies 2 n) = some f₂ ∧ ¬f₁.HoldsThisCycle (replies 2 n) f₂ := by
  rcases waits_step h₁.waits rfl 2 rfl (by omega) n with ⟨f₂, _, hstep₂, h₂, _⟩
  rcases kept_overflow h₁ h₂ hn (by decide) with ⟨k, service, hkept, hone⟩
  refine ⟨f₂, hstep₂, ?_⟩
  intro hholds₂
  rw [(hholds₂ (by rwa [accepted_replies])).1 k] at hkept
  have htwo := sequence_foldl_arrivedService (by simp) service hkept
  rw [h₁.waits.sequence] at htwo
  omega

theorem not_holdsThisCycle_overflow
    : ¬∀ (config : EngineConfig Rat) (pause : Bool) (theReactor : Reactor)
        (thePlatform : Platform Rat) (theProtobuf : Protobuf Rat) (f : Frontend Rat)
        (cycles : List (Cycle Rat)),
        launch config pause theReactor thePlatform theProtobuf = some f →
          config.itsMaxSkippedCycles.toNat + 1 < 65535 →
            Lib.Along (step theProtobuf) HoldsThisCycle f cycles := by
  intro h
  obtain ⟨f, hlaunch⟩ : ∃ f, launch config false reactor platform protobuf = some f := ⟨_, rfl⟩
  rcases firstCycle (launch_eq_some hlaunch) rfl with ⟨f₁, h₁⟩
  rcases replies_overflow h₁ 4294967296 (by omega) (by omega) with ⟨f₂, hstep₂, hnot⟩
  have halong := h config false reactor platform protobuf f [replies 1 1, replies 2 4294967296]
    hlaunch (by decide)
  rcases halong f₁ h₁.step with ⟨_, hrest⟩
  rcases hrest f₂ hstep₂ with ⟨hholds, _⟩
  contradiction

end Sample

end Frontend

end Sputnik
