import Sputnik.Heartbeat.Impl
import Sputnik.Services.Lemmas

/-!
This module contains what one cycle does to the counters of the engine and to the routing table.
-/

namespace Sputnik

variable {F : Type}

theorem nextSequence_toNat {n : UInt32} (h : n.toNat < 65535)
    : ((n + 1) % 65535).toNat = (n.toNat + 1) % 65535 := by
  rw [UInt32.toNat_mod, UInt32.toNat_add]
  simp only [UInt32.reduceToNat]
  omega

theorem Cycle.silent_iff {c : Cycle F} : c.silent = true ↔ c.accepted = 0 := by
  simp [silent, accepted, List.countP_eq_zero]

namespace Frontend

def sequence (f : Frontend F) : Int := f.engine.itsFrontendSequence.toNat

structure Ready (f : Frontend F) : Prop where
  itsReceivedResponses : f.engine.itsReceivedResponses = 0
  itsFrontendSequence : f.engine.itsFrontendSequence.toNat < 65535

-- The deadline of the cycle purges the table: the counter of the replies is modulo 2^32.
def purges (f : Frontend F) (c : Cycle F) : Bool :=
  decide (0 < UInt32.ofNat c.accepted)
    || decide (f.engine.itsMaxSkippedCycles < f.engine.itsSkippedCycles + 1)

theorem purges_eq_true_iff {f : Frontend F} {c : Cycle F}
    (hskipped : f.engine.itsSkippedCycles.toNat + 1 < 4294967296)
    : f.purges c = true
        ↔
      c.accepted % 4294967296 ≠ 0
        ∨ f.engine.itsMaxSkippedCycles.toNat < f.engine.itsSkippedCycles.toNat + 1 := by
  have hlt : (f.engine.itsSkippedCycles + 1).toNat = f.engine.itsSkippedCycles.toNat + 1 := by
    rw [UInt32.toNat_add]
    simp only [UInt32.reduceToNat]
    omega
  simp only [purges, Bool.or_eq_true, decide_eq_true_eq, UInt32.lt_iff_toNat_lt, hlt,
    UInt32.toNat_ofNat', UInt32.toNat_zero]
  omega

theorem purges_of_accepted {f : Frontend F} {c : Cycle F} (h : c.accepted % 4294967296 ≠ 0)
    : f.purges c = true := by
  simp only [purges, Bool.or_eq_true, decide_eq_true_eq, UInt32.lt_iff_toNat_lt,
    UInt32.toNat_ofNat', UInt32.toNat_zero]
  left
  omega

theorem purges_eq_false {f : Frontend F} {c : Cycle F} (hcount : c.accepted % 4294967296 = 0)
    (hskipped : f.engine.itsSkippedCycles.toNat < f.engine.itsMaxSkippedCycles.toNat)
    : f.purges c = false := by
  have hm := f.engine.itsMaxSkippedCycles.toNat_lt
  rw [← Bool.not_eq_true, purges_eq_true_iff (by omega)]
  omega

end Frontend

variable [FloatArith F]

namespace CycleEvent

def IsCycleOp : ServicesOp F → Prop
  | .addService .. | .addBackendInfoRequest _ | .removeBackend .. => True
  | _ => False

omit [FloatArith F] in
theorem stale_eq_false {op : ServicesOp F} (hop : IsCycleOp op) (hremoves : op.removes = false)
    (service : BackendService F) : op.stale service = false := by
  cases op with
  | addService => rfl
  | addBackendInfoRequest => rfl
  | _ => contradiction

theorem isCycleOp_replyOps {theReactor : Reactor} {theMessage : BroadcastMessage F}
    : ∀ op ∈ Engine.replyOps theReactor theMessage, IsCycleOp op := by
  intro op hop
  cases Engine.mem_replyOps hop with
  | inl hservice =>
    rcases hservice with ⟨service, _, uri, hop⟩
    rw [hop]
    trivial
  | inr hinfo =>
    rcases hinfo with ⟨infoQuery, hop⟩
    rw [hop]
    trivial

theorem removes_replyOps {theReactor : Reactor} {theMessage : BroadcastMessage F}
    : ∀ op ∈ Engine.replyOps theReactor theMessage, op.removes = false := by
  intro op hop
  cases Engine.mem_replyOps hop with
  | inl hservice =>
    rcases hservice with ⟨service, _, uri, hop⟩
    rw [hop]
    rfl
  | inr hinfo =>
    rcases hinfo with ⟨infoQuery, hop⟩
    rw [hop]
    rfl

theorem removes_ops_processReply {theReactor : Reactor} {theMessage : BroadcastMessage F}
    : ∀ op ∈ (processReply theReactor theMessage []).ops, op.removes = false := by
  simp only [ops, List.map_nil, interleave_nil]
  split
  . apply removes_replyOps
  . simp

theorem mem_interleave {α : Type} {between : List (List α)} {l : List α} {x : α}
    (h : x ∈ interleave between l) : x ∈ l ∨ ∃ before ∈ between, x ∈ before := by
  induction between generalizing l with
  | nil =>
    left
    rwa [interleave_nil] at h
  | cons before between ih =>
    cases l with
    | nil => contradiction
    | cons y l =>
      simp only [interleave, List.mem_append, List.mem_cons] at h ⊢
      rcases h with h | h | h
      . exact .inr ⟨before, .inl rfl, h⟩
      . exact .inl (.inl h)
      . cases ih h with
        | inl hl => exact .inl (.inr hl)
        | inr hbetween =>
          rcases hbetween with ⟨before', hmem, hx⟩
          exact .inr ⟨before', .inr hmem, hx⟩

theorem mem_interleave_right {α : Type} (between : List (List α)) {l : List α} {x : α}
    (h : x ∈ l) : x ∈ interleave between l := by
  induction between generalizing l with
  | nil => rwa [interleave_nil]
  | cons before between ih =>
    cases l with
    | nil => contradiction
    | cons y l =>
      simp only [interleave, List.mem_append, List.mem_cons] at h ⊢
      cases h with
      | inl h => exact .inr (.inl h)
      | inr h => exact .inr (.inr (ih h))

theorem mem_ops_processReply {theReactor : Reactor} {theMessage : BroadcastMessage F}
    {between : List (List Removal)} {op : ServicesOp F}
    (hop : op ∈ (processReply theReactor theMessage between).ops)
    : Engine.accepts theReactor theMessage = true
        ∧ (op ∈ Engine.replyOps theReactor theMessage ∨ ∃ removal : Removal, op = removal.op) := by
  simp only [ops] at hop
  split at hop
  . next haccepts =>
    refine ⟨haccepts, ?_⟩
    cases mem_interleave hop with
    | inl hreply => exact .inl hreply
    | inr hbetween =>
      rcases hbetween with ⟨removals, hmem, hop⟩
      rcases List.mem_map.mp hmem with ⟨_, _, heq⟩
      rw [← heq] at hop
      rcases List.mem_map.mp hop with ⟨removal, _, hremoval⟩
      exact .inr ⟨removal, hremoval.symm⟩
  . contradiction

theorem isCycleOp_ops {event : CycleEvent F} : ∀ op ∈ event.ops, IsCycleOp op := by
  intro op hop
  cases event with
  | processReply theReactor theMessage between =>
    cases (mem_ops_processReply hop).2 with
    | inl hreply => apply isCycleOp_replyOps op hreply
    | inr hremoval =>
      rcases hremoval with ⟨removal, heq⟩
      rw [heq]
      trivial
  | removeBackend removal =>
    rw [List.mem_singleton.mp hop]
    trivial

theorem add_of_mem_ops {event : CycleEvent F} {theReactor : Reactor} {service : BackendService F}
    {k : ByteString} {theLoad : F} {theThrottle : UInt32}
    (hadd : .addService theReactor service k theLoad theThrottle ∈ event.ops)
    : theLoad = service.itsBackendServer.itsLoad
        ∧ ∀ n, event.carries n = true → service.itsSequenceNumber = n := by
  cases event with
  | processReply theReactor' theMessage between =>
    rcases mem_ops_processReply hadd with ⟨haccepts, hreply | ⟨removal, heq⟩⟩
    . rcases Engine.add_of_mem_replyOps hreply with ⟨hload, info, _, hservice⟩
      rw [hload, hservice]
      refine ⟨rfl, ?_⟩
      intro n hcarries
      simp only [carries, haccepts, Bool.not_true, Bool.false_or, decide_eq_true_eq] at hcarries
      assumption
    . contradiction
  | removeBackend removal =>
    have := List.mem_singleton.mp hadd
    contradiction

theorem add_of_answers {n : Int} {event : CycleEvent F} (h : event.answers n = true)
    : ∃ theReactor service k theLoad theThrottle,
        .addService theReactor service k theLoad theThrottle ∈ event.ops
          ∧ service.itsSequenceNumber = n := by
  cases event with
  | processReply theReactor theMessage between =>
    simp only [answers, Bool.and_eq_true, decide_eq_true_eq] at h
    rcases h with ⟨haccepts, hn⟩
    rcases Engine.accepts_eq_true_iff.mp haccepts with ⟨_, _, _, hservices⟩
    rcases List.exists_mem_of_ne_nil _ hservices with ⟨info, hinfo⟩
    refine ⟨theReactor, Engine.replyService theMessage
      (Engine.replyServer theMessage (Engine.replyThrottle theMessage)) info, info.uri,
      theMessage.host.load, Engine.replyThrottle theMessage, ?_, hn⟩
    simp only [ops, haccepts, if_true]
    apply mem_interleave_right
    exact Engine.mem_replyOps_iff.mpr (.inl ⟨info, hinfo, info.uri, .inl rfl, rfl⟩)
  | removeBackend removal => contradiction

end CycleEvent

namespace Cycle

theorem isCycleOp_ops {c : Cycle F} : ∀ op ∈ c.ops, CycleEvent.IsCycleOp op := by
  intro op hop
  rcases List.mem_flatMap.mp hop with ⟨event, _, hevent⟩
  apply CycleEvent.isCycleOp_ops op hevent

theorem removal_of_silent {c : Cycle F} (hsilent : c.silent = true) {op : ServicesOp F}
    (hop : op ∈ c.ops) : ∃ removal : Removal, op = removal.op := by
  rcases List.mem_flatMap.mp hop with ⟨event, hevent, hop⟩
  have hrejected := List.all_eq_true.mp hsilent event hevent
  cases event with
  | processReply theReactor theMessage between =>
    simp only [CycleEvent.accepted, Bool.not_eq_true'] at hrejected
    simp [CycleEvent.ops, hrejected] at hop
  | removeBackend removal => exact ⟨removal, List.mem_singleton.mp hop⟩

theorem ops_of_silent {c : Cycle F} (hsilent : c.silent = true)
    (hremoves : ∀ op ∈ c.ops, op.removes = false) : c.ops = [] := by
  rw [List.eq_nil_iff_forall_not_mem]
  intro op hop
  rcases removal_of_silent hsilent hop with ⟨removal, heq⟩
  have hkeeps := hremoves op hop
  rw [heq] at hkeeps
  contradiction

theorem hasService_of_answered {n : Int} {c : Cycle F} {s s' : Services F}
    (hanswered : c.answered n = true) (hremoves : ∀ op ∈ c.ops, op.removes = false)
    (hrun : Lib.run Services.step s c.ops = some s')
    : ∃ k, ∃ service ∈ s'.serviceList k, service.itsSequenceNumber = n := by
  rcases List.any_eq_true.mp hanswered with ⟨event, hevent, hanswers⟩
  rcases CycleEvent.add_of_answers hanswers
    with ⟨theReactor, service, k, theLoad, theThrottle, hadd, hn⟩
  refine ⟨k, service, ?_, hn⟩
  rw [Services.serviceList_run hrun]
  apply Services.mem_foldl_stepList_of_add _ (List.mem_flatMap.mpr ⟨event, hevent, hadd⟩)
  intro op hop
  apply CycleEvent.stale_eq_false (isCycleOp_ops op hop) (hremoves op hop)

theorem sequence_of_mem {c : Cycle F} {n : Int} {s s' : Services F} {k : ByteString}
    {service : BackendService F} (hcarries : ∀ event ∈ c.events, event.carries n = true)
    (hrun : Lib.run Services.step s c.ops = some s') (hmem : service ∈ s'.serviceList k)
    : service ∈ s.serviceList k ∨ service.itsSequenceNumber = n := by
  rw [Services.serviceList_run hrun] at hmem
  cases Services.mem_of_mem_foldl_stepList hmem with
  | inl hold => exact .inl hold
  | inr hadd =>
    right
    rcases hadd with ⟨theReactor, theLoad, theThrottle, hadd⟩
    rcases List.mem_flatMap.mp hadd with ⟨event, hevent, hadd⟩
    apply (CycleEvent.add_of_mem_ops hadd).2 n (hcarries event hevent)

end Cycle

namespace Engine

theorem cycleStep_eq_some {e e' : Engine F} {event : CycleEvent F}
    (h : e.cycleStep event = some e')
    : ∃ s', Lib.run Services.step e.itsServices event.ops = some s'
        ∧ e' = { e with
          itsServices := s'
          itsReceivedResponses := e.itsReceivedResponses + if event.accepted then 1 else 0 } := by
  unfold cycleStep at h
  split at h
  . rcases Option.map_eq_some_iff.mp h with ⟨s', hrun, he⟩
    exact ⟨s', hrun, he.symm⟩
  . contradiction

theorem cycleRun_eq_some {e e' : Engine F} {events : List (CycleEvent F)}
    (h : e.cycleRun events = some e')
    : ∃ s', Lib.run Services.step e.itsServices (events.flatMap CycleEvent.ops) = some s'
        ∧ e' = { e with
          itsServices := s'
          itsReceivedResponses :=
            e.itsReceivedResponses + UInt32.ofNat (events.countP CycleEvent.accepted) } := by
  unfold cycleRun at h
  induction events generalizing e with
  | nil =>
    have heq := Option.some.inj h
    refine ⟨e.itsServices, rfl, ?_⟩
    rw [← heq]
    simp
  | cons event events ih =>
    rcases Lib.run_cons_eq_some.mp h with ⟨e₁, hstep, hrest⟩
    rcases cycleStep_eq_some hstep with ⟨s₁, hrun₁, he₁⟩
    rcases ih hrest with ⟨s', hrun, he'⟩
    rw [he₁] at hrun he'
    refine ⟨s', ?_, ?_⟩
    . rw [List.flatMap_cons, Lib.run_append, hrun₁]
      assumption
    . rw [he', List.countP_cons]
      simp only [Engine.mk.injEq, true_and, and_true]
      rw [UInt32.ofNat_add, UInt32.add_assoc]
      congr 1
      rw [UInt32.add_comm]
      congr 1
      split
      . rfl
      . rfl

def purges (e : Engine F) : Bool :=
  0 < e.itsReceivedResponses || e.itsMaxSkippedCycles < e.itsSkippedCycles + 1

theorem cycleRun_isSome {events : List (CycleEvent F)}
    (hcastable : ∀ event ∈ events, event.castable = true)
    (hremoves : ∀ event ∈ events, ∀ op ∈ event.ops, op.removes = false) (e : Engine F)
    : ∃ e', e.cycleRun events = some e' := by
  induction events generalizing e with
  | nil => exact ⟨e, rfl⟩
  | cons event events ih =>
    rw [List.forall_mem_cons] at hcastable hremoves
    rcases Services.run_isSome hremoves.1 e.itsServices with ⟨s₁, hrun⟩
    obtain ⟨e₁, hstep⟩ : ∃ e₁, e.cycleStep event = some e₁ := by
      unfold cycleStep
      rw [if_pos hcastable.1, hrun]
      exact ⟨_, rfl⟩
    rcases ih hcastable.2 hremoves.2 e₁ with ⟨e', hrest⟩
    unfold cycleRun at hrest ⊢
    rw [Lib.run_cons, hstep]
    exact ⟨e', hrest⟩

theorem cleanServices_eq {e : Engine F} (theReactor : Reactor)
    (hseq : e.itsFrontendSequence.toNat < 65535)
    : e.cleanServices theReactor
        =
      .ok { e with
        itsServices :=
          if e.purges then
            e.itsServices.latestSequence theReactor e.itsFrontendSequence.toNat
          else
            e.itsServices
        itsSkippedCycles := if e.purges then 0 else e.itsSkippedCycles + 1 } := by
  unfold cleanServices purges
  simp only [numericCastInt_of_lt hseq, bind, Except.bind]
  split
  . next hreceived => simp [hreceived]
  . next hreceived =>
    split
    . next hskipped => simp [hskipped]
    . next hskipped => simp [hreceived, hskipped]

end Engine

namespace Frontend

-- what one cycle does, where `before` is the table its deadline finds
structure Cycled (f : Frontend F) (c : Cycle F) (before : Services F) (f' : Frontend F) : Prop where
  waiting : f.waiting = true
  ran : Lib.run Services.step f.engine.itsServices c.ops = some before
  toEngineConfig : f'.engine.toEngineConfig = f.engine.toEngineConfig
  itsServices : f'.engine.itsServices
    = if f.purges c then before.latestSequence c.theReactor f.sequence else before
  itsSkippedCycles : f'.engine.itsSkippedCycles
    = if f.purges c then 0 else f.engine.itsSkippedCycles + 1
  itsFrontendSequence : f'.waiting = true →
    f'.engine.itsFrontendSequence.toNat = (f.engine.itsFrontendSequence.toNat + 1) % 65535
  ready : f'.Ready

theorem Cycled.toNat_itsSkippedCycles {f f' : Frontend F} {c : Cycle F} {before : Services F}
    (h : f.Cycled c before f') (hpurges : f.purges c = false)
    : f'.engine.itsSkippedCycles.toNat = (f.engine.itsSkippedCycles.toNat + 1) % 4294967296 := by
  rw [h.itsSkippedCycles, hpurges, if_neg (by decide), UInt32.toNat_add]
  rfl

theorem step_eq_some {theProtobuf : Protobuf F} {f f' : Frontend F} {c : Cycle F} (hf : f.Ready)
    (h : f.step theProtobuf c = some f')
    : ∃ e, f.engine.cycleRun c.events = some e ∧ f.Cycled c e.itsServices f' := by
  unfold step at h
  split at h
  . next hwaiting =>
    rcases Option.bind_eq_some_iff.mp h with ⟨e, hrun, hdeadline⟩
    rcases Engine.cycleRun_eq_some hrun with ⟨before, hops, he⟩
    refine ⟨e, hrun, ?_⟩
    split at hdeadline
    . contradiction
    . next engine effects hhandle =>
      have hseq : e.itsFrontendSequence.toNat < 65535 := by
        rw [he]
        exact hf.itsFrontendSequence
      rcases Engine.handleDeadlineTimer_eq_ok (by decide) hhandle with ⟨e₁, hclean, hcases⟩
      rw [Engine.cleanServices_eq c.theReactor hseq] at hclean
      have he₁ := (Except.ok.inj hclean).symm
      have hpurges : e.purges = f.purges c := by
        unfold Engine.purges purges
        rw [he, hf.itsReceivedResponses, UInt32.zero_add]
        rfl
      have hf' := Option.some.inj hdeadline
      rw [he₁, hpurges] at hcases
      rw [he] at hcases ⊢
      split at hcases
      . rw [hcases.1, hcases.2] at hf'
        rw [← hf']
        exact {
          waiting := hwaiting
          ran := hops
          toEngineConfig := rfl
          itsServices := rfl
          itsSkippedCycles := rfl
          itsFrontendSequence := by
            intro hfalse
            contradiction
          ready := ⟨rfl, hf.itsFrontendSequence⟩
        }
      . rw [hcases.1] at hf'
        rw [← hf']
        have hnext := nextSequence_toNat hf.itsFrontendSequence
        exact {
          waiting := hwaiting
          ran := hops
          toEngineConfig := rfl
          itsServices := rfl
          itsSkippedCycles := rfl
          itsFrontendSequence := fun _ => hnext
          ready := by
            refine ⟨rfl, ?_⟩
            have := Nat.mod_lt (f.engine.itsFrontendSequence.toNat + 1) (by omega : 0 < 65535)
            dsimp
            omega
        }
  . contradiction

theorem step_isSome (theProtobuf : Protobuf F) {f : Frontend F} {c : Cycle F} (hf : f.Ready)
    (hwaiting : f.waiting = true) (hcastable : ∀ event ∈ c.events, event.castable = true)
    (hremoves : ∀ event ∈ c.events, ∀ op ∈ event.ops, op.removes = false)
    (hlisteners : f.engine.itsBackendUdpListeners = [])
    (hdown : c.theReactor.isShuttingDown = false)
    : ∃ f', f.step theProtobuf c = some f' ∧ f'.waiting = true := by
  rcases Engine.cycleRun_isSome hcastable hremoves f.engine with ⟨e, hrun⟩
  rcases Engine.cycleRun_eq_some hrun with ⟨_, _, he⟩
  have hseq : e.itsFrontendSequence.toNat < 65535 := by
    rw [he]
    exact hf.itsFrontendSequence
  have hlisteners' : e.itsBackendUdpListeners = [] := by
    rw [he]
    assumption
  have hnext : ((e.itsFrontendSequence + 1) % 65535).toNat < 65535 := by
    rw [nextSequence_toNat hseq]
    omega
  have hhandle : ∃ engine, e.handleDeadlineTimer c.theReactor c.thePlatform theProtobuf .success
      = .ok (engine, .cancel :: e.armed) := by
    simp only [Engine.handleDeadlineTimer, Engine.cleanServices_eq c.theReactor hseq, bind,
      Except.bind, hdown, Engine.startServiceDiscovery, numericCastInt_of_lt hnext, hlisteners',
      Engine.sendRequests]
    exact ⟨_, rfl⟩
  rcases hhandle with ⟨engine, hhandle⟩
  unfold step
  rw [if_pos hwaiting, hrun, Option.bind_some, hhandle]
  exact ⟨_, rfl, rfl⟩

theorem step_latestSequence (s : Services F) (theReactor : Reactor) (n : Int)
    : s.step (.latestSequence theReactor n) = some (s.latestSequence theReactor n) := rfl

theorem serviceList_purge {f f' : Frontend F} {c : Cycle F} {before : Services F}
    (h : f.Cycled c before f') (hpurges : f.purges c = true) (k : ByteString)
    : f'.engine.itsServices.serviceList k
        =
      (before.serviceList k).filter fun it => it.itsSequenceNumber = f.sequence := by
  rw [h.itsServices, if_pos hpurges,
    Services.serviceList_step (step_latestSequence before c.theReactor f.sequence)]
  simp [Services.stepList, ServicesOp.stale, Services.outdated]

theorem mem_serviceList_purge {f f' : Frontend F} {c : Cycle F} {before : Services F}
    (h : f.Cycled c before f') (hpurges : f.purges c = true) {k : ByteString}
    {service : BackendService F}
    : service ∈ f'.engine.itsServices.serviceList k
        ↔
      service ∈ before.serviceList k ∧ service.itsSequenceNumber = f.sequence := by
  rw [serviceList_purge h hpurges, List.mem_filter, decide_eq_true_eq]

theorem infoRequests_purge {f f' : Frontend F} {c : Cycle F} {before : Services F}
    (h : f.Cycled c before f') (hpurges : f.purges c = true) (name : ByteString)
    : f'.engine.itsServices.infoRequests name
        =
      (before.infoRequests name).filter fun it => it.itsSequenceNumber = f.sequence := by
  rw [h.itsServices, if_pos hpurges,
    Services.infoRequests_step (step_latestSequence before c.theReactor f.sequence)]
  rfl

structure Launched (config : EngineConfig F) (f : Frontend F) : Prop where
  waiting : f.waiting = true
  toEngineConfig : f.engine.toEngineConfig = config
  itsFrontendSequence : f.engine.itsFrontendSequence = 1
  itsReceivedResponses : f.engine.itsReceivedResponses = 0
  itsSkippedCycles : f.engine.itsSkippedCycles = 0
  forwarding : Services.new.setForwarding config.itsForwardingMode config.itsBalanceFactor
    config.itsStickyCookie = .ok f.engine.itsServices

theorem Launched.ready {config : EngineConfig F} {f : Frontend F} (h : Launched config f)
    : f.Ready where
  itsReceivedResponses := h.itsReceivedResponses
  itsFrontendSequence := by
    rw [h.itsFrontendSequence]
    decide

theorem Launched.itsServices {config : EngineConfig F} {f : Frontend F} (h : Launched config f)
    : ∃ mode, f.engine.itsServices
        = Services.init mode config.itsBalanceFactor config.itsStickyCookie := by
  apply Services.setForwarding_new h.forwarding

theorem launch_eq_some {config : EngineConfig F} {pause : Bool} {theReactor : Reactor}
    {thePlatform : Platform F} {theProtobuf : Protobuf F} {f : Frontend F}
    (h : launch config pause theReactor thePlatform theProtobuf = some f) : Launched config f := by
  unfold launch at h
  split at h
  . contradiction
  . next engine effects hmode =>
    simp only [Engine.frontendMode, bind, Except.bind] at hmode
    split at hmode
    . contradiction
    . next itsServices hforwarding =>
      rcases Engine.startServiceDiscovery_eq_ok hmode with ⟨hengine, sends, heffects, _⟩
      rw [← Option.some.inj h, hengine]
      exact {
        waiting := by simp [heffects, Engine.armed]
        toEngineConfig := rfl
        itsFrontendSequence := rfl
        itsReceivedResponses := rfl
        itsSkippedCycles := rfl
        forwarding := hforwarding
      }

end Frontend

namespace Sample

theorem replies_step {f : Frontend Rat} (seq : Int32) (n : Nat) (hf : f.Ready)
    (hwaiting : f.waiting = true) (hlisteners : f.engine.itsBackendUdpListeners = [])
    : ∃ f', f.step protobuf (replies seq n) = some f' ∧ f'.waiting = true := by
  apply Frontend.step_isSome protobuf hf hwaiting _ _ hlisteners rfl
  . intro event hevent
    rw [List.eq_of_mem_replicate hevent]
    rfl
  . intro event hevent
    rw [List.eq_of_mem_replicate hevent]
    apply CycleEvent.removes_ops_processReply

theorem carries_replies (seq : Int32) (n : Nat)
    : ∀ event ∈ (replies seq n).events, event.carries seq.toInt = true := by
  intro event hevent
  rw [List.eq_of_mem_replicate hevent]
  simp [CycleEvent.carries, reply, BroadcastMessage.seqnum]

theorem removes_replies (seq : Int32) (n : Nat)
    : ∀ op ∈ (replies seq n).ops, op.removes = false := by
  intro op hop
  rcases List.mem_flatMap.mp hop with ⟨event, hevent, hop⟩
  rw [List.eq_of_mem_replicate hevent] at hop
  apply CycleEvent.removes_ops_processReply op hop

theorem accepted_replies (seq : Int32) (n : Nat) : (replies seq n).accepted = n := by
  unfold Cycle.accepted replies
  rw [List.countP_replicate]
  rfl

structure Waits (config : EngineConfig Rat) (n : Int) (f : Frontend Rat) : Prop where
  ready : f.Ready
  waiting : f.waiting = true
  toEngineConfig : f.engine.toEngineConfig = config
  sequence : f.sequence = n
  older : ∀ k, ∀ service ∈ f.engine.itsServices.serviceList k, service.itsSequenceNumber < n
  unregistered : ∀ p id, ¬f.engine.itsServices.itsPrefixMap.Registered p id

theorem waits_launched {config : EngineConfig Rat} {f : Frontend Rat}
    (h : Frontend.Launched config f) : Waits config 1 f := by
  rcases h.itsServices with ⟨mode, hinit⟩
  exact {
    ready := h.ready
    waiting := h.waiting
    toEngineConfig := h.toEngineConfig
    sequence := by
      unfold Frontend.sequence
      rw [h.itsFrontendSequence]
      rfl
    older := by simp [hinit]
    unregistered := by simp [hinit, Services.init]
  }

theorem mem_ops_replies {seq : Int32} {n : Nat} {op : ServicesOp Rat}
    : op ∈ (replies seq n).ops
        ↔
      n ≠ 0 ∧ op ∈ Engine.replyOps reactor (reply "a" "/wms" (some seq) (some 0)) := by
  simp only [Cycle.ops, replies, List.mem_flatMap, List.mem_replicate, and_assoc,
    exists_and_left, exists_eq_left]
  rfl

theorem unregistered_replies {seq : Int32} {n : Nat} {op : ServicesOp Rat}
    (hop : op ∈ (replies seq n).ops) (k : ByteString)
    : ∀ service ∈ Services.appended k op, service.definesPrefix = false := by
  intro service hservice
  rcases Services.mem_appended hservice with ⟨_, _, _, hadd⟩
  rw [hadd] at hop
  rcases Engine.add_of_mem_replyOps (mem_ops_replies.mp hop).2 with ⟨_, info, hinfo, heq⟩
  rw [heq, List.mem_singleton.mp hinfo]
  rfl

theorem waits_step {config : EngineConfig Rat} {n : Int} {f : Frontend Rat} (hf : Waits config n f)
    (hlisteners : config.itsBackendUdpListeners = []) (seq : Int32) (hseq : seq.toInt = n)
    (hn : n + 1 < 65535) (count : Nat)
    : ∃ f' s, f.step protobuf (replies seq count) = some f' ∧ f.Cycled (replies seq count) s f'
        ∧ Waits config (n + 1) f' := by
  rcases replies_step seq count hf.ready hf.waiting
    (by rw [hf.toEngineConfig]; assumption) with ⟨f', hstep, hwaiting⟩
  rcases Frontend.step_eq_some hf.ready hstep with ⟨e, _, h⟩
  have hkept : ∀ k, ∀ service ∈ f'.engine.itsServices.serviceList k,
      service ∈ e.itsServices.serviceList k := by
    intro k service hmem
    cases hpurges : f.purges (replies seq count) with
    | true => exact ((Frontend.mem_serviceList_purge h hpurges).mp hmem).1
    | false => rwa [h.itsServices, hpurges, if_neg (by decide)] at hmem
  refine ⟨f', e.itsServices, hstep, h, ?_⟩
  have hsequence := hf.sequence
  unfold Frontend.sequence at hsequence
  exact {
    ready := h.ready
    waiting := hwaiting
    toEngineConfig := by rw [h.toEngineConfig, hf.toEngineConfig]
    sequence := by
      unfold Frontend.sequence
      rw [h.itsFrontendSequence hwaiting]
      omega
    older := by
      intro k service hmem
      cases Cycle.sequence_of_mem (carries_replies seq count) h.ran (hkept k service hmem) with
      | inl hold =>
        have := hf.older k service hold
        omega
      | inr hnew => omega
    unregistered := by
      intro p id hregistered
      apply hf.unregistered p id
      apply Services.registered_of_run h.ran
      . intro op hop k
        apply unregistered_replies hop
      . rw [h.itsServices] at hregistered
        split at hregistered
        . assumption
        . assumption
  }

-- the state `f₁` that a first cycle with one reply ends in
structure FirstCycle (config : EngineConfig Rat) (f f₁ : Frontend Rat) : Prop where
  step : f.step protobuf (replies 1 1) = some f₁
  sequence : f.sequence = 1
  waits : Waits config 2 f₁
  skipped : f₁.engine.itsSkippedCycles = 0
  service : ∃ k, ∃ service, service ∈ f₁.engine.itsServices.serviceList k

theorem firstCycle {config : EngineConfig Rat} {f : Frontend Rat}
    (hlaunched : Frontend.Launched config f) (hlisteners : config.itsBackendUdpListeners = [])
    : ∃ f₁, FirstCycle config f f₁ := by
  have hf := waits_launched hlaunched
  rcases waits_step hf hlisteners 1 rfl (by omega) 1 with ⟨f₁, s, hstep, h, h₁⟩
  have hpurges : f.purges (replies 1 1) = true := by
    apply Frontend.purges_of_accepted
    decide
  refine ⟨f₁, ?_⟩
  exact {
    step := hstep
    sequence := hf.sequence
    waits := h₁
    skipped := by rw [h.itsSkippedCycles, if_pos hpurges]
    service := by
      rcases Cycle.hasService_of_answered (n := 1) rfl (removes_replies 1 1) h.ran
        with ⟨k, service, hmem, hone⟩
      refine ⟨k, service, ?_⟩
      rw [Frontend.mem_serviceList_purge h hpurges, hf.sequence]
      exact ⟨hmem, hone⟩
  }

end Sample

end Sputnik
