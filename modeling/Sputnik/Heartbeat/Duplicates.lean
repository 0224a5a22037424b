import Sputnik.Heartbeat.Lemmas

/-!
This module contains what a duplicated delivery does to a cycle: when the table after the deadline
is the one that the first arrivals alone would have left.
-/

namespace Sputnik

variable {F : Type}

def Services.slots (s : Services F) (k : ByteString)
    : Option (List (BackendService F) × List (BackendInfo F)) :=
  s.itsServicesByURI[k]?.map fun entry => (entry.1, entry.2.itsBackendInfos)

theorem Services.serviceList_eq_slots (s : Services F) (k : ByteString)
    : s.serviceList k = ((s.slots k).map Prod.fst).getD [] := by
  unfold serviceList slots
  rw [Option.map_map]
  rfl

theorem mem_interleave_left {α : Type} {between : List (List α)} {before l : List α} {x : α}
    (hbefore : before ∈ between.take l.length) (hx : x ∈ before) : x ∈ interleave between l := by
  induction between generalizing l with
  | nil => simp at hbefore
  | cons first between ih =>
    cases l with
    | nil => simp at hbefore
    | cons y l =>
      rw [List.length_cons, List.take_succ_cons, List.mem_cons] at hbefore
      rw [interleave, List.mem_append, List.mem_cons]
      cases hbefore with
      | inl heq =>
        left
        rwa [← heq]
      | inr hmem => exact .inr (.inr (ih hmem))

variable [FloatArith F]

namespace CycleEvent

def message? : CycleEvent F → Option (BroadcastMessage F)
  | processReply _ theMessage _ => some theMessage
  | removeBackend _ => none

-- the calls of `removeBackend` while the event is processed
def removals : CycleEvent F → List Removal
  | processReply theReactor theMessage between =>
    if Engine.accepts theReactor theMessage then
      (between.take (Engine.replyOps theReactor theMessage).length).flatten
    else
      []
  | removeBackend removal => [removal]

theorem op_mem_ops_of_mem_removals {event : CycleEvent F} {removal : Removal}
    (h : removal ∈ event.removals) : removal.op ∈ event.ops := by
  cases event with
  | processReply theReactor theMessage between =>
    simp only [removals] at h
    split at h
    . next haccepts =>
      simp only [ops, haccepts, if_true]
      rcases List.mem_flatten.mp h with ⟨before, hbefore, hmem⟩
      apply mem_interleave_left _ (List.mem_map_of_mem hmem)
      rw [← List.map_take]
      apply List.mem_map_of_mem hbefore
    . contradiction
  | removeBackend other =>
    rw [List.mem_singleton.mp h]
    apply List.mem_cons_self

variable [DecidableEq F]

def repeats (n : Int) (earlier : List (CycleEvent F)) (event : CycleEvent F) : Bool :=
  match event.message? with
  | some theMessage =>
    theMessage.seqnum = n && earlier.any fun other => other.message? = some theMessage
  | none => false

-- the cycle as if every reply to the request `n` had been delivered only when it first arrived
def firstArrivals (n : Int) : List (CycleEvent F) → List (CycleEvent F) → List (CycleEvent F)
  | _, [] => []
  | earlier, event :: events =>
    (if event.repeats n earlier then event.removals.map removeBackend else [event])
      ++ firstArrivals n (earlier ++ [event]) events

theorem firstArrivals_append (n : Int) (earlier events events' : List (CycleEvent F))
    : firstArrivals n earlier (events ++ events')
        =
      firstArrivals n earlier events ++ firstArrivals n (earlier ++ events) events' := by
  induction events generalizing earlier with
  | nil => simp [firstArrivals]
  | cons event events ih =>
    simp only [List.cons_append, firstArrivals, ih, List.append_assoc, List.nil_append]

-- A reply to the request `n` is accepted again after its first delivery.
def Duplicates (n : Int) (first later : CycleEvent F) : Prop :=
  later.answers n = true ∧ first.message? = later.message?

omit [FloatArith F] [DecidableEq F] in
theorem answers_eq_true_iff {n : Int} {event : CycleEvent F}
    : event.answers n = true
        ↔
      event.accepted = true ∧ ∃ theMessage, event.message? = some theMessage
        ∧ theMessage.seqnum = n := by
  cases event with
  | processReply theReactor theMessage between => simp [answers, accepted, message?]
  | removeBackend removal => simp [answers, accepted]

omit [FloatArith F] in
theorem repeats_eq_true_iff {n : Int} {earlier : List (CycleEvent F)} {event : CycleEvent F}
    : event.repeats n earlier = true
        ↔
      (∃ theMessage, event.message? = some theMessage ∧ theMessage.seqnum = n)
        ∧ ∃ first ∈ earlier, first.message? = event.message? := by
  unfold repeats
  cases event.message? with
  | none => simp
  | some theMessage => simp

-- how many services that carry `n` the events add to the list of `k`
def arrivals (n : Int) (k : ByteString) (events : List (CycleEvent F)) : Nat :=
  ((events.flatMap ops).flatMap (Services.appended k)).countP fun it => it.itsSequenceNumber = n

omit [DecidableEq F] in
theorem arrivals_append (n : Int) (k : ByteString) (events events' : List (CycleEvent F))
    : arrivals n k (events ++ events') = arrivals n k events + arrivals n k events' := by
  unfold arrivals
  rw [List.flatMap_append, List.flatMap_append, List.countP_append]

omit [DecidableEq F] in
theorem arrivals_removals (n : Int) (k : ByteString) (removals : List Removal)
    : arrivals n k (removals.map removeBackend : List (CycleEvent F)) = 0 := by
  unfold arrivals
  rw [List.countP_eq_zero]
  intro service hservice
  rcases List.mem_flatMap.mp hservice with ⟨op, hop, happended⟩
  rcases List.mem_flatMap.mp hop with ⟨event, hevent, hop⟩
  rcases List.mem_map.mp hevent with ⟨removal, _, heq⟩
  rw [← heq] at hop
  rw [List.mem_singleton.mp hop] at happended
  contradiction

theorem arrivals_firstArrivals_le (n : Int) (k : ByteString) (earlier events : List (CycleEvent F))
    : arrivals n k (firstArrivals n earlier events) ≤ arrivals n k events := by
  induction events generalizing earlier with
  | nil => apply Nat.le_refl
  | cons event events ih =>
    have hrest := ih (earlier ++ [event])
    have hcons : arrivals n k (event :: events) = arrivals n k [event] + arrivals n k events := by
      rw [← arrivals_append, List.singleton_append]
    rw [firstArrivals, arrivals_append, hcons]
    split
    . rw [arrivals_removals]
      omega
    . omega

omit [DecidableEq F] in
theorem arrivals_pos {n : Int} {event : CycleEvent F} (h : event.answers n = true)
    : ∃ k, 0 < arrivals n k [event] := by
  rcases add_of_answers h with ⟨theReactor, service, k, theLoad, theThrottle, hadd, hn⟩
  refine ⟨k, ?_⟩
  unfold arrivals
  rw [List.countP_pos_iff, List.flatMap_singleton]
  refine ⟨service, ?_, decide_eq_true hn⟩
  apply List.mem_flatMap.mpr
  refine ⟨_, hadd, ?_⟩
  simp [Services.appended]

theorem arrivals_firstArrivals_lt {n : Int} {before : List (CycleEvent F)}
    (after : List (CycleEvent F)) {event first : CycleEvent F} (hfirst : first ∈ before)
    (h : Duplicates n first event)
    : ∃ k, arrivals n k (firstArrivals n [] (before ++ event :: after))
        < arrivals n k (before ++ event :: after) := by
  rcases arrivals_pos h.1 with ⟨k, hpos⟩
  have hrepeats : event.repeats n before = true :=
    repeats_eq_true_iff.mpr ⟨(answers_eq_true_iff.mp h.1).2, first, hfirst, h.2⟩
  have hcons : arrivals n k (event :: after) = arrivals n k [event] + arrivals n k after := by
    rw [← arrivals_append, List.singleton_append]
  have hbefore := arrivals_firstArrivals_le n k [] before
  have hafter := arrivals_firstArrivals_le n k (before ++ [event]) after
  refine ⟨k, ?_⟩
  rw [firstArrivals_append, List.nil_append, firstArrivals, if_pos hrepeats, arrivals_append,
    arrivals_append, arrivals_append, arrivals_removals, hcons]
  omega

theorem removes_firstArrivals {n : Int} {events : List (CycleEvent F)}
    (h : ∀ op ∈ events.flatMap ops, op.removes = false) (earlier : List (CycleEvent F))
    : ∀ op ∈ (firstArrivals n earlier events).flatMap ops, op.removes = false := by
  induction events generalizing earlier with
  | nil => simp [firstArrivals]
  | cons event events ih =>
    rw [List.flatMap_cons, List.forall_mem_append] at h
    rw [firstArrivals, List.flatMap_append, List.forall_mem_append]
    refine ⟨?_, ih h.2 _⟩
    intro op hop
    split at hop
    . rcases List.mem_flatMap.mp hop with ⟨event', hevent', hop⟩
      rcases List.mem_map.mp hevent' with ⟨removal, hremoval, heq⟩
      rw [← heq] at hop
      rw [List.mem_singleton.mp hop]
      apply h.1 _ (op_mem_ops_of_mem_removals hremoval)
    . rw [List.flatMap_singleton] at hop
      apply h.1 op hop

end CycleEvent

namespace Engine

theorem cycleStep_of_not_accepted (e : Engine F) {theReactor : Reactor}
    {theMessage : BroadcastMessage F} {between : List (List Removal)}
    (h : accepts theReactor theMessage = false)
    : e.cycleStep (.processReply theReactor theMessage between) = some e := by
  simp [cycleStep, CycleEvent.castable, CycleEvent.ops, CycleEvent.accepted, h]

variable [DecidableEq F]

theorem cycleRun_firstArrivals {n : Int} {earlier events : List (CycleEvent F)}
    (h : (earlier ++ events).Pairwise fun first later => ¬CycleEvent.Duplicates n first later)
    (e : Engine F)
    : e.cycleRun (CycleEvent.firstArrivals n earlier events) = e.cycleRun events := by
  induction events generalizing earlier e with
  | nil => rfl
  | cons event events ih =>
    have hrest : ∀ e : Engine F,
        e.cycleRun (CycleEvent.firstArrivals n (earlier ++ [event]) events)
          = e.cycleRun events := by
      apply ih
      rwa [List.append_assoc, List.singleton_append]
    unfold cycleRun at hrest ⊢
    rw [CycleEvent.firstArrivals, Lib.run_append, Lib.run_cons]
    split
    . next hrepeats =>
      rcases CycleEvent.repeats_eq_true_iff.mp hrepeats with ⟨hmessage, first, hfirst, hsame⟩
      have honce := (List.pairwise_append.mp h).2.2 first hfirst event List.mem_cons_self
      cases event with
      | processReply theReactor theMessage between =>
        have haccepts : accepts theReactor theMessage = false := by
          rw [← Bool.not_eq_true]
          intro haccepts
          exact honce ⟨CycleEvent.answers_eq_true_iff.mpr ⟨haccepts, hmessage⟩, hsame⟩
        rw [cycleStep_of_not_accepted e haccepts]
        simp [CycleEvent.removals, haccepts, hrest]
      | removeBackend removal => simp [CycleEvent.message?] at hmessage
    . simp [Lib.run_cons, hrest]

end Engine

namespace Frontend

theorem ready_run {theProtobuf : Protobuf F} {f f' : Frontend F} {cycles : List (Cycle F)}
    (hrun : Lib.run (step theProtobuf) f cycles = some f') (hf : f.Ready) : f'.Ready := by
  apply Lib.run_invariant _ hf hrun
  intro f c f' _ hf hstep
  rcases step_eq_some hf hstep with ⟨e, _, h⟩
  apply h.ready

theorem countP_serviceList_cycled {f f' : Frontend F} {c : Cycle F} {before : Services F}
    (h : f.Cycled c before f') (hremoves : ∀ op ∈ c.ops, op.removes = false) (k : ByteString)
    : (f'.engine.itsServices.serviceList k).countP (fun it => it.itsSequenceNumber = f.sequence)
        =
      (f.engine.itsServices.serviceList k).countP (fun it => it.itsSequenceNumber = f.sequence)
        + CycleEvent.arrivals f.sequence k c.events := by
  have hbefore : (f'.engine.itsServices.serviceList k).countP
        (fun it => it.itsSequenceNumber = f.sequence)
      = (before.serviceList k).countP (fun it => it.itsSequenceNumber = f.sequence) := by
    cases hpurges : f.purges c with
    | true =>
      rw [serviceList_purge h hpurges, List.countP_filter]
      simp
    | false => rw [h.itsServices, hpurges, if_neg (by decide)]
  rw [hbefore, Services.serviceList_run_append h.ran, List.countP_append]
  . rfl
  . intro op hop
    apply CycleEvent.stale_eq_false (Cycle.isCycleOp_ops op hop) (hremoves op hop)

variable [DecidableEq F]

def DuplicatesHarmless (theProtobuf : Protobuf F) (f : Frontend F) (c : Cycle F)
    (f₁ : Frontend F) : Prop :=
  ∃ f₂,
    f.step theProtobuf { c with events := CycleEvent.firstArrivals f.sequence [] c.events }
        = some f₂
      ∧ ∀ k, f₁.engine.itsServices.slots k = f₂.engine.itsServices.slots k

theorem duplicatesHarmless_of_pairwise {theProtobuf : Protobuf F} {f f₁ : Frontend F} {c : Cycle F}
    (hstep : f.step theProtobuf c = some f₁)
    (honce : c.events.Pairwise fun first later => ¬CycleEvent.Duplicates f.sequence first later)
    : DuplicatesHarmless theProtobuf f c f₁ := by
  refine ⟨f₁, ?_, fun _ => rfl⟩
  unfold step at hstep ⊢
  dsimp
  rw [Engine.cycleRun_firstArrivals (by rwa [List.nil_append])]
  exact hstep

theorem not_duplicates_of_harmless {theProtobuf : Protobuf F} {f f₁ : Frontend F} {c : Cycle F}
    (hf : f.Ready) (hstep : f.step theProtobuf c = some f₁)
    (hremoves : ∀ op ∈ c.ops, op.removes = false)
    (hharmless : DuplicatesHarmless theProtobuf f c f₁) {before after : List (CycleEvent F)}
    {first event : CycleEvent F} (hevents : c.events = before ++ event :: after)
    (hfirst : first ∈ before) : ¬CycleEvent.Duplicates f.sequence first event := by
  intro hduplicates
  rcases hharmless with ⟨f₂, hstep₂, hslots⟩
  rcases step_eq_some hf hstep with ⟨_, _, h₁⟩
  rcases step_eq_some hf hstep₂ with ⟨_, _, h₂⟩
  rcases CycleEvent.arrivals_firstArrivals_lt after hfirst hduplicates with ⟨k, hlt⟩
  have hcount₁ := countP_serviceList_cycled h₁ hremoves k
  have hcount₂ := countP_serviceList_cycled h₂ (CycleEvent.removes_firstArrivals hremoves []) k
  dsimp at hcount₂
  rw [hevents] at hcount₁ hcount₂
  rw [Services.serviceList_eq_slots, hslots k, ← Services.serviceList_eq_slots] at hcount₁
  omega

/--
A duplicated delivery leaves no trace in the lists and forwarders where no reply to the request of
the cycle is accepted again after its first delivery, and in a cycle without `removeBackend` only
then.
-/
theorem duplicatesHarmless_iff (config : EngineConfig F) (pause : Bool) (theReactor : Reactor)
    (thePlatform : Platform F) (theProtobuf : Protobuf F) (f₀ f f₁ : Frontend F)
    (cycles : List (Cycle F)) (c : Cycle F)
    (hlaunch : launch config pause theReactor thePlatform theProtobuf = some f₀)
    (hrun : Lib.run (step theProtobuf) f₀ cycles = some f) (hstep : f.step theProtobuf c = some f₁)
    : ((c.events.Pairwise fun first later => ¬CycleEvent.Duplicates f.sequence first later) →
          DuplicatesHarmless theProtobuf f c f₁)
        ∧ ((∀ op ∈ c.ops, op.removes = false) →
          (DuplicatesHarmless theProtobuf f c f₁
            ↔
          c.events.Pairwise fun first later => ¬CycleEvent.Duplicates f.sequence first later)) := by
  have hf := ready_run hrun (launch_eq_some hlaunch).ready
  refine ⟨duplicatesHarmless_of_pairwise hstep, ?_⟩
  intro hremoves
  refine ⟨?_, duplicatesHarmless_of_pairwise hstep⟩
  intro hharmless
  rw [List.pairwise_iff_getElem]
  intro i j hi hj hij
  have hevents : c.events = c.events.take j ++ c.events[j] :: c.events.drop (j + 1) := by
    rw [List.cons_getElem_drop_succ, List.take_append_drop]
  apply not_duplicates_of_harmless hf hstep hremoves hharmless hevents
  rw [List.mem_take_iff_getElem]
  exact ⟨i, by omega, rfl⟩

section Sample

open Sample

theorem duplicatesHarmless_iff_sample
    : ∃ f f₁, launch config false reactor platform protobuf = some f
        ∧ f.step protobuf (replies 1 1) = some f₁
        ∧ DuplicatesHarmless protobuf f (replies 1 1) f₁ := by
  obtain ⟨f, hlaunch⟩ : ∃ f, launch config false reactor platform protobuf = some f := ⟨_, rfl⟩
  rcases firstCycle (launch_eq_some hlaunch) rfl with ⟨f₁, h₁⟩
  refine ⟨f, f₁, hlaunch, h₁.step, ?_⟩
  apply (duplicatesHarmless_iff config false reactor platform protobuf f f f₁ [] (replies 1 1)
    hlaunch rfl h₁.step).1
  apply List.pairwise_singleton

theorem not_duplicatesHarmless_twice
    : ¬∀ (config : EngineConfig Rat) (pause : Bool) (theReactor : Reactor)
        (thePlatform : Platform Rat) (theProtobuf : Protobuf Rat) (f₀ f f₁ : Frontend Rat)
        (cycles : List (Cycle Rat)) (c : Cycle Rat),
        launch config pause theReactor thePlatform theProtobuf = some f₀ →
          Lib.run (step theProtobuf) f₀ cycles = some f → f.step theProtobuf c = some f₁ →
            DuplicatesHarmless theProtobuf f c f₁ := by
  intro h
  obtain ⟨f, hlaunch⟩ : ∃ f, launch config false reactor platform protobuf = some f := ⟨_, rfl⟩
  have hf := waits_launched (launch_eq_some hlaunch)
  rcases waits_step hf rfl 1 rfl (by omega) 2 with ⟨f₁, _, hstep, _, _⟩
  have hharmless := h config false reactor platform protobuf f f f₁ [] (replies 1 2) hlaunch rfl
    hstep
  have hevents : (replies 1 2).events = (replies 1 1).events ++ (replies 1 1).events := rfl
  apply not_duplicates_of_harmless hf.ready hstep (removes_replies 1 2) hharmless hevents
    List.mem_cons_self
  rw [hf.sequence]
  exact ⟨rfl, rfl⟩

end Sample

end Frontend

end Sputnik
