import Sputnik.Heartbeat.Lemmas
import Sputnik.Services.Sticky

/-!
This module contains why sticky mode keeps a client on its backend across heartbeats, also while the
entries of two cycles stand next to each other.
-/

namespace Sputnik

variable {F : Type} [FloatArith F]

def Cycle.announced (k : ByteString) (c : Cycle F) : List (ByteString × Int) :=
  (c.ops.flatMap (Services.appended k)).map BackendService.nameAndPort

namespace Frontend

structure KeepsBackends (k : ByteString) (backends : Set (ByteString × Int)) (f : Frontend F)
    (c : Cycle F) : Prop where
  carries : ∀ event ∈ c.events, event.carries f.sequence = true
  removes : ∀ op ∈ c.ops, op.removes = false
  announced : c.silent = true ∨ ∀ backend, backend ∈ c.announced k ↔ backend ∈ backends

namespace KeepsBackends

variable {k : ByteString} {backends : Set (ByteString × Int)} {f : Frontend F} {c : Cycle F}

theorem announcesLoad {op : ServicesOp F} (hop : op ∈ c.ops) : op.AnnouncesLoad := by
  rcases List.mem_flatMap.mp hop with ⟨event, _, hop⟩
  cases op with
  | addService theReactor service k theLoad theThrottle => exact (CycleEvent.add_of_mem_ops hop).1
  | _ => trivial

theorem stale_eq_false (hc : f.KeepsBackends k backends c) {op : ServicesOp F} (hop : op ∈ c.ops)
    (it : BackendService F) : op.stale it = false := by
  apply CycleEvent.stale_eq_false (Cycle.isCycleOp_ops op hop) (hc.removes op hop)

theorem sequence_of_appended (hc : f.KeepsBackends k backends c) {key : ByteString}
    {service : BackendService F} (hservice : service ∈ c.ops.flatMap (Services.appended key))
    : service.itsSequenceNumber = f.sequence := by
  rcases List.mem_flatMap.mp hservice with ⟨op, hop, hservice⟩
  rcases Services.mem_appended hservice with ⟨theReactor, theLoad, theThrottle, hadd⟩
  rcases List.mem_flatMap.mp hop with ⟨event, hevent, hop⟩
  rw [hadd] at hop
  apply (CycleEvent.add_of_mem_ops hop).2 _ (hc.carries event hevent)

theorem mem_backends (hc : f.KeepsBackends k backends c) {service : BackendService F}
    (hservice : service ∈ c.ops.flatMap (Services.appended k))
    : service.nameAndPort ∈ backends := by
  cases hc.announced with
  | inl hsilent =>
    rw [Cycle.ops_of_silent hsilent hc.removes] at hservice
    contradiction
  | inr hannounced =>
    rw [← hannounced]
    apply List.mem_map_of_mem hservice

end KeepsBackends

/-
What a cycle starts from after the cycles `before`: the entries of one earlier cycle, and as many
skipped cycles as have been silent since.
-/
structure Keeps (config : EngineConfig F) (k : ByteString) (backends : Set (ByteString × Int))
    (before : List (Cycle F)) (f : Frontend F) : Prop where
  ready : f.Ready
  toEngineConfig : f.engine.toEngineConfig = config
  table : Services.StickyTable config.itsBalanceFactor config.itsStickyCookie f.engine.itsServices
  held : ∃ n : Int, ∀ key, ∀ service ∈ f.engine.itsServices.serviceList key,
    service.itsSequenceNumber = n
  skipped : ∃ block, block <:+ before ∧ (∀ c ∈ block, c.silent = true)
    ∧ f.engine.itsSkippedCycles.toNat = block.length
  announced : ∀ service ∈ f.engine.itsServices.serviceList k, service.nameAndPort ∈ backends
  listed : (∃ c ∈ before, c.silent = false) → ∀ backend ∈ backends,
    backend ∈ (f.engine.itsServices.serviceList k).map BackendService.nameAndPort

theorem keeps_launched {config : EngineConfig F} {k : ByteString}
    {backends : Set (ByteString × Int)} {f : Frontend F} (h : Launched config f)
    (hmode : config.itsForwardingMode = ByteString.lit "sticky")
    : f.Keeps config k backends [] := by
  have hinit : f.engine.itsServices
      = Services.init .sticky config.itsBalanceFactor config.itsStickyCookie := by
    have hforwarding := h.forwarding
    rw [hmode] at hforwarding
    injection hforwarding with hforwarding
    rw [← hforwarding]
    rfl
  exact {
    ready := h.ready
    toEngineConfig := h.toEngineConfig
    table := by
      rw [hinit]
      apply Services.stickyTable_init
    held := by simp [hinit]
    skipped := ⟨[], List.nil_suffix, by simp, by simp [h.itsSkippedCycles]⟩
    announced := by simp [hinit]
    listed := by simp
  }

theorem Keeps.serves {config : EngineConfig F} {k : ByteString}
    {backends : Set (ByteString × Int)} {before : List (Cycle F)} {f : Frontend F}
    (hf : f.Keeps config k backends before) (hanswered : ∃ c ∈ before, c.silent = false)
    : f.engine.itsServices.Serves config.itsBalanceFactor config.itsStickyCookie k backends where
  table := hf.table
  backends := by
    intro backend
    constructor
    . intro hmem
      rcases List.mem_map.mp hmem with ⟨service, hservice, hbackend⟩
      rw [← hbackend]
      apply hf.announced service hservice
    . intro hbackend
      apply hf.listed hanswered backend hbackend

theorem keeps_serves {config : EngineConfig F} {k : ByteString}
    {backends : Set (ByteString × Int)} {before : List (Cycle F)} {f : Frontend F} {c : Cycle F}
    {done : List (ServicesOp F)} {s : Services F} (hf : f.Keeps config k backends before)
    (hc : f.KeepsBackends k backends c) (hdone : done <+: c.ops)
    (hrun : Lib.run Services.step f.engine.itsServices done = some s)
    (hanswered : ∃ c ∈ before, c.silent = false)
    : s.Serves config.itsBalanceFactor config.itsStickyCookie k backends where
  table := by
    apply Services.stickyTable_run hrun _ _ hf.table
    . intro op hop
      apply KeepsBackends.announcesLoad (hdone.subset hop)
    . intro op hop
      apply hc.stale_eq_false (hdone.subset hop)
  backends := by
    intro backend
    rw [Services.serviceList_run_append hrun
      (fun op hop => hc.stale_eq_false (hdone.subset hop)), List.map_append, List.mem_append]
    constructor
    . intro hmem
      cases hmem with
      | inl hold => apply ((hf.serves hanswered).backends backend).mp hold
      | inr hnew =>
        rcases List.mem_map.mp hnew with ⟨service, hservice, hbackend⟩
        rw [← hbackend]
        apply hc.mem_backends
        rcases List.mem_flatMap.mp hservice with ⟨op, hop, hservice⟩
        apply List.mem_flatMap.mpr ⟨op, hdone.subset hop, hservice⟩
    . intro hbackend
      left
      apply ((hf.serves hanswered).backends backend).mpr hbackend

theorem keeps_silent {config : EngineConfig F} {k : ByteString}
    {backends : Set (ByteString × Int)} {before : List (Cycle F)} {f f' : Frontend F}
    {c : Cycle F} {s : Services F} (hf : f.Keeps config k backends before)
    (hc : f.KeepsBackends k backends c) (h : f.Cycled c s f') (hquiet : c.silent = true)
    (hsilent : ∀ block, block <:+ before ++ [c] → (∀ c ∈ block, c.silent = true) →
      block.length ≤ config.itsMaxSkippedCycles.toNat)
    : f'.Keeps config k backends (before ++ [c]) := by
  have hran := h.ran
  rw [Cycle.ops_of_silent hquiet hc.removes, Lib.run_nil, Option.some.injEq] at hran
  rcases hf.skipped with ⟨block, hblock, hall, hlength⟩
  have hblock' : block ++ [c] <:+ before ++ [c] := by
    rcases hblock with ⟨start, hstart⟩
    exact ⟨start, by rw [← hstart, List.append_assoc]⟩
  have hall' : ∀ quiet ∈ block ++ [c], quiet.silent = true := by
    rw [List.forall_mem_append, List.forall_mem_singleton]
    exact ⟨hall, hquiet⟩
  have hlimit := hsilent _ hblock' hall'
  rw [List.length_append, List.length_singleton] at hlimit
  have hpurges : f.purges c = false := by
    apply purges_eq_false
    . rw [Cycle.silent_iff.mp hquiet]
    . rw [hf.toEngineConfig]
      omega
  have hsame : f'.engine.itsServices = f.engine.itsServices := by
    rw [h.itsServices, hpurges, if_neg (by decide), hran]
  exact {
    ready := h.ready
    toEngineConfig := by rw [h.toEngineConfig, hf.toEngineConfig]
    table := by
      rw [hsame]
      apply hf.table
    held := by
      rw [hsame]
      apply hf.held
    skipped := by
      refine ⟨block ++ [c], hblock', hall', ?_⟩
      have hm := config.itsMaxSkippedCycles.toNat_lt
      rw [h.toNat_itsSkippedCycles hpurges, List.length_append, List.length_singleton]
      omega
    announced := by
      rw [hsame]
      apply hf.announced
    listed := by
      rintro ⟨c', hmem, hanswered⟩
      rw [hsame]
      apply hf.listed
      cases List.mem_append.mp hmem with
      | inl hmem => exact ⟨c', hmem, hanswered⟩
      | inr hlast =>
        rw [List.mem_singleton.mp hlast, hquiet] at hanswered
        contradiction
  }

theorem keeps_answered {config : EngineConfig F} {k : ByteString}
    {backends : Set (ByteString × Int)} {before : List (Cycle F)} {f f' : Frontend F}
    {c : Cycle F} {s : Services F} (hf : f.Keeps config k backends before)
    (hc : f.KeepsBackends k backends c) (h : f.Cycled c s f') (hquiet : c.silent = false)
    (hcount : c.accepted % 4294967296 = 0 → c.accepted = 0)
    : f'.Keeps config k backends (before ++ [c]) := by
  have haccepted : c.accepted ≠ 0 := by
    intro hzero
    rw [Cycle.silent_iff.mpr hzero] at hquiet
    contradiction
  have hpurges : f.purges c = true := by
    apply purges_of_accepted
    omega
  have hlist := Services.serviceList_run_append h.ran (fun op hop => hc.stale_eq_false hop)
  have htable : f'.engine.itsServices = s.latestSequence c.theReactor f.sequence := by
    rw [h.itsServices, hpurges, if_pos rfl]
  have hannounced := hc.announced
  simp only [hquiet, Bool.false_eq_true, false_or] at hannounced
  exact {
    ready := h.ready
    toEngineConfig := by rw [h.toEngineConfig, hf.toEngineConfig]
    table := by
      rw [htable]
      rcases hf.held with ⟨n, hheld⟩
      apply Services.stickyTable_latestSequence (n := n) c.theReactor
      . intro key
        refine ⟨_, _, hlist key, hheld key, ?_⟩
        intro service hservice
        apply hc.sequence_of_appended hservice
      . apply Services.stickyTable_run h.ran _ _ hf.table
        . intro op hop
          apply KeepsBackends.announcesLoad hop
        . intro op hop
          apply hc.stale_eq_false hop
    held := by
      refine ⟨f.sequence, ?_⟩
      intro key service hmem
      exact ((mem_serviceList_purge h hpurges).mp hmem).2
    skipped := by
      refine ⟨[], List.nil_suffix, by simp, ?_⟩
      rw [h.itsSkippedCycles, hpurges, if_pos rfl]
      rfl
    announced := by
      intro service hmem
      rcases (mem_serviceList_purge h hpurges).mp hmem with ⟨hmem, _⟩
      rw [hlist k, List.mem_append] at hmem
      cases hmem with
      | inl hold => apply hf.announced service hold
      | inr hnew => apply hc.mem_backends hnew
    listed := by
      intro _ backend hbackend
      rcases List.mem_map.mp ((hannounced backend).mpr hbackend) with ⟨service, hservice, hname⟩
      apply List.mem_map.mpr ⟨service, _, hname⟩
      rw [mem_serviceList_purge h hpurges, hlist k]
      refine ⟨?_, hc.sequence_of_appended hservice⟩
      apply List.mem_append_right
      assumption
  }

theorem keeps_run {config : EngineConfig F} {k : ByteString} {backends : Set (ByteString × Int)}
    {theProtobuf : Protobuf F} {cycles : List (Cycle F)}
    (hsilent : ∀ block, block <:+: cycles → (∀ c ∈ block, c.silent = true) →
      block.length ≤ config.itsMaxSkippedCycles.toNat)
    (hcount : ∀ c ∈ cycles, c.accepted % 4294967296 = 0 → c.accepted = 0)
    {before between rest : List (Cycle F)} {f f' : Frontend F}
    (hcycles : cycles = before ++ (between ++ rest)) (hf : f.Keeps config k backends before)
    (hkeeps : Lib.Throughout (step theProtobuf) (KeepsBackends k backends) f (between ++ rest))
    (hrun : Lib.run (step theProtobuf) f between = some f')
    : f'.Keeps config k backends (before ++ between) := by
  induction between generalizing before f with
  | nil =>
    rw [Lib.run_nil, Option.some.injEq] at hrun
    rwa [← hrun, List.append_nil]
  | cons c between ih =>
    rcases Lib.run_cons_eq_some.mp hrun with ⟨f₁, hstep, hrest⟩
    rcases hkeeps with ⟨hc, hkeeps⟩
    rcases step_eq_some hf.ready hstep with ⟨e, _, h⟩
    have hf₁ : f₁.Keeps config k backends (before ++ [c]) := by
      cases hquiet : c.silent with
      | true =>
        apply keeps_silent hf hc h hquiet
        intro block hblock hall
        apply hsilent block _ hall
        apply List.IsInfix.trans hblock.isInfix
        rw [hcycles]
        exact ⟨[], between ++ rest, by simp⟩
      | false =>
        apply keeps_answered hf hc h hquiet
        apply hcount c
        simp [hcycles]
    have hf' := ih (by simp [hcycles]) hf₁ (hkeeps f₁ hstep) hrest
    rwa [List.append_assoc] at hf'

-- the table after the cycles `before` and the operations `done` of the cycle that follows
def tableAt (theProtobuf : Protobuf F) (f : Frontend F) (before : List (Cycle F))
    (done : List (ServicesOp F)) : Option (Services F) :=
  (Lib.run (step theProtobuf) f before).bind fun f' =>
    Lib.run Services.step f'.engine.itsServices done

/-
A moment after the end of the first cycle with replies: `before` have ended, and of the cycle that
follows the operations `done` have been carried out.
-/
structure Moment (cycles before : List (Cycle F)) (done : List (ServicesOp F)) : Prop where
  reached : ∃ rest, cycles = before ++ rest ∧ done <+: (rest.head?.map Cycle.ops).getD []
  answered : ∃ c ∈ before, c.silent = false

theorem serves_tableAt {config : EngineConfig F} {k : ByteString}
    {backends : Set (ByteString × Int)} {theProtobuf : Protobuf F} {f : Frontend F}
    {cycles before : List (Cycle F)} {done : List (ServicesOp F)} {s : Services F}
    (hsilent : ∀ block, block <:+: cycles → (∀ c ∈ block, c.silent = true) →
      block.length ≤ config.itsMaxSkippedCycles.toNat)
    (hcount : ∀ c ∈ cycles, c.accepted % 4294967296 = 0 → c.accepted = 0)
    (hf : f.Keeps config k backends [])
    (hkeeps : Lib.Throughout (step theProtobuf) (KeepsBackends k backends) f cycles)
    (hmoment : Moment cycles before done)
    (htable : f.tableAt theProtobuf before done = some s)
    : s.Serves config.itsBalanceFactor config.itsStickyCookie k backends := by
  rcases hmoment.reached with ⟨rest, hcycles, hdone⟩
  rcases Option.bind_eq_some_iff.mp htable with ⟨f', hrun, hops⟩
  rw [hcycles] at hkeeps
  have hf' := keeps_run hsilent hcount hcycles hf hkeeps hrun
  rw [List.nil_append] at hf'
  have hnext := Lib.Throughout.append hkeeps hrun
  cases rest with
  | nil =>
    rw [List.prefix_nil.mp hdone, Lib.run_nil, Option.some.injEq] at hops
    rw [← hops]
    apply hf'.serves hmoment.answered
  | cons c rest => apply keeps_serves hf' hnext.1 hdone hops hmoment.answered

-- `P` says which connection counts are considered.
def SameBackend (theProtobuf : Protobuf F) (cookieName k : ByteString)
    (backends : Set (ByteString × Int)) (f : Frontend F) (cycles : List (Cycle F))
    (P : Reactor → Prop) : Prop :=
  ∀ before done before' done' s s', Moment cycles before done → Moment cycles before' done' →
    f.tableAt theProtobuf before done = some s → f.tableAt theProtobuf before' done' = some s' →
      (∀ p id, s.itsPrefixMap.Registered p id → ¬(p <+: k)) →
        (∀ p id, s'.itsPrefixMap.Registered p id → ¬(p <+: k)) →
          ∀ (theReactor theReactor' : Reactor) (theRequest theRequest' : Request),
            theRequest.getResource = k → theRequest'.getResource = k →
              BackendForwarder.extractKey cookieName theRequest'
                = BackendForwarder.extractKey cookieName theRequest →
              Set.InjOn (BackendForwarder.stickyScore
                (BackendForwarder.extractKey cookieName theRequest)) backends →
              theReactor'.getBackendRequestStatus = theReactor.getBackendRequestStatus →
              (∀ backend, 0 ≤ BackendForwarder.status theReactor backend
                ∧ BackendForwarder.status theReactor backend ≤ BackendForwarder.intMax) →
              P theReactor → ∀ itsGenerator itsGenerator' : Generator F, ∃ service service',
                  s.getService theReactor theRequest itsGenerator = .ok (some service)
                    ∧ s'.getService theReactor' theRequest' itsGenerator' = .ok (some service')
                    ∧ service.nameAndPort = service'.nameAndPort

/--
In sticky mode, where the cycles with replies announce the same backends for a key and no more than
`itsMaxSkippedCycles` cycles in a row are silent, a client stays on its backend, unless the counter
of the replies overflows to 0 or the bound on the connections leaves the range of `int`.
-/
theorem sameBackend_along [LawfulFloatArith F] (config : EngineConfig F) (pause : Bool)
    (theReactor : Reactor) (thePlatform : Platform F) (theProtobuf : Protobuf F) (f : Frontend F)
    (cycles : List (Cycle F)) (k : ByteString) (backends : Set (ByteString × Int))
    (hlaunch : launch config pause theReactor thePlatform theProtobuf = some f)
    (hmode : config.itsForwardingMode = ByteString.lit "sticky") (hbackends : backends.Nonempty)
    (hkeeps : Lib.Throughout (step theProtobuf) (KeepsBackends k backends) f cycles)
    (hsilent : ∀ block, block <:+: cycles → (∀ c ∈ block, c.silent = true) →
      block.length ≤ config.itsMaxSkippedCycles.toNat)
    (hcount : ∀ c ∈ cycles, c.accepted % 4294967296 = 0 → c.accepted = 0)
    : SameBackend theProtobuf config.itsStickyCookie k backends f cycles
        (BackendForwarder.LeastFits config.itsBalanceFactor · backends) := by
  intro before done before' done' s s' hmoment hmoment' htable htable' huncaptured huncaptured'
    atFirst atSecond theRequest theRequest' hresource hresource' hkey hscores hstatus hrange
    hfits
  have hf : f.Keeps config k backends [] := keeps_launched (launch_eq_some hlaunch) hmode
  have hserves := serves_tableAt hsilent hcount hf hkeeps hmoment htable
  have hserves' := serves_tableAt hsilent hcount hf hkeeps hmoment' htable'
  apply Services.getService_same hserves hserves' hbackends huncaptured huncaptured' hresource
    hresource' hkey hscores hstatus hrange hfits

section Sample

open Sample

def stickyConfig : EngineConfig Rat :=
  { config with itsForwardingMode := ByteString.lit "sticky" }

theorem keepsBackends_replies {n : Int} {f : Frontend Rat} (hf : Waits stickyConfig n f)
    {seq : Int32} (hseq : seq.toInt = n) (count : Nat)
    : f.KeepsBackends (ByteString.lit "/wms") {(ByteString.lit "a", 80)} (replies seq count) where
  carries := by
    rw [hf.sequence, ← hseq]
    apply carries_replies
  removes := removes_replies seq count
  announced := by
    by_cases hcount : count = 0
    . left
      rw [hcount]
      rfl
    . right
      intro backend
      simp only [Cycle.announced, List.mem_map, List.mem_flatMap, mem_ops_replies]
      constructor
      . rintro ⟨service, ⟨op, ⟨_, hop⟩, hservice⟩, hbackend⟩
        rcases Services.mem_appended hservice with ⟨_, _, _, hadd⟩
        rw [hadd] at hop
        rcases Engine.add_of_mem_replyOps hop with ⟨_, info, _, heq⟩
        rw [← hbackend, heq]
        rfl
      . intro hbackend
        rw [Set.mem_singleton_iff.mp hbackend]
        refine ⟨_, ⟨_, ⟨hcount, List.mem_cons_self⟩, List.mem_cons_self⟩, rfl⟩

theorem skipped_silent {n : Int} {f f' : Frontend Rat} {s : Services Rat} {c : Cycle Rat}
    (hf : Waits stickyConfig n f) (h : f.Cycled c s f') (hcount : c.accepted % 4294967296 = 0)
    (hskipped : f.engine.itsSkippedCycles.toNat < 2)
    : f'.engine.itsSkippedCycles.toNat = f.engine.itsSkippedCycles.toNat + 1 := by
  have hpurges : f.purges c = false := by
    apply purges_eq_false hcount
    rw [hf.toEngineConfig]
    assumption
  rw [h.toNat_itsSkippedCycles hpurges]
  omega

theorem silent_replies (seq : Int32) (n : Nat) : (replies seq n).silent = decide (n = 0) := by
  rw [Bool.eq_iff_iff, Cycle.silent_iff, accepted_replies, decide_eq_true_eq]

omit [FloatArith F] in
theorem length_le_of_silent {cycles block : List (Cycle F)} (hblock : block <:+: cycles)
    (hall : ∀ c ∈ block, c.silent = true) : block.length ≤ cycles.countP Cycle.silent := by
  rw [← List.countP_eq_length.mpr hall]
  apply hblock.sublist.countP_le

/-
The request is routed after the first cycle, and once more when a silent cycle has passed and the
reply of the third one has been read in part.
-/
theorem sameBackend_along_sample
    : ∃ f s s', launch stickyConfig false reactor platform protobuf = some f
        ∧ f.tableAt protobuf [replies 1 2] [] = some s
        ∧ f.tableAt protobuf [replies 1 2, replies 2 0] ((replies 3 1).ops.take 1) = some s'
        ∧ ∃ service service', s.getService reactor request generator = .ok (some service)
          ∧ s'.getService reactor request generator = .ok (some service')
          ∧ service.nameAndPort = service'.nameAndPort := by
  obtain ⟨f, hlaunch⟩ : ∃ f, launch stickyConfig false reactor platform protobuf = some f :=
    ⟨_, rfl⟩
  have h := waits_launched (launch_eq_some hlaunch)
  rcases waits_step h rfl 1 rfl (by omega) 2 with ⟨f₁, _, hstep₁, _, h₁⟩
  rcases waits_step h₁ rfl 2 rfl (by omega) 0 with ⟨f₂, _, hstep₂, _, h₂⟩
  rcases waits_step h₂ rfl 3 rfl (by omega) 1 with ⟨f₃, _, hstep₃, _, _⟩
  have hremoves : ∀ op ∈ (replies 3 1).ops.take 1, op.removes = false := by
    intro op hop
    apply removes_replies 3 1 op (List.mem_of_mem_take hop)
  rcases Services.run_isSome hremoves f₂.engine.itsServices with ⟨s', hrun⟩
  have htable : f.tableAt protobuf [replies 1 2] [] = some f₁.engine.itsServices := by
    simp [tableAt, Lib.run, hstep₁]
  have htable' : f.tableAt protobuf [replies 1 2, replies 2 0] ((replies 3 1).ops.take 1)
      = some s' := by
    simp [tableAt, Lib.run_cons, hstep₁, hstep₂, hrun]
  refine ⟨f, f₁.engine.itsServices, s', hlaunch, htable, htable', ?_⟩
  apply sameBackend_along stickyConfig false reactor platform protobuf f
    [replies 1 2, replies 2 0, replies 3 1] (ByteString.lit "/wms") {(ByteString.lit "a", 80)}
    hlaunch rfl (Set.singleton_nonempty _) _ _ _ _ _ _ _ _ _ _ _ htable htable'
  . intro p id hregistered
    exact absurd hregistered (h₁.unregistered p id)
  . intro p id hregistered
    apply absurd _ (h₂.unregistered p id)
    apply Services.registered_of_run hrun _ hregistered
    intro op hop k
    apply unregistered_replies (List.mem_of_mem_take hop)
  . rfl
  . rfl
  . rfl
  . apply Set.injOn_singleton
  . rfl
  . intro backend
    simp [BackendForwarder.status, BackendForwarder.intMax, reactor]
  . intro backend _ _
    change BackendForwarder.ThresholdFits stickyConfig.itsBalanceFactor 0
    decide
  . apply Lib.Throughout.cons (keepsBackends_replies h rfl 2) hstep₁
    apply Lib.Throughout.cons (keepsBackends_replies h₁ rfl 0) hstep₂
    apply Lib.Throughout.cons (keepsBackends_replies h₂ rfl 1) hstep₃
    trivial
  . intro block hblock hall
    apply Nat.le_trans (length_le_of_silent hblock hall)
    decide
  . decide
  . exact ⟨⟨[replies 2 0, replies 3 1], rfl, List.nil_prefix⟩, _, List.mem_cons_self, rfl⟩
  . exact ⟨⟨[replies 3 1], rfl, List.take_prefix 1 _⟩, _, List.mem_cons_self, rfl⟩

def overflow : List (Cycle Rat) :=
  [replies 1 1, replies 2 4294967296, replies 3 0, replies 4 0]

/-
After 2^32 replies the counter is 0 again. The deadline takes their cycle for a silent one, and two
silent cycles later the table is emptied.
-/
theorem overflow_run {f : Frontend Rat} (hlaunched : Launched stickyConfig f)
    : ∃ f', Lib.run (step protobuf) f overflow = some f' ∧ Waits stickyConfig 5 f'
        ∧ Lib.Throughout (step protobuf)
          (KeepsBackends (ByteString.lit "/wms") {(ByteString.lit "a", 80)}) f overflow
        ∧ ∀ k, f'.engine.itsServices.serviceList k = [] := by
  have h := waits_launched hlaunched
  rcases firstCycle hlaunched rfl with ⟨f₁, hfirst⟩
  have hstep₁ := hfirst.step
  have h₁ := hfirst.waits
  rcases waits_step h₁ rfl 2 rfl (by omega) 4294967296 with ⟨f₂, _, hstep₂, hcycled₂, h₂⟩
  rcases waits_step h₂ rfl 3 rfl (by omega) 0 with ⟨f₃, _, hstep₃, hcycled₃, h₃⟩
  rcases waits_step h₃ rfl 4 rfl (by omega) 0 with ⟨f₄, s, hstep₄, hcycled₄, h₄⟩
  refine ⟨f₄, ?_, h₄, ?_, ?_⟩
  . simp [overflow, Lib.run_cons, hstep₁, hstep₂, hstep₃, hstep₄]
  . apply Lib.Throughout.cons (keepsBackends_replies h rfl 1) hstep₁
    apply Lib.Throughout.cons (keepsBackends_replies h₁ rfl 4294967296) hstep₂
    apply Lib.Throughout.cons (keepsBackends_replies h₂ rfl 0) hstep₃
    apply Lib.Throughout.cons (keepsBackends_replies h₃ rfl 0) hstep₄
    trivial
  . have hskipped₁ : f₁.engine.itsSkippedCycles.toNat = 0 := by
      rw [hfirst.skipped]
      rfl
    have hskipped₂ := skipped_silent h₁ hcycled₂ (by rw [accepted_replies]) (by omega)
    have hskipped₃ := skipped_silent h₂ hcycled₃ (by rw [accepted_replies]) (by omega)
    have hpurges : f₃.purges (replies 4 0) = true := by
      have hm : f₃.engine.itsMaxSkippedCycles.toNat = 2 := by
        rw [h₃.toEngineConfig]
        rfl
      rw [purges_eq_true_iff (by omega)]
      omega
    have hran := hcycled₄.ran
    rw [Cycle.ops_of_silent rfl (removes_replies 4 0), Lib.run_nil, Option.some.injEq] at hran
    intro k
    rw [List.eq_nil_iff_forall_not_mem]
    intro service hservice
    rw [mem_serviceList_purge hcycled₄ hpurges, ← hran, h₃.sequence] at hservice
    have := h₃.older k service hservice.1
    omega

theorem not_sameBackend_overflow
    : ¬∀ (config : EngineConfig Rat) (pause : Bool) (theReactor : Reactor)
        (thePlatform : Platform Rat) (theProtobuf : Protobuf Rat) (f : Frontend Rat)
        (cycles : List (Cycle Rat)) (k : ByteString) (backends : Set (ByteString × Int)),
        launch config pause theReactor thePlatform theProtobuf = some f →
          config.itsForwardingMode = ByteString.lit "sticky" → backends.Nonempty →
            Lib.Throughout (step theProtobuf) (KeepsBackends k backends) f cycles →
              (∀ block, block <:+: cycles → (∀ c ∈ block, c.silent = true) →
                block.length ≤ config.itsMaxSkippedCycles.toNat) →
                SameBackend theProtobuf config.itsStickyCookie k backends f cycles
                  fun _ => True := by
  intro hsticky
  obtain ⟨f, hlaunch⟩ : ∃ f, launch stickyConfig false reactor platform protobuf = some f :=
    ⟨_, rfl⟩
  rcases overflow_run (launch_eq_some hlaunch) with ⟨f', hrun, hwaits, hkeeps, hempty⟩
  have htable : f.tableAt protobuf overflow [] = some f'.engine.itsServices := by
    simp [tableAt, hrun]
  have hmoment : Moment overflow overflow [] :=
    ⟨⟨[], by simp, List.nil_prefix⟩, replies 1 1, List.mem_cons_self, rfl⟩
  have huncaptured : ∀ p id, f'.engine.itsServices.itsPrefixMap.Registered p id →
      ¬(p <+: ByteString.lit "/wms") := by
    intro p id hregistered
    exact absurd hregistered (hwaits.unregistered p id)
  have hsilent : ∀ block, block <:+: overflow → (∀ c ∈ block, c.silent = true) →
      block.length ≤ stickyConfig.itsMaxSkippedCycles.toNat := by
    intro block hblock hall
    apply Nat.le_trans (length_le_of_silent hblock hall)
    simp only [overflow, List.countP_cons, silent_replies]
    decide
  have hsame := hsticky stickyConfig false reactor platform protobuf f overflow
    (ByteString.lit "/wms") {(ByteString.lit "a", 80)} hlaunch rfl (Set.singleton_nonempty _) hkeeps
    hsilent
  rcases hsame _ _ _ _ _ _ hmoment hmoment htable htable huncaptured huncaptured reactor reactor
    request request rfl rfl rfl (Set.injOn_singleton _ _) rfl
    (by simp [BackendForwarder.status, BackendForwarder.intMax, reactor]) trivial generator
    generator with ⟨service, _, hget, _⟩
  have hresolved : f'.engine.itsServices.resolvedList request = [] := by
    apply hempty
  rw [Services.getService_eq_none reactor generator hresolved] at hget
  injection hget with hget
  contradiction

def farConfig : EngineConfig Rat := { stickyConfig with itsBalanceFactor := 10000000000 }

-- one connection at each backend
def connectedReactor : Reactor := { reactor with getBackendRequestStatus := fun _ _ => 1 }

-- the replies of two backends in this order
def twoReplies (seq : Int32) (first second : String) : Cycle Rat where
  events := [first, second].map fun name =>
    .processReply reactor (reply name "/wms" (some seq) (some 0)) []
  theReactor := reactor
  thePlatform := platform

def twoBackends : Set (ByteString × Int) := {(ByteString.lit "a", 80), (ByteString.lit "b", 80)}

def chosenBackend (s : Services Rat) : Option (ByteString × Int) :=
  (s.getService connectedReactor request generator).toOption.join.map BackendService.nameAndPort

/-
With one connection at each backend the product is 10^10, which is no `int`. All backends are
skipped, and the first entry is returned, which is another one when the replies come in the other
order.
-/
theorem reordered_run
    : ∃ f f₁ f₂, launch farConfig false reactor platform protobuf = some f
        ∧ f.step protobuf (twoReplies 1 "a" "b") = some f₁
        ∧ f₁.step protobuf (twoReplies 2 "b" "a") = some f₂
        ∧ f.KeepsBackends (ByteString.lit "/wms") twoBackends (twoReplies 1 "a" "b")
        ∧ f₁.KeepsBackends (ByteString.lit "/wms") twoBackends (twoReplies 2 "b" "a")
        ∧ f₁.engine.itsServices.itsPrefixMap.prefixMap.isEmpty = true
        ∧ f₂.engine.itsServices.itsPrefixMap.prefixMap.isEmpty = true
        ∧ chosenBackend f₁.engine.itsServices = some (ByteString.lit "a", 80)
        ∧ chosenBackend f₂.engine.itsServices = some (ByteString.lit "b", 80) := by
  have hrun : ((launch farConfig false reactor platform protobuf).any fun f =>
      (f.step protobuf (twoReplies 1 "a" "b")).any fun f₁ =>
        (f₁.step protobuf (twoReplies 2 "b" "a")).any fun f₂ =>
          f.sequence = 1 && f₁.sequence = 2
            && f₁.engine.itsServices.itsPrefixMap.prefixMap.isEmpty
            && f₂.engine.itsServices.itsPrefixMap.prefixMap.isEmpty
            && chosenBackend f₁.engine.itsServices = some (ByteString.lit "a", 80)
            && chosenBackend f₂.engine.itsServices = some (ByteString.lit "b", 80)) = true := by
    decide
  simp only [Option.any_eq_true, Bool.and_eq_true, decide_eq_true_eq] at hrun
  rcases hrun with ⟨f, hlaunch, f₁, hstep₁, f₂, hstep₂,
    ⟨⟨⟨⟨hfirst, hsecond⟩, hempty⟩, hempty'⟩, hchosen⟩, hchosen'⟩
  refine ⟨f, f₁, f₂, hlaunch, hstep₁, hstep₂, ?_, ?_, hempty, hempty', hchosen, hchosen'⟩
  . exact {
      carries := by
        rw [hfirst]
        decide
      removes := by decide
      announced := by
        right
        have hannounced : (twoReplies 1 "a" "b").announced (ByteString.lit "/wms")
            = [(ByteString.lit "a", 80), (ByteString.lit "b", 80)] := by decide
        simp [hannounced, twoBackends]
    }
  . exact {
      carries := by
        rw [hsecond]
        decide
      removes := by decide
      announced := by
        right
        have hannounced : (twoReplies 2 "b" "a").announced (ByteString.lit "/wms")
            = [(ByteString.lit "b", 80), (ByteString.lit "a", 80)] := by decide
        simp [hannounced, twoBackends, or_comm]
    }

theorem not_registered_of_isEmpty {m : URIPrefixMap} (h : m.prefixMap.isEmpty = true)
    (p id : ByteString) : ¬m.Registered p id := by
  rintro ⟨ids, hids, _⟩
  rw [Std.TreeMap.getElem?_of_isEmpty h] at hids
  contradiction

theorem not_sameBackend_outOfRange
    : ¬∀ (config : EngineConfig Rat) (pause : Bool) (theReactor : Reactor)
        (thePlatform : Platform Rat) (theProtobuf : Protobuf Rat) (f : Frontend Rat)
        (cycles : List (Cycle Rat)) (k : ByteString) (backends : Set (ByteString × Int)),
        launch config pause theReactor thePlatform theProtobuf = some f →
          config.itsForwardingMode = ByteString.lit "sticky" → backends.Nonempty →
            Lib.Throughout (step theProtobuf) (KeepsBackends k backends) f cycles →
              (∀ block, block <:+: cycles → (∀ c ∈ block, c.silent = true) →
                block.length ≤ config.itsMaxSkippedCycles.toNat) →
                (∀ c ∈ cycles, c.accepted % 4294967296 = 0 → c.accepted = 0) →
                  SameBackend theProtobuf config.itsStickyCookie k backends f cycles
                    fun _ => True := by
  intro hsticky
  rcases reordered_run with ⟨f, f₁, f₂, hlaunch, hstep₁, hstep₂, hkeeps₁, hkeeps₂, hempty, hempty',
    hchosen, hchosen'⟩
  have hkeeps : Lib.Throughout (step protobuf) (KeepsBackends (ByteString.lit "/wms") twoBackends) f
      [twoReplies 1 "a" "b", twoReplies 2 "b" "a"] := by
    apply Lib.Throughout.cons hkeeps₁ hstep₁
    apply Lib.Throughout.cons hkeeps₂ hstep₂
    trivial
  have htable : f.tableAt protobuf [twoReplies 1 "a" "b"] [] = some f₁.engine.itsServices := by
    simp [tableAt, Lib.run, hstep₁]
  have htable' : f.tableAt protobuf [twoReplies 1 "a" "b", twoReplies 2 "b" "a"] []
      = some f₂.engine.itsServices := by
    simp [tableAt, Lib.run, hstep₁, hstep₂]
  have hsilent : ∀ block, block <:+: [twoReplies 1 "a" "b", twoReplies 2 "b" "a"] →
      (∀ c ∈ block, c.silent = true) → block.length ≤ farConfig.itsMaxSkippedCycles.toNat := by
    intro block hblock hall
    apply Nat.le_trans (length_le_of_silent hblock hall)
    decide
  have hscores : Set.InjOn (BackendForwarder.stickyScore
      (BackendForwarder.extractKey farConfig.itsStickyCookie request)) twoBackends := by
    simp only [Set.InjOn, twoBackends, Set.mem_insert_iff, Set.mem_singleton_iff, forall_eq_or_imp,
      forall_eq]
    decide
  have hsame := hsticky farConfig false reactor platform protobuf f _ (ByteString.lit "/wms")
    twoBackends hlaunch rfl ⟨_, .inl rfl⟩ hkeeps hsilent (by decide)
  rcases hsame [twoReplies 1 "a" "b"] [] [twoReplies 1 "a" "b", twoReplies 2 "b" "a"] [] _ _
    ⟨⟨[twoReplies 2 "b" "a"], rfl, List.nil_prefix⟩, _, List.mem_cons_self, by decide⟩
    ⟨⟨[], rfl, List.nil_prefix⟩, _, List.mem_cons_self, by decide⟩ htable htable'
    (fun p id hregistered => absurd hregistered (not_registered_of_isEmpty hempty p id))
    (fun p id hregistered => absurd hregistered (not_registered_of_isEmpty hempty' p id))
    connectedReactor connectedReactor request request rfl rfl rfl hscores rfl
    (by simp [BackendForwarder.status, BackendForwarder.intMax, connectedReactor]) trivial
    generator generator with ⟨service, service', hget, hget', hname⟩
  rw [chosenBackend, hget] at hchosen
  rw [chosenBackend, hget'] at hchosen'
  have hnames := (Option.some.inj hchosen).symm.trans (hname.trans (Option.some.inj hchosen'))
  revert hnames
  decide

end Sample

end Frontend

end Sputnik
