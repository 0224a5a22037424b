import Sputnik.Cluster.Safety

/-!
This module contains what a cycle of a frontend purges from its table: the answers to its earlier
requests, and with them every backend that has been withdrawn before the cycle.
-/

namespace Sputnik

variable {F : Type} [FloatArith F] {ι κ : Type}

namespace ClusterConfig

variable {cfg : ClusterConfig ι κ F} {log : List Datagram}

-- A party sends in its own name.
theorem source_of_act {p : Party ι κ} {s s' : p.State F} {a : p.Action F} {out : List Datagram}
    (h : cfg.protocol.act p s a = some (s', out)) : ∀ m ∈ out, m.source = cfg.endOf p := by
  intro m hm
  cases p with
  | frontend i =>
    cases s with
    | none =>
      cases a with
      | launch pause theReactor thePlatform hooked =>
        rcases Option.map_eq_some_iff.mp h with ⟨launched, _, heq⟩
        injection heq with _ hout
        rw [← hout] at hm
        exact (mem_sentFrom.mp hm).1
      | event event => contradiction
      | runReply index theReactor between => contradiction
      | removeBackend removal => contradiction
    | some loop =>
      cases a with
      | launch pause theReactor thePlatform hooked => contradiction
      | event event =>
        rcases event with ⟨event, theReactor, thePlatform⟩
        cases event with
        | datagramArrives datagram remoteEnd => contradiction
        | _ =>
          rcases Option.map_eq_some_iff.mp h with ⟨loop', _, heq⟩
          injection heq with _ hout
          rw [← hout] at hm
          exact (mem_sentFrom.mp hm).1
      | runReply index theReactor between =>
        rcases Option.map_eq_some_iff.mp h with ⟨loop', _, heq⟩
        injection heq with _ hout
        rw [← hout] at hm
        contradiction
      | removeBackend removal =>
        rcases Option.map_eq_some_iff.mp h with ⟨loop', _, heq⟩
        injection heq with _ hout
        rw [← hout] at hm
        contradiction
  | backend k =>
    cases s with
    | none =>
      cases a with
      | launch pause theReactor thePlatform bound =>
        rcases Option.map_eq_some_iff.mp h with ⟨launched, _, heq⟩
        injection heq with _ hout
        rw [← hout] at hm
        exact (mem_sentFrom.mp hm).1
      | receiveFails => contradiction
      | runHandler index theReactor thePlatform => contradiction
      | command c => contradiction
    | some loop =>
      rcases Option.bind_eq_some_iff.mp h with ⟨event, _, hmap⟩
      rcases Option.map_eq_some_iff.mp hmap with ⟨done, _, heq⟩
      injection heq with _ hout
      rw [← hout] at hm
      exact (mem_sentFrom.mp hm).1

/-! The numbers of the requests -/

def Numbered (cfg : ClusterConfig ι κ F) (log : List Datagram) : ∀ p : Party ι κ, p.State F → Prop
  | .frontend i, s => ∀ m ∈ log, ∀ n, cfg.IsRequest m i n → Fits m → n ≤ sequence s
  | .backend _, _ => True

-- The numbers of a frontend go on to 65534, after which they start again.
def Counting : ∀ p : Party ι κ, p.State F → p.Action F → Prop
  | .frontend i, s, a => Regular (.frontend i : Party ι κ) s a ∧ sequence s + 1 < 65535
  | .backend k, s, a => Regular (.backend k : Party ι κ) s a

instance : ∀ (p : Party ι κ) (s : p.State F) (a : p.Action F), Decidable (Counting p s a)
  | .frontend i, s, a =>
    inferInstanceAs
      (Decidable (Regular (.frontend i : Party ι κ) s a ∧ sequence s + 1 < 65535))
  | .backend k, s, a => inferInstanceAs (Decidable (Regular (.backend k : Party ι κ) s a))

omit [FloatArith F] in
theorem Counting.regular {p : Party ι κ} {s : p.State F} {a : p.Action F} (h : Counting p s a)
    : Regular p s a := by
  cases p with
  | frontend i => exact h.1
  | backend k => exact h

theorem numbered_act {p : Party ι κ} {s s' : p.State F} {a : p.Action F} {out : List Datagram}
    (hdecodes : cfg.theProtobuf.Decodes) (hs : cfg.PartyInv log p s)
    (hnumbered : cfg.Numbered log p s) (hcounting : Counting p s a)
    (h : cfg.protocol.act p s a = some (s', out)) : cfg.Numbered (log ++ out) p s' := by
  cases p with
  | backend k => trivial
  | frontend i =>
    intro m hm n hrequest hfits
    have hlt := hcounting.2
    rcases sendsNext_actFrontend hs.senders hcounting.1.started h
      with ⟨hsame, hnone⟩ | ⟨hnext, hrequests⟩
    . rw [hnone, List.append_nil] at hm
      rw [hsame]
      apply hnumbered m hm n hrequest hfits
    . cases List.mem_append.mp hm with
      | inl hold =>
        have hle := hnumbered m hold n hrequest hfits
        omega
      | inr hnew =>
        rw [isRequest_unique hdecodes hfits hrequest (hrequests m hnew)]

omit [FloatArith F] in
theorem sequence_receiveFrontend {i : ι} {s s' : Option (EventLoop F)} {m : Datagram}
    (h : cfg.receiveFrontend i s m = some s') : sequence s' = sequence s := by
  cases s with
  | none => contradiction
  | some loop =>
    simp only [receiveFrontend] at h
    split at h
    . split at h
      . contradiction
      . injection h with h
        rw [← h]
        rfl
    . contradiction

theorem invariant_numbered (hdecodes : cfg.theProtobuf.Decodes)
    (hends : Function.Injective cfg.endOf)
    : Lib.Network.Invariant cfg.protocol
        (fun log p s => cfg.PartyInv log p s ∧ cfg.Numbered log p s) cfg.Authentic Counting
        Fits where
  mono h := h.mono
  act := by
    intro log p s a s' out hs hcounting hact
    rcases (invariant_protocol hdecodes hends).act hs.1 hcounting.regular hact with ⟨hs', hout⟩
    exact ⟨⟨hs', numbered_act hdecodes hs.1 hs.2 hcounting hact⟩, hout⟩
  receive := by
    intro log p s m s' hs hm hauthentic hfits h
    refine ⟨partyInv_receive hs.1 hm hauthentic hfits h, ?_⟩
    cases p with
    | backend k => trivial
    | frontend i =>
      intro m' hm' n hrequest hfits'
      rw [sequence_receiveFrontend h]
      apply hs.2 m' hm' n hrequest hfits'
  frame := by
    intro log p q s t a t' out hne hs _ _ hact
    refine ⟨hs.1.mono, ?_⟩
    cases p with
    | backend k => trivial
    | frontend i =>
      intro m hm n hrequest hfits
      cases List.mem_append.mp hm with
      | inl hold => apply hs.2 m hold n hrequest hfits
      | inr hnew =>
        have hsource := source_of_act hact m hnew
        exact absurd (hends (hrequest.source.symm.trans hsource)) hne

/-! The purge -/

theorem AnnouncesTable.imp {i : ι} {P Q : κ → Nat → Prop} {s : Services F}
    (h : cfg.AnnouncesTable log i P s)
    (himp : ∀ m k theReactor load n, cfg.Announces log i m k theReactor load n → P k n → Q k n)
    : cfg.AnnouncesTable log i Q s where
  services := by
    intro key service hservice
    rcases h.services key service hservice
      with ⟨m, k, theReactor, load, n, uri, hannounces, hP, hrest⟩
    exact ⟨m, k, theReactor, load, n, uri, hannounces, himp _ _ _ _ _ hannounces hP, hrest⟩
  infoRequests := by
    intro name infoRequest hinfo
    rcases h.infoRequests name infoRequest hinfo
      with ⟨m, k, theReactor, load, n, hannounces, hP, hrest⟩
    exact ⟨m, k, theReactor, load, n, hannounces, himp _ _ _ _ _ hannounces hP, hrest⟩

theorem Announces.toInt_number {i : ι} {m : Datagram} {k : κ} {theReactor : Reactor} {load : F}
    {n : Nat} (h : cfg.Announces log i m k theReactor load n) : (Int32.ofInt n).toInt = n := by
  rcases h.answers.asked with ⟨request, _, hrequest, _⟩
  have hnumber := hrequest.number
  rw [Int32.toInt_ofInt_of_le (by omega) (by omega)]

-- What is left carries the current number.
theorem announcesTable_current {i : ι} {s : Services F} (theReactor : Reactor) (n : Nat)
    (hs : cfg.AnnouncesTable log i ⊤ s)
    : cfg.AnnouncesTable log i (fun _ n' => n' = n) (s.latestSequence theReactor n) where
  services := by
    intro key service hservice
    have hstep : s.step (.latestSequence theReactor n) = some (s.latestSequence theReactor n) := rfl
    rcases (Services.mem_serviceList_latestSequence hstep).mp hservice with ⟨hold, hcurrent⟩
    rcases hs.services key service hold
      with ⟨m, k, atBackend, load, n', uri, hannounces, _, huri, hkey, heq⟩
    have hn : n' = n := by
      have hnumber := hannounces.toInt_number
      rw [heq] at hcurrent
      unfold Engine.announcedService at hcurrent
      dsimp at hcurrent
      omega
    exact ⟨m, k, atBackend, load, n', uri, hannounces, hn, huri, hkey, heq⟩
  infoRequests := by
    intro name infoRequest hinfo
    have hstep : s.step (.latestSequence theReactor n) = some (s.latestSequence theReactor n) := rfl
    rw [Services.infoRequests_step hstep] at hinfo
    rcases List.mem_filter.mp hinfo with ⟨hold, hcurrent⟩
    rcases hs.infoRequests name infoRequest hold
      with ⟨m, k, atBackend, load, n', hannounces, _, hname, heq⟩
    have hn : n' = n := by
      have hnumber := hannounces.toInt_number
      rw [decide_eq_true_eq, heq] at hcurrent
      unfold Engine.announcedInfoRequest at hcurrent
      dsimp at hcurrent
      omega
    exact ⟨m, k, atBackend, load, n', hannounces, hn, hname, heq⟩

-- The deadline that purges ends the cycle of the frontend.
structure Purges (loop : EventLoop F) (index : Nat) (err : ErrorCode) : Prop where
  completed : loop.completed[index]? = some (.deadlineTimer err)
  expires : err ≠ .operationAborted
  purges : loop.engine.purges = true

theorem itsServices_purge {loop loop' : EventLoop F} {index : Nat} {err : ErrorCode}
    {theReactor : Reactor} {thePlatform : Platform F} {theProtobuf : Protobuf F}
    (hpurges : Purges loop index err) (hsequence : loop.engine.itsFrontendSequence.toNat < 65535)
    (h : loop.step theProtobuf (.runHandler index, theReactor, thePlatform) = some loop')
    : loop'.engine.itsServices
        =
      loop.engine.itsServices.latestSequence theReactor loop.engine.itsFrontendSequence.toNat := by
  rcases EventLoop.step_runHandler h with ⟨completion, engine, effects, hcompleted, hhandle, hloop'⟩
  rw [hpurges.completed, Option.some.injEq] at hcompleted
  rw [← hcompleted] at hhandle
  have hcases := Engine.handleDeadlineTimer_sends hsequence hpurges.expires hhandle
  have hcleaned : (loop.engine.cleaned theReactor).itsServices
      = loop.engine.itsServices.latestSequence theReactor
        loop.engine.itsFrontendSequence.toNat := by
    unfold Engine.cleaned
    rw [hpurges.purges]
    rfl
  rw [hloop', EventLoop.engine_performAll, ← hcleaned]
  split at hcases
  . rw [hcases.1]
  . rw [hcases.1]
    rfl

variable [DecidableEq ι] [DecidableEq κ]

theorem step_runHandler {i : ι} {net net' : Cluster ι κ F} {loop : EventLoop F} {index : Nat}
    {theReactor : Reactor} {thePlatform : Platform F} (hloop : net.frontend i = some loop)
    (h : net.step cfg.protocol
      (.act (.frontend i) (.event (.runHandler index, theReactor, thePlatform))) = some net')
    : ∃ loop', net'.frontend i = some loop'
        ∧ loop.step cfg.theProtobuf (.runHandler index, theReactor, thePlatform) = some loop' := by
  rcases Lib.Network.step_act h with ⟨s, out, hact, hnet'⟩
  have hstate : net.state (.frontend i) = some loop := hloop
  rw [hstate] at hact
  rcases Option.map_eq_some_iff.mp hact with ⟨loop', hstep, heq⟩
  injection heq with hs _
  refine ⟨loop', ?_, hstep⟩
  rw [hnet', ← hs]
  apply Function.update_self

theorem purged_table {i : ι} {net net' : Cluster ι κ F} {loop loop' : EventLoop F} {index : Nat}
    {err : ErrorCode} {theReactor : Reactor} {thePlatform : Platform F}
    (hnet : net.Holds cfg.PartyInv cfg.Authentic) (hloop : net.frontend i = some loop)
    (hloop' : net'.frontend i = some loop') (hpurges : Purges loop index err)
    (h : net.step cfg.protocol
      (.act (.frontend i) (.event (.runHandler index, theReactor, thePlatform))) = some net')
    : cfg.AnnouncesTable net.sent i (fun _ n => n = loop.engine.itsFrontendSequence.toNat)
        loop'.engine.itsServices := by
  have hinv : cfg.FrontendInv net.sent i loop := by
    have hstate := hnet.state (.frontend i)
    unfold Cluster.frontend at hloop
    rw [hloop] at hstate
    exact hstate
  rcases step_runHandler hloop h with ⟨loop₁, hloop₁, hstep⟩
  rw [hloop', Option.some.injEq] at hloop₁
  rw [hloop₁, itsServices_purge hpurges hinv.sequence hstep]
  apply announcesTable_current theReactor _ hinv.table

/-! The withdrawal -/

-- Whenever a handler runs at the backend, it shuts down, is paused or is under high load.
def Withdrawn (k : κ) (net : Cluster ι κ F) : ClusterEvent ι κ F → Prop
  | .act (.backend k') (.runHandler _ theReactor thePlatform) =>
    k' = k → theReactor.isShuttingDown = true ∨ theReactor.isLoadHigh = true
      ∨ (net.backend k).all fun loop => (loop.engine.isPaused thePlatform).1
  | _ => True

instance (k : κ) (net : Cluster ι κ F)
    : ∀ event : ClusterEvent ι κ F, Decidable (Withdrawn k net event)
  | .act (.backend k') (.runHandler _ theReactor thePlatform) =>
    inferInstanceAs
      (Decidable (k' = k → theReactor.isShuttingDown = true ∨ theReactor.isLoadHigh = true
        ∨ (net.backend k).all fun loop => (loop.engine.isPaused thePlatform).1))
  | .act (.backend _) (.launch ..) => .isTrue trivial
  | .act (.backend _) .receiveFails => .isTrue trivial
  | .act (.backend _) (.command _) => .isTrue trivial
  | .act (.frontend _) _ => .isTrue trivial
  | .deliver .. => .isTrue trivial

omit [DecidableEq ι] [DecidableEq κ] in
-- Only the handler of a datagram sends.
theorem out_actBackend {k : κ} {s s' : Option (BackendLoop F)} {a : BackendAction F}
    {out : List Datagram} (h : cfg.actBackend k s a = some (s', out))
    : out = [] ∨ ∃ loop index theReactor thePlatform err n engine effects, s = some loop
        ∧ a = .runHandler index theReactor thePlatform
        ∧ loop.engine.handleBackendRead theReactor thePlatform cfg.theProtobuf err n
          = .ok (engine, effects)
        ∧ out = sentFrom (cfg.endOf (.backend k)) effects := by
  cases s with
  | none =>
    cases a with
    | launch pause theReactor thePlatform bound =>
      left
      rcases Option.map_eq_some_iff.mp h with ⟨⟨loop, effects⟩, hlaunch, heq⟩
      injection heq with _ hout
      rw [← hout]
      exact (backendInv_launch [] hlaunch).2
    | receiveFails => contradiction
    | runHandler index theReactor thePlatform => contradiction
    | command c => contradiction
  | some loop =>
    rcases Option.bind_eq_some_iff.mp h with ⟨event, hevent, hmap⟩
    rcases Option.map_eq_some_iff.mp hmap with ⟨⟨loop', effects⟩, hstep, heq⟩
    injection heq with _ hout
    cases a with
    | launch pause theReactor thePlatform bound => contradiction
    | receiveFails =>
      left
      rw [← Option.some.inj hevent] at hstep
      simp only [BackendLoop.step] at hstep
      split at hstep
      . contradiction
      . injection hstep with hstep
        injection hstep with _ heffects
        rw [← hout, ← heffects]
        rfl
    | command c =>
      left
      rw [← Option.some.inj hevent] at hstep
      injection hstep with hstep
      injection hstep with _ heffects
      rw [← hout, ← heffects]
      rfl
    | runHandler index theReactor thePlatform =>
      right
      rw [← Option.some.inj hevent] at hstep
      rcases BackendLoop.step_runHandler hstep with ⟨err, n, engine, _, hhandle, _⟩
      exact ⟨loop, index, theReactor, thePlatform, err, n, engine, effects, rfl, rfl, hhandle,
        hout.symm⟩

omit [DecidableEq ι] [DecidableEq κ] in
theorem out_withdrawn {k : κ} {net : Cluster ι κ F} {a : BackendAction F}
    {s' : Option (BackendLoop F)} {out : List Datagram}
    (hwithdrawn : Withdrawn k net (.act (.backend k) a))
    (h : cfg.actBackend k (net.backend k) a = some (s', out)) : out = [] := by
  rcases out_actBackend h with hnone
    | ⟨loop, index, theReactor, thePlatform, err, n, engine, effects, hloop, ha, hhandle, hout⟩
  . assumption
  . rw [hout]
    apply sentFrom_eq_nil
    rw [ha] at hwithdrawn
    have hcases := Engine.handleBackendRead_eq_ok hhandle
    split at hcases
    . simp [hcases.2]
    . next hdown =>
      split at hcases
      . simp [hcases.2, Engine.startListening, Effect.isSend]
      . have hbusy : ((loop.engine.isPaused thePlatform).1 || theReactor.isLoadHigh) = true := by
          rw [Bool.or_eq_true]
          rcases hwithdrawn rfl with hstops | hload | hpaused
          . contradiction
          . exact .inr hload
          . rw [hloop] at hpaused
            exact .inl hpaused
        rw [if_pos hbusy] at hcases
        simp [hcases.2, Engine.startListening, Effect.isSend]

-- Where a party sends nothing, all that has been sent in its name has been sent before.
theorem sent_silent {p : Party ι κ} {net net' : Cluster ι κ F} {event : ClusterEvent ι κ F}
    (hends : Function.Injective cfg.endOf)
    (hsilent : ∀ a s' out, event = .act p a →
      cfg.protocol.act p (net.state p) a = some (s', out) → out = [])
    (h : net.step cfg.protocol event = some net')
    : ∀ m ∈ net'.sent, m.source = cfg.endOf p → m ∈ net.sent := by
  intro m hm hsource
  cases event with
  | deliver q m' =>
    rcases Lib.Network.step_deliver h with ⟨_, s, _, hnet'⟩
    rwa [hnet'] at hm
  | act q a =>
    rcases Lib.Network.step_act h with ⟨s, out, hact, hnet'⟩
    rw [hnet'] at hm
    cases List.mem_append.mp hm with
    | inl hold => assumption
    | inr hnew =>
      have hp : p = q := hends (hsource.symm.trans (source_of_act hact m hnew))
      cases hp
      rw [hsilent a s out rfl hact] at hnew
      contradiction

theorem sent_run_withdrawn {k : κ} {net net' : Cluster ι κ F} {events : List (ClusterEvent ι κ F)}
    (hends : Function.Injective cfg.endOf)
    (hwithdrawn : Lib.Along (Lib.Network.step cfg.protocol)
      (fun net event _ => Withdrawn k net event) net events)
    (h : Lib.run (Lib.Network.step cfg.protocol) net events = some net')
    : ∀ m ∈ net'.sent, m.source = cfg.endOf (.backend k) → m ∈ net.sent := by
  apply Lib.Along.run_invariant
    (I := fun t => ∀ m ∈ t.sent, m.source = cfg.endOf (.backend k) → m ∈ net.sent) _ _ hwithdrawn h
  . intro s event s' hs hstep hevent m hm hsource
    apply hs m _ hsource
    apply sent_silent hends _ hstep m hm hsource
    rintro a s' out rfl hact
    apply out_withdrawn hevent hact
  . intro m hm _
    exact hm

omit [DecidableEq ι] [DecidableEq κ] in
-- An answer of a backend that is found in the log answers a request that is found there.
theorem asked_of_sent {i : ι} {m : Datagram} {k : κ} {theReactor : Reactor} {load : F} {n : Nat}
    {before : List Datagram} (hdecodes : cfg.theProtobuf.Decodes)
    (hends : Function.Injective cfg.endOf) (hbefore : ∀ m ∈ before, cfg.Authentic before m)
    (h : cfg.Announces log i m k theReactor load n) (hm : m ∈ before)
    : ∃ request ∈ before, cfg.IsRequest request i n ∧ Fits request := by
  have hparse : cfg.theProtobuf.ParseFromString m.payload
      = (true, cfg.reply k theReactor load n) := by
    have hfits := h.fits
    rw [h.answers.isReply.payload] at hfits ⊢
    apply hdecodes _ Engine.reply_isInitialized hfits
  rcases (hbefore m hm).parse hdecodes h.fits
    with ⟨_, _, _, hrequest⟩ | ⟨k', atBackend, load', i', n', hanswers, hreply⟩
  . rw [hparse, Prod.mk.injEq] at hrequest
    have htype := congrArg BroadcastMessage.messageType hrequest.2
    rw [messageType_reply, messageType_request] at htype
    contradiction
  . have hi : i' = i := by
      have heq := hends (hanswers.dest.symm.trans h.answers.dest)
      injection heq
    have hn : n' = n := by
      rw [hparse, Prod.mk.injEq] at hreply
      have hnumber := congrArg BroadcastMessage.seqnum hreply.2
      rw [seqnum_reply, seqnum_reply, h.toInt_number,
        Announces.toInt_number ⟨hm, h.fits, hanswers⟩] at hnumber
      omega
    rw [← hi, ← hn]
    exact hanswers.asked

end ClusterConfig

namespace Cluster

open ClusterConfig

variable [DecidableEq ι] [DecidableEq κ]

/--
Once a backend has been withdrawn, the next cycles of a frontend drop it: after the deadline of a
later cycle that purges, whatever the frontend lists has been announced by another backend. This is
so however long the network holds the last replies of the backend back, and whether or not it
repeats them, where the runs before and after the withdrawal are regular, what is delivered fits
into the buffers and the numbers of the frontends do not start again.
-/
theorem drains_of_withdrawn (cfg : ClusterConfig ι κ F) (before after : List (ClusterEvent ι κ F))
    (net₁ net₂ net₃ : Cluster ι κ F) (k : κ) (i : ι) (loop₂ loop₃ : EventLoop F) (index : Nat)
    (err : ErrorCode) (theReactor : Reactor) (thePlatform : Platform F)
    (hdecodes : cfg.theProtobuf.Decodes) (hends : Function.Injective cfg.endOf)
    (hbefore : cfg.Proceeds Counting init before net₁)
    (hafter : cfg.Proceeds Counting net₁ after net₂)
    (hwithdrawn : Lib.Along (Lib.Network.step cfg.protocol)
      (fun net event _ => Withdrawn k net event) net₁ after)
    (hloop₂ : net₂.frontend i = some loop₂) (hloop₃ : net₃.frontend i = some loop₃)
    (hlater : sequence (net₁.frontend i) < loop₂.engine.itsFrontendSequence.toNat)
    (hpurges : Purges loop₂ index err)
    (hstep : net₂.step cfg.protocol
      (.act (.frontend i) (.event (.runHandler index, theReactor, thePlatform))) = some net₃)
    : cfg.AnnouncesTable net₂.sent i (fun k' _ => k' ≠ k) loop₃.engine.itsServices := by
  have hinv := invariant_numbered hdecodes hends
  have hinit : (init : Cluster ι κ F).Holds
      (fun log p s => cfg.PartyInv log p s ∧ cfg.Numbered log p s) cfg.Authentic := by
    constructor
    . intro p
      refine ⟨holds_init.state p, ?_⟩
      cases p with
      | frontend i => simp [Numbered, init]
      | backend k => trivial
    . simp [init]
  have hnet₁ := hinv.holds_run hbefore.meets hbefore.run hinit
  have hnet₂ := hinv.holds_run hafter.meets hafter.run hnet₁
  have hholds : net₂.Holds cfg.PartyInv cfg.Authentic := ⟨fun p => (hnet₂.state p).1, hnet₂.sent⟩
  apply (purged_table hholds hloop₂ hloop₃ hpurges hstep).imp
  intro m k' atBackend load n hannounces hcurrent hk
  have hsource : m.source = cfg.endOf (.backend k) := by
    rw [hannounces.answers.isReply.source, hk]
  have hm := sent_run_withdrawn hends hwithdrawn hafter.run m hannounces.sent hsource
  rcases asked_of_sent hdecodes hends hnet₁.sent hannounces hm
    with ⟨request, hrequest, hasked, hfits⟩
  have hle := (hnet₁.state (.frontend i)).2 request hrequest n hasked hfits
  unfold frontend at hlater
  omega

section Sample

open Sample

def expires : ClusterEvent Unit Unit Rat :=
  .act (.frontend ()) (.event (.timerExpires, reactor, clusterPlatform))

def deadline : ClusterEvent Unit Unit Rat :=
  .act (.frontend ()) (.event (.runHandler 0, reactor, clusterPlatform))

-- the frontend after the events, and after the deadline that follows them
def deadlineLoops (events : List (ClusterEvent Unit Unit Rat))
    : Option (EventLoop Rat × EventLoop Rat) :=
  (Lib.run (Lib.Network.step cluster.protocol) init events).bind fun net =>
    (net.step cluster.protocol deadline).bind fun net' =>
      (frontend net ()).bind fun loop => (frontend net' ()).map fun loop' => (loop, loop')

theorem deadlineLoops_any {events : List (ClusterEvent Unit Unit Rat)} {n : Nat}
    (h : (deadlineLoops events).any (fun loops =>
      loops.1.completed[0]? = some (.deadlineTimer .success) && loops.1.engine.purges
        && loops.1.engine.itsFrontendSequence.toNat = n) = true)
    : ∃ net net' loop loop', Lib.run (Lib.Network.step cluster.protocol) init events = some net
        ∧ net.step cluster.protocol deadline = some net' ∧ frontend net () = some loop
        ∧ frontend net' () = some loop' ∧ Purges loop 0 .success
        ∧ loop.engine.itsFrontendSequence.toNat = n := by
  rw [Option.any_eq_true] at h
  rcases h with ⟨loops, hloops, hn⟩
  simp only [Bool.and_eq_true, decide_eq_true_eq] at hn
  rcases hn with ⟨⟨hcompleted, hpurges⟩, hn⟩
  rcases Option.bind_eq_some_iff.mp hloops with ⟨net, hnet, hloops⟩
  rcases Option.bind_eq_some_iff.mp hloops with ⟨net', hnet', hloops⟩
  rcases Option.bind_eq_some_iff.mp hloops with ⟨loop, hloop, hloops⟩
  rcases Option.map_eq_some_iff.mp hloops with ⟨loop', hloop', heq⟩
  rw [← heq] at hcompleted hpurges hn
  exact ⟨net, net', loop, loop', hnet, hnet', hloop, hloop', ⟨hcompleted, by decide, hpurges⟩, hn⟩

-- The backend is paused after its answer to the first request, and gets the second one.
def pauses : List (ClusterEvent Unit Unit Rat) :=
  firstAnswer ++ [.act (.backend ()) (.command .setPause)]

def secondRequest : List (ClusterEvent Unit Unit Rat) := [
  expires, deadline, deadline,
  .deliver (.backend ()) { firstRequest with payload := requestWire.head ++ [2] },
  .act (.backend ()) (.runHandler 0 Engine.handlers clusterPlatform),
  expires
]

theorem drains_of_withdrawn_sample
    : ∃ (net₂ : Cluster Unit Unit Rat) (loop₃ : EventLoop Rat),
        cluster.AnnouncesTable net₂.sent () (fun k' _ => k' ≠ ()) loop₃.engine.itsServices := by
  have hloops : (deadlineLoops (pauses ++ secondRequest)).any (fun loops =>
      loops.1.completed[0]? = some (.deadlineTimer .success) && loops.1.engine.purges
        && loops.1.engine.itsFrontendSequence.toNat = 2) = true := by
    decide
  rcases deadlineLoops_any hloops
    with ⟨net₂, net₃, loop₂, loop₃, hrun, hstep, hloop₂, hloop₃, hpurges, hn⟩
  rw [Lib.run_append, Option.bind_eq_some_iff] at hrun
  rcases hrun with ⟨net₁, hnet₁, hnet₂⟩
  have hfirst : (Lib.run (Lib.Network.step cluster.protocol) init pauses).all (fun net =>
      sequence (frontend net ()) = 1
        && decide (Lib.Along (Lib.Network.step cluster.protocol)
          (fun net event _ => net.Meets Counting Fits event) net secondRequest)
        && decide (Lib.Along (Lib.Network.step cluster.protocol)
          (fun net event _ => Withdrawn () net event) net secondRequest)) = true := by
    decide
  rw [hnet₁, Option.all_some] at hfirst
  simp only [Bool.and_eq_true, decide_eq_true_eq] at hfirst
  rcases hfirst with ⟨⟨hone, hmeets⟩, hwithdrawn⟩
  refine ⟨net₂, loop₃, ?_⟩
  apply drains_of_withdrawn cluster pauses secondRequest net₁ net₂ net₃ () () loop₂ loop₃ 0
    .success reactor clusterPlatform decodes_cluster injective_endOf_cluster ⟨hnet₁, by decide⟩
    ⟨hnet₂, hmeets⟩ hwithdrawn hloop₂ hloop₃ _ hpurges hstep
  omega

end Sample

end Cluster

end Sputnik
