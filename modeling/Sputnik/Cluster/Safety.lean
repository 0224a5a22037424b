import Sputnik.Cluster.Frontend

/-!
This module contains what holds of a cluster in every run, however its events interleave and
whatever the network loses, repeats, delays and reorders.
-/

namespace Sputnik

variable {F : Type} [FloatArith F] {ι κ : Type}

namespace ClusterConfig

-- No frontend is started while its reactor shuts down.
def Started : ∀ p : Party ι κ, p.State F → p.Action F → Prop
  | .frontend _, none, .launch _ theReactor _ _ => theReactor.isShuttingDown = false
  | _, _, _ => True

-- In addition, no handler of a deadline that begins the next cycle overtakes that of a datagram.
def Regular : ∀ p : Party ι κ, p.State F → p.Action F → Prop
  | .frontend _, none, .launch _ theReactor _ _ => theReactor.isShuttingDown = false
  | .frontend _, some loop, .event event => loop.DeadlineAfterReads event
  | _, _, _ => True

-- The datagram fits into the receive buffer.
def Fits (m : Datagram) : Prop := m.payload.length ≤ 8192

instance : ∀ (p : Party ι κ) (s : p.State F) (a : p.Action F), Decidable (Started p s a)
  | .frontend _, none, .launch _ theReactor _ _ =>
    inferInstanceAs (Decidable (theReactor.isShuttingDown = false))
  | .frontend _, none, .event _ => .isTrue trivial
  | .frontend _, none, .runReply .. => .isTrue trivial
  | .frontend _, none, .removeBackend _ => .isTrue trivial
  | .frontend _, some _, _ => .isTrue trivial
  | .backend _, _, _ => .isTrue trivial

instance : ∀ (p : Party ι κ) (s : p.State F) (a : p.Action F), Decidable (Regular p s a)
  | .frontend _, none, .launch _ theReactor _ _ =>
    inferInstanceAs (Decidable (theReactor.isShuttingDown = false))
  | .frontend _, some loop, .event event =>
    inferInstanceAs (Decidable (loop.DeadlineAfterReads event))
  | .frontend _, none, .event _ => .isTrue trivial
  | .frontend _, none, .runReply .. => .isTrue trivial
  | .frontend _, none, .removeBackend _ => .isTrue trivial
  | .frontend _, some _, .launch .. => .isTrue trivial
  | .frontend _, some _, .runReply .. => .isTrue trivial
  | .frontend _, some _, .removeBackend _ => .isTrue trivial
  | .backend _, none, _ => .isTrue trivial
  | .backend _, some _, _ => .isTrue trivial

instance (m : Datagram) : Decidable (Fits m) := Nat.decLe ..

omit [FloatArith F] in
theorem Regular.started {p : Party ι κ} {s : p.State F} {a : p.Action F} (h : Regular p s a)
    : Started p s a := by
  cases p with
  | frontend i =>
    cases s with
    | none =>
      cases a with
      | launch => exact h
      | _ => trivial
    | some loop => trivial
  | backend k => trivial

section PartyInv

variable (cfg : ClusterConfig ι κ F) (log : List Datagram)

-- what holds of the parties in every run
def PartyCore : ∀ p : Party ι κ, p.State F → Prop
  | .frontend _, none => True
  | .frontend i, some loop => cfg.FrontendCore i loop
  | .backend _, none => True
  | .backend k, some loop => cfg.BackendCore k loop

-- what the messages of the parties depend on
def SenderInv : ∀ p : Party ι κ, p.State F → Prop
  | .frontend _, none => True
  | .frontend i, some loop => cfg.FrontendCore i loop
  | .backend _, none => True
  | .backend k, some loop => cfg.BackendInv log k loop

def PartyInv : ∀ p : Party ι κ, p.State F → Prop
  | .frontend _, none => True
  | .frontend i, some loop => cfg.FrontendInv log i loop
  | .backend _, none => True
  | .backend k, some loop => cfg.BackendInv log k loop

end PartyInv

variable {cfg : ClusterConfig ι κ F} {log : List Datagram}

theorem PartyInv.mono {more : List Datagram} {p : Party ι κ} {s : p.State F}
    (h : cfg.PartyInv log p s) : cfg.PartyInv (log ++ more) p s := by
  cases p with
  | frontend i =>
    cases s with
    | none => trivial
    | some loop => exact FrontendInv.mono h
  | backend k =>
    cases s with
    | none => trivial
    | some loop => exact BackendInv.mono h

theorem SenderInv.mono {more : List Datagram} {p : Party ι κ} {s : p.State F}
    (h : cfg.SenderInv log p s) : cfg.SenderInv (log ++ more) p s := by
  cases p with
  | frontend i =>
    cases s with
    | none => trivial
    | some loop => exact h
  | backend k =>
    cases s with
    | none => trivial
    | some loop => exact BackendInv.mono h

theorem PartyInv.senders {p : Party ι κ} {s : p.State F} (h : cfg.PartyInv log p s)
    : cfg.SenderInv log p s := by
  cases p with
  | frontend i =>
    cases s with
    | none => trivial
    | some loop => exact FrontendInv.toFrontendCore h
  | backend k =>
    cases s with
    | none => trivial
    | some loop => exact h

theorem partyInv_backend_iff {k : κ} {s : Option (BackendLoop F)}
    : cfg.PartyInv log (.backend k) s ↔ cfg.SenderInv log (.backend k) s := by
  cases s with
  | none => exact .rfl
  | some loop => exact .rfl

/-! What holds in every run -/

theorem partyCore_act {p : Party ι κ} {s s' : p.State F} {a : p.Action F} {out : List Datagram}
    (hs : cfg.PartyCore p s) (h : cfg.protocol.act p s a = some (s', out))
    : cfg.PartyCore p s' := by
  cases p with
  | frontend i =>
    cases s with
    | none =>
      cases a with
      | launch pause theReactor thePlatform hooked =>
        rcases Option.map_eq_some_iff.mp h with ⟨⟨loop, effects⟩, hlaunch, heq⟩
        injection heq with hs' _
        rw [← hs']
        exact frontendCore_launch hlaunch
      | _ => contradiction
    | some loop =>
      rcases frontendCore_act hs h with ⟨loop', hs', hloop'⟩
      rw [hs']
      exact hloop'
  | backend k =>
    cases s with
    | none =>
      cases a with
      | launch pause theReactor thePlatform bound =>
        rcases Option.map_eq_some_iff.mp h with ⟨⟨loop, effects⟩, hlaunch, heq⟩
        injection heq with hs' _
        rw [← hs']
        exact (backendInv_launch [] hlaunch).1.toBackendCore
      | _ => contradiction
    | some loop =>
      rcases Option.bind_eq_some_iff.mp h with ⟨event, _, hmap⟩
      rcases Option.map_eq_some_iff.mp hmap with ⟨⟨loop', effects⟩, hstep, heq⟩
      injection heq with hs' _
      rw [← hs']
      exact BackendCore.step hs hstep

theorem partyCore_receive {p : Party ι κ} {s s' : p.State F} {m : Datagram}
    (hs : cfg.PartyCore p s) (h : cfg.protocol.receive p s m = some s') : cfg.PartyCore p s' := by
  cases p with
  | frontend i =>
    cases s with
    | none => contradiction
    | some loop =>
      rcases frontendCore_receive hs h with ⟨loop', hs', hloop'⟩
      rw [hs']
      exact hloop'
  | backend k =>
    cases s with
    | none => contradiction
    | some loop =>
      rcases Option.map_eq_some_iff.mp h with ⟨⟨loop', effects⟩, hstep, heq⟩
      rw [← heq]
      exact BackendCore.step hs hstep

/-! What the parties send -/

-- the number of the last request, 0 before the first
def sequence (s : Option (EventLoop F)) : Nat :=
  match s with
  | none => 0
  | some loop => loop.engine.itsFrontendSequence.toNat

theorem sendsNext_actFrontend {i : ι} {s s' : Option (EventLoop F)} {a : FrontendAction F}
    {out : List Datagram} (hs : cfg.SenderInv log (.frontend i) s)
    (hstarted : Started (.frontend i : Party ι κ) s a) (h : cfg.actFrontend i s a = some (s', out))
    : cfg.SendsNext i (sequence s) (sequence s') out := by
  cases s with
  | none =>
    cases a with
    | launch pause theReactor thePlatform hooked =>
      rcases Option.map_eq_some_iff.mp h with ⟨⟨loop, effects⟩, hlaunch, heq⟩
      injection heq with hs' hout
      rw [← hs', ← hout]
      apply sendsNext_launch hstarted hlaunch
    | event event => contradiction
    | runReply index theReactor between => contradiction
    | removeBackend removal => contradiction
  | some loop =>
    cases a with
    | launch pause theReactor thePlatform hooked => contradiction
    | event event =>
      rcases event with ⟨event, theReactor, thePlatform⟩
      cases event with
      | datagramArrives datagram remoteEnd => contradiction
      | _ =>
        rcases Option.map_eq_some_iff.mp h with ⟨loop', hstep, heq⟩
        injection heq with hs' hout
        rw [← hs', ← hout]
        apply sendsNext_step hs.toEngineConfig hs.sequence hstep
    | runReply index theReactor between =>
      rcases Option.map_eq_some_iff.mp h with ⟨loop', hreply, heq⟩
      injection heq with hs' hout
      rw [← hs', ← hout]
      rcases EventLoop.runReply_eq_some hreply with ⟨itsServices, itsReceivedResponses, hengine⟩
      left
      exact ⟨by simp [sequence, hengine], rfl⟩
    | removeBackend removal =>
      rcases Option.map_eq_some_iff.mp h with ⟨loop', hremove, heq⟩
      injection heq with hs' hout
      rw [← hs', ← hout]
      rcases Option.map_eq_some_iff.mp hremove with ⟨itsServices, _, hloop'⟩
      left
      exact ⟨by simp [sequence, ← hloop'], rfl⟩

theorem senderInv_actBackend {k : κ} {s s' : Option (BackendLoop F)} {a : BackendAction F}
    {out : List Datagram} (hdecodes : cfg.theProtobuf.Decodes)
    (hs : cfg.SenderInv log (.backend k) s) (h : cfg.actBackend k s a = some (s', out))
    : cfg.SenderInv log (.backend k) s' ∧ ∀ m ∈ out, cfg.Authentic (log ++ out) m := by
  cases s with
  | none =>
    cases a with
    | launch pause theReactor thePlatform bound =>
      rcases Option.map_eq_some_iff.mp h with ⟨⟨loop, effects⟩, hlaunch, heq⟩
      injection heq with hs' hout
      rcases backendInv_launch log hlaunch with ⟨hloop, hnone⟩
      rw [hnone] at hout
      rw [← hs', ← hout]
      exact ⟨hloop, by simp⟩
    | receiveFails => contradiction
    | runHandler index theReactor thePlatform => contradiction
    | command c => contradiction
  | some loop =>
    rcases Option.bind_eq_some_iff.mp h with ⟨event, hevent, hmap⟩
    rcases Option.map_eq_some_iff.mp hmap with ⟨⟨loop', effects⟩, hstep, heq⟩
    injection heq with hs' hout
    have harrives : ∀ datagram remoteEnd, event ≠ .datagramArrives datagram remoteEnd := by
      intro datagram remoteEnd heq
      rw [heq] at hevent
      cases a with
      | _ => simp [BackendAction.event?] at hevent
    rcases backendInv_step hdecodes hs harrives hstep with ⟨hloop', hauthentic⟩
    rw [← hs', ← hout]
    refine ⟨hloop', ?_⟩
    intro m hm
    apply (hauthentic m hm).mono

theorem senderInv_act {p : Party ι κ} {s s' : p.State F} {a : p.Action F} {out : List Datagram}
    (hdecodes : cfg.theProtobuf.Decodes) (hs : cfg.SenderInv log p s) (hstarted : Started p s a)
    (h : cfg.protocol.act p s a = some (s', out))
    : cfg.SenderInv log p s' ∧ ∀ m ∈ out, cfg.Authentic (log ++ out) m := by
  cases p with
  | backend k => exact senderInv_actBackend hdecodes hs h
  | frontend i =>
    constructor
    . have hcore : cfg.PartyCore (.frontend i) s := by
        cases s with
        | none => trivial
        | some loop => exact hs
      have hcore' := partyCore_act hcore h
      cases s' with
      | none => trivial
      | some loop => exact hcore'
    . intro m hm
      rcases sendsNext_actFrontend hs hstarted h with ⟨_, hnone⟩ | ⟨_, hrequests⟩
      . rw [hnone] at hm
        contradiction
      . exact .inl ⟨i, _, hrequests m hm⟩

theorem senderInv_receive {p : Party ι κ} {s s' : p.State F} {m : Datagram}
    (hs : cfg.SenderInv log p s) (hm : m ∈ log) (hauthentic : cfg.Authentic log m) (hfits : Fits m)
    (h : cfg.protocol.receive p s m = some s') : cfg.SenderInv log p s' := by
  cases p with
  | frontend i =>
    cases s with
    | none => contradiction
    | some loop =>
      rcases frontendCore_receive hs h with ⟨loop', hs', hloop'⟩
      rw [hs']
      exact hloop'
  | backend k =>
    cases s with
    | none => contradiction
    | some loop =>
      rcases Option.map_eq_some_iff.mp h with ⟨⟨loop', effects⟩, hstep, heq⟩
      rw [← heq]
      exact backendInv_receive hs hm hauthentic hfits hstep

theorem invariant_senders (hdecodes : cfg.theProtobuf.Decodes)
    : Lib.Network.Invariant cfg.protocol cfg.SenderInv cfg.Authentic Started Fits where
  mono h := h.mono
  act hs hstarted hact := by
    rcases senderInv_act hdecodes hs hstarted hact with ⟨hs', hout⟩
    exact ⟨hs'.mono, hout⟩
  receive hs hm hauthentic hfits h := senderInv_receive hs hm hauthentic hfits h
  frame _ hs _ _ _ := hs.mono

/-! What the frontends list -/

theorem partyInv_actFrontend {i : ι} {s s' : Option (EventLoop F)} {a : FrontendAction F}
    {out : List Datagram} (hdecodes : cfg.theProtobuf.Decodes)
    (hends : Function.Injective cfg.endOf) (hs : cfg.PartyInv log (.frontend i) s)
    (hregular : Regular (.frontend i : Party ι κ) s a) (h : cfg.actFrontend i s a = some (s', out))
    : cfg.PartyInv log (.frontend i) s' := by
  cases s with
  | none =>
    cases a with
    | launch pause theReactor thePlatform hooked =>
      rcases Option.map_eq_some_iff.mp h with ⟨⟨loop, effects⟩, hlaunch, heq⟩
      injection heq with hs' _
      rw [← hs']
      exact frontendInv_launch log hlaunch
    | event event => contradiction
    | runReply index theReactor between => contradiction
    | removeBackend removal => contradiction
  | some loop =>
    cases a with
    | launch pause theReactor thePlatform hooked => contradiction
    | event event =>
      rcases event with ⟨event, theReactor, thePlatform⟩
      cases event with
      | datagramArrives datagram remoteEnd => contradiction
      | timerExpires =>
        rcases Option.map_eq_some_iff.mp h with ⟨loop', hstep, heq⟩
        injection heq with hs' _
        rw [← hs']
        exact frontendInv_timerExpires hs hstep
      | runHandler index =>
        rcases Option.map_eq_some_iff.mp h with ⟨loop', hstep, heq⟩
        injection heq with hs' _
        rw [← hs']
        exact frontendInv_runHandler hdecodes hends hs hregular hstep
    | runReply index theReactor between =>
      rcases Option.map_eq_some_iff.mp h with ⟨loop', hreply, heq⟩
      injection heq with hs' _
      rw [← hs']
      exact frontendInv_runReply hdecodes hends hs hreply
    | removeBackend removal =>
      rcases Option.map_eq_some_iff.mp h with ⟨loop', hremove, heq⟩
      injection heq with hs' _
      rw [← hs']
      exact frontendInv_removeBackend hs hremove

theorem partyInv_receive {p : Party ι κ} {s s' : p.State F} {m : Datagram}
    (hs : cfg.PartyInv log p s) (hm : m ∈ log) (hauthentic : cfg.Authentic log m) (hfits : Fits m)
    (h : cfg.protocol.receive p s m = some s') : cfg.PartyInv log p s' := by
  cases p with
  | frontend i =>
    cases s with
    | none => contradiction
    | some loop =>
      cases s' with
      | none => trivial
      | some loop' => exact frontendInv_receive hs hm hauthentic hfits h
  | backend k =>
    rw [partyInv_backend_iff] at hs ⊢
    exact senderInv_receive hs hm hauthentic hfits h

theorem invariant_protocol (hdecodes : cfg.theProtobuf.Decodes)
    (hends : Function.Injective cfg.endOf)
    : Lib.Network.Invariant cfg.protocol cfg.PartyInv cfg.Authentic Regular Fits where
  mono h := h.mono
  act := by
    intro log p s a s' out hs hregular hact
    rcases senderInv_act hdecodes hs.senders hregular.started hact with ⟨hs', hout⟩
    refine ⟨?_, hout⟩
    cases p with
    | frontend i => exact (partyInv_actFrontend hdecodes hends hs hregular hact).mono
    | backend k => exact (partyInv_backend_iff.mpr hs').mono
  receive hs hm hauthentic hfits h := partyInv_receive hs hm hauthentic hfits h
  frame _ hs _ _ _ := hs.mono

variable [DecidableEq ι] [DecidableEq κ]

-- a run whose actions all meet `A`
structure Proceeds (cfg : ClusterConfig ι κ F) (A : ∀ p : Party ι κ, p.State F → p.Action F → Prop)
    (net : Cluster ι κ F) (events : List (ClusterEvent ι κ F)) (net' : Cluster ι κ F) : Prop where
  run : Lib.run (Lib.Network.step cfg.protocol) net events = some net'
  meets : Lib.Along (Lib.Network.step cfg.protocol)
    (fun net event _ => net.Meets A Fits event) net events

omit [FloatArith F] [DecidableEq ι] [DecidableEq κ] in
theorem partyCore_init (p : Party ι κ) : cfg.PartyCore p ((Cluster.init (F := F)).state p) := by
  cases p with
  | frontend i => trivial
  | backend k => trivial

-- No run of a cluster leads out of it.
theorem partyCore_run {events : List (ClusterEvent ι κ F)} {net net' : Cluster ι κ F}
    (h : Lib.run (Lib.Network.step cfg.protocol) net events = some net')
    (hnet : ∀ p, cfg.PartyCore p (net.state p)) : ∀ p, cfg.PartyCore p (net'.state p) :=
  Lib.Network.state_run (fun _ _ _ _ _ => partyCore_act) (fun _ _ _ _ => partyCore_receive) h hnet

omit [DecidableEq ι] [DecidableEq κ] in
theorem holds_senders_init : (Cluster.init : Cluster ι κ F).Holds cfg.SenderInv cfg.Authentic where
  state p := by
    cases p with
    | frontend i => trivial
    | backend k => trivial
  sent m hm := by contradiction

omit [DecidableEq ι] [DecidableEq κ] in
theorem holds_init : (Cluster.init : Cluster ι κ F).Holds cfg.PartyInv cfg.Authentic where
  state p := by
    cases p with
    | frontend i => trivial
    | backend k => trivial
  sent m hm := by contradiction

theorem Proceeds.holds {events : List (ClusterEvent ι κ F)} {net net' : Cluster ι κ F}
    (h : cfg.Proceeds Regular net events net') (hdecodes : cfg.theProtobuf.Decodes)
    (hends : Function.Injective cfg.endOf) (hnet : net.Holds cfg.PartyInv cfg.Authentic)
    : net'.Holds cfg.PartyInv cfg.Authentic :=
  (invariant_protocol hdecodes hends).holds_run h.meets h.run hnet

theorem Proceeds.senders {events : List (ClusterEvent ι κ F)} {net net' : Cluster ι κ F}
    (h : cfg.Proceeds Started net events net') (hdecodes : cfg.theProtobuf.Decodes)
    (hnet : net.Holds cfg.SenderInv cfg.Authentic) : net'.Holds cfg.SenderInv cfg.Authentic :=
  (invariant_senders hdecodes).holds_run h.meets h.run hnet

end ClusterConfig

namespace Cluster

open ClusterConfig

variable [DecidableEq ι] [DecidableEq κ]

/--
Where no frontend is started while its reactor shuts down and what is delivered fits into the
buffers, whatever a cluster sends is the request of a frontend, or the reply of a backend to the
frontend whose request it has read, with the number of that request.
-/
theorem authentic_sent (cfg : ClusterConfig ι κ F) (events : List (ClusterEvent ι κ F))
    (net : Cluster ι κ F) (hdecodes : cfg.theProtobuf.Decodes)
    (h : cfg.Proceeds Started init events net)
    : ∀ m ∈ net.sent, cfg.Authentic net.sent m :=
  (h.senders hdecodes holds_senders_init).sent

/--
After a regular run in which what is delivered fits into the buffers, whatever a frontend lists has
been announced to it: by a backend, in a reply to a request of its own, with the number that the
entry carries.
-/
theorem announced_table (cfg : ClusterConfig ι κ F) (events : List (ClusterEvent ι κ F))
    (net : Cluster ι κ F) (i : ι) (loop : EventLoop F) (hdecodes : cfg.theProtobuf.Decodes)
    (hends : Function.Injective cfg.endOf) (h : cfg.Proceeds Regular init events net)
    (hloop : net.frontend i = some loop)
    : cfg.AnnouncesTable net.sent i ⊤ loop.engine.itsServices := by
  have hstate := (h.holds hdecodes hends holds_init).state (.frontend i)
  unfold frontend at hloop
  rw [hloop] at hstate
  exact hstate.table

end Cluster

namespace Sample

open ClusterConfig

-- a number below 2^21 on the wire
def varint (n : Nat) : ByteString :=
  if n < 128 then
    [UInt8.ofNat n]
  else if n < 16384 then
    [UInt8.ofNat (n % 128 + 128), UInt8.ofNat (n / 128)]
  else
    [UInt8.ofNat (n % 128 + 128), UInt8.ofNat (n / 128 % 128 + 128), UInt8.ofNat (n / 16384)]

def readVarint : ByteString → Option (Nat × ByteString)
  | [] => none
  | a :: s =>
    if a.toNat < 128 then
      some (a.toNat, s)
    else
      match s with
      | [] => none
      | b :: s =>
        if b.toNat < 128 then
          some (a.toNat - 128 + 128 * b.toNat, s)
        else
          match s with
          | [] => none
          | c :: s => some (a.toNat - 128 + 128 * (b.toNat - 128) + 16384 * c.toNat, s)

theorem readVarint_varint {n : Nat} (h : n < 2097152) (s : ByteString)
    : readVarint (varint n ++ s) = some (n, s) := by
  unfold varint
  split
  . simp only [List.singleton_append, readVarint, UInt8.toNat_ofNat']
    rw [if_pos (by omega), Nat.mod_eq_of_lt (by omega)]
  . split
    . simp only [List.cons_append, List.nil_append, readVarint, UInt8.toNat_ofNat']
      rw [if_neg (by omega), if_pos (by omega), Option.some.injEq, Prod.mk.injEq]
      refine ⟨?_, rfl⟩
      omega
    . simp only [List.cons_append, List.nil_append, readVarint, UInt8.toNat_ofNat']
      rw [if_neg (by omega), if_neg (by omega), Option.some.injEq, Prod.mk.injEq]
      refine ⟨?_, rfl⟩
      omega

-- what stands on the wire before and after the sequence number of a message
structure Wire where
  message : BroadcastMessage Rat
  head : ByteString
  tail : ByteString
  deriving DecidableEq

-- Protobuf for these messages with any sequence number. Other messages do not fit.
def codec (wires : List Wire) : Protobuf Rat where
  ParseFromString datagram :=
    (wires.find? fun wire => wire.head.isPrefixOf datagram).elim (false, {}) fun wire =>
      match readVarint (datagram.drop wire.head.length) with
      | some (n, rest) =>
        if rest = wire.tail then
          (true, { wire.message with seqnum? := some (Int32.ofInt n) })
        else
          (false, {})
      | none => (false, {})
  SerializeToString message :=
    match wires.find? fun wire => wire.message = { message with seqnum? := none },
        message.seqnum? with
    | some wire, some n =>
      if 0 ≤ n.toInt ∧ n.toInt < 65536 then
        wire.head ++ varint n.toInt.toNat ++ wire.tail
      else
        List.replicate 8193 0
    | _, _ => List.replicate 8193 0

theorem serialize_of_fits {wires : List Wire} {message : BroadcastMessage Rat}
    (h : ((codec wires).SerializeToString message).length ≤ 8192)
    : ∃ wire ∈ wires, ∃ n : Int32, wire.message = { message with seqnum? := none }
        ∧ message.seqnum? = some n ∧ 0 ≤ n.toInt ∧ n.toInt < 65536
        ∧ (codec wires).SerializeToString message
          = wire.head ++ (varint n.toInt.toNat ++ wire.tail) := by
  simp only [codec] at h ⊢
  split at h
  . next wire n hwire hn =>
    split at h
    . next hrange =>
      have hmessage := List.find?_some hwire
      rw [decide_eq_true_eq] at hmessage
      refine ⟨wire, List.mem_of_find?_eq_some hwire, n, hmessage, hn, hrange.1, hrange.2, ?_⟩
      rw [if_pos hrange, List.append_assoc]
    . rw [List.length_replicate] at h
      contradiction
  . rw [List.length_replicate] at h
    contradiction

-- The beginning tells the messages apart.
theorem find?_head {wires : List Wire} {wire : Wire} (hmem : wire ∈ wires)
    (h : ∀ wire ∈ wires, ∀ wire' ∈ wires, wire.head <+: wire'.head → wire = wire') (s : ByteString)
    : wires.find? (fun wire' => wire'.head.isPrefixOf (wire.head ++ s)) = some wire := by
  cases hother : wires.find? fun wire' => wire'.head.isPrefixOf (wire.head ++ s) with
  | none =>
    have hnone := List.find?_eq_none.mp hother wire hmem
    simp at hnone
  | some other =>
    have hmem' := List.mem_of_find?_eq_some hother
    have hprefix := List.find?_some hother
    rw [List.isPrefixOf_iff_prefix] at hprefix
    cases List.prefix_or_prefix_of_prefix hprefix (List.prefix_append wire.head s) with
    | inl hle => rw [h other hmem' wire hmem hle]
    | inr hle => rw [h wire hmem other hmem' hle]

theorem decodes_codec {wires : List Wire}
    (h : ∀ wire ∈ wires, ∀ wire' ∈ wires, wire.head <+: wire'.head → wire = wire')
    : (codec wires).Decodes := by
  intro message _ hfits
  rcases serialize_of_fits hfits with ⟨wire, hmem, n, hmessage, hn, hnonneg, hlt, hserialize⟩
  have hnumber : Int32.ofInt n.toInt.toNat = n := by
    rw [Int.toNat_of_nonneg hnonneg, Int32.ofInt_toInt]
  rw [hserialize]
  simp only [codec]
  rw [find?_head hmem h, Option.elim_some, List.drop_left, readVarint_varint (by omega)]
  simp only [if_true, hnumber, hmessage]
  rw [← hn]

theorem codec_ne_nil {wires : List Wire} (hwires : ∀ wire ∈ wires, wire.head ≠ [])
    (message : BroadcastMessage Rat) : (codec wires).SerializeToString message ≠ [] := by
  have hlong : List.replicate 8193 (0 : UInt8) ≠ [] := by
    rw [ne_eq, List.replicate_eq_nil_iff]
    decide
  simp only [codec]
  split
  . next wire n hfind _ =>
    split
    . simp [hwires wire (List.mem_of_find?_eq_some hfind)]
    . exact hlong
  . exact hlong

def requestWire : Wire where
  message := {
    name? := some (ByteString.lit "a")
    messageType? := some .serviceDiscoveryRequest
  }
  head := [10, 1, 97, 16, 0, 24]
  tail := []

def replyWire : Wire where
  message := { (Engine.new config false).reply Engine.handlers 0 0 with seqnum? := none }
  head := Engine.handlersReply.take 6
  tail := Engine.handlersReply.drop 7

-- one frontend and one backend
def cluster : ClusterConfig Unit Unit Rat where
  frontends _ :=
    { config with
      itsBackendUdpListeners := [ByteString.lit "a:1"]
      itsMaxSkippedCycles := 0 }
  backends _ := config
  endOf
    | .frontend _ => ⟨1, 1⟩
    | .backend _ => ⟨2, 2⟩
  theProtobuf := codec [requestWire, replyWire]

def clusterPlatform : Platform Rat :=
  { platform with
    makeAddressV4 _ := .ok 2
    stoi _ := .ok 2 }

def firstRequest : Datagram := ⟨requestWire.head ++ [1], ⟨1, 1⟩, ⟨2, 2⟩⟩

def firstReply : Datagram := ⟨Engine.handlersReply, ⟨2, 2⟩, ⟨1, 1⟩⟩

-- The backend answers the first request of the frontend.
def firstAnswer : List (ClusterEvent Unit Unit Rat) := [
  .act (.backend ()) (.launch false reactor clusterPlatform (.ok ())),
  .act (.frontend ()) (.launch false reactor clusterPlatform true),
  .deliver (.backend ()) firstRequest,
  .act (.backend ()) (.runHandler 0 Engine.handlers clusterPlatform),
  .deliver (.frontend ()) firstReply,
  .act (.frontend ()) (.event (.runHandler 0, reactor, clusterPlatform))
]

theorem injective_endOf_cluster : Function.Injective cluster.endOf := by
  intro p q hends
  cases p with
  | frontend i =>
    cases q with
    | frontend j => rfl
    | backend k => simp [cluster] at hends
  | backend k =>
    cases q with
    | frontend i => simp [cluster] at hends
    | backend l => rfl

theorem decodes_cluster : cluster.theProtobuf.Decodes := by
  apply decodes_codec
  decide

theorem proceeds_firstAnswer
    : ∃ net loop, cluster.Proceeds Regular Cluster.init firstAnswer net ∧ net.sent.length = 2
        ∧ net.frontend () = some loop ∧ loop.engine.itsServices.itsServicesByURI.size = 2 := by
  have hrun : (Lib.run (Lib.Network.step cluster.protocol) Cluster.init firstAnswer).any
      (fun net => net.sent.length = 2 && (Cluster.frontend net ()).any fun loop =>
        loop.engine.itsServices.itsServicesByURI.size = 2) = true := by
    decide
  rw [Option.any_eq_true] at hrun
  rcases hrun with ⟨net, hnet, hsent⟩
  rw [Bool.and_eq_true, decide_eq_true_eq, Option.any_eq_true] at hsent
  rcases hsent with ⟨hlength, loop, hloop, hsize⟩
  exact ⟨net, loop, ⟨hnet, by decide⟩, hlength, hloop, of_decide_eq_true hsize⟩

end Sample

namespace Cluster

open Sample

theorem authentic_sent_sample
    : ∃ net : Cluster Unit Unit Rat, net.sent.length = 2
        ∧ ∀ m ∈ net.sent, cluster.Authentic net.sent m := by
  rcases proceeds_firstAnswer with ⟨net, _, hproceeds, hlength, _⟩
  refine ⟨net, hlength, ?_⟩
  exact authentic_sent cluster firstAnswer net decodes_cluster ⟨hproceeds.run, by decide⟩

theorem announced_table_sample
    : ∃ (net : Cluster Unit Unit Rat) (loop : EventLoop Rat), net.frontend () = some loop
        ∧ loop.engine.itsServices.itsServicesByURI.size = 2
        ∧ cluster.AnnouncesTable net.sent () ⊤ loop.engine.itsServices := by
  rcases proceeds_firstAnswer with ⟨net, loop, hproceeds, _, hloop, hsize⟩
  refine ⟨net, loop, hloop, hsize, ?_⟩
  apply announced_table cluster firstAnswer net () loop decodes_cluster injective_endOf_cluster
    hproceeds hloop

end Cluster

end Sputnik
