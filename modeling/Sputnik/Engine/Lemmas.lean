import Sputnik.Engine.Impl
import Sputnik.Lib.Run

/-!
This module contains what `processReply` does to the routing table, as a sequence of operations of
the table.
-/

namespace Sputnik

variable {F : Type}

theorem numericCastUnsigned_of_nonneg {i : Int} (h : 0 ≤ i)
    : numericCastUnsigned i = .ok (UInt32.ofNat i.toNat) := by
  unfold numericCastUnsigned
  split
  . omega
  . rfl

theorem numericCastUnsigned_of_neg {i : Int} (h : i < 0)
    : numericCastUnsigned i = .error .negativeOverflow := by
  simp [numericCastUnsigned, h]

theorem numericCastInt_of_le {n : UInt32} (h : n.toNat ≤ 2147483647)
    : numericCastInt n = .ok (n.toNat : Int) := by
  unfold numericCastInt
  split
  . omega
  . rfl

theorem numericCastInt_of_lt {n : UInt32} (h : n.toNat < 65535)
    : numericCastInt n = .ok (n.toNat : Int) := by
  apply numericCastInt_of_le
  omega

namespace Engine

def armed (e : Engine F) : List Effect :=
  [.asyncReceiveFrom, .expiresAfter e.itsHeartBeatTimeout, .asyncWait]

def accepts (theReactor : Reactor) (theMessage : BroadcastMessage F) : Bool :=
  !theReactor.isShuttingDown && theMessage.messageType = .serviceDiscoveryReply
    && theMessage.hasHost && !theMessage.services.isEmpty

theorem accepts_eq_true_iff {theReactor : Reactor} {theMessage : BroadcastMessage F}
    : accepts theReactor theMessage = true
        ↔
      theReactor.isShuttingDown = false ∧ theMessage.messageType = .serviceDiscoveryReply
        ∧ theMessage.hasHost = true ∧ theMessage.services ≠ [] := by
  simp [accepts, and_assoc]

theorem isSend_sendRequests {thePlatform : Platform F} {theRequestBuffer : ByteString}
    {l : List ByteString} {k : Nat} {effects : List Effect} {result : Except Error Unit}
    (h : sendRequests thePlatform theRequestBuffer l k = (effects, result))
    : ∀ effect ∈ effects, effect.isSend = true := by
  induction l generalizing k effects result with
  | nil =>
    injection h with heffects
    simp [← heffects]
  | cons st l ih =>
    unfold sendRequests at h
    split at h
    . dsimp at h
      split at h
      . injection h with heffects
        simp [← heffects]
      . injection h with heffects
        simp [← heffects]
      . split at h
        . injection h with heffects
          simp [← heffects, Effect.isSend]
        . injection h with heffects
          rw [← heffects, List.forall_mem_cons]
          exact ⟨rfl, ih rfl⟩
    . apply ih h

def nextCycle (e : Engine F) : Engine F :=
  { e with itsFrontendSequence := (e.itsFrontendSequence + 1) % 65535 }

def requestBuffer (e : Engine F) (theReactor : Reactor) (theProtobuf : Protobuf F) : ByteString :=
  e.nextCycle.sendDiscoveryRequest theReactor theProtobuf [] e.nextCycle.itsFrontendSequence.toNat

theorem startServiceDiscovery_eq (e : Engine F) (theReactor : Reactor) (thePlatform : Platform F)
    (theProtobuf : Protobuf F)
    : e.startServiceDiscovery theReactor thePlatform theProtobuf
        =
      let sent := sendRequests thePlatform (e.requestBuffer theReactor theProtobuf)
        e.itsBackendUdpListeners 0
      if sent.2 = .ok () ∨ sent.2 = .error .systemError then
        .ok (e.nextCycle, sent.1 ++ e.armed)
      else
        sent.2.map fun _ => (e, []) := by
  have hseq : ((e.itsFrontendSequence + 1) % 65535).toNat < 65535 := by
    rw [UInt32.toNat_mod]
    apply Nat.mod_lt
    decide
  generalize hsent : sendRequests thePlatform (e.requestBuffer theReactor theProtobuf)
    e.itsBackendUdpListeners 0 = sent
  unfold requestBuffer nextCycle at hsent
  dsimp at hsent
  simp only [startServiceDiscovery, numericCastInt_of_lt hseq, bind, Except.bind, hsent]
  split
  . simp [nextCycle, armed]
  . simp [nextCycle, armed]
  . next effects err hsystem =>
    have hne : err ≠ .systemError := hsystem
    simp [hne, Except.map]

theorem startServiceDiscovery_eq_ok {e e' : Engine F} {theReactor : Reactor}
    {thePlatform : Platform F} {theProtobuf : Protobuf F} {effects : List Effect}
    (h : e.startServiceDiscovery theReactor thePlatform theProtobuf = .ok (e', effects))
    : e' = { e with itsFrontendSequence := (e.itsFrontendSequence + 1) % 65535 }
        ∧ ∃ sends, effects = sends ++ e.armed ∧ ∀ effect ∈ sends, effect.isSend = true := by
  rw [startServiceDiscovery_eq] at h
  dsimp at h
  split at h
  . injection h with h
    injection h with he heffects
    exact ⟨he.symm, _, heffects.symm, isSend_sendRequests rfl⟩
  . next hfails =>
    rw [not_or] at hfails
    cases hresult : (sendRequests thePlatform (e.requestBuffer theReactor theProtobuf)
        e.itsBackendUdpListeners 0).2 with
    | error err =>
      rw [hresult] at h
      contradiction
    | ok result => exact absurd hresult hfails.1

variable [FloatArith F]

def replyThrottle (theMessage : BroadcastMessage F) : UInt32 :=
  UInt32.ofNat theMessage.host.throttle.toNat

def serviceOps (theReactor : Reactor) (theMessage : BroadcastMessage F) (service : ServiceInfo)
    : List (ServicesOp F) :=
  let throttle := replyThrottle theMessage
  let theService := replyService theMessage (replyServer theMessage throttle) service
  [
    .addService theReactor theService service.uri theMessage.host.load throttle,
    .addService theReactor theService (directURI theMessage service.uri) theMessage.host.load
      throttle
  ]

def infoOp (theMessage : BroadcastMessage F) (infoQuery : InfoQuery) : ServicesOp F :=
  .addBackendInfoRequest
    (replyInfoRequest theMessage (replyServer theMessage (replyThrottle theMessage)) infoQuery)

def replyOps (theReactor : Reactor) (theMessage : BroadcastMessage F) : List (ServicesOp F) :=
  theMessage.services.flatMap (serviceOps theReactor theMessage)
    ++ theMessage.infoQuery.map (infoOp theMessage)

theorem mem_replyOps_iff {theReactor : Reactor} {theMessage : BroadcastMessage F}
    {op : ServicesOp F}
    : op ∈ replyOps theReactor theMessage
        ↔
      (∃ service ∈ theMessage.services, ∃ uri,
          (uri = service.uri ∨ uri = directURI theMessage service.uri)
            ∧ op = .addService theReactor
              (replyService theMessage (replyServer theMessage (replyThrottle theMessage)) service)
              uri theMessage.host.load (replyThrottle theMessage))
        ∨ ∃ infoQuery ∈ theMessage.infoQuery, op = infoOp theMessage infoQuery := by
  simp only [replyOps, serviceOps, List.mem_append, List.mem_flatMap, List.mem_map, List.mem_cons,
    List.not_mem_nil, or_false]
  constructor
  . rintro (⟨service, hservice, hop | hop⟩ | ⟨infoQuery, hinfo, hop⟩)
    . exact .inl ⟨service, hservice, _, .inl rfl, hop⟩
    . exact .inl ⟨service, hservice, _, .inr rfl, hop⟩
    . exact .inr ⟨infoQuery, hinfo, hop.symm⟩
  . rintro (⟨service, hservice, uri, huri | huri, hop⟩ | ⟨infoQuery, hinfo, hop⟩)
    . rw [huri] at hop
      exact .inl ⟨service, hservice, .inl hop⟩
    . rw [huri] at hop
      exact .inl ⟨service, hservice, .inr hop⟩
    . exact .inr ⟨infoQuery, hinfo, hop.symm⟩

theorem mem_replyOps {theReactor : Reactor} {theMessage : BroadcastMessage F} {op : ServicesOp F}
    (hop : op ∈ replyOps theReactor theMessage)
    : (∃ service ∈ theMessage.services, ∃ uri, op = .addService theReactor
          (replyService theMessage (replyServer theMessage (replyThrottle theMessage)) service) uri
          theMessage.host.load (replyThrottle theMessage))
        ∨ ∃ infoQuery, op = infoOp theMessage infoQuery := by
  rcases mem_replyOps_iff.mp hop with ⟨service, hservice, uri, _, heq⟩ | ⟨infoQuery, _, heq⟩
  . exact .inl ⟨service, hservice, uri, heq⟩
  . exact .inr ⟨infoQuery, heq⟩

theorem add_of_mem_replyOps {theReactor theReactor' : Reactor} {theMessage : BroadcastMessage F}
    {service : BackendService F} {k : ByteString} {theLoad : F} {theThrottle : UInt32}
    (hadd : .addService theReactor' service k theLoad theThrottle
      ∈ replyOps theReactor theMessage)
    : theLoad = theMessage.host.load
        ∧ ∃ info ∈ theMessage.services, service = replyService theMessage
          (replyServer theMessage (replyThrottle theMessage)) info := by
  cases mem_replyOps hadd with
  | inl hservice =>
    rcases hservice with ⟨info, hinfo, uri, heq⟩
    injection heq with _ hservice _ hload
    exact ⟨hload, info, hinfo, hservice⟩
  | inr hinfo =>
    rcases hinfo with ⟨infoQuery, heq⟩
    contradiction

theorem processReply_of_not_accepts (e : Engine F) {theReactor : Reactor}
    {theMessage : BroadcastMessage F} (h : accepts theReactor theMessage = false)
    : e.processReply theReactor theMessage = .ok e := by
  unfold processReply
  repeat
    split
    . rfl
  next hdown htype hrequired =>
    simp_all [accepts]

theorem foldlM_processReplyService (theReactor : Reactor) {theMessage : BroadcastMessage F}
    (hthrottle : 0 ≤ theMessage.host.throttle) (l : List ServiceInfo) (s : Services F)
    : ∃ s', l.foldlM (processReplyService theReactor theMessage
          (replyServer theMessage (replyThrottle theMessage))) s = .ok s'
        ∧ Lib.run Services.step s (l.flatMap (serviceOps theReactor theMessage)) = some s' := by
  induction l generalizing s with
  | nil => exact ⟨s, rfl, rfl⟩
  | cons service l ih =>
    rw [List.foldlM_cons, processReplyService, numericCastUnsigned_of_nonneg hthrottle]
    apply ih

theorem foldl_addBackendInfoRequest (theMessage : BroadcastMessage F) (l : List InfoQuery)
    (s : Services F)
    : ∃ s', l.foldl (fun itsServices infoQuery => itsServices.addBackendInfoRequest
          (replyInfoRequest theMessage (replyServer theMessage (replyThrottle theMessage))
            infoQuery)) s = s'
        ∧ Lib.run Services.step s (l.map (infoOp theMessage)) = some s' := by
  induction l generalizing s with
  | nil => exact ⟨s, rfl, rfl⟩
  | cons infoQuery l ih => apply ih

theorem processReply_of_accepts (e : Engine F) {theReactor : Reactor}
    {theMessage : BroadcastMessage F} (h : accepts theReactor theMessage = true)
    (hthrottle : 0 ≤ theMessage.host.throttle)
    : ∃ s', Lib.run Services.step e.itsServices (replyOps theReactor theMessage) = some s'
        ∧ e.processReply theReactor theMessage
          = .ok { e with itsServices := s', itsReceivedResponses := e.itsReceivedResponses + 1 } := by
  rcases accepts_eq_true_iff.mp h with ⟨hdown, htype, hhost, hservices⟩
  rcases foldlM_processReplyService theReactor hthrottle theMessage.services
    e.itsServices with ⟨s', hfold, hrun⟩
  rcases foldl_addBackendInfoRequest theMessage theMessage.infoQuery s' with ⟨t, hfoldl, hinfo⟩
  refine ⟨t, ?_, ?_⟩
  . unfold replyOps
    rw [Lib.run_append, hrun, Option.bind_some, hinfo]
  . unfold replyThrottle at hfold hfoldl
    simp [processReply, hdown, htype, hhost, hservices, numericCastUnsigned_of_nonneg hthrottle,
      bind, Except.bind, hfold, hfoldl]

theorem processReply_of_overflow (e : Engine F) {theReactor : Reactor}
    {theMessage : BroadcastMessage F} (h : accepts theReactor theMessage = true)
    (hthrottle : theMessage.host.throttle < 0)
    : e.processReply theReactor theMessage = .error .negativeOverflow := by
  rcases accepts_eq_true_iff.mp h with ⟨hdown, htype, hhost, hservices⟩
  simp [processReply, hdown, htype, hhost, hservices, numericCastUnsigned_of_neg hthrottle, bind,
    Except.bind]

/-! The heartbeat -/

theorem handleDeadlineTimer_eq_ok {e e' : Engine F} {theReactor : Reactor}
    {thePlatform : Platform F} {theProtobuf : Protobuf F} {err : ErrorCode} {effects : List Effect}
    (herr : err ≠ .operationAborted)
    (h : e.handleDeadlineTimer theReactor thePlatform theProtobuf err = .ok (e', effects))
    : ∃ e₁, e.cleanServices theReactor = .ok e₁
        ∧ if theReactor.isShuttingDown then
            e' = { e₁ with itsReceivedResponses := 0 } ∧ effects = [.cancel]
          else
            e' = { e₁ with
                itsReceivedResponses := 0
                itsFrontendSequence := (e₁.itsFrontendSequence + 1) % 65535 }
              ∧ ∃ sends, effects = .cancel :: (sends ++ e'.armed)
                ∧ ∀ effect ∈ sends, effect.isSend = true := by
  simp only [handleDeadlineTimer, herr, if_false, bind, Except.bind] at h
  split at h
  . contradiction
  . next e₁ hclean =>
    refine ⟨e₁, hclean, ?_⟩
    split at h
    . next hdown =>
      injection h with h
      injection h with he heffects
      rw [if_pos hdown]
      exact ⟨he.symm, heffects.symm⟩
    . next hdown =>
      rw [if_neg hdown]
      split at h
      . contradiction
      . next started hstart =>
        rcases startServiceDiscovery_eq_ok hstart with ⟨he, sends, heffects, hsends⟩
        injection h with h
        injection h with he' heffects'
        rw [← he', ← heffects', he, heffects]
        exact ⟨rfl, sends, rfl, hsends⟩

end Engine

end Sputnik
