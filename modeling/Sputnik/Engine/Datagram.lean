import Sputnik.Engine.Lemmas

/-!
This module contains what one datagram can do to the engine: which malformed datagrams it ignores,
and which messages stop the service discovery of a frontend.
-/

namespace Sputnik

variable {F : Type}

namespace Engine

theorem discoveryReply_isInitialized (e : Engine F) (theReactor : Reactor) (n port : Int) (load : F)
    (throttle : Int)
    : (e.discoveryReply theReactor n port load throttle).isInitialized = true := by
  simp [discoveryReply, BroadcastMessage.isInitialized, HostInfo.isInitialized,
    ServiceInfo.isInitialized, InfoQuery.isInitialized]

theorem sendDiscoveryReply_ne_nil {e : Engine F} {theReactor : Reactor} {thePlatform : Platform F}
    {theProtobuf : Protobuf F} {theMessageBuffer buffer : ByteString} {n : Int}
    (hserialize : ∀ message, message.isInitialized = true →
      theProtobuf.SerializeToString message ≠ [])
    (hdown : theReactor.isShuttingDown = false)
    (h : e.sendDiscoveryReply theReactor thePlatform theProtobuf theMessageBuffer n = .ok buffer)
    : buffer ≠ [] := by
  simp only [sendDiscoveryReply, hdown, Bool.false_eq_true, if_false, bind, Except.bind] at h
  split at h
  . contradiction
  . split at h
    . contradiction
    . split at h
      . contradiction
      . injection h with h
        rw [← h]
        apply hserialize
        apply discoveryReply_isInitialized

def BackendSilent (e : Engine F) (theReactor : Reactor) (thePlatform : Platform F)
    (theProtobuf : Protobuf F) (bytesTransferred : Nat) : Prop :=
  ∃ e' effects,
    e.handleBackendRead theReactor thePlatform theProtobuf .success bytesTransferred
        = .ok (e', effects)
      ∧ ∀ effect ∈ effects, effect.isSend = false

theorem backendSilent_iff (e : Engine F) (theReactor : Reactor) (thePlatform : Platform F)
    {theProtobuf : Protobuf F} {bytesTransferred : Nat} {parsed : Bool}
    {message : BroadcastMessage F}
    (hserialize : ∀ message, message.isInitialized = true →
      theProtobuf.SerializeToString message ≠ [])
    (hpaused : (e.isPaused thePlatform).1 = false) (hload : theReactor.isLoadHigh = false)
    (h : theProtobuf.ParseFromString (e.itsReceiveBuffer.take bytesTransferred) = (parsed, message))
    : e.BackendSilent theReactor thePlatform theProtobuf bytesTransferred
        ↔
      (theReactor.isShuttingDown = true ∨ message.messageType ≠ .serviceDiscoveryRequest) := by
  have hbuffer : (e.isPaused thePlatform).2.itsReceiveBuffer = e.itsReceiveBuffer := by
    unfold isPaused
    repeat' split
    all_goals rfl
  unfold BackendSilent handleBackendRead
  cases hdown : theReactor.isShuttingDown with
  | true => simp
  | false =>
    simp only [hpaused, hload, hbuffer, h, processRequest, hdown]
    cases htype : message.messageType with
    | serviceDiscoveryRequest =>
      simp only [Bool.false_eq_true, if_false, ne_eq, not_true_eq_false, or_false, iff_false]
      cases hreply : (e.isPaused thePlatform).2.sendDiscoveryReply theReactor thePlatform
          theProtobuf [] message.seqnum with
      | error err => simp [bind, Except.bind]
      | ok buffer =>
        have hne := sendDiscoveryReply_ne_nil hserialize hdown hreply
        simp only [bind, Except.bind, List.isEmpty_iff, hne, if_false]
        split
        all_goals simp [Effect.isSend]
    | _ => simp [bind, Except.bind, startListening, Effect.isSend]

variable [FloatArith F]

theorem handleFrontendRead_success (e : Engine F) (theReactor : Reactor) {theProtobuf : Protobuf F}
    {bytesTransferred : Nat} {parsed : Bool} {message : BroadcastMessage F}
    (h : theProtobuf.ParseFromString (e.itsReceiveBuffer.take bytesTransferred) = (parsed, message))
    : e.handleFrontendRead theReactor theProtobuf .success bytesTransferred
        =
      (e.processReply theReactor message).map fun e => (e, [.asyncReceiveFrom]) := by
  simp only [handleFrontendRead, h]
  cases e.processReply theReactor message with
  | error err => rfl
  | ok e' => rfl

def FrontendIgnores (e : Engine F) (theReactor : Reactor) (theProtobuf : Protobuf F)
    (bytesTransferred : Nat) : Prop :=
  ∃ e' effects,
    e.handleFrontendRead theReactor theProtobuf .success bytesTransferred = .ok (e', effects)
      ∧ e'.itsServices = e.itsServices
      ∧ e'.itsReceivedResponses = e.itsReceivedResponses

theorem frontendIgnores_iff (e : Engine F) (theReactor : Reactor) {theProtobuf : Protobuf F}
    {bytesTransferred : Nat} {parsed : Bool} {message : BroadcastMessage F}
    (h : theProtobuf.ParseFromString (e.itsReceiveBuffer.take bytesTransferred) = (parsed, message))
    : e.FrontendIgnores theReactor theProtobuf bytesTransferred
        ↔
      accepts theReactor message = false := by
  unfold FrontendIgnores
  rw [handleFrontendRead_success e theReactor h]
  cases haccepts : accepts theReactor message with
  | false =>
    rw [processReply_of_not_accepts e haccepts]
    simp [Except.map]
  | true =>
    by_cases hthrottle : message.host.throttle < 0
    . rw [processReply_of_overflow e haccepts hthrottle]
      simp [Except.map]
    . rcases processReply_of_accepts e haccepts (by omega) with ⟨s', _, hreply⟩
      rw [hreply]
      simp [Except.map]

/--
A malformed datagram is ignored by a frontend exactly when what the failed parse leaves is not
accepted as a reply, and by a backend exactly when it does not read as a request.
-/
theorem malformed_ignored_iff (e : Engine F) (theReactor : Reactor) (thePlatform : Platform F)
    (theProtobuf : Protobuf F) (bytesTransferred : Nat) (message : BroadcastMessage F)
    (hserialize : ∀ message, message.isInitialized = true →
      theProtobuf.SerializeToString message ≠ [])
    (hfail : theProtobuf.ParseFromString (e.itsReceiveBuffer.take bytesTransferred)
      = (false, message))
    (hpaused : (e.isPaused thePlatform).1 = false) (hload : theReactor.isLoadHigh = false)
    : (e.FrontendIgnores theReactor theProtobuf bytesTransferred
        ↔
      accepts theReactor message = false)
        ∧
      (e.BackendSilent theReactor thePlatform theProtobuf bytesTransferred
        ↔
      (theReactor.isShuttingDown = true ∨ message.messageType ≠ .serviceDiscoveryRequest)) := by
  constructor
  . apply frontendIgnores_iff e theReactor hfail
  . apply backendSilent_iff e theReactor thePlatform hserialize hpaused hload hfail

def KeepsReceiving (e : Engine F) (theReactor : Reactor) (theProtobuf : Protobuf F)
    (bytesTransferred : Nat) : Prop :=
  ∃ e', e.handleFrontendRead theReactor theProtobuf .success bytesTransferred
    = .ok (e', [.asyncReceiveFrom])

/--
A message that parses keeps the frontend receiving unless it is a reply with a host and a service
that announces a negative throttle.
-/
theorem keepsReceiving_iff (e : Engine F) (theReactor : Reactor) (theProtobuf : Protobuf F)
    (bytesTransferred : Nat) (message : BroadcastMessage F)
    (hdown : theReactor.isShuttingDown = false)
    (hparse : theProtobuf.ParseFromString (e.itsReceiveBuffer.take bytesTransferred)
      = (true, message))
    : e.KeepsReceiving theReactor theProtobuf bytesTransferred
        ↔
      ¬(message.messageType = .serviceDiscoveryReply ∧ message.hasHost = true
        ∧ message.services ≠ [] ∧ message.host.throttle < 0) := by
  unfold KeepsReceiving
  rw [handleFrontendRead_success e theReactor hparse]
  have haccepts : accepts theReactor message = true ↔ _ := accepts_eq_true_iff
  cases hcase : accepts theReactor message with
  | false =>
    rw [processReply_of_not_accepts e hcase]
    simp only [hcase, hdown, Bool.false_eq_true, true_and, false_iff, not_and] at haccepts
    simp only [Except.map, Except.ok.injEq, Prod.mk.injEq, and_true, exists_eq', not_and, true_iff]
    intro htype hhost hservices
    exact absurd hservices (haccepts htype hhost)
  | true =>
    rcases haccepts.mp hcase with ⟨_, htype, hhost, hservices⟩
    by_cases hthrottle : message.host.throttle < 0
    . rw [processReply_of_overflow e hcase hthrottle]
      simp [Except.map, htype, hhost, hservices, hthrottle]
    . rcases processReply_of_accepts e hcase (by omega) with ⟨s', _, hreply⟩
      rw [hreply]
      simp [Except.map, hthrottle]

section Sample

open Sample

def emptyReply : ByteString :=
  [10, 1, 97, 16, 1, 24, 0, 34, 14, 10, 0, 16, 144, 63, 26, 0, 37, 0, 0, 0, 0, 40, 0]

-- a reply with its host and its service, but without the required sequence number
def truncatedReply : ByteString :=
  [10, 1, 97, 16, 1, 34, 11, 10, 0, 16, 80, 26, 0, 37, 0, 0, 0, 0, 66, 7, 10, 1, 47, 16, 0, 32, 0]

def malformedProtobuf : Protobuf Rat where
  ParseFromString datagram :=
    if datagram = truncatedReply then (false, reply "a" "/" none none) else (false, {})
  SerializeToString _ := emptyReply

theorem malformed_ignored_iff_sample
    : (received []).FrontendIgnores reactor malformedProtobuf 0
        ∧ ¬(received []).BackendSilent reactor platform malformedProtobuf 0 := by
  have hsample := malformed_ignored_iff (received []) reactor platform malformedProtobuf 0 {}
    (by simp [malformedProtobuf, emptyReply]) rfl rfl rfl
  constructor
  . rw [hsample.1]
    rfl
  . rw [hsample.2]
    decide

theorem not_malformed_ignored
    : ¬∀ (e : Engine Rat) (theReactor : Reactor) (thePlatform : Platform Rat)
        (theProtobuf : Protobuf Rat) (bytesTransferred : Nat) (message : BroadcastMessage Rat),
        (∀ message, message.isInitialized = true →
          theProtobuf.SerializeToString message ≠ []) →
          theProtobuf.ParseFromString (e.itsReceiveBuffer.take bytesTransferred)
              = (false, message) →
            (e.isPaused thePlatform).1 = false → theReactor.isLoadHigh = false →
              e.FrontendIgnores theReactor theProtobuf bytesTransferred
                ∧ e.BackendSilent theReactor thePlatform theProtobuf bytesTransferred := by
  intro h
  rcases h (received truncatedReply) reactor platform
    malformedProtobuf 27 _ (by simp [malformedProtobuf, emptyReply]) rfl rfl rfl
    with ⟨⟨e', effects, hread, _, hcount⟩, _⟩
  injection hread with hread
  injection hread with hread
  rw [← hread] at hcount
  revert hcount
  decide

-- a well-formed reply that announces the throttle -1
def negativeThrottle : ByteString :=
  [10, 1, 97, 16, 1, 24, 1, 34, 22, 10, 0, 16, 80, 26, 0, 37, 0, 0, 0, 0, 40, 255, 255, 255, 255,
    255, 255, 255, 255, 255, 1, 66, 7, 10, 1, 47, 16, 0, 32, 0]

def negativeThrottleProtobuf : Protobuf Rat where
  ParseFromString datagram :=
    if datagram = negativeThrottle then (true, reply "a" "/" (some 1) (some (-1))) else (false, {})
  SerializeToString _ := negativeThrottle

theorem keepsReceiving_iff_sample
    : ¬(received negativeThrottle).KeepsReceiving reactor negativeThrottleProtobuf 40 := by
  rw [keepsReceiving_iff (received negativeThrottle) reactor negativeThrottleProtobuf 40 _ rfl rfl]
  decide

theorem not_keepsReceiving_negativeThrottle
    : ¬∀ (e : Engine Rat) (theReactor : Reactor) (theProtobuf : Protobuf Rat)
        (bytesTransferred : Nat) (message : BroadcastMessage Rat),
        theReactor.isShuttingDown = false →
          theProtobuf.ParseFromString (e.itsReceiveBuffer.take bytesTransferred)
              = (true, message) →
            e.KeepsReceiving theReactor theProtobuf bytesTransferred := by
  intro h
  rcases h (received negativeThrottle) reactor negativeThrottleProtobuf 40 _ rfl rfl
    with ⟨e', hread⟩
  have herror : Except.error Error.negativeOverflow = Except.ok (e', [Effect.asyncReceiveFrom]) :=
    hread
  contradiction

end Sample

end Engine

end Sputnik
