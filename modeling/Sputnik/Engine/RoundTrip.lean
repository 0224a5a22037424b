import Sputnik.Engine.Datagram
import Sputnik.Services.Lemmas

/-!
This module contains the discovery round trip: what the reply that a backend builds adds to the
table of the frontend that reads it.
-/

namespace Sputnik

variable {F : Type} [FloatArith F]

theorem toInt_ofInt_toNat {n : UInt32} (h : n.toNat ≤ 2147483647)
    : (Int32.ofInt n.toNat).toInt = n.toNat := by
  apply Int32.toInt_ofInt_of_le
  . omega
  . omega

namespace Engine

/-! What the backend announces -/

variable (b : Engine F) (theReactor : Reactor) (load : F) (n : Int32)

def announcedServer : BackendServer F where
  itsName := b.itsHostname
  itsIP := b.itsHttpAddress
  itsPort := b.itsHttpPort.toNat
  itsComment := b.itsComment
  itsLoad := load
  itsThrottle := b.itsThrottleLimit

def announcedService (uri : ByteString) : BackendService F where
  itsBackendServer := b.announcedServer load
  itsURI := uri
  itsLastUpdate := 0
  itsAllowCache := false
  itsSequenceNumber := n.toInt
  definesPrefix := theReactor.isURIPrefix uri

def announcedInfoRequest (name : ByteString) : BackendInfoRequest F where
  itsBackend := b.announcedServer load
  itsName := name
  itsLastUpdate := 0
  itsSequenceNumber := n.toInt

def hostURI (uri : ByteString) : ByteString := ByteString.lit "/" ++ b.itsHostname ++ uri

def announcedUnder (k uri : ByteString) : List (BackendService F) :=
  (if uri = k then [b.announcedService theReactor load n uri] else [])
    ++ if b.hostURI uri = k then [b.announcedService theReactor load n uri] else []

/-
What the reply changes at a frontend `e`: every list, registration and info request gains what the
backend announces, and nothing else changes.
-/
structure Announced (e e' : Engine F) : Prop where
  engine : e' = { e with
    itsServices := e'.itsServices
    itsReceivedResponses := e.itsReceivedResponses + 1 }
  services : ∀ k, e'.itsServices.serviceList k
    = e.itsServices.serviceList k
      ++ theReactor.getURIMap.flatMap (b.announcedUnder theReactor load n k)
  otherKeys : ∀ k : ByteString, (∀ uri ∈ theReactor.getURIMap, uri ≠ k ∧ b.hostURI uri ≠ k) →
    e'.itsServices.itsServicesByURI[k]? = e.itsServices.itsServicesByURI[k]?
  prefixes : ∀ p id, e'.itsServices.itsPrefixMap.Registered p id
    ↔ e.itsServices.itsPrefixMap.Registered p id
      ∨ ∃ uri ∈ theReactor.getURIMap, theReactor.isURIPrefix uri = true
        ∧ (p = uri ∨ p = b.hostURI uri)
        ∧ id = backendServiceId (b.announcedService theReactor load n uri)
  infoRequests : ∀ name, e'.itsServices.infoRequests name
    = e.itsServices.infoRequests name
      ++ (theReactor.getAdminRequestNames.filter fun other => other = name).map
        (b.announcedInfoRequest load n)
  otherNames : ∀ name ∉ theReactor.getAdminRequestNames,
    e'.itsServices.itsBackendInfoRequests[name]? = e.itsServices.itsBackendInfoRequests[name]?
  ownSentinel : e'.itsServices.itsSentinels[sentinelName b.itsHostname b.itsHttpPort.toNat]?
    = some { itsThrottle := b.itsThrottleLimit }
  otherSentinels : ∀ k, k ≠ sentinelName b.itsHostname b.itsHttpPort.toNat →
    e'.itsServices.itsSentinels[k]? = e.itsServices.itsSentinels[k]?

def announcedOps (atFrontend : Reactor) : List (ServicesOp F) :=
  theReactor.getURIMap.flatMap (fun uri =>
    let service := b.announcedService theReactor load n uri
    [
      .addService atFrontend service uri load b.itsThrottleLimit,
      .addService atFrontend service (b.hostURI uri) load b.itsThrottleLimit
    ])
  ++ theReactor.getAdminRequestNames.map fun name =>
    .addBackendInfoRequest (b.announcedInfoRequest load n name)

section AnnouncedOps

variable {b theReactor load n} {atFrontend : Reactor}

omit [FloatArith F] in
theorem mem_announcedOps {op : ServicesOp F}
    : op ∈ b.announcedOps theReactor load n atFrontend
        ↔
      (∃ uri ∈ theReactor.getURIMap, ∃ k, (k = uri ∨ k = b.hostURI uri)
          ∧ op = .addService atFrontend (b.announcedService theReactor load n uri) k load
            b.itsThrottleLimit)
        ∨ ∃ name ∈ theReactor.getAdminRequestNames,
          op = .addBackendInfoRequest (b.announcedInfoRequest load n name) := by
  simp only [announcedOps, List.mem_append, List.mem_flatMap, List.mem_map, List.mem_cons,
    List.not_mem_nil, or_false]
  constructor
  . rintro (⟨uri, huri, rfl | rfl⟩ | ⟨name, hname, rfl⟩)
    . exact .inl ⟨uri, huri, uri, .inl rfl, rfl⟩
    . exact .inl ⟨uri, huri, b.hostURI uri, .inr rfl, rfl⟩
    . exact .inr ⟨name, hname, rfl⟩
  . rintro (⟨uri, huri, k, rfl | rfl, rfl⟩ | ⟨name, hname, rfl⟩)
    . exact .inl ⟨k, huri, .inl rfl⟩
    . exact .inl ⟨uri, huri, .inr rfl⟩
    . exact .inr ⟨name, hname, rfl⟩

omit [FloatArith F] in
theorem grows_announcedOps
    : ∀ op ∈ b.announcedOps theReactor load n atFrontend, op.grows = true := by
  intro op hop
  rcases mem_announcedOps.mp hop with ⟨_, _, _, _, rfl⟩ | ⟨_, _, rfl⟩
  . rfl
  . rfl

omit [FloatArith F] in
theorem appended_announcedOps (k : ByteString)
    : (b.announcedOps theReactor load n atFrontend).flatMap (Services.appended k)
        =
      theReactor.getURIMap.flatMap (b.announcedUnder theReactor load n k) := by
  have hinfo : ∀ names : List ByteString, (names.map fun name =>
      (ServicesOp.addBackendInfoRequest (b.announcedInfoRequest load n name) :
        ServicesOp F)).flatMap (Services.appended k) = [] := by
    intro names
    simp [List.flatMap_eq_nil_iff, Services.appended]
  rw [announcedOps, List.flatMap_append, hinfo, List.append_nil, List.flatMap_assoc]
  congr 1
  funext uri
  simp [Services.appended, announcedUnder]

omit [FloatArith F] in
theorem appendedInfo_announcedOps (name : ByteString)
    : (b.announcedOps theReactor load n atFrontend).flatMap (Services.appendedInfo name)
        =
      (theReactor.getAdminRequestNames.filter fun other => other = name).map
        (b.announcedInfoRequest load n) := by
  have hservices : ∀ uris : List ByteString, (uris.flatMap fun uri =>
      ([.addService atFrontend (b.announcedService theReactor load n uri) uri load
          b.itsThrottleLimit,
        .addService atFrontend (b.announcedService theReactor load n uri) (b.hostURI uri) load
          b.itsThrottleLimit] : List (ServicesOp F))).flatMap (Services.appendedInfo name)
      = [] := by
    intro uris
    simp [List.flatMap_assoc, Services.appendedInfo]
  rw [announcedOps, List.flatMap_append, hservices, List.nil_append, List.flatMap_map]
  induction theReactor.getAdminRequestNames with
  | nil => rfl
  | cons other names ih =>
    rw [List.flatMap_cons, ih, List.filter_cons]
    by_cases hname : other = name
    . simp [Services.appendedInfo, announcedInfoRequest, hname]
    . simp [Services.appendedInfo, announcedInfoRequest, hname]

omit [FloatArith F] in
theorem registers_announcedOps (p id : ByteString)
    : (∃ op ∈ b.announcedOps theReactor load n atFrontend, Services.Registers p id op)
        ↔
      ∃ uri ∈ theReactor.getURIMap, theReactor.isURIPrefix uri = true
        ∧ (p = uri ∨ p = b.hostURI uri)
        ∧ id = backendServiceId (b.announcedService theReactor load n uri) := by
  constructor
  . rintro ⟨op, hop, hregisters⟩
    rcases mem_announcedOps.mp hop with ⟨uri, huri, k, hk, rfl⟩ | ⟨_, _, rfl⟩
    . rcases hregisters with ⟨hdefines, hp, hid⟩
      rw [hp]
      exact ⟨uri, huri, hdefines, hk, hid⟩
    . contradiction
  . rintro ⟨uri, huri, hdefines, hp, hid⟩
    exact ⟨_, mem_announcedOps.mpr (.inl ⟨uri, huri, p, hp, rfl⟩), hdefines, rfl, hid⟩

end AnnouncedOps

/-! The reply as the frontend reads it -/

def reply : BroadcastMessage F :=
  b.discoveryReply theReactor n.toInt b.itsHttpPort.toNat load b.itsThrottleLimit.toNat

section Reply

variable {b theReactor load n} (hport : b.itsHttpPort.toNat ≤ 2147483647)
  (hthrottle : b.itsThrottleLimit.toNat ≤ 2147483647)

omit [FloatArith F] in
include hthrottle in
theorem throttle_reply : (b.reply theReactor load n).host.throttle = b.itsThrottleLimit.toNat := by
  apply toInt_ofInt_toNat hthrottle

omit [FloatArith F] in
include hthrottle in
theorem replyThrottle_reply : replyThrottle (b.reply theReactor load n) = b.itsThrottleLimit := by
  unfold replyThrottle
  rw [throttle_reply hthrottle]
  simp

include hport hthrottle in
theorem replyServer_reply
    : replyServer (b.reply theReactor load n) (replyThrottle (b.reply theReactor load n))
        =
      b.announcedServer load := by
  have hportReply : (b.reply theReactor load n).host.port = b.itsHttpPort.toNat :=
    toInt_ofInt_toNat hport
  unfold replyServer announcedServer
  rw [replyThrottle_reply hthrottle, hportReply]
  rfl

include hport hthrottle in
theorem replyOps_reply (atFrontend : Reactor)
    : replyOps atFrontend (b.reply theReactor load n)
        =
      b.announcedOps theReactor load n atFrontend := by
  have hseq : (b.reply theReactor load n).seqnum = n.toInt := by
    change (Int32.ofInt n.toInt).toInt = n.toInt
    rw [Int32.ofInt_toInt]
  have hservices : (b.reply theReactor load n).services = theReactor.getURIMap.map fun uri =>
    {
      uri? := some uri
      lastupdate? := some 0
      allowcache? := some false
      isPrefix? := some (theReactor.isURIPrefix uri)
    } := rfl
  have hinfoQuery : (b.reply theReactor load n).infoQuery
      = theReactor.getAdminRequestNames.map fun name =>
        { name? := some name, lastupdate? := some 0 } := rfl
  unfold replyOps announcedOps
  rw [hservices, hinfoQuery, List.flatMap_map, List.map_map]
  congr 1
  . congr 1
    funext uri
    unfold serviceOps replyService
    dsimp only
    rw [replyServer_reply hport hthrottle, hseq, replyThrottle_reply hthrottle]
    rfl
  . congr 1
    funext name
    simp only [Function.comp_apply, infoOp, replyInfoRequest]
    rw [replyServer_reply hport hthrottle, hseq]
    rfl

end Reply

theorem itsSentinels_step_announcedOps {b : Engine F} {theReactor atFrontend : Reactor} {load : F}
    {n : Int32} {s s' : Services F} {op : ServicesOp F}
    (hop : op ∈ b.announcedOps theReactor load n atFrontend) (hstep : s.step op = some s')
    : s'.itsSentinels[sentinelName b.itsHostname b.itsHttpPort.toNat]?
        =
      if op.server?.isSome then
        some { itsThrottle := b.itsThrottleLimit }
      else
        s.itsSentinels[sentinelName b.itsHostname b.itsHttpPort.toNat]? := by
  rcases mem_announcedOps.mp hop with ⟨uri, _, k, _, rfl⟩ | ⟨name, _, rfl⟩
  . rw [← Option.some.inj hstep, Services.itsSentinels_addService]
    exact if_pos rfl
  . rw [← Option.some.inj hstep]
    rfl

theorem ownSentinel_run {b : Engine F} {theReactor atFrontend : Reactor} {load : F} {n : Int32}
    {s s' : Services F} (hhandlers : theReactor.getURIMap ≠ [])
    (hrun : Lib.run Services.step s (b.announcedOps theReactor load n atFrontend) = some s')
    : s'.itsSentinels[sentinelName b.itsHostname b.itsHttpPort.toNat]?
        =
      some { itsThrottle := b.itsThrottleLimit } := by
  obtain ⟨first, rest, hops, hfirst⟩ : ∃ first rest,
      b.announcedOps theReactor load n atFrontend = first :: rest
        ∧ first.server?.isSome = true := by
    unfold announcedOps
    cases h : theReactor.getURIMap with
    | nil => contradiction
    | cons uri uris => exact ⟨_, _, rfl, rfl⟩
  have hmem : ∀ op ∈ first :: rest, op ∈ b.announcedOps theReactor load n atFrontend := by
    intro op hop
    rwa [hops]
  rw [hops] at hrun
  rcases Lib.run_cons_eq_some.mp hrun with ⟨s₁, hstep, hrest⟩
  have hs₁ := itsSentinels_step_announcedOps (hmem first List.mem_cons_self) hstep
  rw [if_pos hfirst] at hs₁
  apply Lib.run_invariant (P := fun t =>
    t.itsSentinels[sentinelName b.itsHostname b.itsHttpPort.toNat]?
      = some { itsThrottle := b.itsThrottleLimit }) _ hs₁ hrest
  intro t op t' hop ht hstep
  rw [itsSentinels_step_announcedOps (hmem op (List.mem_cons_of_mem first hop)) hstep, ht]
  split
  . rfl
  . rfl

theorem announced_run {b e : Engine F} {theReactor atFrontend : Reactor} {load : F} {n : Int32}
    {s' : Services F} (hhandlers : theReactor.getURIMap ≠ [])
    (hrun : Lib.run Services.step e.itsServices (b.announcedOps theReactor load n atFrontend)
      = some s')
    : b.Announced theReactor load n e
        { e with itsServices := s', itsReceivedResponses := e.itsReceivedResponses + 1 } where
  engine := rfl
  services := by
    intro k
    dsimp
    rw [Services.serviceList_run_append hrun
      (fun op hop => ServicesOp.stale_of_grows (grows_announcedOps op hop)),
      appended_announcedOps]
  otherKeys := by
    intro k hk
    apply Services.getElem?_run_of_appended_nil hrun grows_announcedOps
    rw [appended_announcedOps, List.flatMap_eq_nil_iff]
    intro uri huri
    simp [announcedUnder, hk uri huri]
  prefixes := by
    intro p id
    dsimp
    rw [Services.registered_run hrun grows_announcedOps, registers_announcedOps]
  infoRequests := by
    intro name
    dsimp
    rw [Services.infoRequests_run_append hrun grows_announcedOps, appendedInfo_announcedOps]
  otherNames := by
    intro name hname
    apply Services.itsBackendInfoRequests_run_of_appendedInfo_nil hrun grows_announcedOps
    rw [appendedInfo_announcedOps, List.map_eq_nil_iff, List.filter_eq_nil_iff]
    intro other hother heq
    rw [of_decide_eq_true heq] at hother
    contradiction
  ownSentinel := ownSentinel_run hhandlers hrun
  otherSentinels := by
    intro k hk
    apply Services.itsSentinels_run_of_ne hrun _ hk
    intro op hop
    refine ⟨grows_announcedOps op hop, ?_⟩
    intro server hserver
    rcases mem_announcedOps.mp hop with ⟨_, _, _, _, rfl⟩ | ⟨_, _, rfl⟩
    . rw [← Option.some.inj hserver]
      rfl
    . contradiction

omit [FloatArith F] in
theorem reply_isInitialized {b : Engine F} {theReactor : Reactor} {load : F} {n : Int32}
    : (b.reply theReactor load n).isInitialized = true := by
  apply discoveryReply_isInitialized

/--
The reply that a backend sends makes the frontend that reads it list, register and request exactly
what the backend announces.
-/
theorem discovery_roundTrip (b : Engine F) (theReactor : Reactor) (thePlatform : Platform F)
    (theProtobuf : Protobuf F) (theMessageBuffer : ByteString) (n : Int32) (load : F)
    (hcode : theProtobuf.ParseFromString
      (theProtobuf.SerializeToString (b.reply theReactor load n))
        = (true, b.reply theReactor load n))
    (hdown : theReactor.isShuttingDown = false) (hload : thePlatform.currentLoad = .ok load)
    (hport : b.itsHttpPort.toNat ≤ 2147483647)
    (hthrottle : b.itsThrottleLimit.toNat ≤ 2147483647) (hhandlers : theReactor.getURIMap ≠ [])
    : ∃ datagram,
        b.sendDiscoveryReply theReactor thePlatform theProtobuf theMessageBuffer n.toInt
            = .ok datagram
          ∧ ∀ (e : Engine F) (atFrontend : Reactor) (bytesTransferred : Nat),
            atFrontend.isShuttingDown = false →
              e.itsReceiveBuffer.take bytesTransferred = datagram →
                ∃ e', e.handleFrontendRead atFrontend theProtobuf .success bytesTransferred
                    = .ok (e', [.asyncReceiveFrom])
                  ∧ b.Announced theReactor load n e e' := by
  refine ⟨theProtobuf.SerializeToString (b.reply theReactor load n), ?_, ?_⟩
  . simp only [sendDiscoveryReply, hdown, numericCastInt_of_le hport, hload,
      numericCastInt_of_le hthrottle]
    rfl
  . intro e atFrontend bytesTransferred hdown' hbuffer
    have hparse : theProtobuf.ParseFromString (e.itsReceiveBuffer.take bytesTransferred)
        = (true, b.reply theReactor load n) := by
      rw [hbuffer, hcode]
    have haccepts : accepts atFrontend (b.reply theReactor load n) = true := by
      rw [accepts_eq_true_iff]
      refine ⟨hdown', rfl, rfl, ?_⟩
      simpa [reply, discoveryReply] using hhandlers
    have hnonneg : 0 ≤ (b.reply theReactor load n).host.throttle := by
      rw [throttle_reply hthrottle]
      omega
    rcases processReply_of_accepts e haccepts hnonneg with ⟨s', hrun, hreply⟩
    rw [replyOps_reply hport hthrottle] at hrun
    rw [handleFrontendRead_success e atFrontend hparse, hreply]
    exact ⟨_, rfl, announced_run hhandlers hrun⟩

section Sample

open Sample

def handlers : Reactor :=
  { reactor with
    getURIMap := [ByteString.lit "/wms"]
    getAdminRequestNames := [ByteString.lit "qengine"] }

-- the reply of a backend with these handlers
def handlersReply : ByteString :=
  [10, 1, 97, 16, 1, 24, 1, 34, 14, 10, 0, 16, 144, 63, 26, 0, 37, 0, 0, 0, 0, 40, 0, 66, 12, 10, 4,
    47, 119, 109, 115, 16, 0, 32, 0, 40, 0, 130, 1, 11, 10, 7, 113, 101, 110, 103, 105, 110, 101,
    16, 0]

def handlersProtobuf : Protobuf Rat where
  ParseFromString datagram :=
    if datagram = handlersReply then
      (true, (Engine.new config false).reply handlers 0 1)
    else
      (false, {})
  SerializeToString _ := handlersReply

theorem discovery_roundTrip_sample
    : ∃ datagram,
        (Engine.new config false).sendDiscoveryReply handlers platform handlersProtobuf []
            (1 : Int32).toInt
            = .ok datagram
          ∧ ∀ (e : Engine Rat) (atFrontend : Reactor) (bytesTransferred : Nat),
            atFrontend.isShuttingDown = false →
              e.itsReceiveBuffer.take bytesTransferred = datagram →
                ∃ e', e.handleFrontendRead atFrontend handlersProtobuf .success bytesTransferred
                    = .ok (e', [.asyncReceiveFrom])
                  ∧ (Engine.new config false).Announced handlers 0 1 e e' := by
  apply discovery_roundTrip (Engine.new config false) handlers platform handlersProtobuf [] 1 0
  . simp [handlersProtobuf]
  . rfl
  . rfl
  . decide
  . decide
  . decide

end Sample

end Engine

end Sputnik
