import Sputnik.Services.Lemmas

/-!
This module contains how far the prefix map is kept in step with the service lists: which runs leave
no registration of a service that is gone, and which runs keep the registrations of those that stay.
-/

namespace Sputnik

variable {F : Type}

namespace Services

def NoStaleRegistration (s : Services F) : Prop :=
  ∀ p id, s.itsPrefixMap.Registered p id →
    ∃ service ∈ s.serviceList p, service.definesPrefix = true ∧ backendServiceId service = id

def TranslatesToLive (s : Services F) : Prop :=
  ∀ uri p, s.itsPrefixMap.find? uri = some p →
    ∃ service ∈ s.serviceList p, service.definesPrefix = true

def AllRegistered (s : Services F) : Prop :=
  ∀ q, ∀ service ∈ s.serviceList q, service.definesPrefix = true →
    s.itsPrefixMap.Registered q (backendServiceId service)

def KeepsResolving (s s' : Services F) : Prop :=
  ∀ uri q, s.itsPrefixMap.find? uri = some q →
    (∃ service ∈ s'.serviceList q, service.definesPrefix = true) →
      s'.itsPrefixMap.find? uri = some q

theorem NoStaleRegistration.translatesToLive {s : Services F} (h : s.NoStaleRegistration)
    : s.TranslatesToLive := by
  intro uri p hfind
  rcases URIPrefixMap.find?_eq_some hfind with ⟨⟨id, hreg⟩, _⟩
  rcases h p id hreg with ⟨service, hmem, hdefines, _⟩
  exact ⟨service, hmem, hdefines⟩

theorem noStaleRegistration_init (mode : ForwardingMode) (a : F) (cookieName : ByteString)
    : (init mode a cookieName).NoStaleRegistration := by
  intro p id h
  exact absurd h (URIPrefixMap.not_registered_empty p id)

theorem allRegistered_init (mode : ForwardingMode) (a : F) (cookieName : ByteString)
    : (init mode a cookieName).AllRegistered := by
  simp [AllRegistered]

end Services

variable [FloatArith F]

namespace Services

/-
A call takes no service out of a list while its id is registered under the key of the list, unless
the call unregisters the key or a service that stays has the same id.
-/
def LeavesNoRegistration (s : Services F) : ServicesOp F → Prop
  | .removeBackend _ theHostname thePort theURI =>
    ∀ p, p ≠ theURI → ∀ service ∈ s.serviceList p,
      namedBy theHostname thePort theURI service = true → service.definesPrefix = true →
        s.itsPrefixMap.Registered p (backendServiceId service) →
          ∃ other ∈ s.serviceList p, namedBy theHostname thePort theURI other = false
            ∧ other.definesPrefix = true ∧ backendServiceId other = backendServiceId service
  | .latestSequence _ itsSequenceNumber =>
    ∀ p, ∀ service ∈ s.serviceList p, service.itsSequenceNumber ≠ itsSequenceNumber →
      service.definesPrefix = true → ¬s.itsPrefixMap.Registered p (backendServiceId service)
  | _ => True

def UnregistersOnlyRemoved (s : Services F) : ServicesOp F → Prop
  | .removeBackend _ theHostname thePort theURI =>
    ∀ service ∈ s.serviceList theURI, service.definesPrefix = true →
      namedBy theHostname thePort theURI service = true
  | _ => True

theorem noStaleRegistration_removeBackend {s s' : Services F} {theReactor : Reactor}
    {theHostname : ByteString} {thePort : Int} {theURI : ByteString}
    (h : s.step (.removeBackend theReactor theHostname thePort theURI) = some s')
    (hs : s.NoStaleRegistration)
    : s'.NoStaleRegistration
        ↔
      s.LeavesNoRegistration (.removeBackend theReactor theHostname thePort theURI) := by
  constructor
  . intro hs' p hp service hmem hnamed hdefines hreg
    have hreg' : s'.itsPrefixMap.Registered p (backendServiceId service) := by
      rw [registered_step h]
      exact ⟨hreg, fun hpid => hp hpid.1⟩
    rcases hs' p _ hreg' with ⟨other, hother, hotherDefines, hid⟩
    rw [mem_serviceList_removeBackend h] at hother
    exact ⟨other, hother.1, hother.2, hotherDefines, hid⟩
  . intro hC p id hreg'
    rw [registered_step h] at hreg'
    rcases hreg' with ⟨hreg, hkept⟩
    rcases hs p id hreg with ⟨service, hmem, hdefines, hid⟩
    -- the call unregisters the ids of all services from the prefix it names
    have hp : p ≠ theURI := by
      intro hp
      exact hkept ⟨hp, service, ⟨p, hmem⟩, hid.symm⟩
    rw [← hid] at hreg ⊢
    cases hnamed : namedBy theHostname thePort theURI service with
    | true =>
      rcases hC p hp service hmem hnamed hdefines hreg
        with ⟨other, hother, hstays, hotherDefines, hotherId⟩
      refine ⟨other, ?_, hotherDefines, hotherId⟩
      rw [mem_serviceList_removeBackend h]
      exact ⟨hother, hstays⟩
    | false =>
      refine ⟨service, ?_, hdefines, rfl⟩
      rw [mem_serviceList_removeBackend h]
      exact ⟨hmem, hnamed⟩

theorem noStaleRegistration_latestSequence {s s' : Services F} {theReactor : Reactor} {n : Int}
    (h : s.step (.latestSequence theReactor n) = some s') (hs : s.NoStaleRegistration)
    : s'.NoStaleRegistration ↔ s.LeavesNoRegistration (.latestSequence theReactor n) := by
  constructor
  . intro hs' p service hmem hseq hdefines hreg
    have hreg' : s'.itsPrefixMap.Registered p (backendServiceId service) := by
      rw [registered_step h]
      exact hreg
    rcases hs' p _ hreg' with ⟨other, hother, _, hid⟩
    rw [mem_serviceList_latestSequence h] at hother
    -- the id determines the sequence number
    have hsame := (backendServiceId_inj hid).2
    apply hseq
    rw [← hsame]
    exact hother.2
  . intro hC p id hreg'
    rw [registered_step h] at hreg'
    rcases hs p id hreg' with ⟨service, hmem, hdefines, hid⟩
    refine ⟨service, ?_, hdefines, hid⟩
    rw [mem_serviceList_latestSequence h]
    refine ⟨hmem, ?_⟩
    by_contra hseq
    apply hC p service hmem hseq hdefines
    rw [hid]
    exact hreg'

theorem noStaleRegistration_addService {s s' : Services F} {theReactor : Reactor}
    {new : BackendService F} {theFrontendURI : ByteString} {theLoad : F} {theThrottle : UInt32}
    (h : s.step (.addService theReactor new theFrontendURI theLoad theThrottle) = some s')
    (hs : s.NoStaleRegistration) : s'.NoStaleRegistration := by
  intro p id hreg'
  rw [registered_step h] at hreg'
  cases hreg' with
  | inl hreg =>
    rcases hs p id hreg with ⟨service, hmem, hdefines, hid⟩
    refine ⟨service, ?_, hdefines, hid⟩
    rw [mem_serviceList_addService h]
    exact .inl hmem
  | inr hnew =>
    rcases hnew with ⟨hdefines, hp, hid⟩
    refine ⟨new, ?_, hdefines, hid.symm⟩
    rw [mem_serviceList_addService h]
    exact .inr ⟨hp.symm, rfl⟩

theorem noStaleRegistration_step {s s' : Services F} {op : ServicesOp F}
    (h : s.step op = some s') (hs : s.NoStaleRegistration)
    : s'.NoStaleRegistration ↔ s.LeavesNoRegistration op := by
  cases op with
  | addService theReactor new theFrontendURI theLoad theThrottle =>
    have := noStaleRegistration_addService h hs
    simpa [LeavesNoRegistration] using this
  | removeBackend theReactor theHostname thePort theURI =>
    apply noStaleRegistration_removeBackend h hs
  | latestSequence theReactor n =>
    apply noStaleRegistration_latestSequence h hs
  | _ =>
    rw [← Option.some.inj h]
    apply iff_of_true hs trivial

/--
The prefix map holds no stale registration after any step of a run exactly when every call of the
run leaves no registration of a service it takes out.
-/
theorem noStaleRegistration_along (mode : ForwardingMode) (a : F) (cookieName : ByteString)
    (ops : List (ServicesOp F))
    : Lib.Along step (fun _ _ s' => s'.NoStaleRegistration ∧ s'.TranslatesToLive)
        (init mode a cookieName) ops
        ↔
      Lib.Along step (fun s op _ => s.LeavesNoRegistration op) (init mode a cookieName) ops := by
  apply Lib.Along.iff_of_invariant (I := NoStaleRegistration)
  . intro s op s' hs h
    rw [← noStaleRegistration_step h hs]
    exact ⟨fun hs' => hs'.1, fun hs' => ⟨hs', hs'.translatesToLive⟩⟩
  . intro s op s' hs h hC
    rwa [noStaleRegistration_step h hs]
  . apply noStaleRegistration_init

theorem allRegistered_removeBackend {s s' : Services F} {theReactor : Reactor}
    {theHostname : ByteString} {thePort : Int} {theURI : ByteString}
    (h : s.step (.removeBackend theReactor theHostname thePort theURI) = some s')
    (hs : s.AllRegistered)
    : s'.AllRegistered
        ↔
      s.UnregistersOnlyRemoved (.removeBackend theReactor theHostname thePort theURI) := by
  constructor
  . intro hs' service hmem hdefines
    by_contra hstays
    have hmem' : service ∈ s'.serviceList theURI := by
      rw [mem_serviceList_removeBackend h]
      simpa using And.intro hmem hstays
    have hreg' := hs' theURI service hmem' hdefines
    rw [registered_step h] at hreg'
    exact hreg'.2 ⟨rfl, service, ⟨theURI, hmem⟩, rfl⟩
  . intro hC q service hmem' hdefines
    rw [mem_serviceList_removeBackend h] at hmem'
    rcases hmem' with ⟨hmem, hstays⟩
    rw [registered_step h]
    refine ⟨hs q service hmem hdefines, ?_⟩
    rintro ⟨hq, _⟩
    rw [hq] at hmem
    have := hC service hmem hdefines
    rw [this] at hstays
    contradiction

theorem allRegistered_step {s s' : Services F} {op : ServicesOp F} (h : s.step op = some s')
    (hs : s.AllRegistered) (hC : s.UnregistersOnlyRemoved op) : s'.AllRegistered := by
  cases op with
  | addService theReactor new theFrontendURI theLoad theThrottle =>
    intro q service hmem' hdefines
    rw [mem_serviceList_addService h] at hmem'
    rw [registered_step h]
    cases hmem' with
    | inl hmem => exact .inl (hs q service hmem hdefines)
    | inr hnew =>
      rcases hnew with ⟨hq, hservice⟩
      rw [hservice] at hdefines ⊢
      exact .inr ⟨hdefines, hq.symm, rfl⟩
  | removeBackend theReactor theHostname thePort theURI =>
    rwa [allRegistered_removeBackend h hs]
  | latestSequence theReactor n =>
    intro q service hmem' hdefines
    rw [mem_serviceList_latestSequence h] at hmem'
    rw [registered_step h]
    apply hs q service hmem'.1 hdefines
  | _ =>
    rw [← Option.some.inj h]
    exact hs

theorem keepsResolving_removeBackend {s s' : Services F} {theReactor : Reactor}
    {theHostname : ByteString} {thePort : Int} {theURI : ByteString}
    (h : s.step (.removeBackend theReactor theHostname thePort theURI) = some s')
    (hs' : s'.AllRegistered) : KeepsResolving s s' := by
  rintro uri q hfind ⟨service, hmem', hdefines⟩
  apply URIPrefixMap.find?_of_registered_subset _ hfind (hs' q service hmem' hdefines)
  intro p id hreg'
  rw [registered_step h] at hreg'
  exact hreg'.1

def RemovalKeepsRegistrations (s : Services F) (op : ServicesOp F) (s' : Services F) : Prop :=
  match op with
  | .removeBackend .. => s'.AllRegistered ∧ KeepsResolving s s'
  | _ => True

/--
Every `removeBackend` call of a run keeps the registrations of the services it leaves exactly when
every such call takes out all services that define a prefix at the URI it names.
-/
theorem removalKeepsRegistrations_along (mode : ForwardingMode) (a : F) (cookieName : ByteString)
    (ops : List (ServicesOp F))
    : Lib.Along step RemovalKeepsRegistrations (init mode a cookieName) ops
        ↔
      Lib.Along step (fun s op _ => s.UnregistersOnlyRemoved op) (init mode a cookieName) ops := by
  apply Lib.Along.iff_of_invariant (I := AllRegistered)
  . intro s op s' hs h
    cases op with
    | removeBackend theReactor theHostname thePort theURI =>
      rw [← allRegistered_removeBackend h hs]
      exact ⟨fun hs' => hs'.1, fun hs' => ⟨hs', keepsResolving_removeBackend h hs'⟩⟩
    | _ => simp [RemovalKeepsRegistrations, UnregistersOnlyRemoved]
  . intro s op s' hs h hC
    apply allRegistered_step h hs hC
  . apply allRegistered_init

section Sample

open Sample

def secondHeartbeat : List (ServicesOp Rat) :=
  [add "a" "/wms" 1 true, .latestSequence reactor 1, add "a" "/wms" 2 true,
    .latestSequence reactor 2]

theorem not_noStaleRegistration_secondHeartbeat
    : ¬∀ (mode : ForwardingMode) (a : Rat) (cookieName : ByteString) (ops : List (ServicesOp Rat))
        (s : Services Rat), Lib.run step (init mode a cookieName) ops = some s →
          s.NoStaleRegistration ∧ s.TranslatesToLive := by
  intro h
  rcases h .random 2 [] secondHeartbeat _ rfl with ⟨hstale, _⟩
  have := hstale (ByteString.lit "/wms") (backendServiceId (service "a" "/wms" 1 true))
    ⟨_, rfl, by decide⟩
  revert this
  decide

def sharedPrefix : List (ServicesOp Rat) := [add "a" "/wms" 1 true, add "b" "/wms" 1 true]

theorem not_removalKeepsRegistrations_sharedPrefix
    : ¬∀ (mode : ForwardingMode) (a : Rat) (cookieName : ByteString) (ops : List (ServicesOp Rat))
        (s s' : Services Rat) (theReactor : Reactor) (theHostname : ByteString) (thePort : Int)
        (theURI : ByteString), Lib.run step (init mode a cookieName) ops = some s →
          s.removeBackend theReactor theHostname thePort theURI = some s' →
            s'.AllRegistered ∧ KeepsResolving s s' := by
  intro h
  rcases h .random 2 [] sharedPrefix _ _ reactor (ByteString.lit "a") 8080
    (ByteString.lit "/wms") rfl rfl with ⟨hregistered, _⟩
  rcases hregistered (ByteString.lit "/wms") (service "b" "/wms" 1 true)
    (by decide) rfl with ⟨ids, hids, _⟩
  have hnone : none = some ids := hids
  contradiction

end Sample

end Services

end Sputnik
