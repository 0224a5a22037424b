import Sputnik.Forwarder.Hash
import Sputnik.Services.Throttle

/-!
This module contains the strings that stand for a backend: in the table of the sentinels, in the
hash of the sticky forwarder and in the prefix map.
-/

namespace Sputnik

variable {F : Type}

namespace BackendForwarder

theorem stickyId_eq_iff {backend backend' : ByteString × Int}
    : stickyId backend = stickyId backend' ↔ backend = backend' :=
  Services.sentinelName_eq_iff

end BackendForwarder

namespace URIPrefixMap

theorem registered_removeBackend_of_ne (m : URIPrefixMap) (thePrefix : ByteString)
    {removed kept : BackendService F} (hne : removed.nameAndPort ≠ kept.nameAndPort)
    (p : ByteString)
    : (m.removeBackend thePrefix removed).Registered p (backendServiceId kept)
        ↔
      m.Registered p (backendServiceId kept) := by
  rw [registered_removeBackend]
  constructor
  . exact fun h => h.1
  . intro h
    refine ⟨h, ?_⟩
    rintro ⟨-, hid⟩
    exact hne (backendServiceId_inj hid).1.symm

end URIPrefixMap

namespace ServicesOp

-- the backend that the call is about
def backend? : ServicesOp F → Option (ByteString × Int)
  | .addService _ theBackendService _ _ _ => some theBackendService.nameAndPort
  | .setBackendAlive theHostName thePort => some (theHostName, thePort)
  | .signalBackendConnection theHostName thePort => some (theHostName, thePort)
  | _ => none

theorem concerns_iff {backend : ByteString × Int} {op : ServicesOp F}
    : op.concerns backend = true ↔ op.backend? = some backend := by
  cases op <;> simp [concerns, resets, throttle?, revives, signals, backend?]

theorem eq_of_concerns {backend backend' : ByteString × Int} {op : ServicesOp F}
    (h : op.concerns backend = true) (h' : op.concerns backend' = true) : backend = backend' := by
  rw [concerns_iff] at h h'
  rw [h] at h'
  exact Option.some.inj h'

end ServicesOp

variable [FloatArith F]

theorem Services.sentinel_step_of_concerns {s s' : Services F} {op : ServicesOp F}
    (hstep : s.step op = some s') {backend other : ByteString × Int}
    (h : op.concerns backend = true) (hne : backend ≠ other)
    : s'.sentinel other = s.sentinel other := by
  rw [sentinel_step hstep, stepSentinel_of_not_concerns]
  rw [Bool.eq_false_iff]
  intro hother
  exact hne (ServicesOp.eq_of_concerns h hother)

/--
The strings that stand for a backend determine it, whatever bytes its host name consists of: two
different backends share neither a sentinel nor an id of the rendezvous nor a registered prefix.
-/
theorem identities_injective
    : (∀ name name' port port', sentinelName name port = sentinelName name' port' →
        name = name' ∧ port = port')
      ∧ Function.Injective BackendForwarder.stickyId
      ∧ (∀ a b : BackendService F, backendServiceId a = backendServiceId b →
          a.nameAndPort = b.nameAndPort ∧ a.itsSequenceNumber = b.itsSequenceNumber)
      ∧ (∀ a b : BackendService F, a.nameAndPort ≠ b.nameAndPort →
          (∀ (s s' : Services F) op, s.step op = some s' → op.concerns a.nameAndPort = true →
            s'.sentinel b.nameAndPort = s.sentinel b.nameAndPort)
          ∧ BackendForwarder.stickyId a.nameAndPort ≠ BackendForwarder.stickyId b.nameAndPort
          ∧ (∀ (m : URIPrefixMap) thePrefix p,
              (m.removeBackend thePrefix a).Registered p (backendServiceId b)
                ↔
              m.Registered p (backendServiceId b))) := by
  refine ⟨?_, ?_, ?_, ?_⟩
  . intro name name' port port' h
    apply ByteString.append_colon_toString_inj h
  . intro backend backend' h
    apply BackendForwarder.stickyId_eq_iff.mp h
  . intro a b h
    apply backendServiceId_inj h
  . intro a b hne
    refine ⟨?_, ?_, ?_⟩
    . intro s s' op hstep hconcerns
      apply Services.sentinel_step_of_concerns hstep hconcerns hne
    . exact fun h => hne (BackendForwarder.stickyId_eq_iff.mp h)
    . intro m thePrefix p
      apply URIPrefixMap.registered_removeBackend_of_ne m thePrefix hne

section Sample

open Sample

theorem identities_injective_sample
    : sentinelName (ByteString.lit "a:80") 8080 ≠ sentinelName (ByteString.lit "a") 808080 := by
  intro h
  have hname := ((identities_injective (F := Rat)).1 _ _ _ _ h).1
  revert hname
  decide

end Sample

end Sputnik
