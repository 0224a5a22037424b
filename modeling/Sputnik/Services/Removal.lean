import Sputnik.Services.Listing

/-!
This module contains what the removal of a backend leaves behind: which queries still return it.
-/

namespace Sputnik

variable {F : Type}

def BackendInfoRequest.nameAndPort (theRequest : BackendInfoRequest F) : ByteString × Int :=
  theRequest.itsBackend.nameAndPort

def ServicesOp.Adds (backend : ByteString × Int) : ServicesOp F → Prop
  | .addService _ theBackendService _ _ _ => theBackendService.nameAndPort = backend
  | .addBackendInfoRequest theRequest => theRequest.nameAndPort = backend
  | _ => False

namespace Services

variable {backend : ByteString × Int}

structure Absent (backend : ByteString × Int) (s : Services F) : Prop where
  services : ∀ k, ∀ service ∈ s.serviceList k, service.nameAndPort ≠ backend
  infoRequests : ∀ name, ∀ theRequest ∈ s.infoRequests name, theRequest.nameAndPort ≠ backend

variable [FloatArith F]

/-
No query returns the backend. A row of the table that names no port, and a name of an info request,
are there for another backend.
-/
structure Forgets (backend : ByteString × Int) (s : Services F) : Prop where
  getService : ∀ theReactor theRequest itsGenerator service,
    s.getService theReactor theRequest itsGenerator = .ok (some service) →
      service.nameAndPort ≠ backend
  backends : ∀ service full, ∀ row ∈ (s.backends service full).rows,
    ∃ k, ∃ other ∈ s.serviceList k,
      row = other.itsBackendServer.row full ∧ other.nameAndPort ≠ backend
  getBackendList : ∀ service, ∀ listed ∈ s.getBackendList service,
    (listed.1, listed.2.2) ≠ backend
  getInfoRequestBackendList : ∀ infoRequestName,
    ∀ listed ∈ s.getInfoRequestBackendList infoRequestName, (listed.1, listed.2.2) ≠ backend
  getInfoRequestNames : ∀ name ∈ s.getInfoRequestNames,
    ∃ theRequest ∈ s.infoRequests name, theRequest.nameAndPort ≠ backend

theorem Absent.forgets {s : Services F} (h : s.Absent backend) : s.Forgets backend where
  getService := by
    intro theReactor theRequest itsGenerator service hget
    apply h.services _ service (mem_resolvedList_of_getService hget)
  backends := by
    intro service full row hrow
    rcases mem_rows_backends hrow with ⟨k, other, hother, heq⟩
    exact ⟨k, other, hother, heq, h.services k other hother⟩
  getBackendList := by
    intro service listed hlisted
    rw [getBackendList_eq] at hlisted
    rcases List.mem_map.mp hlisted with ⟨other, hother, heq⟩
    rw [← heq]
    apply h.services _ other hother
  getInfoRequestBackendList := by
    intro infoRequestName listed hlisted
    rw [getInfoRequestBackendList_eq] at hlisted
    rcases List.mem_map.mp hlisted with ⟨other, hother, heq⟩
    rw [← heq]
    apply h.infoRequests infoRequestName other hother
  getInfoRequestNames := by
    intro name hname
    rw [mem_getInfoRequestNames] at hname
    rcases List.exists_mem_of_ne_nil _ hname with ⟨theRequest, hmem⟩
    exact ⟨theRequest, hmem, h.infoRequests name theRequest hmem⟩

theorem absent_step {s s' : Services F} {op : ServicesOp F} (h : s.step op = some s')
    (hadds : ¬op.Adds backend) (hs : s.Absent backend) : s'.Absent backend where
  services := by
    intro k service hmem
    rw [serviceList_step h] at hmem
    cases op with
    | addService theReactor new theFrontendURI theLoad theThrottle =>
      simp only [stepList] at hmem
      split at hmem
      . cases List.mem_append.mp hmem with
        | inl hold => apply hs.services k service hold
        | inr hnew =>
          rw [List.mem_singleton.mp hnew]
          exact hadds
      . apply hs.services k service hmem
    | _ => apply hs.services k service (List.mem_of_mem_filter hmem)
  infoRequests := by
    intro name theRequest hmem
    rw [infoRequests_step h] at hmem
    cases op with
    | addBackendInfoRequest new =>
      simp only [stepInfoRequests] at hmem
      split at hmem
      . cases List.mem_append.mp hmem with
        | inl hold => apply hs.infoRequests name theRequest hold
        | inr hnew =>
          rw [List.mem_singleton.mp hnew]
          exact hadds
      . apply hs.infoRequests name theRequest hmem
    | latestSequence theReactor itsSequenceNumber =>
      apply hs.infoRequests name theRequest (List.mem_of_mem_filter hmem)
    | _ => apply hs.infoRequests name theRequest hmem

theorem nameAndPort_ne_of_removeBackend {s s' : Services F} {theReactor : Reactor}
    {theHostname : ByteString} {thePort : Int}
    (h : s.removeBackend theReactor theHostname thePort [] = some s')
    : ∀ k, ∀ service ∈ s'.serviceList k, service.nameAndPort ≠ (theHostname, thePort) := by
  have hstep : s.step (.removeBackend theReactor theHostname thePort []) = some s' := h
  intro k service hmem heq
  rw [mem_serviceList_removeBackend hstep] at hmem
  have hnamed := hmem.2
  simp only [BackendService.nameAndPort, BackendServer.nameAndPort, Prod.mk.injEq] at heq
  simp [namedBy, heq] at hnamed

/--
After the removal of a backend, until it is added again, no query returns it exactly when the table
has no info request of it: those stay.
-/
theorem removal_forgets_iff (s s' : Services F) (theReactor : Reactor) (theHostname : ByteString)
    (thePort : Int) (hremove : s.removeBackend theReactor theHostname thePort [] = some s')
    : (∀ ops t, (∀ op ∈ ops, ¬op.Adds (theHostname, thePort)) →
          Lib.run step s' ops = some t → t.Forgets (theHostname, thePort))
        ↔
      ∀ name, ∀ theRequest ∈ s.infoRequests name,
        theRequest.nameAndPort ≠ (theHostname, thePort) := by
  have hstep : s.step (.removeBackend theReactor theHostname thePort []) = some s' := hremove
  have hinfo : ∀ name, s'.infoRequests name = s.infoRequests name :=
    fun name => infoRequests_step hstep name
  constructor
  . intro h name theRequest hmem
    have hforgets := h [] s' (by simp) rfl
    apply hforgets.getInfoRequestBackendList name theRequest.itsBackend.listed
    rw [getInfoRequestBackendList_eq, hinfo]
    apply List.mem_map_of_mem hmem
  . intro hnone ops t hops hrun
    apply Absent.forgets
    apply Lib.run_invariant _ _ hrun
    . intro s op s' hop hs hstep
      apply absent_step hstep (hops op hop) hs
    . constructor
      . apply nameAndPort_ne_of_removeBackend hremove
      . intro name theRequest hmem
        rw [hinfo] at hmem
        apply hnone name theRequest hmem

section Sample

open Sample

theorem removal_forgets_iff_sample
    : ∃ s s', Lib.run step (init .random 2 []) [add "a" "/wms" 1 false, add "b" "/wms" 1 false]
          = some s
        ∧ s.removeBackend reactor (ByteString.lit "a") 8080 [] = some s'
        ∧ s'.Forgets (ByteString.lit "a", 8080) := by
  obtain ⟨s, hrun⟩ : ∃ s, Lib.run step (init .random 2 [])
      [add "a" "/wms" 1 false, add "b" "/wms" 1 false] = some s := ⟨_, rfl⟩
  obtain ⟨s', hremove⟩ : ∃ s', s.removeBackend reactor (ByteString.lit "a") 8080 [] = some s' := by
    rw [← Option.some.inj hrun]
    exact ⟨_, rfl⟩
  refine ⟨s, s', hrun, hremove, ?_⟩
  apply (removal_forgets_iff s s' reactor (ByteString.lit "a") 8080 hremove).mpr _ [] s' (by simp)
    rfl
  intro name theRequest hmem
  rw [infoRequests_run hrun, infoRequests_init] at hmem
  contradiction

def infoRequest (name : String) : ServicesOp Rat :=
  .addBackendInfoRequest {
    itsBackend := server name
    itsName := ByteString.lit "qengine"
    itsLastUpdate := 0
    itsSequenceNumber := 1
  }

theorem not_removal_forgets_infoRequest
    : ¬∀ (mode : ForwardingMode) (a : Rat) (cookieName : ByteString)
        (ops ops' : List (ServicesOp Rat)) (s s' t : Services Rat) (theReactor : Reactor)
        (theHostname : ByteString) (thePort : Int),
        Lib.run step (init mode a cookieName) ops = some s →
          s.removeBackend theReactor theHostname thePort [] = some s' →
            (∀ op ∈ ops', ¬op.Adds (theHostname, thePort)) → Lib.run step s' ops' = some t →
              t.Forgets (theHostname, thePort) := by
  intro h
  have hforgets := h .random 2 []
    [add "a" "/wms" 1 false, infoRequest "a", add "b" "/wms" 1 false] [] _ _ _ reactor
    (ByteString.lit "a") 8080 rfl rfl (by simp) rfl
  apply hforgets.getInfoRequestBackendList (ByteString.lit "qengine") (server "a").listed _ rfl
  decide

end Sample

end Services

end Sputnik
