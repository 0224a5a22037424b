import Sputnik.Services.Lemmas

/-!
This module contains when the service list of a key and the backend list of its forwarder agree
position by position. `getService` uses the index of the one in the other.
-/

namespace Sputnik

variable {F : Type}

def BackendService.MatchesInfo (service : BackendService F) (info : BackendInfo F) : Prop :=
  info.hostName = service.itsBackendServer.itsName
    ∧ info.port = service.itsBackendServer.itsPort
    ∧ info.load = service.itsBackendServer.itsLoad

theorem BackendService.matchesInfo_iff {service : BackendService F} {info : BackendInfo F}
    : service.MatchesInfo info ↔ info = service.info := by
  cases info
  simp [MatchesInfo, BackendService.info, BackendServer.info]

namespace Services

def AlignedEntry (entry : ServiceEntry F) : Prop :=
  entry.1.length = entry.2.itsBackendInfos.length
    ∧ ∀ (i : Nat) service info, entry.1[i]? = some service →
        entry.2.itsBackendInfos[i]? = some info → service.MatchesInfo info

def Aligned (s : Services F) : Prop :=
  ∀ (k : ByteString) entry, s.itsServicesByURI[k]? = some entry → AlignedEntry entry

theorem alignedEntry_iff {entry : ServiceEntry F}
    : AlignedEntry entry ↔ entry.2.itsBackendInfos = entry.1.map BackendService.info := by
  unfold AlignedEntry
  constructor
  . rintro ⟨hlength, hinfo⟩
    apply List.ext_getElem
    . simp [hlength]
    . intro i hi hi'
      simp only [List.length_map] at hi'
      have := hinfo i entry.1[i] entry.2.itsBackendInfos[i] (by simp) (by simp)
      rw [BackendService.matchesInfo_iff] at this
      simpa using this
  . intro h
    rw [h]
    refine ⟨by simp, ?_⟩
    intro i service info hservice hinfo
    rw [List.getElem?_map, hservice] at hinfo
    rw [BackendService.matchesInfo_iff]
    simpa using hinfo.symm

theorem aligned_init (mode : ForwardingMode) (a : F) (cookieName : ByteString)
    : (init mode a cookieName).Aligned := by
  simp [Aligned, init]

end Services

variable [FloatArith F]

def ServicesOp.AnnouncesLoad : ServicesOp F → Prop
  | .addService _ service _ theLoad _ => theLoad = service.itsBackendServer.itsLoad
  | _ => True

namespace Services

-- No service that stays stands before a service of the same backend that goes.
def RetiresInOrder (s : Services F) (op : ServicesOp F) : Prop :=
  ∀ (k : ByteString) entry, s.itsServicesByURI[k]? = some entry →
    entry.1.Pairwise fun a b =>
      op.stale a = false → op.stale b = true → a.nameAndPort ≠ b.nameAndPort

instance (s : Services F) (op : ServicesOp F) : Decidable (s.RetiresInOrder op) :=
  decidable_of_iff
    (∀ p ∈ s.itsServicesByURI.toList, p.2.1.Pairwise fun a b =>
      op.stale a = false → op.stale b = true → a.nameAndPort ≠ b.nameAndPort)
    (by simp [RetiresInOrder, Std.TreeMap.mem_toList_iff_getElem?_eq_some])

theorem itsBackendInfos_foldl_retire (theReactor : Reactor) (l : List (BackendService F))
    (fw : BackendForwarder F)
    : (l.foldl (fun fw it => retire theReactor it fw) fw).itsBackendInfos
        =
      Lib.eraseKeys BackendInfo.nameAndPort fw.itsBackendInfos
        (l.map BackendService.nameAndPort) := by
  induction l generalizing fw with
  | nil => rfl
  | cons it l ih =>
    rw [List.foldl_cons, ih, List.map_cons, Lib.eraseKeys_cons, retire,
      BackendForwarder.itsBackendInfos_removeBackend]
    rfl

theorem alignedEntry_addEntry (theReactor : Reactor) (service : BackendService F)
    {entry : ServiceEntry F} (h : AlignedEntry entry)
    : AlignedEntry (addEntry theReactor service service.itsBackendServer.itsLoad entry) := by
  rw [alignedEntry_iff] at h ⊢
  simp only [addEntry, BackendForwarder.itsBackendInfos_addBackend, h, List.map_append]
  rfl

theorem alignedEntry_purgeEntry (theReactor : Reactor) (stale : BackendService F → Bool)
    {entry : ServiceEntry F} (h : AlignedEntry entry)
    (horder : entry.1.Pairwise fun a b =>
      stale a = false → stale b = true → a.nameAndPort ≠ b.nameAndPort)
    : AlignedEntry (purgeEntry theReactor stale entry) := by
  rw [alignedEntry_iff] at h ⊢
  simp only [purgeEntry, itsBackendInfos_foldl_retire, h]
  apply Lib.eraseKeys_map_of_pairwise
  . apply BackendService.nameAndPort_info
  . assumption

theorem aligned_step {s s' : Services F} {op : ServicesOp F} (h : s.step op = some s')
    (hload : op.AnnouncesLoad) (horder : s.RetiresInOrder op) (hs : s.Aligned) : s'.Aligned := by
  unfold Aligned at hs ⊢
  apply entries_step h hs
  . intro theReactor service theFrontendURI theLoad theThrottle entry hop hentry
    rw [hop] at hload
    rw [hload]
    apply alignedEntry_addEntry
    cases hentry with
    | inl hnew => simp [hnew, newEntry, newForwarder, alignedEntry_iff]
    | inr hold => assumption
  . intro theReactor k entry hentry haligned
    apply alignedEntry_purgeEntry theReactor op.stale haligned
    apply horder k entry hentry

omit [FloatArith F] in
theorem retiresInOrder_of_not_stale {s : Services F} {op : ServicesOp F}
    (h : ∀ it, op.stale it = false) : s.RetiresInOrder op := by
  intro k entry _
  apply List.pairwise_of_forall
  intro it it' _ hstale
  rw [h it'] at hstale
  contradiction

theorem aligned_run_of_not_stale {s s' : Services F} {ops : List (ServicesOp F)}
    (hrun : Lib.run step s ops = some s') (hload : ∀ op ∈ ops, op.AnnouncesLoad)
    (hstale : ∀ op ∈ ops, ∀ it, op.stale it = false) (hs : s.Aligned) : s'.Aligned := by
  apply Lib.run_invariant _ hs hrun
  intro s op s' hop hs hstep
  apply aligned_step hstep (hload op hop) _ hs
  apply retiresInOrder_of_not_stale (hstale op hop)

/--
In a run in which no service that stays ever stands before a service of the same backend that goes,
the service lists and the forwarders agree in every reached state.
-/
theorem aligned_of_retiresInOrder (mode : ForwardingMode) (a : F) (cookieName : ByteString)
    (ops : List (ServicesOp F)) (s : Services F) (hload : ∀ op ∈ ops, op.AnnouncesLoad)
    (horder : Lib.Along step (fun s op _ => s.RetiresInOrder op) (init mode a cookieName) ops)
    (hrun : Lib.run step (init mode a cookieName) ops = some s) : s.Aligned := by
  have hcond := Lib.Along.and (Lib.Along.of_forall_mem hload _) horder
  apply Lib.Along.run_invariant _ (aligned_init mode a cookieName) hcond hrun
  intro s op s' hs hstep hC
  apply aligned_step hstep hC.1 hC.2 hs

section Sample

open Sample

theorem aligned_of_retiresInOrder_sample
    : ∃ s, Lib.run step (init .random 2 []) [add "a" "/wms" 1 false, add "a" "/wms" 2 false,
        .latestSequence reactor 2] = some s ∧ s.Aligned := by
  refine ⟨_, rfl, ?_⟩
  apply aligned_of_retiresInOrder .random 2 []
      [add "a" "/wms" 1 false, add "a" "/wms" 2 false, .latestSequence reactor 2] _ _ _ rfl
  . simp [ServicesOp.AnnouncesLoad, add, service, server]
  . decide

-- A reply to the first request that is read after the replies to the second one.
def lateReply : List (ServicesOp Rat) :=
  [add "a" "/wms" 2 false, add "b" "/wms" 2 false, add "a" "/wms" 1 false,
    .latestSequence reactor 2]

theorem not_aligned_lateReply
    : ¬∀ (mode : ForwardingMode) (a : Rat) (cookieName : ByteString) (ops : List (ServicesOp Rat))
        (s : Services Rat), (∀ op ∈ ops, op.AnnouncesLoad) →
          Lib.run step (init mode a cookieName) ops = some s → s.Aligned := by
  intro h
  have haligned := h .random 2 [] lateReply _
    (by simp [lateReply, ServicesOp.AnnouncesLoad, add, service, server]) rfl
  have hentry := haligned (ByteString.lit "/wms") _ rfl
  have := hentry.2 0 _ _ rfl rfl
  revert this
  unfold BackendService.MatchesInfo
  decide

end Sample

end Services

end Sputnik
