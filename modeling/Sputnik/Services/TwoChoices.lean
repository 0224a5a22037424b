import Sputnik.Lib.TwoChoices
import Sputnik.Services.Selection

/-!
This module contains how likely the double random forwarder sends a request to a backend: how many
of all pairs of draws do.
-/

namespace Sputnik

variable {F : Type}

-- One generator for each pair of draws.
def Generator.DrawsPairs {n : Nat} (draws : Fin n → Fin n → Generator F) : Prop :=
  ∀ i j, (draws i j).uniform 0 n = i ∧ (draws i j).uniform 1 n = j

-- the backend that a request goes to
def forwardedTo : Except Error (Option (BackendService F)) → Option (ByteString × Int)
  | .ok (some theService) => some theService.nameAndPort
  | _ => none

variable [FloatArith F]

theorem BackendForwarder.getBackend_doubleRandom {fw : BackendForwarder F}
    {l : List (BackendService F)} {draws : Fin l.length → Fin l.length → Generator F}
    (theReactor : Reactor) (theRequest : Request) (hmode : fw.mode = .doubleRandom)
    (hinfos : fw.itsBackendInfos = l.map BackendService.info) (hdraws : Generator.DrawsPairs draws)
    (i j : Fin l.length)
    : fw.getBackend theReactor theRequest (draws i j)
        =
      .ok (Lib.lesser (fun i => status theReactor l[i.1].nameAndPort) (i, j)).val := by
  have hcount : ∀ service : BackendService F,
      connectionCount theReactor service.info = status theReactor service.nameAndPort :=
    fun _ => rfl
  have hne : l ≠ [] := List.ne_nil_of_length_pos (Nat.lt_of_le_of_lt (Nat.zero_le _) i.isLt)
  simp only [getBackend, hmode, doubleRandomGetBackend, hinfos, List.isEmpty_iff,
    List.map_eq_nil_iff, hne, if_false, List.length_map, (hdraws i j).1, (hdraws i j).2,
    Fin.is_lt, List.getElem?_eq_getElem, List.getElem_map, hcount, Lib.lesser]
  split
  . rfl
  . rfl

namespace Services

open BackendForwarder

theorem forwardedTo_doubleRandom {s : Services F} (hs : s.AllSelectable .doubleRandom)
    (haligned : s.Aligned) (theReactor : Reactor) (theRequest : Request)
    {draws : Fin (s.resolvedList theRequest).length → Fin (s.resolvedList theRequest).length →
      Generator F}
    (hdraws : Generator.DrawsPairs draws) (i j : Fin (s.resolvedList theRequest).length)
    : forwardedTo (s.getService theReactor theRequest (draws i j))
        =
      some ((s.resolvedList theRequest).get (Lib.lesser
        (fun i => status theReactor (s.resolvedList theRequest)[i.1].nameAndPort)
        (i, j))).nameAndPort := by
  have hne : s.resolvedList theRequest ≠ [] :=
    List.ne_nil_of_length_pos (Nat.lt_of_le_of_lt (Nat.zero_le _) i.isLt)
  cases hentry : s.itsServicesByURI[s.itsPrefixMap.translate theRequest.getResource]? with
  | none => simp [resolvedList, serviceList, hentry] at hne
  | some entry =>
    have hlist : s.resolvedList theRequest = entry.1 := serviceList_of_getElem? hentry
    have hbackend := getBackend_doubleRandom theReactor theRequest
      (hs.2 _ entry hentry).forwarder
      (by rw [hlist]; exact alignedEntry_iff.mp (haligned _ entry hentry)) hdraws i j
    rw [getService_of_getElem? hentry hbackend
      (by rw [← hlist]; exact List.getElem?_eq_getElem (Fin.is_lt _))]
    rfl

/--
In a reached state whose tables are aligned, of all pairs of draws the double random forwarder sends
a request to a backend in as many as the list has entries of this backend, times the number of
entries with no fewer connections plus that of the entries with more. So how likely a backend is
depends on the order of the connection counts only.
-/
theorem doubleRandom_chances (a : F) (cookieName : ByteString) (ops : List (ServicesOp F))
    (s : Services F) (theReactor : Reactor) (theRequest : Request) (backend : ByteString × Int)
    (draws : Fin (s.resolvedList theRequest).length → Fin (s.resolvedList theRequest).length →
      Generator F)
    (hrun : Lib.run step (init .doubleRandom a cookieName) ops = some s) (haligned : s.Aligned)
    (hdraws : Generator.DrawsPairs draws)
    : (Finset.univ.filter fun p : Fin _ × Fin _ =>
          forwardedTo (s.getService theReactor theRequest (draws p.1 p.2)) = some backend).card
        =
      (s.resolvedList theRequest).countP (fun it => it.nameAndPort = backend)
        * ((s.resolvedList theRequest).countP (fun it =>
            status theReactor backend ≤ status theReactor it.nameAndPort)
          + (s.resolvedList theRequest).countP (fun it =>
            status theReactor backend < status theReactor it.nameAndPort)) := by
  have hforward := forwardedTo_doubleRandom (allSelectable_run hrun) haligned theReactor theRequest
    hdraws
  simp only [← Lib.card_filter_getElem, decide_eq_true_eq]
  rw [← Lib.card_lesser_mem
    (c := fun i : Fin (s.resolvedList theRequest).length =>
      status theReactor (s.resolvedList theRequest)[i.1].nameAndPort)]
  . congr 1
    ext p
    simp [hforward]
  . intro i hi
    rw [(Finset.mem_filter.mp hi).2]

section Sample

open Sample

def ofPair (i j : Nat) : Generator Rat where
  discrete _ := 0
  uniform k n := (if k = 0 then i else j) % n
  discrete_lt := generator.discrete_lt
  uniform_lt _ _ hn := Nat.mod_lt _ hn

theorem drawsPairs_ofPair (n : Nat) : Generator.DrawsPairs fun i j : Fin n => ofPair i j := by
  intro i j
  exact ⟨Nat.mod_eq_of_lt i.isLt, Nat.mod_eq_of_lt j.isLt⟩

-- one connection to this backend, none to the others
def busy : Reactor :=
  { reactor with
    getBackendRequestStatus hostName _ := if hostName = ByteString.lit "a" then 1 else 0 }

def threeBackends : List (ServicesOp Rat) :=
  [add "a" "/wms" 1 false, add "b" "/wms" 1 false, add "c" "/wms" 1 false]

-- The busy one of three backends gets the request in one of nine pairs of draws.
theorem doubleRandom_chances_sample
    : ∃ s, Lib.run step (init .doubleRandom (0 : Rat) []) threeBackends = some s
        ∧ (Finset.univ.filter fun p :
            Fin (s.resolvedList request).length × Fin (s.resolvedList request).length =>
          forwardedTo (s.getService busy request (ofPair p.1 p.2))
            = some (ByteString.lit "a", 8080)).card = 1 := by
  have hload : ∀ op ∈ threeBackends, op.AnnouncesLoad := by
    simp [threeBackends, ServicesOp.AnnouncesLoad, add, service, server]
  have hstale : ∀ op ∈ threeBackends, ∀ it, op.stale it = false := by
    simp [threeBackends, ServicesOp.stale, add]
  refine ⟨_, rfl, ?_⟩
  rw [doubleRandom_chances 0 [] threeBackends _ busy request (ByteString.lit "a", 8080) _ rfl
    (aligned_run_of_not_stale rfl hload hstale (aligned_init .doubleRandom 0 []))
    (drawsPairs_ofPair _)]
  decide

end Sample

end Services

end Sputnik
