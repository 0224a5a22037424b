import Sputnik.Services.Listing

/-!
This module contains when the table of the backends is complete and has no row twice: for all
services, and for the services of one name.
-/

namespace Sputnik

open Std

variable {F : Type}

-- the name, the IP and the port of a backend
abbrev Triple := ByteString × ByteString × Int

def Triple.row (t : Triple) : List ByteString := [t.1, t.2.1, ByteString.toString t.2.2]

theorem Triple.row_injective : Function.Injective Triple.row := by
  rintro ⟨name, ip, port⟩ ⟨name', ip', port'⟩ h
  unfold Triple.row at h
  simp only [List.cons.injEq, and_true] at h
  rcases h with ⟨hname, hip, hport⟩
  rw [hname, hip, Lib.Decimal.ofInt_injective hport]

-- The rows are those of the triples, each once.
def ListsOnce (rows : List (List ByteString)) (triples : Set Triple) : Prop :=
  ∃ listed : List Triple, listed.Nodup ∧ rows = listed.map Triple.row
    ∧ ∀ t, t ∈ listed ↔ t ∈ triples

namespace BackendServer

theorem listedId_congr {server server' : BackendServer F} (h : server.listed = server'.listed)
    : server.listedId = server'.listedId := by
  simp only [listed, Prod.mk.injEq] at h
  rcases h with ⟨hname, hip, hport⟩
  unfold listedId
  rw [hname, hip, hport]

end BackendServer

namespace Services

-- The string that the loop compares tells the backends of the list apart.
def Unambiguous (l : List (BackendService F)) : Prop :=
  ∀ a ∈ l, ∀ b ∈ l, a.itsBackendServer.listedId = b.itsBackendServer.listedId →
    a.itsBackendServer.listed = b.itsBackendServer.listed

-- The separator of the string may occur in a name and in an IP.
example : ({ Sample.server "a|b" with itsIP := ByteString.lit "c" } : BackendServer Rat).listedId
    = ({ Sample.server "a" with itsIP := ByteString.lit "b|c" } : BackendServer Rat).listedId := by
  decide

theorem exists_listed (l : List (BackendService F))
    : ∃ kept : List (BackendService F), backendRows true l []
          = (kept.map fun it => it.itsBackendServer.listed).map Triple.row
        ∧ (kept.map fun it => it.itsBackendServer.listedId).Nodup
        ∧ (∀ it ∈ kept, it ∈ l)
        ∧ ∀ it ∈ l, ∃ other ∈ kept,
            other.itsBackendServer.listedId = it.itsBackendServer.listedId := by
  refine ⟨_, ?_, Lib.nodup_map_dedupBy _ l [], ?_, ?_⟩
  . rw [backendRows_eq, List.map_map]
    rfl
  . exact fun it hit => (Lib.mem_of_mem_dedupBy hit).1
  . intro it hit
    apply Lib.exists_mem_dedupBy hit
    simp

theorem listsOnce_backendRows {l : List (BackendService F)} {triples : Set Triple}
    (hsub : ∀ it ∈ l, it.itsBackendServer.listed ∈ triples)
    : ListsOnce (backendRows true l []) triples
        ↔
      Unambiguous l ∧ ∀ t ∈ triples, ∃ it ∈ l, it.itsBackendServer.listed = t := by
  rcases exists_listed l with ⟨kept, hrows, hnodup, hkept, hall⟩
  rw [hrows]
  constructor
  . rintro ⟨listed, -, hlisted, hmem⟩
    have heq := List.map_injective_iff.mpr Triple.row_injective hlisted
    subst heq
    refine ⟨?_, ?_⟩
    . intro a ha b hb hid
      rcases List.mem_map.mp ((hmem _).mpr (hsub a ha)) with ⟨a', ha', heqa⟩
      rcases List.mem_map.mp ((hmem _).mpr (hsub b hb)) with ⟨b', hb', heqb⟩
      have hsame : a'.itsBackendServer.listedId = b'.itsBackendServer.listedId := by
        rw [BackendServer.listedId_congr heqa, hid, BackendServer.listedId_congr heqb]
      rw [← heqa, ← heqb, List.inj_on_of_nodup_map hnodup ha' hb' hsame]
    . intro t ht
      rcases List.mem_map.mp ((hmem t).mpr ht) with ⟨it, hit, heq⟩
      exact ⟨it, hkept it hit, heq⟩
  . rintro ⟨hunambiguous, hcomplete⟩
    refine ⟨_, ?_, rfl, ?_⟩
    . rw [List.nodup_map_iff_inj_on (List.Nodup.of_map _ hnodup)]
      intro a ha b hb heq
      apply List.inj_on_of_nodup_map hnodup ha hb (BackendServer.listedId_congr heq)
    . intro t
      constructor
      . intro ht
        rcases List.mem_map.mp ht with ⟨it, hit, heq⟩
        rw [← heq]
        apply hsub it (hkept it hit)
      . intro ht
        rcases hcomplete t ht with ⟨it, hit, heq⟩
        rcases hall it hit with ⟨other, hother, hid⟩
        rw [← heq, ← hunambiguous other (hkept other hother) it hit hid]
        exact List.mem_map_of_mem hother

-- `backends("", true)` lists all backends, and `backends(s, true)` those of `getBackendList(s)`.
structure ListsBackends (s : Services F) : Prop where
  all : ListsOnce (s.backends [] true).rows
    { t | ∃ service, s.LiveService service ∧ service.itsBackendServer.listed = t }
  named : ∀ name, name ≠ [] →
    ListsOnce (s.backends name true).rows { t | t ∈ s.getBackendList name }

theorem rows_backends (s : Services F) (name : ByteString) (full : Bool)
    : (s.backends name full).rows
        =
      backendRows full
        (s.serviceList (ByteString.lit "/" ++ s.itsPrefixMap.translate name)) [] := by
  rw [← servicesUnder_eq]
  rfl

theorem translate_nil (m : URIPrefixMap) : m.translate [] = [] :=
  List.prefix_nil.mp (m.routes_translate []).isPrefix

theorem listsOnce_all (s : Services F)
    : ListsOnce (s.backends [] true).rows
          { t | ∃ service, s.LiveService service ∧ service.itsBackendServer.listed = t }
        ↔
      Unambiguous (s.serviceList (ByteString.lit "/"))
        ∧ ∀ service, s.LiveService service → ∃ other ∈ s.serviceList (ByteString.lit "/"),
            other.itsBackendServer.listed = service.itsBackendServer.listed := by
  rw [rows_backends, translate_nil, List.append_nil, listsOnce_backendRows]
  . simp
  . intro it hit
    exact ⟨it, ⟨_, hit⟩, rfl⟩

theorem listsOnce_named (s : Services F) (name : ByteString)
    : ListsOnce (s.backends name true).rows { t | t ∈ s.getBackendList name }
        ↔
      Unambiguous (s.serviceList (ByteString.lit "/" ++ s.itsPrefixMap.translate name)) := by
  have hlist : ∀ t, t ∈ s.getBackendList name ↔ ∃ it ∈ s.serviceList
      (ByteString.lit "/" ++ s.itsPrefixMap.translate name), it.itsBackendServer.listed = t := by
    intro t
    rw [getBackendList_eq, List.mem_map]
  rw [rows_backends, listsOnce_backendRows]
  . simp [hlist]
  . intro it hit
    exact (hlist _).mpr ⟨it, hit, rfl⟩

-- Each live service has a service with its name, IP and port under the URI "/".
def AllUnderRoot (s : Services F) : Prop :=
  ∀ service, s.LiveService service → ∃ other ∈ s.serviceList (ByteString.lit "/"),
    other.itsBackendServer.listed = service.itsBackendServer.listed

def UnambiguousNames (s : Services F) : Prop :=
  ∀ name, Unambiguous (s.serviceList (ByteString.lit "/" ++ s.itsPrefixMap.translate name))

/--
`backends` lists what it is documented to list exactly if all live backends have a service under the
URI "/", and if no list it goes over has two backends whose names, IPs and ports are joined to one
string.
-/
theorem backends_complete_iff (s : Services F)
    : s.ListsBackends ↔ s.AllUnderRoot ∧ s.UnambiguousNames := by
  constructor
  . intro h
    have hall := (listsOnce_all s).mp h.all
    refine ⟨hall.2, ?_⟩
    intro name
    cases name with
    | nil =>
      rw [translate_nil, List.append_nil]
      exact hall.1
    | cons c name => exact (listsOnce_named s (c :: name)).mp (h.named (c :: name) (by simp))
  . rintro ⟨hall, hnames⟩
    have hroot := hnames []
    rw [translate_nil, List.append_nil] at hroot
    exact {
      all := (listsOnce_all s).mpr ⟨hroot, hall⟩
      named := fun name _ => (listsOnce_named s name).mpr (hnames name)
    }

section Sample

open Sample

theorem backends_complete_iff_sample
    : ∃ s, Lib.run step (init .random 2 []) [add "a" "/" 1 false, add "a" "/wms" 1 false] = some s
        ∧ s.ListsBackends := by
  refine ⟨_, rfl, ?_⟩
  apply (backends_complete_iff _).mpr
  have hserver : ∀ it ∈ [service "a" "/" 1 false, service "a" "/wms" 1 false],
      it.itsBackendServer = server "a" := by simp [service]
  have hall : ∀ k, ∀ it ∈ Services.serviceList
      (((init .random (2 : Rat) []).addService reactor (service "a" "/" 1 false)
        (ByteString.lit "/") 1 0).addService reactor (service "a" "/wms" 1 false)
        (ByteString.lit "/wms") 1 0) k, it.itsBackendServer = server "a" := by
    intro k it hit
    apply hserver
    rw [mem_serviceList_addService rfl, mem_serviceList_addService rfl, serviceList_init] at hit
    rcases hit with (hit | ⟨-, rfl⟩) | ⟨-, rfl⟩
    . contradiction
    . simp
    . simp
  constructor
  . rintro it ⟨k, hit⟩
    refine ⟨service "a" "/" 1 false, by decide, ?_⟩
    rw [hall k it hit]
    rfl
  . intro name it hit it' hit' _
    rw [hall _ it hit, hall _ it' hit']

theorem not_listsBackends_wms
    : ¬∀ (mode : ForwardingMode) (a : Rat) (cookieName : ByteString) (ops : List (ServicesOp Rat))
        (s : Services Rat),
        Lib.run step (init mode a cookieName) ops = some s → s.ListsBackends := by
  intro h
  have hall := ((listsOnce_all _).mp (h .random 2 [] [add "a" "/wms" 1 false] _ rfl).all).2
  obtain ⟨other, hother, -⟩ := hall (service "a" "/wms" 1 false)
    ⟨ByteString.lit "/wms", by decide⟩
  rw [mem_serviceList_addService rfl, serviceList_init] at hother
  rcases hother with hother | ⟨hroot, -⟩
  . contradiction
  . revert hroot
    decide

end Sample

end Services

end Sputnik
