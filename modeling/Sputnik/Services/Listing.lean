import Sputnik.Lib.Dedup
import Sputnik.Services.Selection

/-!
This module contains the queries that list backends, and when the backends they list for a name are
those that a request with this name is routed to.
-/

namespace Sputnik

open Std

variable {F : Type}

-- `Spine::Table`
structure Table where
  title : ByteString
  names : List ByteString
  rows : List (List ByteString)

namespace BackendServer

-- an entry of a `BackendList`
def listed (server : BackendServer F) : ByteString × ByteString × Int :=
  (server.itsName, server.itsIP, server.itsPort)

-- what the loop of `backends` tells the backends apart by
def listedId (server : BackendServer F) : ByteString :=
  let bar : UInt8 := 124
  server.itsName ++ bar :: server.itsIP ++ bar :: ByteString.toString server.itsPort

def row (server : BackendServer F) (full : Bool) : List ByteString :=
  if full then
    [server.itsName, server.itsIP, ByteString.toString server.itsPort]
  else
    [server.itsName]

end BackendServer

namespace Services

-- The loop over all URIs, of which the one that matches counts.
def servicesUnder (s : Services F) (serviceuri : ByteString) : List (BackendService F) :=
  s.itsServicesByURI.toList.flatMap fun uri => if uri.1 = serviceuri then uri.2.1 else []

def backendRows (full : Bool) : List (BackendService F) → List ByteString → List (List ByteString)
  | [], _ => []
  | backend :: rest, listedIds =>
    let server := backend.itsBackendServer
    let bar : UInt8 := 124
    let id := server.itsName ++ bar :: server.itsIP ++ bar :: ByteString.toString server.itsPort
    if id ∈ listedIds then
      backendRows full rest listedIds
    else
      server.row full :: backendRows full rest (id :: listedIds)

def backends (s : Services F) (service : ByteString) (full : Bool) : Table :=
  let serviceuri := ByteString.lit "/" ++ s.itsPrefixMap.translate service
  {
    title := ByteString.lit "Backends"
      ++ if service.isEmpty then [] else ByteString.lit " for service " ++ service
    names :=
      if full then
        [ByteString.lit "Backend", ByteString.lit "IP", ByteString.lit "Port"]
      else
        [ByteString.lit "Backend"]
    rows := backendRows full (s.servicesUnder serviceuri) []
  }

def getBackendList (s : Services F) (service : ByteString)
    : List (ByteString × ByteString × Int) :=
  let serviceuri := ByteString.lit "/" ++ s.itsPrefixMap.translate service
  (s.servicesUnder serviceuri).map fun backend => backend.itsBackendServer.listed

def getInfoRequestBackendList (s : Services F) (infoRequestName : ByteString)
    : List (ByteString × ByteString × Int) :=
  match s.itsBackendInfoRequests[infoRequestName]? with
  | some requestList => requestList.map fun infoRequest => infoRequest.itsBackend.listed
  | none => []

-- a set: the keys of a map are distinct
def getInfoRequestNames (s : Services F) : List ByteString :=
  (s.itsBackendInfoRequests.toList.filter fun item => !item.2.isEmpty).map fun item => item.1

theorem servicesUnder_eq (s : Services F) (serviceuri : ByteString)
    : s.servicesUnder serviceuri = s.serviceList serviceuri := by
  unfold servicesUnder serviceList
  rw [Lib.flatMap_toList s.itsServicesByURI serviceuri fun entry => entry.1]

theorem getBackendList_eq (s : Services F) (service : ByteString)
    : s.getBackendList service
        =
      (s.serviceList (ByteString.lit "/" ++ s.itsPrefixMap.translate service)).map
        fun backend => backend.itsBackendServer.listed := by
  simp only [getBackendList, servicesUnder_eq]

theorem getInfoRequestBackendList_eq (s : Services F) (infoRequestName : ByteString)
    : s.getInfoRequestBackendList infoRequestName
        =
      (s.infoRequests infoRequestName).map fun infoRequest => infoRequest.itsBackend.listed := by
  unfold getInfoRequestBackendList infoRequests
  cases s.itsBackendInfoRequests[infoRequestName]? with
  | none => rfl
  | some requestList => rfl

theorem mem_getInfoRequestNames {s : Services F} {name : ByteString}
    : name ∈ s.getInfoRequestNames ↔ s.infoRequests name ≠ [] := by
  simp only [getInfoRequestNames, List.mem_map, List.mem_filter, Prod.exists,
    TreeMap.mem_toList_iff_getElem?_eq_some, exists_and_right, exists_eq_right, infoRequests]
  cases s.itsBackendInfoRequests[name]? with
  | none => simp
  | some requestList => simp

theorem backendRows_eq (full : Bool) (l : List (BackendService F)) (listedIds : List ByteString)
    : backendRows full l listedIds
        =
      (Lib.dedupBy (fun backend => backend.itsBackendServer.listedId) l listedIds).map
        fun backend => backend.itsBackendServer.row full := by
  induction l generalizing listedIds with
  | nil => rfl
  | cons backend rest ih =>
    have hrows : backendRows full (backend :: rest) listedIds
        = if backend.itsBackendServer.listedId ∈ listedIds then
            backendRows full rest listedIds
          else
            backend.itsBackendServer.row full
              :: backendRows full rest (backend.itsBackendServer.listedId :: listedIds) := rfl
    rw [hrows, Lib.dedupBy]
    split
    . apply ih
    . rw [List.map_cons, ih]

theorem mem_backendRows {full : Bool} {l : List (BackendService F)} {listedIds : List ByteString}
    {row : List ByteString} (h : row ∈ backendRows full l listedIds)
    : ∃ backend ∈ l, row = backend.itsBackendServer.row full := by
  rw [backendRows_eq] at h
  rcases List.mem_map.mp h with ⟨backend, hbackend, hrow⟩
  exact ⟨backend, (Lib.mem_of_mem_dedupBy hbackend).1, hrow.symm⟩

theorem mem_rows_backends {s : Services F} {service : ByteString} {full : Bool}
    {row : List ByteString} (h : row ∈ (s.backends service full).rows)
    : ∃ k, ∃ backend ∈ s.serviceList k, row = backend.itsBackendServer.row full := by
  rcases mem_backendRows h with ⟨backend, hbackend, hrow⟩
  rw [servicesUnder_eq] at hbackend
  exact ⟨_, backend, hbackend, hrow⟩

end Services

/-! The name of a service, and the request for it -/

namespace URIPrefixMap

-- The prefix that captures a name is the one that captures its URI, but for the leading slash.
def TranslatesAlike (m : URIPrefixMap) (service : ByteString) : Prop :=
  let uri := ByteString.lit "/" ++ service
  match m.find? uri, m.find? service with
  | none, none => True
  | some p, none => p = uri
  | none, some q => q = service
  | some p, some q => p = ByteString.lit "/" ++ q

theorem translatesAlike_iff {m : URIPrefixMap} {service : ByteString}
    : m.TranslatesAlike service
        ↔
      m.translate (ByteString.lit "/" ++ service)
        = ByteString.lit "/" ++ m.translate service := by
  unfold TranslatesAlike translate
  dsimp
  cases m.find? (ByteString.lit "/" ++ service) with
  | none =>
    cases m.find? service with
    | none => simp
    | some q => simp [eq_comm]
  | some p =>
    cases m.find? service with
    | none => simp
    | some q => simp

instance (m : URIPrefixMap) (service : ByteString) : Decidable (m.TranslatesAlike service) :=
  decidable_of_iff _ translatesAlike_iff.symm

end URIPrefixMap

variable [FloatArith F]

namespace Services

structure ListsRouted (s : Services F) (service : ByteString) : Prop where
  sameBackends : ∀ theRequest : Request, theRequest.getResource = ByteString.lit "/" ++ service →
    (s.getBackendList service).Perm
      ((s.resolvedList theRequest).map fun backend => backend.itsBackendServer.listed)
  isEmpty : ∀ (theReactor : Reactor) (theRequest : Request) (itsGenerator : Generator F),
    theRequest.getResource = ByteString.lit "/" ++ service →
      (s.getBackendList service = []
        ↔ s.getService theReactor theRequest itsGenerator = .ok none)

theorem getService_eq_none_iff {mode : ForwardingMode} {s : Services F}
    (hs : s.AllSelectable mode) (theReactor : Reactor) (theRequest : Request)
    (itsGenerator : Generator F)
    : s.getService theReactor theRequest itsGenerator = .ok none
        ↔
      s.resolvedList theRequest = [] := by
  constructor
  . intro hnone
    by_contra hne
    rcases getService_eq_some theReactor itsGenerator
      (fun k entry hentry => ⟨(hs.2 k entry hentry).sameBackends, (hs.2 k entry hentry).weighted⟩)
      hne with ⟨_, _, service, _, _, _, hget⟩
    rw [hnone] at hget
    injection hget with hget
    contradiction
  . apply getService_eq_none

theorem listsRouted_of_translatesAlike {mode : ForwardingMode} {s : Services F}
    {service : ByteString} (hs : s.AllSelectable mode)
    (halike : s.itsPrefixMap.TranslatesAlike service) : s.ListsRouted service := by
  have hlist : ∀ theRequest : Request, theRequest.getResource = ByteString.lit "/" ++ service →
      s.getBackendList service
        = (s.resolvedList theRequest).map fun backend => backend.itsBackendServer.listed := by
    intro theRequest hresource
    rw [getBackendList_eq, ← URIPrefixMap.translatesAlike_iff.mp halike, ← hresource]
    rfl
  constructor
  . intro theRequest hresource
    rw [hlist theRequest hresource]
  . intro theReactor theRequest itsGenerator hresource
    rw [hlist theRequest hresource, getService_eq_none_iff hs, List.map_eq_nil_iff]

def unlisted : BackendService F where
  itsBackendServer := {
    itsName := []
    itsIP := []
    itsPort := 0
    itsComment := []
    itsLoad := 0
    itsThrottle := 0
  }
  itsURI := []
  itsLastUpdate := 0
  itsAllowCache := false
  itsSequenceNumber := 0
  definesPrefix := false

/--
What `getBackendList` lists for a name and what `getService` picks from for its URI are the same
backends in all reachable states with the same prefixes exactly when the prefix map translates the
name as it translates the URI.
-/
theorem listsRouted_iff (mode : ForwardingMode) (a : F) (cookieName : ByteString)
    (ops : List (ServicesOp F)) (s : Services F) (service : ByteString)
    (hrun : Lib.run step (init mode a cookieName) ops = some s)
    : (∀ ops' s', Lib.run step (init mode a cookieName) ops' = some s' →
          s'.itsPrefixMap = s.itsPrefixMap → s'.ListsRouted service)
        ↔
      s.itsPrefixMap.TranslatesAlike service := by
  constructor
  . intro h
    by_contra halike
    rw [URIPrefixMap.translatesAlike_iff] at halike
    let uri := ByteString.lit "/" ++ service
    let routed := s.itsPrefixMap.translate uri
    let theRequest : Request := {
      getResource := uri
      getClientIP := []
      getHeader := fun _ => none
    }
    -- one more service under the key of the request and not under the key of the listing
    let added := s.addService Sample.reactor unlisted routed 0 0
    have hstep : s.step (.addService Sample.reactor unlisted routed 0 0) = some added := rfl
    have hadded : Lib.run step (init mode a cookieName)
        (ops ++ [.addService Sample.reactor unlisted routed 0 0]) = some added := by
      rw [Lib.run_append, hrun]
      rfl
    have hbefore := ((h ops s hrun rfl).sameBackends theRequest rfl).length_eq
    have hafter := ((h _ added hadded rfl).sameBackends theRequest rfl).length_eq
    rw [getBackendList_eq, List.length_map, List.length_map] at hbefore hafter
    have hlisted : added.serviceList (ByteString.lit "/" ++ s.itsPrefixMap.translate service)
        = s.serviceList (ByteString.lit "/" ++ s.itsPrefixMap.translate service) := by
      rw [serviceList_step hstep]
      simp [stepList, routed, uri, halike]
    have hrouted : added.resolvedList theRequest = s.resolvedList theRequest ++ [unlisted] := by
      have hlist := serviceList_step hstep routed
      simp only [stepList, if_true] at hlist
      exact hlist
    have hsame : added.itsPrefixMap = s.itsPrefixMap := rfl
    rw [hsame, hlisted, hrouted, List.length_append, hbefore] at hafter
    simp at hafter
  . intro halike ops' s' hrun' hsame
    apply listsRouted_of_translatesAlike (allSelectable_run hrun')
    rwa [hsame]

section Sample

open Sample

theorem listsRouted_iff_sample
    : ∃ s, Lib.run step (init .random 2 []) [add "a" "/wms" 1 true] = some s
        ∧ s.ListsRouted (ByteString.lit "wms") := by
  refine ⟨_, rfl, ?_⟩
  apply (listsRouted_iff .random 2 [] [add "a" "/wms" 1 true] _ (ByteString.lit "wms") rfl).mpr _
    [add "a" "/wms" 1 true] _ rfl rfl
  decide

def belowPrefix : Request where
  getResource := ByteString.lit "/wms/layers"
  getClientIP := []
  getHeader _ := none

theorem not_listsRouted_belowPrefix
    : ¬∀ (mode : ForwardingMode) (a : Rat) (cookieName : ByteString) (ops : List (ServicesOp Rat))
        (s : Services Rat) (service : ByteString),
        Lib.run step (init mode a cookieName) ops = some s → s.ListsRouted service := by
  intro h
  have hlists := h .random 2 [] [add "a" "/wms" 1 true] _ (ByteString.lit "wms/layers") rfl
  have hlength := (hlists.sameBackends belowPrefix rfl).length_eq
  revert hlength
  decide

end Sample

end Services

end Sputnik
