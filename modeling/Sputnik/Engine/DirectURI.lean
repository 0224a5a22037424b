import Sputnik.Engine.Lemmas
import Sputnik.Services.Choice

/-!
This module contains when the URI that is to reach one host only does so: it shares its name space
with the URIs of all services and the prefixes of all backends.
-/

namespace Sputnik

variable {F : Type}

def ByteString.slash : UInt8 := 47

theorem name_eq_of_prefix {name name' uri uri' : ByteString} (hname : ByteString.slash ∉ name)
    (hname' : ByteString.slash ∉ name')
    (h : name ++ ByteString.slash :: uri <+: name' ++ ByteString.slash :: uri') : name = name' := by
  induction name generalizing name' with
  | nil =>
    cases name' with
    | nil => rfl
    | cons c name' =>
      have hc := (List.cons_prefix_cons.mp h).1
      rw [← hc] at hname'
      simp at hname'
  | cons c name ih =>
    cases name' with
    | nil =>
      have hc := (List.cons_prefix_cons.mp h).1
      rw [hc] at hname
      simp at hname
    | cons c' name' =>
      rcases List.cons_prefix_cons.mp h with ⟨hc, hrest⟩
      rw [hc, ih (List.not_mem_of_not_mem_cons hname) (List.not_mem_of_not_mem_cons hname') hrest]

structure BroadcastMessage.WellNamed (theMessage : BroadcastMessage F) : Prop where
  name : ByteString.slash ∉ theMessage.name
  uris : ∀ service ∈ theMessage.services, service.uri.head? = some ByteString.slash

namespace Engine

-- The URI of one host never captures that of another one.
theorem name_eq_of_directURI {theMessage other : BroadcastMessage F}
    (hmessage : theMessage.WellNamed) (hother : other.WellNamed) {service info : ServiceInfo}
    (hservice : service ∈ theMessage.services) (hinfo : info ∈ other.services)
    (h : directURI other info.uri <+: directURI theMessage service.uri)
    : other.name = theMessage.name := by
  rcases List.head?_eq_some_iff.mp (hmessage.uris service hservice) with ⟨rest, huri⟩
  rcases List.head?_eq_some_iff.mp (hother.uris info hinfo) with ⟨rest', huri'⟩
  apply name_eq_of_prefix hother.name hmessage.name
  unfold directURI at h
  rw [huri, huri', List.append_assoc, List.append_assoc, List.prefix_append_right_inj] at h
  exact h

variable [FloatArith F]

def processReplies (e : Engine F) (replies : List (Reactor × BroadcastMessage F))
    : Except Error (Engine F) :=
  replies.foldlM (fun e reply => e.processReply reply.1 reply.2) e

def acceptedOps (reply : Reactor × BroadcastMessage F) : List (ServicesOp F) :=
  if accepts reply.1 reply.2 then replyOps reply.1 reply.2 else []

theorem processReply_eq_ok {e e' : Engine F} {reply : Reactor × BroadcastMessage F}
    (h : e.processReply reply.1 reply.2 = .ok e')
    : Lib.run Services.step e.itsServices (acceptedOps reply) = some e'.itsServices := by
  unfold acceptedOps
  cases haccepts : accepts reply.1 reply.2 with
  | false =>
    rw [processReply_of_not_accepts e haccepts] at h
    rw [Except.ok.inj h]
    rfl
  | true =>
    by_cases hthrottle : reply.2.host.throttle < 0
    . rw [processReply_of_overflow e haccepts hthrottle] at h
      contradiction
    . rcases processReply_of_accepts e haccepts (by omega) with ⟨s', hrun, hreply⟩
      rw [hreply] at h
      rw [← Except.ok.inj h]
      assumption

theorem processReplies_eq_ok {e e' : Engine F} {replies : List (Reactor × BroadcastMessage F)}
    (h : e.processReplies replies = .ok e')
    : Lib.run Services.step e.itsServices (replies.flatMap acceptedOps) = some e'.itsServices := by
  unfold processReplies at h
  induction replies generalizing e with
  | nil =>
    rw [Except.ok.inj h]
    rfl
  | cons reply replies ih =>
    rw [List.foldlM_cons] at h
    cases hreply : e.processReply reply.1 reply.2 with
    | error err =>
      rw [hreply] at h
      contradiction
    | ok e₁ =>
      rw [hreply] at h
      rw [List.flatMap_cons, Lib.run_append, processReply_eq_ok hreply]
      apply ih h

def acceptedService (reply : Reactor × BroadcastMessage F) (info : ServiceInfo)
    : BackendService F :=
  replyService reply.2 (replyServer reply.2 (replyThrottle reply.2)) info

theorem mem_acceptedOps {reply : Reactor × BroadcastMessage F} {op : ServicesOp F}
    : op ∈ acceptedOps reply
        ↔
      accepts reply.1 reply.2 = true ∧ op ∈ replyOps reply.1 reply.2 := by
  unfold acceptedOps
  split
  . next haccepts => simp [haccepts]
  . next haccepts => simp [haccepts]

theorem mem_accepted {replies : List (Reactor × BroadcastMessage F)} {op : ServicesOp F}
    : op ∈ replies.flatMap acceptedOps
        ↔
      ∃ reply ∈ replies, accepts reply.1 reply.2 = true
        ∧ ((∃ info ∈ reply.2.services, ∃ uri,
            (uri = info.uri ∨ uri = directURI reply.2 info.uri)
              ∧ op = .addService reply.1 (acceptedService reply info) uri reply.2.host.load
                (replyThrottle reply.2))
          ∨ ∃ infoQuery ∈ reply.2.infoQuery, op = infoOp reply.2 infoQuery) := by
  simp only [List.mem_flatMap, mem_acceptedOps, mem_replyOps_iff, acceptedService]

theorem op_of_accepted {replies : List (Reactor × BroadcastMessage F)} {op : ServicesOp F}
    (hop : op ∈ replies.flatMap acceptedOps) : op.grows = true ∧ op.AnnouncesLoad := by
  rcases mem_accepted.mp hop with ⟨_, _, _, ⟨_, _, _, _, heq⟩ | ⟨_, _, heq⟩⟩
  . rw [heq]
    exact ⟨rfl, rfl⟩
  . rw [heq]
    exact ⟨rfl, trivial⟩

-- What the replies declare as prefixes, for all hosts and for one host only.
def declaredPrefixes (replies : List (Reactor × BroadcastMessage F)) : Set ByteString :=
  { p | ∃ reply ∈ replies, accepts reply.1 reply.2 = true
    ∧ ∃ info ∈ reply.2.services, info.definesPrefix = true
      ∧ (p = info.uri ∨ p = directURI reply.2 info.uri) }

section Accepted

variable {mode : ForwardingMode} {a : F} {cookieName : ByteString}
  {replies : List (Reactor × BroadcastMessage F)} {s : Services F}
  (hrun : Lib.run Services.step (Services.init mode a cookieName) (replies.flatMap acceptedOps)
    = some s)

include hrun in
theorem mem_serviceList_accepted {k : ByteString} {service : BackendService F}
    : service ∈ s.serviceList k
        ↔
      ∃ reply ∈ replies, accepts reply.1 reply.2 = true ∧ ∃ info ∈ reply.2.services,
        (k = info.uri ∨ k = directURI reply.2 info.uri) ∧ service = acceptedService reply info := by
  rw [Services.serviceList_run_append hrun
    (fun op hop => ServicesOp.stale_of_grows (op_of_accepted hop).1), Services.serviceList_init,
    List.nil_append]
  constructor
  . intro hservice
    rcases List.mem_flatMap.mp hservice with ⟨op, hop, happended⟩
    rcases Services.mem_appended happended with ⟨_, _, _, hadd⟩
    rcases mem_accepted.mp hop
      with ⟨reply, hreply, haccepts, ⟨info, hinfo, uri, huri, heq⟩ | ⟨infoQuery, _, heq⟩⟩
    . rw [hadd] at heq
      injection heq with _ hservice hk
      rw [← hk] at huri
      exact ⟨reply, hreply, haccepts, info, hinfo, huri, hservice⟩
    . rw [hadd] at heq
      contradiction
  . rintro ⟨reply, hreply, haccepts, info, hinfo, hk, hservice⟩
    rw [hservice]
    apply List.mem_flatMap.mpr
    refine ⟨.addService reply.1 (acceptedService reply info) k reply.2.host.load
      (replyThrottle reply.2), ?_, by simp [Services.appended]⟩
    exact mem_accepted.mpr ⟨reply, hreply, haccepts, .inl ⟨info, hinfo, k, hk, rfl⟩⟩

include hrun in
theorem registered_accepted : s.itsPrefixMap.registered = declaredPrefixes replies := by
  ext p
  constructor
  . rintro ⟨id, hregistered⟩
    rw [Services.registered_run hrun (fun op hop => (op_of_accepted hop).1)] at hregistered
    rcases hregistered with hinit | ⟨op, hop, hregisters⟩
    . exact absurd hinit (URIPrefixMap.not_registered_empty p id)
    . rcases mem_accepted.mp hop
        with ⟨reply, hreply, haccepts, ⟨info, hinfo, uri, huri, heq⟩ | ⟨infoQuery, _, heq⟩⟩
      . rw [heq] at hregisters
        rcases hregisters with ⟨hdefines, hp, _⟩
        rw [← hp] at huri
        exact ⟨reply, hreply, haccepts, info, hinfo, hdefines, huri⟩
      . rw [heq] at hregisters
        contradiction
  . rintro ⟨reply, hreply, haccepts, info, hinfo, hdefines, hp⟩
    refine ⟨backendServiceId (acceptedService reply info), ?_⟩
    rw [Services.registered_run hrun (fun op hop => (op_of_accepted hop).1)]
    right
    refine ⟨.addService reply.1 (acceptedService reply info) p reply.2.host.load
      (replyThrottle reply.2), ?_, hdefines, rfl, rfl⟩
    exact mem_accepted.mpr ⟨reply, hreply, haccepts, .inl ⟨info, hinfo, p, hp, rfl⟩⟩

include hrun in
theorem aligned_accepted : s.Aligned := by
  apply Services.aligned_run_of_not_stale hrun _ _ (Services.aligned_init mode a cookieName)
  . intro op hop
    apply (op_of_accepted hop).2
  . intro op hop
    apply ServicesOp.stale_of_grows (op_of_accepted hop).1

end Accepted

-- Only backends with this name are returned for this URI.
def ReachesOnly (s : Services F) (name uri : ByteString) : Prop :=
  ∀ (theReactor : Reactor) (theRequest : Request) (itsGenerator : Generator F)
    (service : BackendService F),
    theRequest.getResource = uri →
      s.getService theReactor theRequest itsGenerator = .ok (some service) →
        service.itsBackendServer.itsName = name

/--
The URI of one host reaches only this host exactly when no reply of another one announces the URI
that the declared prefixes make of it.
-/
theorem directURI_reachesOnly_iff [LawfulFloatArith F] (e e' : Engine F) (mode : ForwardingMode)
    (a : F) (cookieName : ByteString) (replies : List (Reactor × BroadcastMessage F))
    (hinit : e.itsServices = .init mode a cookieName) (hreplies : e.processReplies replies = .ok e')
    (hnamed : ∀ reply ∈ replies, reply.2.WellNamed) (reply : Reactor × BroadcastMessage F)
    (hreply : reply ∈ replies) (service : ServiceInfo) (hservice : service ∈ reply.2.services)
    : ReachesOnly e'.itsServices reply.2.name (directURI reply.2 service.uri)
        ↔
      ∀ other ∈ replies, accepts other.1 other.2 = true → ∀ info ∈ other.2.services,
        Routes (declaredPrefixes replies) (directURI reply.2 service.uri) info.uri →
          other.2.name = reply.2.name := by
  have hrun := processReplies_eq_ok hreplies
  rw [hinit] at hrun
  have hroutes := e'.itsServices.itsPrefixMap.routes_translate (directURI reply.2 service.uri)
  rw [registered_accepted hrun] at hroutes
  constructor
  . intro honly other hother haccepts info hinfo hrouted
    let theRequest : Request := {
      getResource := directURI reply.2 service.uri
      getClientIP := []
      getHeader := fun _ => none
    }
    have hmem : acceptedService other info ∈ e'.itsServices.resolvedList theRequest := by
      apply (mem_serviceList_accepted hrun).mpr
      exact ⟨other, hother, haccepts, info, hinfo, .inl (hroutes.unique hrouted), rfl⟩
    rcases Services.exists_getService (Services.allSelectable_run hrun) (aligned_accepted hrun)
      theRequest hmem with ⟨theReactor, itsGenerator, found, hget, hfound⟩
    have hname := honly theReactor theRequest itsGenerator found rfl hget
    have hsame := congrArg Prod.fst hfound
    exact hsame.symm.trans hname
  . intro hdisjoint theReactor theRequest itsGenerator found hresource hget
    have hmem := Services.mem_resolvedList_of_getService hget
    unfold Services.resolvedList at hmem
    rw [hresource] at hmem
    rcases (mem_serviceList_accepted hrun).mp hmem
      with ⟨other, hother, haccepts, info, hinfo, hk | hk, hfound⟩
    . rw [hk] at hroutes
      rw [hfound]
      apply hdisjoint other hother haccepts info hinfo hroutes
    . have hprefix := hroutes.isPrefix
      rw [hk] at hprefix
      rw [hfound]
      apply name_eq_of_directURI (hnamed reply hreply) (hnamed other hother) hservice hinfo hprefix

section Sample

open Sample

def routing : Engine Rat :=
  { Engine.new config false with itsServices := .init .random 2 [] }

def announces (name uri : String) : Reactor × BroadcastMessage Rat :=
  (reactor, Sample.reply name uri (some 1) (some 0))

theorem wellNamed_announces {name uri : String} (hname : ByteString.slash ∉ ByteString.lit name)
    (huri : (ByteString.lit uri).head? = some ByteString.slash)
    : (announces name uri).2.WellNamed where
  name := hname
  uris := by
    intro service hservice
    rw [List.mem_singleton.mp hservice]
    exact huri

theorem wellNamed_pair {uri uri' : String}
    (huri : (ByteString.lit uri).head? = some ByteString.slash)
    (huri' : (ByteString.lit uri').head? = some ByteString.slash)
    : ∀ reply ∈ [announces "a" uri, announces "b" uri'], reply.2.WellNamed := by
  simp only [List.forall_mem_cons, List.not_mem_nil, false_implies, implies_true, and_true]
  constructor
  . apply wellNamed_announces (by decide) huri
  . apply wellNamed_announces (by decide) huri'

theorem directURI_reachesOnly_iff_sample
    : ∃ e', routing.processReplies [announces "a" "/wfs", announces "b" "/wms"] = .ok e'
        ∧ ReachesOnly e'.itsServices (ByteString.lit "b") (ByteString.lit "/b/wms") := by
  refine ⟨_, rfl, ?_⟩
  apply (directURI_reachesOnly_iff routing _ .random 2 []
    [announces "a" "/wfs", announces "b" "/wms"] rfl rfl (wellNamed_pair rfl rfl)
    (announces "b" "/wms") (by simp) _ List.mem_cons_self).mpr
  intro other hother _ info hinfo hroutes
  rcases List.mem_cons.mp hother with heq | hmem
  . rw [heq] at hinfo
    have hprefix := hroutes.isPrefix
    rw [List.mem_singleton.mp hinfo] at hprefix
    exact absurd hprefix (by decide)
  . rw [List.mem_singleton.mp hmem]

-- The service that `a` announces has the URI that is to reach `b` only.
theorem not_directURI_reachesOnly
    : ¬∀ (e e' : Engine Rat) (mode : ForwardingMode) (a : Rat) (cookieName : ByteString)
        (replies : List (Reactor × BroadcastMessage Rat)),
        e.itsServices = .init mode a cookieName → e.processReplies replies = .ok e' →
          (∀ reply ∈ replies, reply.2.WellNamed) →
            ∀ reply ∈ replies, ∀ service ∈ reply.2.services,
              ReachesOnly e'.itsServices reply.2.name (directURI reply.2 service.uri) := by
  intro h
  have honly := h routing _ .random 2 [] [announces "a" "/b/wms", announces "b" "/wms"] rfl rfl
    (wellNamed_pair rfl rfl) (announces "b" "/wms") (by simp) _ List.mem_cons_self
  have hname := honly reactor { request with getResource := ByteString.lit "/b/wms" } generator _
    rfl rfl
  revert hname
  decide

end Sample

end Engine

end Sputnik
