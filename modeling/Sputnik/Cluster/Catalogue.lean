import Mathlib.Data.Set.Basic
import Sputnik.Cluster.Discovery

/-!
This module contains what the table of a frontend is for: where the backends keep serving the same
handlers, it is the catalogue of the backends that have answered.
-/

namespace Sputnik

variable {F : Type} [FloatArith F] {ι κ : Type}

/-! The catalogue -/

namespace Reactor

-- The same handlers and admin requests are registered at both.
def SameCatalogue (r r' : Reactor) : Prop :=
  r.getURIMap = r'.getURIMap ∧ r.getAdminRequestNames = r'.getAdminRequestNames

instance (r r' : Reactor) : Decidable (SameCatalogue r r') :=
  inferInstanceAs (Decidable (_ ∧ _))

end Reactor

abbrev Identity : Type := ByteString × Int

namespace Services

-- the keys of the routing table with the backends under them and the handlers these serve
def catalogue (s : Services F) : Set (ByteString × Identity × ByteString) :=
  fun (key, id, uri) => ∃ service ∈ s.serviceList key, service.nameAndPort = id
    ∧ service.itsURI = uri

def infoCatalogue (s : Services F) : Set (ByteString × Identity) :=
  fun (name, id) => ∃ infoRequest ∈ s.infoRequests name, infoRequest.itsBackend.nameAndPort = id

end Services

omit [FloatArith F] in
-- Whatever a backend sends is its reply, by the reactor of the handler.
theorem Engine.sendTo_handleBackendRead {e e' : Engine F} {theReactor : Reactor}
    {thePlatform : Platform F} {theProtobuf : Protobuf F} {err : ErrorCode} {bytesTransferred : Nat}
    {effects : List Effect} {buffer : ByteString} {dest : Endpoint}
    (h : e.handleBackendRead theReactor thePlatform theProtobuf err bytesTransferred
      = .ok (e', effects))
    (hsend : .sendTo buffer dest ∈ effects)
    : ∃ load n, buffer = theProtobuf.SerializeToString (e.reply theReactor load n) := by
  have hcases := handleBackendRead_eq_ok h
  split at hcases
  . rw [hcases.2] at hsend
    contradiction
  . next hdown =>
    split at hcases
    . simp [hcases.2, startListening] at hsend
    . rcases hcases with ⟨hengine, hcases⟩
      split at hcases
      . simp [hcases, startListening] at hsend
      . rcases hcases with ⟨buffer', hprocess, heffects⟩
        have hreply := processRequest_eq_ok (by simpa using hdown) hprocess
        simp only [heffects, startListening, List.mem_append, List.mem_ite_nil_left,
          List.mem_singleton, Effect.sendTo.injEq, reduceCtorEq, or_false] at hsend
        rcases hsend with ⟨hempty, hbuffer, _⟩
        split at hreply
        . rcases hreply with ⟨_, _, load, _, hserialized⟩
          have hconfig : e'.toEngineConfig = e.toEngineConfig := by
            rw [hengine, toEngineConfig_isPaused]
          rw [reply_congr hconfig] at hserialized
          exact ⟨load, _, hbuffer.trans hserialized⟩
        . simp [hreply] at hempty

namespace ClusterConfig

section Catalogue

variable (cfg : ClusterConfig ι κ F) (atBackend : κ → Reactor) (P : κ → Prop)

def identity (k : κ) : Identity :=
  ((cfg.backends k).itsHostname, (cfg.backends k).itsHttpPort.toNat)

def catalogue : Set (ByteString × Identity × ByteString) :=
  fun (key, id, uri) => ∃ k, P k ∧ id = cfg.identity k ∧ uri ∈ (atBackend k).getURIMap
    ∧ (key = uri ∨ key = (cfg.announcer k).hostURI uri)

def infoCatalogue : Set (ByteString × Identity) :=
  fun (name, id) => ∃ k, P k ∧ id = cfg.identity k ∧ name ∈ (atBackend k).getAdminRequestNames

end Catalogue

variable {cfg : ClusterConfig ι κ F} {atBackend : κ → Reactor} {log : List Datagram}

/-! What the backends send -/

def SteadyAction (atBackend : Reactor) : BackendAction F → Prop
  | .runHandler _ theReactor _ => theReactor.SameCatalogue atBackend
  | _ => True

instance (atBackend : Reactor) : ∀ a : BackendAction F, Decidable (SteadyAction atBackend a)
  | .runHandler _ theReactor _ =>
    inferInstanceAs (Decidable (theReactor.SameCatalogue atBackend))
  | .launch .. => .isTrue trivial
  | .receiveFails => .isTrue trivial
  | .command _ => .isTrue trivial

-- Whenever a handler runs at a backend, the backend serves the same.
def Steady (atBackend : κ → Reactor)
    : ∀ p : Party ι κ, p.State F → p.Action F → Prop
  | .frontend i, s, a => Regular (.frontend i : Party ι κ) s a
  | .backend k, s, a =>
    Regular (.backend k : Party ι κ) s a ∧ SteadyAction (atBackend k) a

instance (atBackend : κ → Reactor)
    : ∀ (p : Party ι κ) (s : p.State F) (a : p.Action F), Decidable (Steady atBackend p s a)
  | .frontend i, s, a => inferInstanceAs (Decidable (Regular (.frontend i : Party ι κ) s a))
  | .backend k, s, a =>
    inferInstanceAs (Decidable (Regular (.backend k : Party ι κ) s a ∧ SteadyAction (atBackend k) a))

omit [FloatArith F] in
theorem Steady.regular {p : Party ι κ} {s : p.State F} {a : p.Action F}
    (h : Steady atBackend p s a) : Regular p s a := by
  cases p with
  | frontend i => exact h
  | backend k => exact h.1

-- What a backend sends announces its catalogue.
def Catalogued (cfg : ClusterConfig ι κ F) (atBackend : κ → Reactor) (m : Datagram) : Prop :=
  ∀ k, m.source = cfg.endOf (.backend k) → ∃ theReactor load n,
    theReactor.SameCatalogue (atBackend k)
      ∧ m.payload = cfg.theProtobuf.SerializeToString
        ((cfg.announcer k).reply theReactor load n)

theorem catalogued_act {p : Party ι κ} {s s' : p.State F} {a : p.Action F} {out : List Datagram}
    (hends : Function.Injective cfg.endOf) (hs : cfg.PartyInv log p s)
    (hsteady : Steady atBackend p s a) (h : cfg.protocol.act p s a = some (s', out))
    : ∀ m ∈ out, cfg.Catalogued atBackend m := by
  intro m hm
  cases p with
  | frontend i =>
    intro k hsource
    have heq := hends ((source_of_act h m hm).symm.trans hsource)
    contradiction
  | backend k =>
    rcases out_actBackend h with hnone
      | ⟨loop, index, theReactor, thePlatform, err, n, engine, effects, hloop, ha, hhandle, hout⟩
    . rw [hnone] at hm
      contradiction
    . rw [hout] at hm
      rw [hloop] at hs
      have hsame := hsteady.2
      rw [ha] at hsame
      rcases mem_sentFrom.mp hm with ⟨hsource, hsend⟩
      rcases Engine.sendTo_handleBackendRead hhandle hsend with ⟨load, number, hpayload⟩
      intro k' hsource'
      have heq := hends (hsource.symm.trans hsource')
      injection heq with hk
      rw [← hk]
      refine ⟨theReactor, load, number, hsame, ?_⟩
      rw [hpayload]
      apply congrArg
      apply Engine.reply_congr
      exact hs.toEngineConfig

theorem invariant_catalogued (hdecodes : cfg.theProtobuf.Decodes)
    (hends : Function.Injective cfg.endOf)
    : Lib.Network.Invariant cfg.protocol cfg.PartyInv
        (fun log m => cfg.Authentic log m ∧ cfg.Catalogued atBackend m) (Steady atBackend)
        Fits where
  mono h := ⟨h.1.mono, h.2⟩
  act := by
    intro log p s a s' out hs hsteady hact
    rcases (invariant_protocol hdecodes hends).act hs hsteady.regular hact with ⟨hs', hout⟩
    exact ⟨hs', fun m hm => ⟨hout m hm, catalogued_act hends hs hsteady hact m hm⟩⟩
  receive hs hm hmessage hfits h := partyInv_receive hs hm hmessage.1 hfits h
  frame hne hs ht hsteady hact :=
    (invariant_protocol hdecodes hends).frame hne hs ht hsteady.regular hact

/-! What the frontend lists -/

-- A reply tells what its backend serves.
theorem sameCatalogue_of_reply {k : κ} {r r' : Reactor} {load load' : F} {n n' : Int32}
    (h : (cfg.announcer k).reply r load n = (cfg.announcer k).reply r' load' n')
    : r.SameCatalogue r' := by
  constructor
  . have hservices := congrArg (fun m => m.services.map ServiceInfo.uri) h
    simpa [Engine.reply, Engine.discoveryReply, Function.comp_def, ServiceInfo.uri] using hservices
  . have hqueries := congrArg (fun m => m.infoQuery.map InfoQuery.name) h
    simpa [Engine.reply, Engine.discoveryReply, Function.comp_def, InfoQuery.name] using hqueries

theorem Announces.sameCatalogue {i : ι} {m : Datagram} {k : κ} {theReactor : Reactor} {load : F}
    {n : Nat} (h : cfg.Announces log i m k theReactor load n) (hdecodes : cfg.theProtobuf.Decodes)
    (hlog : ∀ m ∈ log, cfg.Authentic log m ∧ cfg.Catalogued atBackend m)
    : theReactor.SameCatalogue (atBackend k) := by
  rcases (hlog m h.sent).2 k h.answers.isReply.source with ⟨r, load', n', hsame, hpayload⟩
  have hfits := h.fits
  have hreply := h.answers.isReply.payload
  have hparse := hdecodes _ Engine.reply_isInitialized (by rwa [hpayload] at hfits)
  have hparse' := hdecodes _ Engine.reply_isInitialized (by rwa [hreply] at hfits)
  unfold reply at hreply hparse'
  rw [← hpayload, hreply, hparse', Prod.mk.injEq] at hparse
  have hcatalogue := sameCatalogue_of_reply hparse.2
  exact ⟨hcatalogue.1.trans hsame.1, hcatalogue.2.trans hsame.2⟩

def HasAnswered (cfg : ClusterConfig ι κ F) (log : List Datagram) (i : ι) (n : Nat) (k : κ)
    : Prop :=
  ∃ m theReactor load, cfg.Announces log i m k theReactor load n

-- An answer of the backend has been read, and what it announces is listed.
def HasRead (cfg : ClusterConfig ι κ F) (log : List Datagram) (i : ι) (n : Nat) (s : Services F)
    (k : κ) : Prop :=
  ∃ m theReactor load, cfg.Announces log i m k theReactor load n ∧ cfg.Lists k theReactor load n s

theorem catalogue_of_announcesTable {i : ι} {n : Nat} {s : Services F}
    (htable : cfg.AnnouncesTable log i (fun _ n' => n' = n) s)
    (hsame : ∀ {m k theReactor load}, cfg.Announces log i m k theReactor load n →
      theReactor.SameCatalogue (atBackend k))
    (hread : ∀ k, cfg.HasAnswered log i n k → cfg.HasRead log i n s k)
    : s.catalogue = cfg.catalogue atBackend (cfg.HasAnswered log i n)
        ∧ s.infoCatalogue = cfg.infoCatalogue atBackend (cfg.HasAnswered log i n) := by
  constructor
  . ext ⟨key, id, uri⟩
    constructor
    . rintro ⟨service, hservice, hid, huri⟩
      rcases htable.services key service hservice
        with ⟨m, k, theReactor, load, _, uri', hannounces, rfl, huri', hkey, heq⟩
      rw [heq] at hid huri
      have heq' : uri' = uri := huri
      rw [heq'] at huri' hkey
      rw [(hsame hannounces).1] at huri'
      exact ⟨k, ⟨m, theReactor, load, hannounces⟩, hid.symm, huri', hkey⟩
    . rintro ⟨k, hanswered, hid, huri, hkey⟩
      rcases hread k hanswered with ⟨m, theReactor, load, hannounces, hlists⟩
      rw [← (hsame hannounces).1] at huri
      exact ⟨_, hlists.services uri huri key hkey, hid.symm, rfl⟩
  . ext ⟨name, id⟩
    constructor
    . rintro ⟨infoRequest, hinfo, hid⟩
      rcases htable.infoRequests name infoRequest hinfo
        with ⟨m, k, theReactor, load, _, hannounces, rfl, hname, heq⟩
      rw [heq] at hid
      rw [(hsame hannounces).2] at hname
      exact ⟨k, ⟨m, theReactor, load, hannounces⟩, hid.symm, hname⟩
    . rintro ⟨k, hanswered, hid, hname⟩
      rcases hread k hanswered with ⟨m, theReactor, load, hannounces, hlists⟩
      rw [← (hsame hannounces).2] at hname
      exact ⟨_, hlists.infoRequests name hname, hid.symm⟩

end ClusterConfig

namespace Cluster

open ClusterConfig

variable [DecidableEq ι] [DecidableEq κ]

section Sample

open Sample

theorem lists_handlers {s : Services Rat}
    (hservices : ∀ key ∈ [ByteString.lit "/wms",
        (cluster.announcer ()).hostURI (ByteString.lit "/wms")],
      (cluster.announcer ()).announcedService Engine.handlers 0 1 (ByteString.lit "/wms")
        ∈ s.serviceList key)
    (hinfo : (cluster.announcer ()).announcedInfoRequest 0 1 (ByteString.lit "qengine")
      ∈ s.infoRequests (ByteString.lit "qengine"))
    : cluster.Lists () Engine.handlers 0 1 s where
  services := by
    intro uri huri key hkey
    rw [List.mem_singleton.mp huri] at hkey ⊢
    apply hservices key
    simpa using hkey
  infoRequests := by
    intro name hname
    rw [List.mem_singleton.mp hname]
    exact hinfo

end Sample

end Cluster

end Sputnik
