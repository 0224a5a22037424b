import Sputnik.Cluster.Impl

/-!
This module contains what makes a datagram authentic: it is a request that a frontend has sent, or
the reply of a backend to such a request. Every datagram a backend sends is.
-/

namespace Sputnik

variable {F : Type} [FloatArith F] {ι κ : Type}

-- What fits into the receive buffer is decoded to what has been encoded.
def Protobuf.Decodes (theProtobuf : Protobuf F) : Prop :=
  ∀ message, message.isInitialized = true →
    (theProtobuf.SerializeToString message).length ≤ 8192 →
      theProtobuf.ParseFromString (theProtobuf.SerializeToString message) = (true, message)

namespace ClusterConfig

variable (cfg : ClusterConfig ι κ F)

def request (i : ι) (n : Nat) : BroadcastMessage F where
  name? := some (cfg.frontends i).itsHostname
  messageType? := some .serviceDiscoveryRequest
  seqnum? := some (Int32.ofInt n)

def announcer (k : κ) : Engine F := .new (cfg.backends k) false

def reply (k : κ) (theReactor : Reactor) (load : F) (n : Nat) : BroadcastMessage F :=
  (cfg.announcer k).reply theReactor load (Int32.ofInt n)

structure IsRequest (m : Datagram) (i : ι) (n : Nat) : Prop where
  source : m.source = cfg.endOf (.frontend i)
  payload : m.payload = cfg.theProtobuf.SerializeToString (cfg.request i n)
  number : n < 65535

structure IsReply (m : Datagram) (k : κ) (theReactor : Reactor) (load : F) (n : Nat) : Prop where
  source : m.source = cfg.endOf (.backend k)
  payload : m.payload = cfg.theProtobuf.SerializeToString (cfg.reply k theReactor load n)
  port : (cfg.backends k).itsHttpPort.toNat ≤ 2147483647
  throttle : (cfg.backends k).itsThrottleLimit.toNat ≤ 2147483647

-- The reply goes to the frontend that asked, with the number of the request that has been read.
structure Answers (log : List Datagram) (m : Datagram) (k : κ) (theReactor : Reactor) (load : F)
    (i : ι) (n : Nat) : Prop where
  isReply : cfg.IsReply m k theReactor load n
  dest : m.dest = cfg.endOf (.frontend i)
  asked : ∃ request ∈ log, cfg.IsRequest request i n ∧ request.payload.length ≤ 8192

def Authentic (log : List Datagram) (m : Datagram) : Prop :=
  (∃ i n, cfg.IsRequest m i n) ∨ ∃ k theReactor load i n, cfg.Answers log m k theReactor load i n

-- An entry of the table of the frontend `i` that a reply to it announces.
structure Announces (log : List Datagram) (i : ι) (m : Datagram) (k : κ) (theReactor : Reactor)
    (load : F) (n : Nat) : Prop where
  sent : m ∈ log
  fits : m.payload.length ≤ 8192
  answers : cfg.Answers log m k theReactor load i n

-- `P` says which backends and which requests.
def AnnouncesService (log : List Datagram) (i : ι) (P : κ → Nat → Prop) (key : ByteString)
    (service : BackendService F) : Prop :=
  ∃ m k theReactor load n uri, cfg.Announces log i m k theReactor load n ∧ P k n
    ∧ uri ∈ theReactor.getURIMap ∧ (key = uri ∨ key = (cfg.announcer k).hostURI uri)
    ∧ service = (cfg.announcer k).announcedService theReactor load (Int32.ofInt n) uri

def AnnouncesInfoRequest (log : List Datagram) (i : ι) (P : κ → Nat → Prop) (name : ByteString)
    (infoRequest : BackendInfoRequest F) : Prop :=
  ∃ m k theReactor load n, cfg.Announces log i m k theReactor load n ∧ P k n
    ∧ name ∈ theReactor.getAdminRequestNames
    ∧ infoRequest = (cfg.announcer k).announcedInfoRequest load (Int32.ofInt n) name

section Mono

variable {cfg} {log more : List Datagram}

theorem Answers.mono {m : Datagram} {k : κ} {theReactor : Reactor} {load : F} {i : ι} {n : Nat}
    (h : cfg.Answers log m k theReactor load i n)
    : cfg.Answers (log ++ more) m k theReactor load i n where
  isReply := h.isReply
  dest := h.dest
  asked := by
    rcases h.asked with ⟨request, hmem, hrequest⟩
    exact ⟨request, List.mem_append_left more hmem, hrequest⟩

theorem Authentic.mono {m : Datagram} (h : cfg.Authentic log m)
    : cfg.Authentic (log ++ more) m := by
  cases h with
  | inl hrequest => exact .inl hrequest
  | inr hreply =>
    rcases hreply with ⟨k, theReactor, load, i, n, hanswers⟩
    exact .inr ⟨k, theReactor, load, i, n, hanswers.mono⟩

theorem Announces.mono {i : ι} {m : Datagram} {k : κ} {theReactor : Reactor} {load : F} {n : Nat}
    (h : cfg.Announces log i m k theReactor load n)
    : cfg.Announces (log ++ more) i m k theReactor load n where
  sent := List.mem_append_left more h.sent
  fits := h.fits
  answers := h.answers.mono

theorem AnnouncesService.mono {i : ι} {P : κ → Nat → Prop} {key : ByteString}
    {service : BackendService F} (h : cfg.AnnouncesService log i P key service)
    : cfg.AnnouncesService (log ++ more) i P key service := by
  rcases h with ⟨m, k, theReactor, load, n, uri, hannounces, hservice⟩
  exact ⟨m, k, theReactor, load, n, uri, hannounces.mono, hservice⟩

theorem AnnouncesInfoRequest.mono {i : ι} {P : κ → Nat → Prop} {name : ByteString}
    {infoRequest : BackendInfoRequest F}
    (h : cfg.AnnouncesInfoRequest log i P name infoRequest)
    : cfg.AnnouncesInfoRequest (log ++ more) i P name infoRequest := by
  rcases h with ⟨m, k, theReactor, load, n, hannounces, hinfo⟩
  exact ⟨m, k, theReactor, load, n, hannounces.mono, hinfo⟩

end Mono

end ClusterConfig

theorem mem_sentFrom {source : Endpoint} {effects : List Effect} {m : Datagram}
    : m ∈ sentFrom source effects
        ↔
      m.source = source ∧ .sendTo m.payload m.dest ∈ effects := by
  simp only [sentFrom, List.mem_filterMap]
  constructor
  . rintro ⟨effect, heffect, hm⟩
    cases effect with
    | sendTo buffer dest =>
      rw [← Option.some.inj hm]
      exact ⟨rfl, heffect⟩
    | _ => contradiction
  . rintro ⟨hsource, heffect⟩
    refine ⟨_, heffect, ?_⟩
    rw [← hsource]

namespace ClusterConfig

variable {cfg : ClusterConfig ι κ F}

theorem reply_eq {k : κ} {e : Engine F} (h : e.toEngineConfig = cfg.backends k)
    (theReactor : Reactor) (load : F) (n : Nat)
    : e.reply theReactor load (Int32.ofInt n) = cfg.reply k theReactor load n := by
  unfold reply
  apply Engine.reply_congr
  rw [h]
  rfl

omit [FloatArith F] in
theorem messageType_request (i : ι) (n : Nat)
    : (cfg.request i n).messageType = .serviceDiscoveryRequest := rfl

theorem messageType_reply (k : κ) (theReactor : Reactor) (load : F) (n : Nat)
    : (cfg.reply k theReactor load n).messageType = .serviceDiscoveryReply := rfl

theorem seqnum_reply (k : κ) (theReactor : Reactor) (load : F) (n : Nat)
    : (cfg.reply k theReactor load n).seqnum = (Int32.ofInt n).toInt := by
  change (Int32.ofInt (Int32.ofInt n).toInt).toInt = (Int32.ofInt n).toInt
  rw [Int32.ofInt_toInt]

-- What an authentic datagram decodes to.
theorem Authentic.parse {log : List Datagram} {m : Datagram} (h : cfg.Authentic log m)
    (hdecodes : cfg.theProtobuf.Decodes) (hfits : m.payload.length ≤ 8192)
    : (∃ i n, cfg.IsRequest m i n
          ∧ cfg.theProtobuf.ParseFromString m.payload = (true, cfg.request i n))
        ∨ ∃ k theReactor load i n, cfg.Answers log m k theReactor load i n
          ∧ cfg.theProtobuf.ParseFromString m.payload = (true, cfg.reply k theReactor load n) := by
  cases h with
  | inl hrequest =>
    left
    rcases hrequest with ⟨i, n, hrequest⟩
    refine ⟨i, n, hrequest, ?_⟩
    rw [hrequest.payload] at hfits ⊢
    exact hdecodes _ rfl hfits
  | inr hreply =>
    right
    rcases hreply with ⟨k, theReactor, load, i, n, hanswers⟩
    refine ⟨k, theReactor, load, i, n, hanswers, ?_⟩
    have hpayload := hanswers.isReply.payload
    rw [hpayload] at hfits ⊢
    apply hdecodes _ Engine.reply_isInitialized hfits

/-! The backends -/

-- what holds of a backend in every run
structure BackendCore (cfg : ClusterConfig ι κ F) (k : κ) (loop : BackendLoop F) : Prop where
  toEngineConfig : loop.engine.toEngineConfig = cfg.backends k
  outstanding : loop.outstanding ≤ 1

omit [FloatArith F] in
theorem BackendCore.step {k : κ} {loop loop' : BackendLoop F} {event : BackendEvent F}
    {effects : List Effect} (hloop : cfg.BackendCore k loop)
    (h : loop.step cfg.theProtobuf event = some (loop', effects)) : cfg.BackendCore k loop' where
  toEngineConfig := by
    rw [← hloop.toEngineConfig]
    cases event with
    | datagramArrives datagram remoteEnd =>
      simp only [BackendLoop.step] at h
      split at h
      . contradiction
      . injection h with h
        injection h with hloop' _
        rw [← hloop']
        rfl
    | receiveFails =>
      simp only [BackendLoop.step] at h
      split at h
      . contradiction
      . injection h with h
        injection h with hloop' _
        rw [← hloop']
    | runHandler index theReactor thePlatform =>
      rcases BackendLoop.step_runHandler h with ⟨err, n, engine, _, hhandle, hloop'⟩
      have hcases := Engine.handleBackendRead_eq_ok hhandle
      rw [hloop', BackendLoop.engine_performAll]
      split at hcases
      . rw [hcases.1]
      . split at hcases
        . rw [hcases.1]
        . rw [hcases.1, Engine.toEngineConfig_isPaused]
    | command c =>
      injection h with h
      injection h with hloop' _
      rw [← hloop']
      apply Engine.toEngineConfig_instruct
  outstanding := by
    have hsame := BackendLoop.outstanding_step h
    have houtstanding := hloop.outstanding
    omega

structure BackendInv (cfg : ClusterConfig ι κ F) (log : List Datagram) (k : κ)
    (loop : BackendLoop F) : Prop extends cfg.BackendCore k loop where
  read : ∀ n, (.success, n) ∈ loop.completed →
    ∃ m ∈ log, cfg.Authentic log m ∧ m.payload.length ≤ 8192
      ∧ loop.engine.itsReceiveBuffer.take n = m.payload ∧ loop.engine.itsRemoteEnd = m.source

theorem BackendInv.mono {log more : List Datagram} {k : κ} {loop : BackendLoop F}
    (h : cfg.BackendInv log k loop) : cfg.BackendInv (log ++ more) k loop where
  toEngineConfig := h.toEngineConfig
  outstanding := h.outstanding
  read := by
    intro n hn
    rcases h.read n hn with ⟨m, hm, hauthentic, hread⟩
    exact ⟨m, List.mem_append_left more hm, hauthentic.mono, hread⟩

-- The handler answers the datagram that is in the buffer.
theorem authentic_handleBackendRead {log : List Datagram} {k : κ} {e e' : Engine F}
    {theReactor : Reactor} {thePlatform : Platform F} {n : Nat} {effects : List Effect}
    {m : Datagram} (hdecodes : cfg.theProtobuf.Decodes)
    (hconfig : e.toEngineConfig = cfg.backends k) (hm : m ∈ log) (hauthentic : cfg.Authentic log m)
    (hfits : m.payload.length ≤ 8192) (hbuffer : e.itsReceiveBuffer.take n = m.payload)
    (hremote : e.itsRemoteEnd = m.source)
    (h : e.handleBackendRead theReactor thePlatform cfg.theProtobuf .success n
      = .ok (e', effects))
    : ∀ out ∈ sentFrom (cfg.endOf (.backend k)) effects, cfg.Authentic log out := by
  intro out hout
  rcases mem_sentFrom.mp hout with ⟨hsource, hsend⟩
  have hcases := Engine.handleBackendRead_eq_ok h
  split at hcases
  . rw [hcases.2] at hsend
    contradiction
  . next hdown =>
    rw [if_neg (by simp)] at hcases
    rcases hcases with ⟨hengine, hcases⟩
    split at hcases
    . simp [hcases, Engine.startListening] at hsend
    . rcases hcases with ⟨buffer, hprocess, heffects⟩
      have hreply := Engine.processRequest_eq_ok (by simpa using hdown) hprocess
      have hconfig' : e'.toEngineConfig = cfg.backends k := by
        rw [hengine, Engine.toEngineConfig_isPaused, hconfig]
      have hbuffer' : e'.itsReceiveBuffer.take n = m.payload := by
        rw [hengine, Engine.itsReceiveBuffer_isPaused, hbuffer]
      have hremote' : e'.itsRemoteEnd = m.source := by
        rw [hengine, Engine.itsRemoteEnd_isPaused, hremote]
      rw [hbuffer'] at hreply
      rw [hremote'] at heffects
      rcases hauthentic.parse hdecodes hfits
        with ⟨i, seq, hrequest, hparse⟩ | ⟨_, _, _, _, _, _, hparse⟩
      . rw [hparse, if_pos (messageType_request i seq)] at hreply
        rcases hreply with ⟨hport, hthrottle, load, _, hserialized⟩
        rw [hconfig'] at hport hthrottle
        have heq : Effect.sendTo out.payload out.dest = .sendTo buffer m.source := by
          rw [heffects, List.mem_append] at hsend
          cases hsend with
          | inl hsend =>
            split at hsend
            . contradiction
            . apply List.mem_singleton.mp hsend
          | inr hlisten => simp [Engine.startListening] at hlisten
        injection heq with hpayload hdest
        right
        refine ⟨k, theReactor, load, i, seq, ?_⟩
        exact {
          isReply := {
            source := hsource
            payload := by
              rw [hpayload, hserialized, ← reply_eq hconfig']
              rfl
            port := hport
            throttle := hthrottle
          }
          dest := by rw [hdest, hrequest.source]
          asked := ⟨m, hm, hrequest, hfits⟩
        }
      . rw [hparse, if_neg (by rw [messageType_reply]; decide)] at hreply
        rw [hreply] at heffects
        simp [heffects, Engine.startListening] at hsend

theorem backendInv_step {log : List Datagram} {k : κ} {loop loop' : BackendLoop F}
    {event : BackendEvent F} {effects : List Effect} (hdecodes : cfg.theProtobuf.Decodes)
    (hloop : cfg.BackendInv log k loop)
    (harrives : ∀ datagram remoteEnd, event ≠ .datagramArrives datagram remoteEnd)
    (h : loop.step cfg.theProtobuf event = some (loop', effects))
    : cfg.BackendInv log k loop'
        ∧ ∀ out ∈ sentFrom (cfg.endOf (.backend k)) effects, cfg.Authentic log out := by
  have hcore := hloop.toBackendCore.step h
  have houtstanding := hloop.outstanding
  cases event with
  | datagramArrives datagram remoteEnd => exact absurd rfl (harrives datagram remoteEnd)
  | receiveFails =>
    simp only [BackendLoop.step] at h
    split at h
    . contradiction
    . injection h with h
      injection h with hloop' heffects
      rw [← hloop', ← heffects]
      refine ⟨?_, by simp [sentFrom]⟩
      exact {
        toBackendCore := by rwa [hloop']
        read := by
          intro n hn
          apply hloop.read n
          simpa using hn
      }
  | runHandler index theReactor thePlatform =>
    rcases BackendLoop.step_runHandler h with ⟨err, n, engine, hcompleted, hhandle, hloop'⟩
    have hmem := List.mem_of_getElem? hcompleted
    have hempty : loop.completed.eraseIdx index = [] := by
      rcases List.getElem?_eq_some_iff.mp hcompleted with ⟨hindex, _⟩
      unfold BackendLoop.outstanding at houtstanding
      apply List.eq_nil_of_length_eq_zero
      rw [List.length_eraseIdx_of_lt hindex]
      omega
    constructor
    . exact {
        toBackendCore := hcore
        read := by
          intro n hn
          rw [hloop', BackendLoop.completed_performAll, hempty] at hn
          contradiction
      }
    . by_cases herr : err = .success
      . rw [herr] at hmem hhandle
        rcases hloop.read n hmem with ⟨m, hm, hauthentic, hfits, hbuffer, hremote⟩
        apply authentic_handleBackendRead hdecodes hloop.toEngineConfig hm hauthentic hfits hbuffer
          hremote hhandle
      . intro out hout
        have hsend := (mem_sentFrom.mp hout).2
        have hcases := Engine.handleBackendRead_eq_ok hhandle
        split at hcases
        . rw [hcases.2] at hsend
          contradiction
        . simp [hcases.2, Engine.startListening] at hsend
  | command c =>
    injection h with h
    injection h with hloop' heffects
    rw [← hloop', ← heffects]
    refine ⟨?_, by simp [sentFrom]⟩
    exact {
      toBackendCore := by rwa [hloop']
      read := by
        intro n hn
        rcases hloop.read n hn with ⟨m, hm, hauthentic, hfits, hbuffer, hremote⟩
        refine ⟨m, hm, hauthentic, hfits, ?_, ?_⟩
        . simpa using hbuffer
        . simpa using hremote
    }

theorem backendInv_receive {log : List Datagram} {k : κ} {loop loop' : BackendLoop F}
    {m : Datagram} {effects : List Effect} (hloop : cfg.BackendInv log k loop) (hm : m ∈ log)
    (hauthentic : cfg.Authentic log m) (hfits : m.payload.length ≤ 8192)
    (h : loop.step cfg.theProtobuf (.datagramArrives m.payload m.source) = some (loop', effects))
    : cfg.BackendInv log k loop' := by
  have hcore := hloop.toBackendCore.step h
  have houtstanding := hloop.outstanding
  have htake : m.payload.take 8192 = m.payload := List.take_of_length_le hfits
  simp only [BackendLoop.step, htake] at h
  split at h
  . contradiction
  . next pending hpending =>
    injection h with h
    injection h with hloop' _
    have hnone : loop.completed = [] := by
      unfold BackendLoop.outstanding at houtstanding
      apply List.eq_nil_of_length_eq_zero
      omega
    rw [← hloop']
    exact {
      toBackendCore := by rwa [hloop']
      read := by
        intro n hn
        simp only [hnone, List.nil_append, List.mem_singleton, Prod.mk.injEq, true_and] at hn
        refine ⟨m, hm, hauthentic, hfits, ?_, rfl⟩
        have hread := Engine.take_itsReceiveBuffer_fill loop.engine m.payload m.source
        rw [htake] at hread
        rw [hn]
        exact hread
    }

theorem backendInv_launch {k : κ} {pause : Bool} {theReactor : Reactor} {thePlatform : Platform F}
    {bound : Except ByteString Unit} {loop : BackendLoop F} {effects : List Effect}
    (log : List Datagram)
    (h : cfg.launchBackend k pause theReactor thePlatform bound = some (loop, effects))
    : cfg.BackendInv log k loop ∧ sentFrom (cfg.endOf (.backend k)) effects = [] := by
  unfold launchBackend at h
  cases bound with
  | error what => contradiction
  | ok bound =>
    injection h with h
    injection h with hloop heffects
    rw [← hloop, ← heffects]
    refine ⟨?_, rfl⟩
    exact {
      toEngineConfig := rfl
      outstanding := Nat.le_refl 1
      read := by
        intro n hn
        contradiction
    }

end ClusterConfig

end Sputnik
