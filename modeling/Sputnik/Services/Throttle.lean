import Mathlib.Data.List.DropRight
import Sputnik.Services.Lemmas

/-!
This module contains the throttling of a backend as a function of the calls that concern it, and
that its sentinel follows this function over every run.
-/

namespace Sputnik

open Std

variable {F : Type}

namespace ServicesOp

def throttle? (backend : ByteString × Int) : ServicesOp F → Option UInt32
  | .addService _ theBackendService _ _ theThrottle =>
    if theBackendService.nameAndPort = backend then some theThrottle else none
  | _ => none

def revives (backend : ByteString × Int) : ServicesOp F → Bool
  | .setBackendAlive theHostName thePort => (theHostName, thePort) = backend
  | _ => false

def signals (backend : ByteString × Int) : ServicesOp F → Bool
  | .signalBackendConnection theHostName thePort => (theHostName, thePort) = backend
  | _ => false

def resets (backend : ByteString × Int) (op : ServicesOp F) : Bool :=
  (op.throttle? backend).isSome || op.revives backend

def concerns (backend : ByteString × Int) (op : ServicesOp F) : Bool :=
  op.resets backend || op.signals backend

-- the throttle of the last announcement of the backend
def lastThrottle (backend : ByteString × Int) (ops : List (ServicesOp F)) : Option UInt32 :=
  ops.reverse.findSome? (throttle? backend)

-- the number of connections since the backend was last announced or set alive
def sentSince (backend : ByteString × Int) (ops : List (ServicesOp F)) : Nat :=
  (ops.rtakeWhile fun op => !op.resets backend).countP (signals backend)

section History

variable (backend : ByteString × Int) (ops : List (ServicesOp F)) (op : ServicesOp F)

theorem lastThrottle_concat
    : lastThrottle backend (ops ++ [op])
        =
      (op.throttle? backend).or (lastThrottle backend ops) := by
  unfold lastThrottle
  rw [List.reverse_append, List.reverse_singleton, List.singleton_append, List.findSome?_cons]
  cases op.throttle? backend with
  | none => rfl
  | some theThrottle => rfl

theorem lastThrottle_eq_none
    : lastThrottle backend ops = none ↔ ∀ op ∈ ops, op.throttle? backend = none := by
  unfold lastThrottle
  simp

theorem sentSince_concat
    : sentSince backend (ops ++ [op])
        =
      if op.resets backend then 0
      else sentSince backend ops + if op.signals backend then 1 else 0 := by
  unfold sentSince
  cases hresets : op.resets backend with
  | true =>
    rw [List.rtakeWhile_concat_neg _ _ _ (by simp [hresets])]
    rfl
  | false =>
    rw [List.rtakeWhile_concat_pos _ _ _ (by simp [hresets]), List.countP_append,
      List.countP_singleton]
    simp

end History

end ServicesOp

namespace Services

def sentinel (s : Services F) (backend : ByteString × Int) : Option BackendSentinel :=
  s.itsSentinels[sentinelName backend.1 backend.2]?

theorem sentinelName_eq_iff {backend backend' : ByteString × Int}
    : sentinelName backend.1 backend.2 = sentinelName backend'.1 backend'.2
        ↔
      backend = backend' := by
  constructor
  . intro h
    rcases ByteString.append_colon_toString_inj h with ⟨hname, hport⟩
    exact Prod.ext hname hport
  . intro h
    rw [h]

theorem queryBackendAlive_eq (s : Services F) (theHostName : ByteString) (thePort : Int)
    : s.queryBackendAlive theHostName thePort
        =
      ((s.sentinel (theHostName, thePort)).map BackendSentinel.getAlive).getD false := by
  unfold queryBackendAlive sentinel
  cases s.itsSentinels[sentinelName theHostName thePort]? with
  | none => rfl
  | some sentinel => rfl

theorem getElem?_modify_sentinel (m : TreeMap ByteString BackendSentinel)
    (f : BackendSentinel → BackendSentinel) (backend backend' : ByteString × Int)
    : (m.modify (sentinelName backend.1 backend.2) f)[sentinelName backend'.1 backend'.2]?
        =
      if backend = backend' then m[sentinelName backend'.1 backend'.2]?.map f
      else m[sentinelName backend'.1 backend'.2]? := by
  rw [TreeMap.getElem?_modify]
  simp only [LawfulEqCmp.compare_eq_iff_eq, sentinelName_eq_iff]
  split
  . next heq => rw [heq]
  . rfl

def stepSentinel (backend : ByteString × Int) (sentinel : Option BackendSentinel)
    (op : ServicesOp F) : Option BackendSentinel :=
  match op with
  | .addService _ theBackendService _ _ theThrottle =>
    if theBackendService.nameAndPort = backend then some { itsThrottle := theThrottle }
    else sentinel
  | .setBackendAlive theHostName thePort =>
    if (theHostName, thePort) = backend then sentinel.map .setAlive else sentinel
  | .signalBackendConnection theHostName thePort =>
    if (theHostName, thePort) = backend then sentinel.map .signalSentConnection else sentinel
  | _ => sentinel

section StepSentinel

variable {backend : ByteString × Int} {op : ServicesOp F}

theorem stepSentinel_of_throttle {theThrottle : UInt32}
    (h : op.throttle? backend = some theThrottle) (sentinel : Option BackendSentinel)
    : stepSentinel backend sentinel op = some { itsThrottle := theThrottle } := by
  cases op with
  | addService theReactor service theFrontendURI theLoad theThrottle' =>
    simp only [ServicesOp.throttle?, Option.ite_none_right_eq_some, Option.some.injEq] at h
    simp [stepSentinel, h.1, h.2]
  | _ => contradiction

theorem stepSentinel_of_revives (h : op.revives backend = true)
    (sentinel : Option BackendSentinel)
    : stepSentinel backend sentinel op = sentinel.map .setAlive := by
  cases op with
  | setBackendAlive theHostName thePort => exact if_pos (of_decide_eq_true h)
  | _ => contradiction

theorem stepSentinel_of_signals (h : op.signals backend = true)
    (sentinel : Option BackendSentinel)
    : stepSentinel backend sentinel op = sentinel.map .signalSentConnection := by
  cases op with
  | signalBackendConnection theHostName thePort => exact if_pos (of_decide_eq_true h)
  | _ => contradiction

theorem stepSentinel_of_not_concerns (h : op.concerns backend = false)
    (sentinel : Option BackendSentinel) : stepSentinel backend sentinel op = sentinel := by
  unfold ServicesOp.concerns ServicesOp.resets at h
  simp only [Bool.or_eq_false_iff] at h
  rcases h with ⟨⟨hthrottle, hrevives⟩, hsignals⟩
  cases op with
  | addService theReactor service theFrontendURI theLoad theThrottle =>
    have hne : service.nameAndPort ≠ backend := by
      intro heq
      simp [ServicesOp.throttle?, heq] at hthrottle
    exact if_neg hne
  | setBackendAlive theHostName thePort => exact if_neg (of_decide_eq_false hrevives)
  | signalBackendConnection theHostName thePort => exact if_neg (of_decide_eq_false hsignals)
  | _ => rfl

theorem foldl_stepSentinel_filter (backend : ByteString × Int) (ops : List (ServicesOp F))
    (sentinel : Option BackendSentinel)
    : (ops.filter (ServicesOp.concerns backend)).foldl (stepSentinel backend) sentinel
        =
      ops.foldl (stepSentinel backend) sentinel := by
  rw [List.foldl_filter]
  congr
  funext sentinel op
  split
  . rfl
  . next h => rw [stepSentinel_of_not_concerns (by simpa using h)]

-- The counter of the sentinel wraps around; what it counts does not.
theorem foldl_stepSentinel (backend : ByteString × Int) (ops : List (ServicesOp F))
    : ops.foldl (stepSentinel backend) none
        =
      (ServicesOp.lastThrottle backend ops).map fun theThrottle =>
        {
          itsThrottle := theThrottle
          itsCurrentThrottle := UInt32.ofNat (ServicesOp.sentSince backend ops)
        } := by
  induction ops using List.reverseRecOn with
  | nil => rfl
  | append_singleton ops op ih =>
    rw [List.foldl_append, List.foldl_cons, List.foldl_nil, ih, ServicesOp.lastThrottle_concat,
      ServicesOp.sentSince_concat]
    cases hthrottle : op.throttle? backend with
    | some theThrottle =>
      rw [stepSentinel_of_throttle hthrottle]
      simp [ServicesOp.resets, hthrottle]
    | none =>
      cases hrevives : op.revives backend with
      | true =>
        rw [stepSentinel_of_revives hrevives]
        simp [ServicesOp.resets, hrevives, Function.comp_def, BackendSentinel.setAlive]
      | false =>
        have hresets : op.resets backend = false := by simp [ServicesOp.resets, *]
        cases hsignals : op.signals backend with
        | true =>
          rw [stepSentinel_of_signals hsignals]
          simp [hresets, Function.comp_def, BackendSentinel.signalSentConnection]
        | false =>
          rw [stepSentinel_of_not_concerns (by simp [ServicesOp.concerns, *])]
          simp [hresets]

end StepSentinel

variable [FloatArith F]

theorem sentinel_step {s s' : Services F} {op : ServicesOp F} (h : s.step op = some s')
    (backend : ByteString × Int)
    : s'.sentinel backend = stepSentinel backend (s.sentinel backend) op := by
  cases op with
  | addService theReactor service theFrontendURI theLoad theThrottle =>
    have hname : sentinelName service.nameAndPort.1 service.nameAndPort.2
        = sentinelName backend.1 backend.2 ↔ service.nameAndPort = backend := sentinelName_eq_iff
    rw [← Option.some.inj h]
    unfold sentinel stepSentinel
    rw [itsSentinels_addService]
    exact if_congr hname rfl rfl
  | removeBackend theReactor theHostname thePort theURI =>
    rcases removeBackend_eq_some h with ⟨_, _, rfl⟩
    rfl
  | setBackendAlive theHostName thePort =>
    rw [← Option.some.inj h]
    apply getElem?_modify_sentinel _ _ (theHostName, thePort)
  | signalBackendConnection theHostName thePort =>
    rw [← Option.some.inj h]
    apply getElem?_modify_sentinel _ _ (theHostName, thePort)
  | _ =>
    rw [← Option.some.inj h]
    rfl

theorem sentinel_run {s s' : Services F} {ops : List (ServicesOp F)}
    (h : Lib.run step s ops = some s') (backend : ByteString × Int)
    : s'.sentinel backend = ops.foldl (stepSentinel backend) (s.sentinel backend) := by
  apply Lib.run_foldl _ h
  intro s op s' hstep
  apply sentinel_step hstep

section Reachable

variable {mode : ForwardingMode} {a : F} {cookieName : ByteString} {ops : List (ServicesOp F)}
  {s : Services F} (hrun : Lib.run step (init mode a cookieName) ops = some s)

include hrun

theorem sentinel_of_run (backend : ByteString × Int)
    : s.sentinel backend
        =
      (ServicesOp.lastThrottle backend ops).map fun theThrottle =>
        {
          itsThrottle := theThrottle
          itsCurrentThrottle := UInt32.ofNat (ServicesOp.sentSince backend ops)
        } := by
  rw [← foldl_stepSentinel, sentinel_run hrun]
  have hinit : (init mode a cookieName).sentinel backend = none := by simp [sentinel, init]
  rw [hinit]

theorem queryBackendAlive_of_run {theHostName : ByteString} {thePort : Int} {theThrottle : UInt32}
    (hlast : ServicesOp.lastThrottle (theHostName, thePort) ops = some theThrottle)
    (hsent : ServicesOp.sentSince (theHostName, thePort) ops < 2 ^ 32)
    : s.queryBackendAlive theHostName thePort = true
        ↔
      theThrottle = 0
        ∨ ServicesOp.sentSince (theHostName, thePort) ops ≤ theThrottle.toNat := by
  rw [queryBackendAlive_eq, sentinel_of_run hrun, hlast]
  simp only [Option.map_some, Option.getD_some, BackendSentinel.getAlive]
  split
  . next hzero => simp [hzero]
  . next hzero =>
    simp only [hzero, false_or, decide_eq_true_eq, UInt32.le_iff_toNat_le]
    rw [UInt32.toNat_ofNat_of_lt' (by simpa using hsent)]

theorem sentinel_isSome_of_live {service : BackendService F} (hlive : s.LiveService service)
    : ∃ sentinel, s.sentinel service.nameAndPort = some sentinel := by
  rcases hlive with ⟨k, hmem⟩
  rw [serviceList_run hrun, serviceList_init] at hmem
  obtain ⟨theReactor, theLoad, theThrottle, hadd⟩ : ∃ theReactor theLoad theThrottle,
      .addService theReactor service k theLoad theThrottle ∈ ops := by
    simpa using mem_of_mem_foldl_stepList hmem
  rw [sentinel_of_run hrun]
  cases hlast : ServicesOp.lastThrottle service.nameAndPort ops with
  | some theThrottle => exact ⟨_, rfl⟩
  | none =>
    have hnone := (ServicesOp.lastThrottle_eq_none service.nameAndPort ops).mp hlast _ hadd
    simp [ServicesOp.throttle?] at hnone

theorem queryBackendAlive_congr {mode' : ForwardingMode} {a' : F} {cookieName' : ByteString}
    {ops' : List (ServicesOp F)} {s' : Services F}
    (hrun' : Lib.run step (init mode' a' cookieName') ops' = some s') {theHostName : ByteString}
    {thePort : Int}
    (hsame : ops.filter (ServicesOp.concerns (theHostName, thePort))
      = ops'.filter (ServicesOp.concerns (theHostName, thePort)))
    : s.queryBackendAlive theHostName thePort = s'.queryBackendAlive theHostName thePort := by
  have hsentinel : s.sentinel (theHostName, thePort) = s'.sentinel (theHostName, thePort) := by
    rw [sentinel_of_run hrun, sentinel_of_run hrun', ← foldl_stepSentinel, ← foldl_stepSentinel,
      ← foldl_stepSentinel_filter, hsame, foldl_stepSentinel_filter]
  rw [queryBackendAlive_eq, queryBackendAlive_eq, hsentinel]

end Reachable

/--
A backend that was never announced is not alive. Otherwise its throttle is the last announced one,
and it is alive as long as it is not throttled or the connections since it was announced or set
alive do not exceed the throttle. Nothing but the calls that concern the backend influences the
answer, and every service in the table has a sentinel.
-/
theorem queryBackendAlive_follows (mode : ForwardingMode) (a : F) (cookieName : ByteString)
    (ops : List (ServicesOp F)) (s : Services F)
    (hrun : Lib.run step (init mode a cookieName) ops = some s)
    : (∀ theHostName thePort,
        (∀ op ∈ ops, op.throttle? (theHostName, thePort) = none) →
          s.queryBackendAlive theHostName thePort = false)
      ∧ (∀ theHostName thePort theThrottle,
          ServicesOp.lastThrottle (theHostName, thePort) ops = some theThrottle →
          ServicesOp.sentSince (theHostName, thePort) ops < 2 ^ 32 →
            (s.queryBackendAlive theHostName thePort = true
                ↔
              theThrottle = 0
                ∨ ServicesOp.sentSince (theHostName, thePort) ops ≤ theThrottle.toNat))
      ∧ (∀ theHostName thePort mode' a' cookieName' ops' s',
          Lib.run step (init mode' a' cookieName') ops' = some s' →
          ops.filter (ServicesOp.concerns (theHostName, thePort))
            = ops'.filter (ServicesOp.concerns (theHostName, thePort)) →
            s.queryBackendAlive theHostName thePort = s'.queryBackendAlive theHostName thePort)
      ∧ (∀ service, s.LiveService service →
          ∃ sentinel, s.sentinel service.nameAndPort = some sentinel) := by
  refine ⟨?_, ?_, ?_, ?_⟩
  . intro theHostName thePort hnone
    rw [queryBackendAlive_eq, sentinel_of_run hrun,
      (ServicesOp.lastThrottle_eq_none _ ops).mpr hnone]
    rfl
  . intro theHostName thePort theThrottle hlast hsent
    apply queryBackendAlive_of_run hrun hlast hsent
  . intro theHostName thePort mode' a' cookieName' ops' s' hrun' hsame
    apply queryBackendAlive_congr hrun hrun' hsame
  . intro service hlive
    apply sentinel_isSome_of_live hrun hlive

section Sample

open Sample

def addThrottled (name uri : String) (throttle : UInt32) : ServicesOp Rat :=
  .addService reactor (service name uri 1 false) (ByteString.lit uri) 1 throttle

theorem queryBackendAlive_follows_sample
    : ∃ s, Lib.run step (init .random 2 [])
          [addThrottled "a" "/wms" 1, .signalBackendConnection (ByteString.lit "a") 8080]
            = some s
        ∧ s.queryBackendAlive (ByteString.lit "a") 8080 = true := by
  refine ⟨_, rfl, ?_⟩
  have hfollows := queryBackendAlive_follows .random (2 : Rat) []
    [addThrottled "a" "/wms" 1, .signalBackendConnection (ByteString.lit "a") 8080] _ rfl
  apply (hfollows.2.1 (ByteString.lit "a") 8080 1 (by decide) (by decide)).mpr
  right
  decide

end Sample

end Services

end Sputnik
