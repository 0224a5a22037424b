import Mathlib.Data.List.DropRight
import Sputnik.Forwarder.Basic
import Sputnik.Lib.ArgMax

/-!
This module contains the selection of the sticky forwarder: rendezvous hashing of the key of the
client over the backends that are no hotspots.
-/

namespace Sputnik

def kFnvOffset : UInt64 := 14695981039346656037

def kFnvPrime : UInt64 := 1099511628211

def kConnectionSlack : Int := 4

def fnv1a (str : ByteString) (seed : UInt64) : UInt64 :=
  str.foldl (fun hash c => (hash ^^^ c.toUInt64) * kFnvPrime) seed

-- `std::isspace` in the classic locale
def isSpace (c : UInt8) : Bool := c = 32 || (9 ≤ c && c ≤ 13)

def trim (s : ByteString) : ByteString := (s.dropWhile isSpace).rdropWhile isSpace

def parseCookie (header name : ByteString) : ByteString :=
  go (header.splitOn semicolon)
where
  semicolon : UInt8 := 59
  equals : UInt8 := 61
  go : List ByteString → ByteString
    | [] => []
    | part :: parts =>
      let part := trim part
      if equals ∈ part ∧ part.takeWhile (· ≠ equals) = name then
        (part.dropWhile (· ≠ equals)).tail
      else
        go parts

namespace BackendForwarder

variable {F : Type} [FloatArith F]

def extractKey (itsCookieName : ByteString) (theRequest : Request) : ByteString :=
  let value :=
    if itsCookieName.isEmpty then
      []
    else
      match theRequest.getHeader (ByteString.lit "Cookie") with
      | some cookie => parseCookie cookie itsCookieName
      | none => []
  if value.isEmpty then
    let ip :=
      match theRequest.getHeader (ByteString.lit "X-Forwarded-For") with
      | some xff => trim (xff.takeWhile (· ≠ 44))
      | none => []
    let ip := if ip.isEmpty then theRequest.getClientIP else ip
    let userAgent := (theRequest.getHeader (ByteString.lit "User-Agent")).getD []
    ByteString.lit "u:" ++ ip ++ ByteString.lit "|" ++ userAgent
  else
    ByteString.lit "c:" ++ value

def intMax : Int := 2147483647

def minCount (theReactor : Reactor) (infos : List (BackendInfo F)) : Int :=
  infos.foldl (fun minCount info => min minCount (connectionCount theReactor info)) intMax

def stickyFactor (itsBalancingCoefficient : F) : F :=
  if FloatArith.lt 1 itsBalancingCoefficient then itsBalancingCoefficient else FloatArith.ofInt 2

def stickyThreshold (itsBalancingCoefficient : F) (minCount : Int) : Int :=
  let factor := stickyFactor itsBalancingCoefficient
  addInt (staticCastInt (FloatArith.truncMul factor minCount)) kConnectionSlack

def stickyScore (key : ByteString) (nameAndPort : ByteString × Int) : Nat :=
  let keyHash := fnv1a key kFnvOffset
  let id := nameAndPort.1 ++ ByteString.colon :: ByteString.toString nameAndPort.2
  (fnv1a id keyHash).toNat

def stickySkip (theReactor : Reactor) (threshold : Int) (nameAndPort : ByteString × Int) : Bool :=
  threshold < theReactor.getBackendRequestStatus nameAndPort.1 nameAndPort.2

def stickySelect (fw : BackendForwarder F) (theReactor : Reactor) (key : ByteString) : Nat :=
  let threshold :=
    stickyThreshold fw.itsBalancingCoefficient (minCount theReactor fw.itsBackendInfos)
  let best := Lib.argMaxLoop
    (fun info => stickySkip theReactor threshold info.nameAndPort)
    (fun info => stickyScore key info.nameAndPort)
    fw.itsBackendInfos 0 { index := 0, score := 0, first := true }
  best.index

theorem stickySelect_lt (fw : BackendForwarder F) (theReactor : Reactor) (key : ByteString)
    (h : fw.itsBackendInfos ≠ [])
    : fw.stickySelect theReactor key < fw.itsBackendInfos.length := by
  unfold stickySelect
  apply Lib.index_argMaxLoop_lt
  . rfl
  . rfl
  . assumption

/-! The choice depends on nothing but the set of the backends. -/

section Choice

variable (theReactor : Reactor)

def status (backend : ByteString × Int) : Int :=
  theReactor.getBackendRequestStatus backend.1 backend.2

omit [FloatArith F] in
theorem minCount_eq (infos : List (BackendInfo F))
    : minCount theReactor infos
        =
      ((infos.map BackendInfo.nameAndPort).map (status theReactor)).foldl min intMax := by
  rw [List.map_map, List.foldl_map]
  rfl

omit [FloatArith F] in
theorem minCount_congr {infos infos' : List (BackendInfo F)}
    (h : ∀ backend, backend ∈ infos.map BackendInfo.nameAndPort
      ↔ backend ∈ infos'.map BackendInfo.nameAndPort)
    : minCount theReactor infos = minCount theReactor infos' := by
  rw [minCount_eq, minCount_eq]
  apply Lib.foldl_min_congr
  intro count
  simp only [List.mem_map (f := status theReactor), h]

-- the backends of the forwarder
def backends (fw : BackendForwarder F) : Set (ByteString × Int) :=
  {backend | backend ∈ fw.itsBackendInfos.map BackendInfo.nameAndPort}

-- The product with the count and the threshold it gives both fit into an `int`.
def ThresholdFits (a : F) (count : Int) : Prop :=
  FitsInt (FloatArith.truncMul (stickyFactor a) count)
    ∧ FitsInt (FloatArith.truncMul (stickyFactor a) count + kConnectionSlack)

instance (a : F) (count : Int) : Decidable (ThresholdFits a count) :=
  inferInstanceAs (Decidable (_ ∧ _))

-- The threshold of these backends is that of the least of their counts.
def LeastFits (a : F) (theReactor : Reactor) (backends : Set (ByteString × Int)) : Prop :=
  ∀ backend ∈ backends, (∀ other ∈ backends, status theReactor backend ≤ status theReactor other) →
    ThresholdFits a (status theReactor backend)

theorem stickyThreshold_of_fits {a : F} {count : Int} (h : ThresholdFits a count)
    : stickyThreshold a count
        =
      FloatArith.truncMul (stickyFactor a) count + kConnectionSlack := by
  unfold stickyThreshold
  dsimp only
  rw [staticCastInt_eq_self h.1, addInt_eq_add h.2]

-- Where it does not fit, the threshold is negative.
theorem stickyThreshold_of_not_fits {a : F} {count : Int} (h : ¬ThresholdFits a count)
    : stickyThreshold a count < 0 := by
  unfold ThresholdFits FitsInt at h
  unfold stickyThreshold staticCastInt addInt kConnectionSlack
  dsimp only
  by_cases hproduct : FitsInt (FloatArith.truncMul (stickyFactor a) count)
  . rw [if_pos hproduct, Int.bmod_def]
    unfold FitsInt at hproduct
    simp only [kConnectionSlack] at h
    omega
  . rw [if_neg hproduct]
    decide

variable {theReactor}

omit [FloatArith F] in
theorem minCount_mem {infos : List (BackendInfo F)} (hinfos : infos ≠ [])
    (hrange : ∀ backend, 0 ≤ status theReactor backend ∧ status theReactor backend ≤ intMax)
    : minCount theReactor infos ∈ infos.map (connectionCount theReactor) := by
  rw [minCount_eq, List.map_map]
  apply Lib.foldl_min_mem
  . simpa using hinfos
  . intro count hcount
    rcases List.mem_map.mp hcount with ⟨info, _, hstatus⟩
    rw [← hstatus]
    exact (hrange info.nameAndPort).2

omit [FloatArith F] in
theorem minCount_le {infos : List (BackendInfo F)} {info : BackendInfo F} (h : info ∈ infos)
    : minCount theReactor infos ≤ connectionCount theReactor info := by
  rw [minCount_eq, List.map_map]
  apply Lib.foldl_min_le_of_mem
  exact List.mem_map_of_mem (f := status theReactor ∘ BackendInfo.nameAndPort) h

theorem thresholdFits_minCount {a : F} {infos : List (BackendInfo F)} (hinfos : infos ≠ [])
    (hrange : ∀ backend, 0 ≤ status theReactor backend ∧ status theReactor backend ≤ intMax)
    : ThresholdFits a (minCount theReactor infos)
        ↔
      LeastFits a theReactor {backend | backend ∈ infos.map BackendInfo.nameAndPort} := by
  rcases List.mem_map.mp (minCount_mem hinfos hrange) with ⟨least, hleast, hcount⟩
  have hmin : ∀ other ∈ infos.map BackendInfo.nameAndPort,
      minCount theReactor infos ≤ status theReactor other := by
    intro other hother
    rcases List.mem_map.mp hother with ⟨info, hinfo, heq⟩
    rw [← heq]
    exact minCount_le hinfo
  constructor
  . intro hfits backend hbackend hbelow
    have heq : status theReactor backend = minCount theReactor infos := by
      apply Int.le_antisymm _ (hmin backend hbackend)
      rw [← hcount]
      exact hbelow least.nameAndPort (List.mem_map_of_mem hleast)
    rwa [heq]
  . intro hfits
    have hthreshold := hfits least.nameAndPort (List.mem_map_of_mem hleast)
    change (∀ other ∈ infos.map BackendInfo.nameAndPort,
      connectionCount theReactor least ≤ status theReactor other) →
        ThresholdFits a (connectionCount theReactor least) at hthreshold
    rw [hcount] at hthreshold
    exact hthreshold hmin

variable [LawfulFloatArith F]

theorem one_lt_stickyFactor (a : F) : FloatArith.lt 1 (stickyFactor a) = true := by
  unfold stickyFactor
  split
  . assumption
  . apply LawfulFloatArith.one_lt_two

theorem stickyThreshold_zero (a : F) : stickyThreshold a 0 = kConnectionSlack := by
  unfold stickyThreshold
  dsimp only
  rw [LawfulFloatArith.truncMul_zero (one_lt_stickyFactor a)]
  rfl

theorem le_stickyThreshold {a : F} {count : Int} (h : 0 ≤ count) (hfits : ThresholdFits a count)
    : count ≤ stickyThreshold a count := by
  have htrunc := LawfulFloatArith.le_truncMul h (one_lt_stickyFactor a) hfits.1
  rw [stickyThreshold_of_fits hfits]
  unfold kConnectionSlack
  omega

theorem exists_not_stickySkip {a : F} {infos : List (BackendInfo F)} (hinfos : infos ≠ [])
    (hrange : ∀ backend, 0 ≤ status theReactor backend ∧ status theReactor backend ≤ intMax)
    (hfits : ThresholdFits a (minCount theReactor infos))
    : ∃ info ∈ infos, stickySkip theReactor
        (stickyThreshold a (minCount theReactor infos)) info.nameAndPort = false := by
  rcases List.mem_map.mp (minCount_mem hinfos hrange) with ⟨info, hinfo, hcount⟩
  refine ⟨info, hinfo, ?_⟩
  have hnonneg : 0 ≤ minCount theReactor infos := by
    rw [← hcount]
    exact (hrange info.nameAndPort).1
  have hle := le_stickyThreshold hnonneg hfits
  simp only [stickySkip, decide_eq_false_iff_not, Int.not_lt]
  apply Int.le_trans _ hle
  exact Int.le_of_eq hcount

omit [LawfulFloatArith F] in
theorem isFirstBest_of_not_skip {fw : BackendForwarder F} (key : ByteString)
    (hex : ∃ info ∈ fw.itsBackendInfos, stickySkip theReactor
      (stickyThreshold fw.itsBalancingCoefficient (minCount theReactor fw.itsBackendInfos))
      info.nameAndPort = false)
    : ∃ info, Lib.IsFirstBest
        (fun info => stickySkip theReactor (stickyThreshold fw.itsBalancingCoefficient
          (minCount theReactor fw.itsBackendInfos)) info.nameAndPort)
        (fun info => stickyScore key info.nameAndPort)
        fw.itsBackendInfos (fw.stickySelect theReactor key) info := by
  apply Lib.isFirstBest_argMaxLoop rfl
  assumption

theorem isFirstBest_stickySelect {fw : BackendForwarder F} (key : ByteString)
    (hinfos : fw.itsBackendInfos ≠ [])
    (hrange : ∀ backend, 0 ≤ status theReactor backend ∧ status theReactor backend ≤ intMax)
    (hfits : ThresholdFits fw.itsBalancingCoefficient (minCount theReactor fw.itsBackendInfos))
    : ∃ info, Lib.IsFirstBest
        (fun info => stickySkip theReactor (stickyThreshold fw.itsBalancingCoefficient
          (minCount theReactor fw.itsBackendInfos)) info.nameAndPort)
        (fun info => stickyScore key info.nameAndPort)
        fw.itsBackendInfos (fw.stickySelect theReactor key) info := by
  apply isFirstBest_of_not_skip key
  apply exists_not_stickySkip hinfos hrange hfits

theorem stickySelect_same {fw fw' : BackendForwarder F} {theReactor' : Reactor} {key : ByteString}
    (hinfos : fw.itsBackendInfos ≠ [])
    (hsame : ∀ backend, backend ∈ fw.itsBackendInfos.map BackendInfo.nameAndPort
      ↔ backend ∈ fw'.itsBackendInfos.map BackendInfo.nameAndPort)
    (hcoefficient : fw'.itsBalancingCoefficient = fw.itsBalancingCoefficient)
    (hstatus : theReactor'.getBackendRequestStatus = theReactor.getBackendRequestStatus)
    (hrange : ∀ backend, 0 ≤ status theReactor backend ∧ status theReactor backend ≤ intMax)
    (hfits : LeastFits fw.itsBalancingCoefficient theReactor fw.backends)
    (hscores : ∀ info ∈ fw.itsBackendInfos, ∀ info' ∈ fw.itsBackendInfos,
      stickyScore key info.nameAndPort = stickyScore key info'.nameAndPort →
        info.nameAndPort = info'.nameAndPort)
    : ∃ info info', fw.itsBackendInfos[fw.stickySelect theReactor key]? = some info
        ∧ fw'.itsBackendInfos[fw'.stickySelect theReactor' key]? = some info'
        ∧ info.nameAndPort = info'.nameAndPort := by
  have hstatus' : status theReactor' = status theReactor := by
    unfold status
    rw [hstatus]
  have hskip : stickySkip theReactor' = stickySkip theReactor := by
    unfold stickySkip
    rw [hstatus]
  have hinfos' : fw'.itsBackendInfos ≠ [] := by
    rcases List.exists_mem_of_ne_nil _ hinfos with ⟨info, hinfo⟩
    rcases List.mem_map.mp
      ((hsame info.nameAndPort).mp (List.mem_map_of_mem hinfo)) with ⟨info', hinfo', _⟩
    apply List.ne_nil_of_mem hinfo'
  have hthreshold := (thresholdFits_minCount hinfos hrange).mpr hfits
  rcases isFirstBest_stickySelect key hinfos hrange hthreshold with ⟨info, hbest⟩
  have hrange' : ∀ backend, 0 ≤ status theReactor' backend
      ∧ status theReactor' backend ≤ intMax := by rwa [hstatus']
  have hcount : minCount theReactor' fw'.itsBackendInfos
      = minCount theReactor fw.itsBackendInfos := by
    rw [minCount_eq, hstatus', ← minCount_eq, minCount_congr theReactor hsame]
  rcases isFirstBest_stickySelect key hinfos' hrange' (by rwa [hcoefficient, hcount])
    with ⟨info', hbest'⟩
  refine ⟨info, info', hbest.getElem?, hbest'.getElem?, ?_⟩
  rw [hcoefficient, hcount, hskip] at hbest'
  apply Lib.IsFirstBest.key_eq hbest hbest' hsame hscores

end Choice

end BackendForwarder

end Sputnik
