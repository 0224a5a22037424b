import Sputnik.Backend
import Sputnik.Lib.Scan

/-!
This module contains the backend list of a forwarder and the weights its `redistribute` computes.
The class of a forwarder is its forwarding mode; the virtual methods are matches on the mode.
-/

namespace Sputnik

inductive ForwardingMode where
  | random
  | inverseLoad
  | inverseConnections
  | leastConnections
  | doubleRandom
  | exponentialConnections
  | sticky
  deriving DecidableEq, Repr

structure BackendForwarder (F : Type) where
  mode : ForwardingMode
  itsBackendInfos : List (BackendInfo F)
  itsDistribution : List F
  itsBalancingCoefficient : F
  itsCookieName : ByteString
  deriving DecidableEq

structure Generator (F : Type) where
  discrete : List F → Nat
  -- the k-th draw from the uniform distribution over `n` values
  uniform : Nat → Nat → Nat
  discrete_lt : ∀ w, w ≠ [] → discrete w < w.length
  uniform_lt : ∀ k n, 0 < n → uniform k n < n

namespace BackendForwarder

variable {F : Type} [FloatArith F]

-- The constructors of the forwarders; those without a balancing coefficient pass 0.0 on.
def new (mode : ForwardingMode) (balancingCoefficient : F) (cookieName : ByteString)
    : BackendForwarder F where
  mode := mode
  itsBackendInfos := []
  itsDistribution := [1]
  itsBalancingCoefficient :=
    match mode with
    | .random | .doubleRandom | .leastConnections => 0
    | _ => balancingCoefficient
  itsCookieName := cookieName

def connectionCount (theReactor : Reactor) (info : BackendInfo F) : Int :=
  theReactor.getBackendRequestStatus info.hostName info.port

def normalize (probVec : List F) : List F :=
  let sum := FloatArith.accumulate probVec
  probVec.map fun prob => prob / sum

def inverseLoadWeights (fw : BackendForwarder F) : List F :=
  normalize <| fw.itsBackendInfos.map fun info =>
    1 / (1 + fw.itsBalancingCoefficient * FloatArith.max 1 info.load)

def inverseConnectionsWeights (fw : BackendForwarder F) (theReactor : Reactor) : List F :=
  normalize <| fw.itsBackendInfos.map fun info =>
    1 / (1 + fw.itsBalancingCoefficient * FloatArith.ofInt (connectionCount theReactor info))

def exponentialConnectionsWeights (fw : BackendForwarder F) (theReactor : Reactor) : List F :=
  normalize <| fw.itsBackendInfos.map fun info =>
    FloatArith.exp (-fw.itsBalancingCoefficient
      * FloatArith.ofInt (connectionCount theReactor info))

def leastConnectionsWeights (fw : BackendForwarder F) (theReactor : Reactor) : List F :=
  let minCount := fw.itsBackendInfos.foldl
    (fun minCount info =>
      let count := connectionCount theReactor info
      if minCount < 0 then count else min minCount count)
    (-1)
  let probVec := fw.itsBackendInfos.map fun info =>
    if connectionCount theReactor info = minCount then (1 : F) else 0
  if FloatArith.lt 0 (FloatArith.accumulate probVec) then normalize probVec else probVec

def redistribute (fw : BackendForwarder F) (theReactor : Reactor) : BackendForwarder F :=
  match fw.mode with
  | .inverseLoad => { fw with itsDistribution := fw.inverseLoadWeights }
  | .inverseConnections => { fw with itsDistribution := fw.inverseConnectionsWeights theReactor }
  | .leastConnections => { fw with itsDistribution := fw.leastConnectionsWeights theReactor }
  | .exponentialConnections =>
    { fw with itsDistribution := fw.exponentialConnectionsWeights theReactor }
  | .random | .doubleRandom | .sticky => fw

def rebalance (fw : BackendForwarder F) (theReactor : Reactor) : BackendForwarder F :=
  match fw.mode with
  | .inverseConnections | .leastConnections | .exponentialConnections => fw.redistribute theReactor
  | .inverseLoad | .random | .doubleRandom | .sticky => fw

def addBackend (fw : BackendForwarder F) (hostName : ByteString) (port : Int) (load : F)
    (theReactor : Reactor) : BackendForwarder F :=
  redistribute { fw with itsBackendInfos := fw.itsBackendInfos ++ [⟨hostName, port, load⟩] }
    theReactor

-- Only the first entry with this name goes. There may be duplicates.
def removeBackend (fw : BackendForwarder F) (hostName : ByteString) (port : Int)
    (theReactor : Reactor) : BackendForwarder F :=
  let itsBackendInfos :=
    fw.itsBackendInfos.eraseP fun it => it.hostName = hostName && it.port = port
  redistribute { fw with itsBackendInfos } theReactor

def drawsFromDistribution (mode : ForwardingMode) : Bool :=
  match mode with
  | .inverseLoad | .inverseConnections | .leastConnections | .exponentialConnections => true
  | .random | .doubleRandom | .sticky => false

def settings (fw : BackendForwarder F) : ForwardingMode × F × ByteString :=
  (fw.mode, fw.itsBalancingCoefficient, fw.itsCookieName)

section Lemmas

variable (fw : BackendForwarder F) (theReactor : Reactor)

@[simp]
theorem itsBackendInfos_new (mode : ForwardingMode) (a : F) (cookieName : ByteString)
    : (new mode a cookieName).itsBackendInfos = [] := rfl

@[simp]
theorem itsBackendInfos_redistribute
    : (fw.redistribute theReactor).itsBackendInfos = fw.itsBackendInfos := by
  unfold redistribute
  split <;> rfl

@[simp]
theorem mode_redistribute : (fw.redistribute theReactor).mode = fw.mode := by
  unfold redistribute
  split <;> rfl

@[simp]
theorem itsBalancingCoefficient_redistribute
    : (fw.redistribute theReactor).itsBalancingCoefficient = fw.itsBalancingCoefficient := by
  unfold redistribute
  split <;> rfl

@[simp]
theorem itsCookieName_redistribute
    : (fw.redistribute theReactor).itsCookieName = fw.itsCookieName := by
  unfold redistribute
  split <;> rfl

@[simp]
theorem settings_redistribute : (fw.redistribute theReactor).settings = fw.settings := by
  simp [settings]

@[simp]
theorem settings_addBackend (hostName : ByteString) (port : Int) (load : F)
    : (fw.addBackend hostName port load theReactor).settings = fw.settings := by
  unfold addBackend
  apply settings_redistribute

@[simp]
theorem settings_removeBackend (hostName : ByteString) (port : Int)
    : (fw.removeBackend hostName port theReactor).settings = fw.settings := by
  unfold removeBackend
  apply settings_redistribute

@[simp]
theorem itsBackendInfos_rebalance
    : (fw.rebalance theReactor).itsBackendInfos = fw.itsBackendInfos := by
  unfold rebalance
  split <;> simp

theorem length_normalize (probVec : List F) : (normalize probVec).length = probVec.length := by
  unfold normalize
  simp

theorem length_leastConnectionsWeights
    : (fw.leastConnectionsWeights theReactor).length = fw.itsBackendInfos.length := by
  unfold leastConnectionsWeights
  dsimp
  split
  . simp [length_normalize]
  . simp

theorem length_itsDistribution_redistribute (h : drawsFromDistribution fw.mode = true)
    : (fw.redistribute theReactor).itsDistribution.length = fw.itsBackendInfos.length := by
  unfold redistribute
  split
  . simp [inverseLoadWeights, length_normalize]
  . simp [inverseConnectionsWeights, length_normalize]
  . simp [length_leastConnectionsWeights]
  . simp [exponentialConnectionsWeights, length_normalize]
  all_goals
    next hmode => simp [hmode, drawsFromDistribution] at h

@[simp]
theorem itsBackendInfos_addBackend (hostName : ByteString) (port : Int) (load : F)
    : (fw.addBackend hostName port load theReactor).itsBackendInfos
        =
      fw.itsBackendInfos ++ [⟨hostName, port, load⟩] := by
  simp [addBackend]

@[simp]
theorem mode_addBackend (hostName : ByteString) (port : Int) (load : F)
    : (fw.addBackend hostName port load theReactor).mode = fw.mode := by
  simp [addBackend]

@[simp]
theorem itsBalancingCoefficient_addBackend (hostName : ByteString) (port : Int) (load : F)
    : (fw.addBackend hostName port load theReactor).itsBalancingCoefficient
        =
      fw.itsBalancingCoefficient := by
  simp [addBackend]

@[simp]
theorem itsCookieName_addBackend (hostName : ByteString) (port : Int) (load : F)
    : (fw.addBackend hostName port load theReactor).itsCookieName = fw.itsCookieName := by
  simp [addBackend]

@[simp]
theorem itsBalancingCoefficient_removeBackend (hostName : ByteString) (port : Int)
    : (fw.removeBackend hostName port theReactor).itsBalancingCoefficient
        =
      fw.itsBalancingCoefficient := by
  simp [removeBackend]

@[simp]
theorem itsCookieName_removeBackend (hostName : ByteString) (port : Int)
    : (fw.removeBackend hostName port theReactor).itsCookieName = fw.itsCookieName := by
  simp [removeBackend]

theorem itsBackendInfos_removeBackend (hostName : ByteString) (port : Int)
    : (fw.removeBackend hostName port theReactor).itsBackendInfos
        =
      fw.itsBackendInfos.eraseP fun it => it.nameAndPort = (hostName, port) := by
  simp [removeBackend, BackendInfo.nameAndPort]

theorem itsBackendInfos_removeBackend_eq_eraseIdx (hostName : ByteString) (port : Int)
    : (fw.removeBackend hostName port theReactor).itsBackendInfos
        =
      fw.itsBackendInfos.eraseIdx
        (fw.itsBackendInfos.findIdx fun it => it.nameAndPort = (hostName, port)) := by
  rw [itsBackendInfos_removeBackend, List.eraseP_eq_eraseIdx]
  split
  . next hnone =>
    rw [List.findIdx?_eq_none_iff_findIdx_eq] at hnone
    rw [hnone, List.eraseIdx_of_length_le (Nat.le_refl _)]
  . next i hsome =>
    rw [List.findIdx?_eq_some_iff_findIdx_eq] at hsome
    rw [hsome.2]

@[simp]
theorem mode_removeBackend (hostName : ByteString) (port : Int)
    : (fw.removeBackend hostName port theReactor).mode = fw.mode := by
  simp [removeBackend]

end Lemmas

end BackendForwarder

end Sputnik
