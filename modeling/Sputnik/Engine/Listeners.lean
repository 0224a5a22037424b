import Sputnik.Engine.Lemmas

/-!
This module contains which listeners one run of `startServiceDiscovery` sends its request to.
-/

namespace Sputnik

variable {F : Type}

namespace Engine

section SendRequests

variable (thePlatform : Platform F)

def listenerAddress (st : ByteString) : ByteString := st.takeWhile (· ≠ ByteString.colon)

def listenerPort (st : ByteString) : ByteString := (st.dropWhile (· ≠ ByteString.colon)).tail

-- where the request for an entry of the list is sent, if the entry can be parsed
def destination (st : ByteString) : Option Endpoint :=
  if ByteString.colon ∈ st then
    match thePlatform.makeAddressV4 (listenerAddress st), thePlatform.stoi (listenerPort st) with
    | .ok address, .ok port => some { address := address, port := UInt16.ofInt port }
    | _, _ => none
  else
    none

def destinations (l : List ByteString) : List Endpoint := l.filterMap (destination thePlatform)

-- The error that ends the loop at an entry, before which `send_to` has been called `k` times.
def failure (k : Nat) (st : ByteString) : Option Error :=
  if ByteString.colon ∈ st then
    match thePlatform.makeAddressV4 (listenerAddress st), thePlatform.stoi (listenerPort st) with
    | .error err, _ => some err
    | _, .error err => some err
    | .ok _, .ok _ =>
      match thePlatform.sendTo k with
      | .error err => some err
      | .ok () => none
  else
    none

def failureAt (k : Nat) (l : List ByteString) (i : Nat) : Option Error :=
  l[i]?.bind (failure thePlatform (k + (destinations thePlatform (l.take i)).length))

def ValidListener (st : ByteString) : Prop :=
  ByteString.colon ∈ st
    ∧ ∃ address port, thePlatform.makeAddressV4 (listenerAddress st) = .ok address
      ∧ thePlatform.stoi (listenerPort st) = .ok port ∧ 0 ≤ port ∧ port < 65536

/-
The entry at a position is valid and its `send_to` succeeds, which is the call number `k` where `k`
entries before it can be parsed.
-/
def ReachableAt (l : List ByteString) (i : Nat) : Prop :=
  ∃ st, l[i]? = some st ∧ ValidListener thePlatform st
    ∧ thePlatform.sendTo (destinations thePlatform (l.take i)).length = .ok ()

structure FirstFailure (l : List ByteString) (i : Nat) (err : Error) : Prop where
  fails : failureAt thePlatform 0 l i = some err
  first : ∀ j, j < i → failureAt thePlatform 0 l j = none

theorem destinations_cons (st : ByteString) (l : List ByteString)
    : destinations thePlatform (st :: l)
        =
      destinations thePlatform [st] ++ destinations thePlatform l := by
  unfold destinations
  rw [← List.filterMap_append, List.singleton_append]

@[simp]
theorem failureAt_nil (k i : Nat) : failureAt thePlatform k [] i = none := by
  simp [failureAt]

@[simp]
theorem failureAt_cons_zero (k : Nat) (st : ByteString) (l : List ByteString)
    : failureAt thePlatform k (st :: l) 0 = failure thePlatform k st := by
  simp [failureAt, destinations]

@[simp]
theorem failureAt_cons_succ (k : Nat) (st : ByteString) (l : List ByteString) (i : Nat)
    : failureAt thePlatform k (st :: l) (i + 1)
        =
      failureAt thePlatform (k + (destinations thePlatform [st]).length) l i := by
  simp only [failureAt, List.getElem?_cons_succ, List.take_succ_cons,
    destinations_cons thePlatform st (l.take i), List.length_append, Nat.add_assoc]

variable (theRequestBuffer : ByteString)

theorem sendRequests_cons (st : ByteString) (l : List ByteString) (k : Nat)
    : sendRequests thePlatform theRequestBuffer (st :: l) k
        =
      match failure thePlatform k st with
      | some err =>
        ((destinations thePlatform [st]).map (Effect.sendTo theRequestBuffer), .error err)
      | none =>
        let rest := sendRequests thePlatform theRequestBuffer l
          (k + (destinations thePlatform [st]).length)
        ((destinations thePlatform [st]).map (Effect.sendTo theRequestBuffer) ++ rest.1, rest.2) := by
  have hdestinations : destinations thePlatform [st] = (destination thePlatform st).toList := by
    unfold destinations
    cases h : destination thePlatform st with
    | none => simp [h]
    | some dest => simp [h]
  rw [hdestinations]
  unfold failure destination
  by_cases hcolon : ByteString.colon ∈ st
  . simp only [sendRequests, hcolon, if_true]
    change (match thePlatform.makeAddressV4 (listenerAddress st),
      thePlatform.stoi (listenerPort st) with
      | .error err, _ => _
      | _, .error err => _
      | .ok address, .ok port => _) = _
    cases thePlatform.makeAddressV4 (listenerAddress st) with
    | error err => rfl
    | ok address =>
      cases thePlatform.stoi (listenerPort st) with
      | error err => rfl
      | ok port =>
        dsimp
        cases thePlatform.sendTo k with
        | error err => rfl
        | ok => rfl
  . simp [sendRequests, hcolon]

theorem sendRequests_of_failureAt {l : List ByteString} {k i : Nat} {err : Error}
    (hfails : failureAt thePlatform k l i = some err)
    (hfirst : ∀ j, j < i → failureAt thePlatform k l j = none)
    : sendRequests thePlatform theRequestBuffer l k
        =
      ((destinations thePlatform (l.take (i + 1))).map (Effect.sendTo theRequestBuffer),
        .error err) := by
  induction l generalizing k i with
  | nil => simp at hfails
  | cons st l ih =>
    rw [sendRequests_cons]
    cases i with
    | zero =>
      rw [failureAt_cons_zero] at hfails
      rw [hfails]
      rfl
    | succ i =>
      have hhead := hfirst 0 (Nat.zero_lt_succ i)
      rw [failureAt_cons_zero] at hhead
      rw [failureAt_cons_succ] at hfails
      have htail : ∀ j, j < i → failureAt thePlatform
          (k + (destinations thePlatform [st]).length) l j = none := by
        intro j hj
        rw [← failureAt_cons_succ]
        apply hfirst (j + 1) (by omega)
      rw [hhead]
      dsimp
      rw [ih hfails htail, destinations_cons thePlatform st (l.take (i + 1)), List.map_append]

theorem sendRequests_of_not_failureAt {l : List ByteString} {k : Nat}
    (h : ∀ i, failureAt thePlatform k l i = none)
    : sendRequests thePlatform theRequestBuffer l k
        =
      ((destinations thePlatform l).map (Effect.sendTo theRequestBuffer), .ok ()) := by
  induction l generalizing k with
  | nil => rfl
  | cons st l ih =>
    have hhead := h 0
    rw [failureAt_cons_zero] at hhead
    have htail : ∀ i, failureAt thePlatform
        (k + (destinations thePlatform [st]).length) l i = none := by
      intro i
      rw [← failureAt_cons_succ]
      apply h
    rw [sendRequests_cons, hhead]
    dsimp
    rw [ih htail, destinations_cons thePlatform st l, List.map_append]

theorem firstFailure_or (l : List ByteString)
    : (∀ i, failureAt thePlatform 0 l i = none) ∨ ∃ i err, FirstFailure thePlatform l i err := by
  by_cases hfails : ∃ i, failureAt thePlatform 0 l i ≠ none
  . right
    have hleast := Nat.find_spec hfails
    rcases Option.ne_none_iff_exists'.mp hleast with ⟨err, herr⟩
    refine ⟨Nat.find hfails, err, herr, ?_⟩
    intro j hj
    have := Nat.find_min hfails hj
    simpa using this
  . left
    simpa using hfails

variable {thePlatform}

theorem length_destinations_take_mono {l : List ByteString} {i j : Nat} (h : i ≤ j)
    : (destinations thePlatform (l.take i)).length
        ≤
      (destinations thePlatform (l.take j)).length := by
  apply List.Sublist.length_le
  apply List.Sublist.filterMap
  rw [← Nat.min_eq_left h, ← List.take_take]
  apply List.take_sublist

theorem length_destinations_take_le (l : List ByteString) (i : Nat)
    : (destinations thePlatform (l.take i)).length ≤ (destinations thePlatform l).length := by
  apply List.Sublist.length_le
  apply List.Sublist.filterMap
  apply List.take_sublist

theorem destinations_take (l : List ByteString) (i : Nat)
    : destinations thePlatform (l.take i)
        =
      (destinations thePlatform l).take (destinations thePlatform (l.take i)).length := by
  have hsplit : destinations thePlatform l
      = destinations thePlatform (l.take i) ++ destinations thePlatform (l.drop i) := by
    unfold destinations
    rw [← List.filterMap_append, List.take_append_drop]
  rw [hsplit, List.take_left]

namespace ReachableAt

variable {l : List ByteString} {i : Nat} (h : ReachableAt thePlatform l i)

include h in
theorem length_lt
    : (destinations thePlatform (l.take i)).length
        <
      (destinations thePlatform (l.take (i + 1))).length := by
  rcases h with ⟨st, hst, ⟨hcolon, address, port, haddress, hport, _⟩, _⟩
  have hdestination : destination thePlatform st
      = some { address := address, port := UInt16.ofInt port } := by
    simp [destination, hcolon, haddress, hport]
  rw [List.take_add_one, hst]
  simp [destinations, hdestination]

include h in
theorem failureAt_eq_none : failureAt thePlatform 0 l i = none := by
  rcases h with ⟨st, hst, ⟨hcolon, address, port, haddress, hport, _⟩, hsent⟩
  rw [failureAt, hst, Option.bind_some, Nat.zero_add]
  simp [failure, hcolon, haddress, hport, hsent]

end ReachableAt

end SendRequests

/-
The run arms the receive and the timer, and the request has been sent to as many of the parsed
entries, in their order, as it takes to reach all that can be reached.
-/
def ReachesListeners (e : Engine F) (theReactor : Reactor) (thePlatform : Platform F)
    (theProtobuf : Protobuf F) : Prop :=
  ∃ e' n, e.startServiceDiscovery theReactor thePlatform theProtobuf
      = .ok (e', ((destinations thePlatform e.itsBackendUdpListeners).take n).map
          (Effect.sendTo (e.requestBuffer theReactor theProtobuf)) ++ e.armed)
    ∧ ∀ i, ReachableAt thePlatform e.itsBackendUdpListeners i →
      (destinations thePlatform (e.itsBackendUdpListeners.take i)).length < n

theorem ReachesListeners.behind {e : Engine F} {theReactor : Reactor} {thePlatform : Platform F}
    {theProtobuf : Protobuf F} (h : e.ReachesListeners theReactor thePlatform theProtobuf) {i : Nat}
    {err : Error} (hfailure : FirstFailure thePlatform e.itsBackendUdpListeners i err)
    : err = .systemError
        ∧ ∀ j, i < j → ¬ReachableAt thePlatform e.itsBackendUdpListeners j := by
  rcases h with ⟨e', n, hstart, hreached⟩
  rw [startServiceDiscovery_eq,
    sendRequests_of_failureAt thePlatform _ hfailure.fails hfailure.first] at hstart
  by_cases herr : err = .systemError
  . refine ⟨herr, ?_⟩
    simp only [herr, or_true, if_true, Except.ok.injEq, Prod.mk.injEq, List.append_left_inj]
      at hstart
    have hlength := congrArg List.length hstart.2
    simp only [List.length_map, List.length_take] at hlength
    intro j hj hreachable
    have hbefore := hreached j hreachable
    have hmono : (destinations thePlatform (e.itsBackendUdpListeners.take (i + 1))).length
        ≤ (destinations thePlatform (e.itsBackendUdpListeners.take j)).length :=
      length_destinations_take_mono hj
    have hlt := hreachable.length_lt
    have hall : (destinations thePlatform (e.itsBackendUdpListeners.take (j + 1))).length
        ≤ (destinations thePlatform e.itsBackendUdpListeners).length := by
      apply length_destinations_take_le
    omega
  . simp [herr, Except.map] at hstart

section Sample

open Sample

def rejectedAddress : Engine Rat :=
  Engine.new { config with
    itsBackendUdpListeners :=
      [ByteString.lit "10.0.0.300:31337", ByteString.lit "10.0.0.2:31337"] } false

-- `make_address_v4` rejects the first one of the two addresses.
def rejectingPlatform : Platform Rat :=
  { platform with
    makeAddressV4 := fun addr =>
      if addr = ByteString.lit "10.0.0.2" then .ok 167772162 else .error .systemError
    stoi := fun _ => .ok 31337 }

end Sample

end Engine

end Sputnik
