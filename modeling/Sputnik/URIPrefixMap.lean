import Mathlib.Data.Set.Defs
import Sputnik.Backend
import Sputnik.Lib.Map

/-!
This module contains the map of URI prefixes to the ids of the services that define them.
-/

namespace Sputnik

open Std

variable {F : Type}

def backendServiceId (backendService : BackendService F) : ByteString :=
  backendService.itsBackendServer.itsName
    ++ ByteString.colon :: ByteString.toString backendService.itsBackendServer.itsPort
    ++ ByteString.colon :: ByteString.toString backendService.itsSequenceNumber

theorem backendServiceId_inj {a b : BackendService F} (h : backendServiceId a = backendServiceId b)
    : a.nameAndPort = b.nameAndPort ∧ a.itsSequenceNumber = b.itsSequenceNumber := by
  unfold backendServiceId at h
  rcases ByteString.append_colon_toString_inj h with ⟨hserver, hseq⟩
  rcases ByteString.append_colon_toString_inj hserver with ⟨hname, hport⟩
  constructor
  . simp [BackendService.nameAndPort, BackendServer.nameAndPort, hname, hport]
  . assumption

structure URIPrefixMap where
  prefixMap : TreeMap ByteString (TreeSet ByteString)
  -- A prefix leaves the map together with its last id.
  nonempty : ∀ (p : ByteString) (ids : TreeSet ByteString), prefixMap[p]? = some ids →
    ids.isEmpty = false

namespace URIPrefixMap

def empty : URIPrefixMap where
  prefixMap := ∅
  nonempty := by simp

def addPrefix (m : URIPrefixMap) (thePrefix : ByteString) (backendService : BackendService F)
    : URIPrefixMap where
  prefixMap := m.prefixMap.insert thePrefix
    ((m.prefixMap.getD thePrefix ∅).insert (backendServiceId backendService))
  nonempty := by
    intro p ids
    rw [Lib.getElem?_insert_eq]
    split
    . intro h
      rw [← Option.some.inj h]
      apply TreeSet.isEmpty_insert
    . apply m.nonempty

def removeBackend (m : URIPrefixMap) (thePrefix : ByteString) (backendService : BackendService F)
    : URIPrefixMap :=
  match m.prefixMap[thePrefix]? with
  | none => m
  | some curr =>
    if curr.contains (backendServiceId backendService) then
      let curr := curr.erase (backendServiceId backendService)
      if hempty : curr.isEmpty then
        {
          prefixMap := m.prefixMap.erase thePrefix
          nonempty := by
            intro p ids
            rw [Lib.getElem?_erase_eq]
            split
            . simp
            . apply m.nonempty
        }
      else
        {
          prefixMap := m.prefixMap.insert thePrefix curr
          nonempty := by
            intro p ids
            rw [Lib.getElem?_insert_eq]
            split
            . intro h
              rw [← Option.some.inj h]
              simpa using hempty
            . apply m.nonempty
        }
    else
      m

def find? (m : URIPrefixMap) (uri : ByteString) : Option ByteString :=
  (m.prefixMap.toList.find? fun curr => curr.1.isPrefixOf uri).map fun curr => curr.1

-- `operator()`
def translate (m : URIPrefixMap) (uri : ByteString) : ByteString :=
  match m.find? uri with
  | some p => p
  | none => uri

def Registered (m : URIPrefixMap) (p id : ByteString) : Prop :=
  ∃ ids, m.prefixMap[p]? = some ids ∧ id ∈ ids

@[simp]
theorem not_registered_empty (p id : ByteString) : ¬empty.Registered p id := by
  simp [Registered, empty]

theorem registered_addPrefix (m : URIPrefixMap) (thePrefix : ByteString)
    (service : BackendService F) (p id : ByteString)
    : (m.addPrefix thePrefix service).Registered p id
        ↔
      m.Registered p id ∨ (p = thePrefix ∧ id = backendServiceId service) := by
  unfold Registered addPrefix
  simp only [Lib.getElem?_insert_eq]
  by_cases hp : thePrefix = p
  . subst hp
    simp only [if_true, Option.some.injEq, exists_eq_left', TreeSet.mem_insert,
      LawfulEqCmp.compare_eq_iff_eq, true_and, TreeMap.getD_eq_getD_getElem?]
    cases m.prefixMap[thePrefix]? with
    | none => simp [eq_comm]
    | some ids => simp [eq_comm, or_comm]
  . have : ¬(p = thePrefix) := fun h => hp h.symm
    simp [hp, this]

theorem registered_removeBackend (m : URIPrefixMap) (thePrefix : ByteString)
    (service : BackendService F) (p id : ByteString)
    : (m.removeBackend thePrefix service).Registered p id
        ↔
      m.Registered p id ∧ ¬(p = thePrefix ∧ id = backendServiceId service) := by
  unfold removeBackend
  split
  . next hnone =>
    constructor
    . intro h
      refine ⟨h, ?_⟩
      rintro ⟨rfl, -⟩
      simp [Registered, hnone] at h
    . exact fun h => h.1
  . next curr hcurr =>
    split
    . next hmem =>
      by_cases hp : thePrefix = p
      . subst hp
        have hbefore : m.Registered thePrefix id ↔ id ∈ curr := by simp [Registered, hcurr]
        rw [hbefore]
        dsimp
        split
        . next hempty =>
          have hnotMem : id ∉ curr.erase (backendServiceId service) :=
            TreeSet.not_mem_of_isEmpty hempty
          simp only [TreeSet.mem_erase, ne_eq, LawfulEqCmp.compare_eq_iff_eq, not_and] at hnotMem
          simp only [Registered, Lib.getElem?_erase_eq, if_true, reduceCtorEq, false_and,
            exists_false, true_and, false_iff, not_and, not_not]
          intro hid
          by_contra hne
          apply hnotMem (fun h => hne h.symm) hid
        . simp only [Registered, Lib.getElem?_insert_eq, if_true, Option.some.injEq,
            exists_eq_left', TreeSet.mem_erase, ne_eq, LawfulEqCmp.compare_eq_iff_eq, true_and]
          constructor
          . exact fun h => ⟨h.2, fun heq => h.1 heq.symm⟩
          . exact fun h => ⟨fun heq => h.2 heq.symm, h.1⟩
      . have hp' : ¬(p = thePrefix) := fun h => hp h.symm
        dsimp
        split
        . simp [Registered, Lib.getElem?_erase_eq, hp, hp']
        . simp [Registered, Lib.getElem?_insert_eq, hp, hp']
    . next hmem =>
      constructor
      . intro h
        refine ⟨h, ?_⟩
        rintro ⟨rfl, rfl⟩
        simp only [Registered, hcurr, Option.some.injEq, exists_eq_left'] at h
        apply hmem (by simpa using h)
      . exact fun h => h.1

theorem find?_eq_some {m : URIPrefixMap} {uri p : ByteString} (h : m.find? uri = some p)
    : (∃ id, m.Registered p id) ∧ p <+: uri := by
  unfold find? at h
  simp only [Option.map_eq_some_iff] at h
  rcases h with ⟨⟨p', ids⟩, hfind, rfl⟩
  have hmem := List.mem_of_find?_eq_some hfind
  have hprefix := List.find?_some hfind
  rw [TreeMap.mem_toList_iff_getElem?_eq_some] at hmem
  have hids : ∃ id, id ∈ ids := by
    have := m.nonempty p' ids hmem
    rwa [TreeSet.isEmpty_eq_false_iff_exists_mem] at this
  rcases hids with ⟨id, hid⟩
  exact ⟨⟨id, ids, hmem, hid⟩, by simpa using hprefix⟩

theorem find?_eq_none {m : URIPrefixMap} {uri : ByteString}
    : m.find? uri = none ↔ ∀ p id, m.Registered p id → ¬(p <+: uri) := by
  unfold find?
  simp only [Option.map_eq_none_iff, List.find?_eq_none, Prod.forall,
    TreeMap.mem_toList_iff_getElem?_eq_some, List.isPrefixOf_iff_prefix]
  constructor
  . intro h p id hreg
    rcases hreg with ⟨ids, hids, -⟩
    apply h p ids hids
  . intro h p ids hids
    have := m.nonempty p ids hids
    rw [TreeSet.isEmpty_eq_false_iff_exists_mem] at this
    rcases this with ⟨id, hid⟩
    exact h p id ⟨ids, hids, hid⟩

theorem find?_le {m : URIPrefixMap} {uri p : ByteString} (h : m.find? uri = some p)
    {q id : ByteString} (hreg : m.Registered q id) (hq : q <+: uri)
    : p = q ∨ compare p q = .lt := by
  unfold find? at h
  simp only [Option.map_eq_some_iff, List.find?_eq_some_iff_append] at h
  rcases h with ⟨⟨p', ids'⟩, ⟨-, before, after, hsplit, hbefore⟩, rfl⟩
  rcases hreg with ⟨ids, hids, -⟩
  have hmem : (q, ids) ∈ m.prefixMap.toList := by
    rwa [TreeMap.mem_toList_iff_getElem?_eq_some]
  have hordered := TreeMap.ordered_keys_toList (t := m.prefixMap)
  rw [hsplit] at hmem hordered
  cases List.mem_append.mp hmem with
  | inl hmem =>
    have hnot := hbefore (q, ids) hmem
    rw [List.isPrefixOf_iff_prefix.mpr hq] at hnot
    contradiction
  | inr hmem =>
    cases List.mem_cons.mp hmem with
    | inl heq =>
      left
      injection heq with heq
      exact heq.symm
    | inr hmem =>
      right
      have hafter := (List.pairwise_append.mp hordered).2.1
      exact (List.pairwise_cons.mp hafter).1 (q, ids) hmem

theorem find?_of_registered_subset {m m' : URIPrefixMap} {uri p id : ByteString}
    (hsub : ∀ q id, m'.Registered q id → m.Registered q id) (h : m.find? uri = some p)
    (hreg : m'.Registered p id) : m'.find? uri = some p := by
  have hprefix : p <+: uri := (find?_eq_some h).2
  cases hfind : m'.find? uri with
  | none => exact absurd hprefix (find?_eq_none.mp hfind p id hreg)
  | some p' =>
    rcases find?_eq_some hfind with ⟨⟨id', hreg'⟩, hprefix'⟩
    cases find?_le h (hsub p' id' hreg') hprefix' with
    | inl heq => rw [heq]
    | inr hlt =>
      cases find?_le hfind hreg hprefix with
      | inl heq => rw [heq]
      | inr hgt =>
        have hswap : compare p' p = (compare p p').swap := OrientedCmp.eq_swap
        rw [hswap, hlt] at hgt
        contradiction

theorem compare_ne_lt {p q : ByteString} (h : p <+: q) : compare q p ≠ .lt := by
  induction p generalizing q with
  | nil =>
    cases q with
    | nil => decide
    | cons c q => simp [List.compare_cons_nil]
  | cons c p ih =>
    rcases h with ⟨rest, h⟩
    rw [← h, List.cons_append, List.compare_cons_cons]
    simpa using ih ⟨rest, rfl⟩

-- The prefixes of one URI are ordered by length: the first one that the loop finds is the shortest.
theorem find?_prefix {m : URIPrefixMap} {uri p : ByteString} (h : m.find? uri = some p)
    {q id : ByteString} (hreg : m.Registered q id) (hq : q <+: uri) : p <+: q := by
  have hp := (find?_eq_some h).2
  cases List.prefix_or_prefix_of_prefix hp hq with
  | inl hle => assumption
  | inr hge =>
    cases find?_le h hreg hq with
    | inl heq =>
      rw [heq]
    | inr hlt =>
      exact absurd hlt (compare_ne_lt hge)

theorem translate_eq_self {m : URIPrefixMap} {uri : ByteString}
    (h : ∀ p id, m.Registered p id → ¬(p <+: uri)) : m.translate uri = uri := by
  unfold translate
  rw [find?_eq_none.mpr h]

def registered (m : URIPrefixMap) : Set ByteString := { p | ∃ id, m.Registered p id }

end URIPrefixMap

-- `k` is the shortest of the prefixes of `uri`, or `uri` itself where it has none.
def Routes (prefixes : Set ByteString) (uri k : ByteString) : Prop :=
  (k ∈ prefixes ∧ k <+: uri ∧ ∀ q ∈ prefixes, q <+: uri → k <+: q)
    ∨ (k = uri ∧ ∀ q ∈ prefixes, ¬(q <+: uri))

theorem Routes.isPrefix {prefixes : Set ByteString} {uri k : ByteString}
    (h : Routes prefixes uri k) : k <+: uri := by
  rcases h with ⟨_, hk, _⟩ | ⟨heq, _⟩
  . assumption
  . rw [heq]

theorem Routes.unique {prefixes : Set ByteString} {uri k k' : ByteString}
    (h : Routes prefixes uri k) (h' : Routes prefixes uri k') : k = k' := by
  rcases h with ⟨hmem, hk, hleast⟩ | ⟨heq, hnone⟩
  . rcases h' with ⟨hmem', hk', hleast'⟩ | ⟨_, hnone'⟩
    . have hle := hleast k' hmem' hk'
      have hge := hleast' k hmem hk
      apply hle.eq_of_length_le hge.length_le
    . exact absurd hk (hnone' k hmem)
  . rcases h' with ⟨hmem', hk', _⟩ | ⟨heq', _⟩
    . exact absurd hk' (hnone k' hmem')
    . rw [heq, heq']

-- `k` has no prefixes that its URI does not have.
theorem Routes.idem {prefixes : Set ByteString} {uri k : ByteString} (h : Routes prefixes uri k)
    : Routes prefixes k k := by
  rcases h with ⟨hmem, hk, hleast⟩ | ⟨heq, hnone⟩
  . left
    refine ⟨hmem, List.prefix_rfl, ?_⟩
    intro q hq hqk
    apply hleast q hq (hqk.trans hk)
  . right
    rw [heq]
    exact ⟨rfl, hnone⟩

namespace URIPrefixMap

theorem routes_translate (m : URIPrefixMap) (uri : ByteString)
    : Routes m.registered uri (m.translate uri) := by
  unfold translate
  cases hfind : m.find? uri with
  | none =>
    right
    refine ⟨rfl, ?_⟩
    rintro q ⟨id, hreg⟩
    apply find?_eq_none.mp hfind q id hreg
  | some p =>
    left
    rcases find?_eq_some hfind with ⟨hreg, hp⟩
    refine ⟨hreg, hp, ?_⟩
    rintro q ⟨id, hreg'⟩ hq
    apply find?_prefix hfind hreg' hq

end URIPrefixMap

end Sputnik
