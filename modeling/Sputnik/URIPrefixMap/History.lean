import Mathlib.Data.List.Induction
import Sputnik.Services.Impl

/-!
This module contains the prefix map as a function of the calls that built it: what a URI translates
to depends on nothing but the set of the prefixes that have an id left.
-/

namespace Sputnik

variable {F : Type}

inductive PrefixOp (F : Type) where
  | addPrefix (thePrefix : ByteString) (backendService : BackendService F)
  | removeBackend (thePrefix : ByteString) (backendService : BackendService F)

namespace PrefixOp

def adds (p id : ByteString) : PrefixOp F → Prop
  | addPrefix thePrefix backendService => p = thePrefix ∧ id = backendServiceId backendService
  | removeBackend .. => False

def removes (p id : ByteString) : PrefixOp F → Prop
  | addPrefix .. => False
  | removeBackend thePrefix backendService =>
    p = thePrefix ∧ id = backendServiceId backendService

-- The last call that is about the id under this prefix adds it.
def Live (ops : List (PrefixOp F)) (p id : ByteString) : Prop :=
  ∃ before op after, ops = before ++ op :: after ∧ op.adds p id
    ∧ ∀ later ∈ after, ¬later.removes p id

def livePrefixes (ops : List (PrefixOp F)) : Set ByteString := { p | ∃ id, Live ops p id }

theorem not_live_nil (p id : ByteString) : ¬Live ([] : List (PrefixOp F)) p id := by
  rintro ⟨before, op, after, hsplit, -⟩
  simp at hsplit

theorem live_concat {ops : List (PrefixOp F)} {op : PrefixOp F} {p id : ByteString}
    : Live (ops ++ [op]) p id ↔ op.adds p id ∨ (Live ops p id ∧ ¬op.removes p id) := by
  constructor
  . rintro ⟨before, added, after, hsplit, hadds, hafter⟩
    rcases List.eq_nil_or_concat after with rfl | ⟨after', last, rfl⟩
    . have hlast := List.append_inj' hsplit rfl
      rw [List.singleton_inj] at hlast
      rw [hlast.2]
      exact .inl hadds
    . rw [List.concat_eq_append, ← List.cons_append, ← List.append_assoc] at hsplit
      have hlast := List.append_inj' hsplit rfl
      rw [List.singleton_inj] at hlast
      simp only [List.concat_eq_append, List.mem_append, List.mem_singleton] at hafter
      right
      refine ⟨⟨before, added, after', hlast.1, hadds, ?_⟩, ?_⟩
      . intro later hlater
        apply hafter later (.inl hlater)
      . rw [hlast.2]
        apply hafter last (.inr rfl)
  . intro h
    cases h with
    | inl hadds => exact ⟨ops, op, [], rfl, hadds, by simp⟩
    | inr h =>
      rcases h with ⟨⟨before, added, after, hsplit, hadds, hafter⟩, hkeeps⟩
      refine ⟨before, added, after ++ [op], by simp [hsplit], hadds, ?_⟩
      intro later hlater
      cases List.mem_append.mp hlater with
      | inl hlater => apply hafter later hlater
      | inr hlater => rwa [List.mem_singleton.mp hlater]

end PrefixOp

namespace URIPrefixMap

def step (m : URIPrefixMap) : PrefixOp F → URIPrefixMap
  | .addPrefix thePrefix backendService => m.addPrefix thePrefix backendService
  | .removeBackend thePrefix backendService => m.removeBackend thePrefix backendService

def run (ops : List (PrefixOp F)) : URIPrefixMap := ops.foldl step empty

theorem registered_step (m : URIPrefixMap) (op : PrefixOp F) (p id : ByteString)
    : (m.step op).Registered p id ↔ op.adds p id ∨ (m.Registered p id ∧ ¬op.removes p id) := by
  cases op with
  | addPrefix thePrefix backendService =>
    unfold step
    rw [registered_addPrefix]
    simp [PrefixOp.adds, PrefixOp.removes, or_comm]
  | removeBackend thePrefix backendService =>
    unfold step
    rw [registered_removeBackend]
    simp [PrefixOp.adds, PrefixOp.removes]

theorem registered_run (ops : List (PrefixOp F)) (p id : ByteString)
    : (run ops).Registered p id ↔ PrefixOp.Live ops p id := by
  induction ops using List.reverseRecOn with
  | nil =>
    have hnil := PrefixOp.not_live_nil (F := F) p id
    simp [hnil, run]
  | append_singleton ops op ih =>
    unfold run at *
    rw [List.foldl_append, List.foldl_cons, List.foldl_nil, registered_step, ih,
      PrefixOp.live_concat]

theorem registered_eq_livePrefixes (ops : List (PrefixOp F))
    : (run ops).registered = PrefixOp.livePrefixes ops := by
  unfold registered PrefixOp.livePrefixes
  simp only [registered_run]

theorem translate_congr {m m' : URIPrefixMap} (h : m.registered = m'.registered) (uri : ByteString)
    : m.translate uri = m'.translate uri := by
  have hroutes := m'.routes_translate uri
  rw [← h] at hroutes
  exact (m.routes_translate uri).unique hroutes

theorem translate_translate (m : URIPrefixMap) (uri : ByteString)
    : m.translate (m.translate uri) = m.translate uri :=
  (m.routes_translate (m.translate uri)).unique (m.routes_translate uri).idem

/--
A URI translates to its shortest live prefix, or to itself where it has none. The translation
depends on nothing but the set of the live prefixes, and is idempotent.
-/
theorem translate_run (ops : List (PrefixOp F)) (uri : ByteString)
    : Routes (PrefixOp.livePrefixes ops) uri ((run ops).translate uri)
      ∧ (∀ ops' : List (PrefixOp F), PrefixOp.livePrefixes ops' = PrefixOp.livePrefixes ops →
          (run ops').translate uri = (run ops).translate uri)
      ∧ (run ops).translate ((run ops).translate uri) = (run ops).translate uri := by
  refine ⟨?_, ?_, ?_⟩
  . rw [← registered_eq_livePrefixes]
    apply routes_translate
  . intro ops' hsame
    apply translate_congr
    rw [registered_eq_livePrefixes, registered_eq_livePrefixes, hsame]
  . apply translate_translate

section Sample

open Sample

def defines (name : String) (seq : Int) : PrefixOp Rat :=
  .addPrefix (ByteString.lit "/wms") (service name "/wms" seq true)

theorem translate_run_sample
    : (run [defines "a" 1, defines "b" 1, defines "a" 2]).translate (ByteString.lit "/wms/layers")
        =
      (run [defines "b" 1]).translate (ByteString.lit "/wms/layers") := by
  apply (translate_run [defines "b" 1] (ByteString.lit "/wms/layers")).2.1
  ext p
  simp only [← registered_eq_livePrefixes, registered, run, Set.mem_ofPred_eq, List.foldl_cons,
    List.foldl_nil, registered_step, defines, PrefixOp.adds, PrefixOp.removes]
  simp [and_comm, exists_or]

end Sample

end URIPrefixMap

end Sputnik
