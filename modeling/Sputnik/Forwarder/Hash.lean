import Sputnik.Forwarder.Sticky
import Sputnik.Lib.Hash

/-!
This module contains what the hash of the sticky forwarder keeps apart: a step is a bijection of the
64-bit words for each byte, as the prime is odd.
-/

namespace Sputnik

-- the inverse of `kFnvPrime` modulo 2 ^ 64
def kFnvInverse : UInt64 := 14886173955864302971

theorem kFnvPrime_mul_inverse : kFnvPrime * kFnvInverse = 1 := by decide

theorem mul_kFnvPrime_injective : Function.Injective fun hash : UInt64 => hash * kFnvPrime := by
  apply Function.LeftInverse.injective (g := fun hash => hash * kFnvInverse)
  intro hash
  dsimp
  rw [UInt64.mul_assoc, kFnvPrime_mul_inverse, UInt64.mul_one]

theorem fnv1a_step_injective (c : UInt8)
    : Function.Injective fun hash : UInt64 => (hash ^^^ c.toUInt64) * kFnvPrime := by
  intro hash hash' h
  have hxor := mul_kFnvPrime_injective h
  rwa [UInt64.xor_left_inj] at hxor

theorem fnv1a_step_injective_byte (hash : UInt64)
    : Function.Injective fun c : UInt8 => (hash ^^^ c.toUInt64) * kFnvPrime := by
  intro c c' h
  have hxor := mul_kFnvPrime_injective h
  rw [UInt64.xor_right_inj] at hxor
  exact UInt8.toUInt64_inj.mp hxor

theorem fnv1a_injective (str : ByteString) : Function.Injective (fnv1a str) :=
  Lib.foldl_injective fnv1a_step_injective str

theorem fnv1a_ne_of_differAtOne {str str' : ByteString} (h : Lib.DifferAtOne str str')
    (seed : UInt64) : fnv1a str seed ≠ fnv1a str' seed :=
  Lib.foldl_ne_of_differAtOne fnv1a_step_injective fnv1a_step_injective_byte h seed

namespace BackendForwarder

def stickyId (nameAndPort : ByteString × Int) : ByteString :=
  nameAndPort.1 ++ ByteString.colon :: ByteString.toString nameAndPort.2

theorem stickyScore_eq (key : ByteString) (nameAndPort : ByteString × Int)
    : stickyScore key nameAndPort
        =
      (fnv1a (stickyId nameAndPort) (fnv1a key kFnvOffset)).toNat := rfl

theorem stickyScore_eq_iff {key key' : ByteString} {backend backend' : ByteString × Int}
    : stickyScore key backend = stickyScore key' backend'
        ↔
      fnv1a (stickyId backend) (fnv1a key kFnvOffset)
        = fnv1a (stickyId backend') (fnv1a key' kFnvOffset) := by
  rw [stickyScore_eq, stickyScore_eq, UInt64.toNat_inj]

/--
For each string the hash is injective in the seed, and for each seed it keeps apart the strings that
differ in one byte. So no key gives one score to two backends whose ids differ in one byte, and no
backend gives one score to two keys with different hashes.
-/
theorem fnv1a_separates
    : (∀ str, Function.Injective (fnv1a str))
        ∧ (∀ str str' seed, Lib.DifferAtOne str str' → fnv1a str seed ≠ fnv1a str' seed)
        ∧ (∀ backend key key', fnv1a key kFnvOffset ≠ fnv1a key' kFnvOffset →
            stickyScore key backend ≠ stickyScore key' backend)
        ∧ (∀ key backend backend', Lib.DifferAtOne (stickyId backend) (stickyId backend') →
            stickyScore key backend ≠ stickyScore key backend') := by
  refine ⟨fnv1a_injective, ?_, ?_, ?_⟩
  . intro str str' seed h
    apply fnv1a_ne_of_differAtOne h
  . intro backend key key' hne heq
    apply hne
    apply fnv1a_injective (stickyId backend)
    apply stickyScore_eq_iff.mp heq
  . intro key backend backend' h heq
    apply fnv1a_ne_of_differAtOne h
    apply stickyScore_eq_iff.mp heq

theorem fnv1a_separates_sample
    : stickyScore (ByteString.lit "c:42") (ByteString.lit "node1", 8080)
        ≠ stickyScore (ByteString.lit "c:42") (ByteString.lit "node2", 8080) := by
  apply fnv1a_separates.2.2.2
  apply Lib.differAtOne_of_split (a := 49) (b := 50) _ (ByteString.lit "node")
    (ByteString.lit ":8080")
  decide

end BackendForwarder

end Sputnik
