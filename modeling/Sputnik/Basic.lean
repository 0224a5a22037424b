import Mathlib.Data.Rat.Defs
import Sputnik.Lib.Decimal

/-!
This module contains the vocabulary that all parts of the engine share: strings, single precision
arithmetic, errors, and the state of the reactor and of the client requests as the engine reads
them.
-/

namespace Sputnik

-- `std::string`, which `std::map` orders lexicographically by unsigned bytes
abbrev ByteString := List UInt8

namespace ByteString

def lit (s : String) : ByteString := s.toList.map fun c => UInt8.ofNat c.toNat

def colon : UInt8 := 58

def toString (i : Int) : ByteString := Lib.Decimal.ofInt i

theorem append_colon_toString_inj {s t : ByteString} {i j : Int}
    (h : s ++ colon :: toString i = t ++ colon :: toString j) : s = t ∧ i = j := by
  apply Lib.Decimal.append_ofInt_inj (c := colon) _ _ h
  . decide
  . decide

end ByteString

def FitsInt (i : Int) : Prop := -2147483648 ≤ i ∧ i ≤ 2147483647

instance (i : Int) : Decidable (FitsInt i) := inferInstanceAs (Decidable (_ ∧ _))

-- `static_cast<int>` of a `double` that truncates to `i`, as x86-64 has it where `i` does not fit
def staticCastInt (i : Int) : Int := if FitsInt i then i else -2147483648

-- `int` addition, which wraps around
def addInt (i j : Int) : Int := (i + j).bmod 4294967296

theorem staticCastInt_eq_self {i : Int} (h : FitsInt i) : staticCastInt i = i := if_pos h

theorem addInt_eq_add {i j : Int} (h : FitsInt (i + j)) : addInt i j = i + j := by
  unfold FitsInt at h
  unfold addInt
  rw [Int.bmod_eq_of_le (by omega) (by omega)]

/--
The operations of `float` and `double` the engine uses. Nothing but their results enters the
control flow, so that the arithmetic stays a parameter; `exactArith` is the exact one.
-/
class FloatArith (F : Type) extends Zero F, One F, Add F, Neg F, Mul F, Div F where
  ofInt : Int → F
  lt : F → F → Bool
  exp : F → F
  -- `factor * count`, computed in double precision and truncated to an integer of any size
  truncMul : F → Int → Int

namespace FloatArith

variable {F : Type} [FloatArith F]

def max (a b : F) : F := if lt a b then b else a

def accumulate (v : List F) : F := v.foldl (fun sum x => sum + x) 0

end FloatArith

/-
What the selection of the sticky forwarder relies on, for products that fit into an `int`: with a
factor above 1 a product does not fall below its count. Factors are finite.
-/
class LawfulFloatArith (F : Type) [FloatArith F] : Prop where
  one_lt_two : FloatArith.lt (1 : F) (FloatArith.ofInt 2) = true
  truncMul_zero : ∀ {factor : F}, FloatArith.lt 1 factor = true → FloatArith.truncMul factor 0 = 0
  le_truncMul : ∀ {factor : F} {count : Int}, 0 ≤ count → FloatArith.lt 1 factor = true →
    FitsInt (FloatArith.truncMul factor count) → count ≤ FloatArith.truncMul factor count

-- What the minimal remapping of the sticky forwarder relies on, up to a product that fits.
class MonotoneFloatArith (F : Type) [FloatArith F] : Prop extends LawfulFloatArith F where
  truncMul_mono : ∀ {factor : F} {count count' : Int}, 0 ≤ count → count ≤ count' →
    FloatArith.lt 1 factor = true → FitsInt (FloatArith.truncMul factor count') →
      FitsInt (FloatArith.truncMul factor count)
        ∧ FloatArith.truncMul factor count ≤ FloatArith.truncMul factor count'

@[reducible]
def exactArith (exp : Rat → Rat) : FloatArith Rat where
  ofInt i := i
  lt a b := decide (a < b)
  exp := exp
  truncMul factor count := (factor.num * count).tdiv factor.den

theorem lawful_exactArith (exp : Rat → Rat)
    : @LawfulFloatArith Rat (exactArith exp) := by
  have hle : ∀ {factor : Rat} {count : Int}, 0 ≤ count → (1 : Rat) < factor →
      count ≤ (factor.num * count).tdiv factor.den := by
    intro factor count hcount hfactor
    have hden : (factor.den : Int) ≤ factor.num := by
      have := (Rat.lt_iff 1 factor).mp hfactor
      simp only [Rat.den_one, Rat.num_one] at this
      omega
    have hmul : (factor.den : Int) * count ≤ factor.num * count := by
      apply Int.mul_le_mul_of_nonneg_right hden hcount
    have hpos : (0 : Int) < factor.den := by
      have := factor.den_pos
      omega
    have hnonneg : 0 ≤ factor.num * count := by
      apply Int.le_trans _ hmul
      apply Int.mul_nonneg (by omega) hcount
    rw [Int.tdiv_eq_ediv_of_nonneg hnonneg]
    apply Int.le_ediv_of_mul_le hpos
    rwa [Int.mul_comm]
  refine @LawfulFloatArith.mk Rat (exactArith exp) ?_ ?_ ?_
  . rfl
  . intro factor _
    change (factor.num * 0).tdiv factor.den = 0
    rw [Int.mul_zero, Int.zero_tdiv]
  . intro factor count hcount hfactor _
    apply hle hcount
    apply of_decide_eq_true hfactor

theorem monotone_exactArith (exp : Rat → Rat)
    : @MonotoneFloatArith Rat (exactArith exp) := by
  have hmono : ∀ {factor : Rat} {count count' : Int}, 0 ≤ count → count ≤ count' →
      (1 : Rat) < factor → 0 ≤ (factor.num * count).tdiv factor.den
        ∧ (factor.num * count).tdiv factor.den ≤ (factor.num * count').tdiv factor.den := by
    intro factor count count' hcount hle hfactor
    have hden : (0 : Int) ≤ factor.den := by omega
    have hnum : 0 ≤ factor.num := by
      have := (Rat.lt_iff 1 factor).mp hfactor
      simp only [Rat.den_one, Rat.num_one] at this
      omega
    have hmul : factor.num * count ≤ factor.num * count' := Int.mul_le_mul_of_nonneg_left hle hnum
    have hnonneg : 0 ≤ factor.num * count := Int.mul_nonneg hnum hcount
    rw [Int.tdiv_eq_ediv_of_nonneg hnonneg, Int.tdiv_eq_ediv_of_nonneg (by omega)]
    refine ⟨Int.ediv_nonneg hnonneg hden, ?_⟩
    apply Int.ediv_le_ediv _ hmul
    have := factor.den_pos
    omega
  refine @MonotoneFloatArith.mk Rat (exactArith exp) (lawful_exactArith exp) ?_
  intro factor count count' hcount hle hfactor hfits
  rcases hmono hcount hle (of_decide_eq_true hfactor) with ⟨hnonneg, hmul⟩
  have hupper : (factor.num * count').tdiv factor.den ≤ 2147483647 := hfits.2
  refine ⟨⟨?_, ?_⟩, hmul⟩
  . apply Int.le_trans _ hnonneg
    omega
  . apply Int.le_trans hmul hupper

-- `Fmi::Exception::Trace` keeps the exception it wraps.
inductive Error where
  | negativeOverflow
  | positiveOverflow
  | outOfRange
  | systemError
  | fmi (what : ByteString)
  deriving DecidableEq, Repr

def numericCastUnsigned (i : Int) : Except Error UInt32 :=
  if i < 0 then .error .negativeOverflow else .ok (UInt32.ofNat i.toNat)

def numericCastInt (n : UInt32) : Except Error Int :=
  if 2147483647 < n.toNat then .error .positiveOverflow else .ok n.toNat

structure Reactor where
  isShuttingDown : Bool
  isLoadHigh : Bool
  -- the number of active connections of a host name and port, zero if not found
  getBackendRequestStatus : ByteString → Int → Int
  getURIMap : List ByteString
  isURIPrefix : ByteString → Bool
  getAdminRequestNames : List ByteString

structure Request where
  getResource : ByteString
  getClientIP : ByteString
  getHeader : ByteString → Option ByteString

/-!
What concrete runs take place in: a reactor without connections, and arithmetic that no run of the
random forwarder asks for anything.
-/

namespace Sample

scoped instance : FloatArith Rat := exactArith fun _ => 1

scoped instance : LawfulFloatArith Rat := lawful_exactArith fun _ => 1

scoped instance : MonotoneFloatArith Rat := monotone_exactArith fun _ => 1

def reactor : Reactor where
  isShuttingDown := false
  isLoadHigh := false
  getBackendRequestStatus _ _ := 0
  getURIMap := []
  isURIPrefix _ := false
  getAdminRequestNames := []

def request : Request where
  getResource := ByteString.lit "/wms"
  getClientIP := []
  getHeader _ := none

end Sample

end Sputnik
