import Mathlib.Algebra.Order.Floor.Ring
import Mathlib.Data.Nat.NthRoot.Defs
import Mathlib.Data.Rat.Floor
import Coplanar.Numeral
import Coplanar.Proofs.Missing

/-! Exact numbers some of which are missing, as the numbers of parameters and datasets,
and what every kind of numbers has to know of a direction and itself. -/
namespace Coplanar

class Roots (K : Type) where
  rootOf : Nat → K → K

instance : Roots ℚ where
  rootOf n x := Nat.nthRoot n ⌊x⌋.toNat

section Samples

variable {K : Type} [Field K] [LinearOrder K] [FloorRing K] [Circular K] [Roots K]

/-- There is no infinite number.  A missing one is as good for the end of a range: nothing
is found to be beyond it.  Whole numbers are not rounded. -/
instance : Numeral (Sample K) where
  tiny := .known (1 / 2 ^ 1022)
  infinity := .missing
  missing := .missing
  ofInt? n := some (.known n)
  ofDecimal negative digits place :=
    let x := (digits : K) * 10 ^ place
    .known (if negative then -x else x)
  compareInt
    | .known x, n => some (compare x n)
    | .missing, _ => none
  truncate?
    | .known x => some (if 0 ≤ x then ⌊x⌋ else ⌈x⌉)
    | .missing => none
  single := id
  rootOf n := .map (Roots.rootOf n)

instance : Quantity (Sample K) where

end Samples

namespace Direction

variable {α : Type} [Scalar α]

def IsFinite (d : Direction α) : Prop := Scalar.isFinite d.ra = true ∧ Scalar.isFinite d.dec = true

end Direction

/-- A finite direction is at no distance from itself, and the default tolerance is
positive. -/
class LawfulNearness (α : Type) [Trig α] : Prop where
  separation_self : ∀ d : Direction α, d.IsFinite → d.separation d = 0
  default_pos : Scalar.less 0 (defaultTangentTolerance : α) = true

theorem Direction.isNear_self {α : Type} [Trig α] [LawfulNearness α] {d : Direction α}
    (h : d.IsFinite) (tolerance : α) : d.isNear d tolerance = Scalar.less 0 tolerance := by
  rw [isNear, LawfulNearness.separation_self d h]

section Exact

variable {K : Type} [Field K] [LinearOrder K] [Circular K]

theorem separation_known (d e : Direction K) :
    Direction.separation (α := Sample K) ⟨.known d.ra, .known d.dec⟩ ⟨.known e.ra, .known e.dec⟩ =
      .known (d.separation e) := rfl

theorem Sample.isKnown_of_isFinite {x : Sample K} (h : Scalar.isFinite x = true) : x.IsKnown := by
  cases x with
  | missing => cases h
  | known x => exact ⟨x, rfl⟩

variable [IsStrictOrderedRing K]

theorem defaultTangentTolerance_pos : (0 : K) < defaultTangentTolerance := by
  change (0 : K) < (1 : Nat) / (1000000 : Nat)
  positivity

theorem defaultTangentTolerance_known :
    (defaultTangentTolerance : Sample K) = .known defaultTangentTolerance := by
  have hne : Sample.known ((1000000 : Nat) : K) ≠ .known 0 := by
    intro h
    exact absurd (Sample.known.inj h) (Nat.cast_ne_zero.mpr (by decide))
  exact if_neg hne

variable [LawfulCircular K]

instance : LawfulNearness K where
  separation_self d _ := separation_self d
  default_pos := (less_iff _ _).mpr defaultTangentTolerance_pos

instance : LawfulNearness (Sample K) where
  separation_self d hfinite := by
    obtain ⟨ra, dec⟩ := d
    obtain ⟨x, rfl⟩ := Sample.isKnown_of_isFinite hfinite.1
    obtain ⟨y, rfl⟩ := Sample.isKnown_of_isFinite hfinite.2
    rw [separation_known ⟨x, y⟩ ⟨x, y⟩, separation_self, Sample.zero_eq]
  default_pos := by
    rw [defaultTangentTolerance_known]
    exact (Sample.less_known _ _).mpr defaultTangentTolerance_pos

end Exact

end Coplanar
