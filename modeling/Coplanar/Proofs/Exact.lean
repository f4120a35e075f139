import Mathlib.Algebra.Order.Field.Rat
import Mathlib.Data.List.Fold
import Mathlib.Data.Rat.Sqrt
import Mathlib.Tactic.LinearCombination
import Mathlib.Tactic.Ring
import Coplanar.Corrector

/-! Exact arithmetic: the numbers of an ordered field.  Every operation of
`Scalar` is then the one of the field, comparisons are decided, and no square is
out of range.  Of the circular functions nothing is assumed but in `LawfulCircular`,
which is enough for a tangent point to be near itself. -/
namespace Coplanar

/-- Half a turn and the circular functions of a field, which it need not contain
as they are. -/
class Circular (K : Type) where
  pi : K
  sin : K → K
  cos : K → K
  root : K → K
  angle : K → K → K

section Field

variable {K : Type} [Field K] [LinearOrder K] [Circular K]

instance exactScalar : Scalar K where
  toZero := inferInstance
  toAdd := inferInstance
  toSub := inferInstance
  toMul := inferInstance
  toDiv := inferInstance
  toNeg := inferInstance
  natural n := n
  pi := Circular.pi
  abs x := |x|
  less x y := decide (x < y)
  same x y := decide (x = y)
  square? x := some (x * x)

instance exactTrig : Trig K where
  sin := Circular.sin
  cos := Circular.cos
  root := Circular.root
  angle := Circular.angle

@[simp] theorem less_iff (x y : K) : Scalar.less x y = true ↔ x < y := by simp [Scalar.less]

@[simp] theorem less_eq_false_iff (x y : K) : Scalar.less x y = false ↔ y ≤ x := by
  simp [Scalar.less]

@[simp] theorem same_iff (x y : K) : Scalar.same x y = true ↔ x = y := by simp [Scalar.same]

@[simp] theorem natural_eq (n : Nat) : (Scalar.natural n : K) = n := rfl

@[simp] theorem same_plane_iff (p q : Plane K) : p.same q = true ↔ p = q := by
  obtain ⟨a, b⟩ := p
  obtain ⟨c, d⟩ := q
  simp [Plane.same]

@[simp] theorem same_plane_eq_false_iff (p q : Plane K) : p.same q = false ↔ p ≠ q := by
  rw [← Bool.not_eq_true, same_plane_iff]

theorem raise_eq_max (m d : K) : Plane.raise m d = max m d := by
  by_cases h : m < d
  · simp [Plane.raise, h, h.le]
  · simp [Plane.raise, h, not_lt.mp h]

theorem maxDeviation_eq (p : Plane K) (rows : Chunk K) :
    p.maxDeviation rows = (rows.map p.deviation).foldr max 0 := by
  simp only [Plane.maxDeviation, raise_eq_max]
  rw [← List.foldl_eq_foldr, List.foldl_map]

def Chunk.maxHeight (rows : Chunk K) : K := (rows.map fun r => |r.w|).foldr max 0

theorem maxHeight_lt_iff {rows : Chunk K} {t : K} (ht : 0 < t) :
    rows.maxHeight < t ↔ ∀ r ∈ rows, |r.w| < t := by
  unfold Chunk.maxHeight
  induction rows with
  | nil => simpa using ht
  | cons r rest ih => simp [ih]

/-- What a plane leaves of the rows is as high as they deviate from it. -/
theorem maxHeight_map_subtract [IsStrictOrderedRing K] (p : Plane K) (rows : Chunk K) :
    Chunk.maxHeight (rows.map p.subtract) = p.maxDeviation rows := by
  rw [maxDeviation_eq, Chunk.maxHeight, List.map_map]
  congr 1
  exact List.map_congr_left fun r _ => abs_sub_comm _ _

theorem speedOfLight_pos [IsStrictOrderedRing K] : (0 : K) < speedOfLight := by
  change (0 : K) < (299792458 : Nat)
  positivity

theorem toleranceInMetres_pos [IsStrictOrderedRing K] {wTolerance tolerance : K} {channels : List K}
    (hpos : 0 < wTolerance) (h : toleranceInMetres wTolerance channels = .ok tolerance) :
    0 < tolerance := by
  obtain ⟨highest, -, hhighest, rfl⟩ := toleranceInMetres_eq_ok h
  exact div_pos (mul_pos hpos speedOfLight_pos) ((less_iff _ _).mp hhighest)

theorem fit_of_rows (rows : Chunk K) (h : minFitRows ≤ rows.length) :
    ∃ plane, rows.fit = .ok plane := by
  have hn : ¬ rows.length < minFitRows := by omega
  exact ⟨_, by simp only [Chunk.fit, if_neg hn]; rfl⟩

end Field

/-- The rational points of the circle, each named by the tangent of half its angle.
Roots are those of rational squares, and half a turn is the double nearest to it. -/
instance : Circular ℚ where
  pi := 884279719003555 / 281474976710656
  sin t := 2 * t / (1 + t * t)
  cos t := (1 - t * t) / (1 + t * t)
  root := Rat.sqrt
  angle y x := y / (Rat.sqrt (x * x + y * y) + x)

/-- What the circular functions share with the real ones: half a turn is positive, cosine
and sine are a point of the unit circle, and the polar angle of a point to the right of
the origin is zero. -/
class LawfulCircular (K : Type) [Field K] [LinearOrder K] [Circular K] : Prop where
  pi_pos : 0 < (Circular.pi : K)
  sin_mul_self_add_cos_mul_self :
    ∀ x : K, Circular.sin x * Circular.sin x + Circular.cos x * Circular.cos x = 1
  root_zero : Circular.root (0 : K) = 0
  angle_zero : ∀ x : K, 0 < x → Circular.angle 0 x = 0

instance : LawfulCircular ℚ where
  pi_pos := by norm_num [Circular.pi]
  sin_mul_self_add_cos_mul_self x := by
    have hne : 1 + x * x ≠ 0 := (add_pos_of_pos_of_nonneg one_pos (mul_self_nonneg x)).ne'
    simp only [Circular.sin, Circular.cos]
    rw [div_mul_div_comm, div_mul_div_comm, ← add_div, div_eq_one_iff_eq (mul_ne_zero hne hne)]
    ring
  root_zero := by norm_num [Circular.root]
  angle_zero x _ := by simp [Circular.angle]

section Near

variable {K : Type} [Field K] [LinearOrder K] [IsStrictOrderedRing K] [Circular K]
  [LawfulCircular K]

theorem separation_self (d : Direction K) : d.separation d = 0 := by
  have hnorm : (d.cosines.cross d.cosines).norm = 0 := by
    have hzero : (d.cosines.cross d.cosines).dot (d.cosines.cross d.cosines) = 0 := by
      simp only [Vec3.cross, Vec3.dot]
      ring
    change Circular.root _ = 0
    rw [hzero, LawfulCircular.root_zero]
  have hdot : d.cosines.dot d.cosines = 1 := by
    have hra := LawfulCircular.sin_mul_self_add_cos_mul_self d.ra
    have hdec := LawfulCircular.sin_mul_self_add_cos_mul_self d.dec
    change Circular.cos d.ra * Circular.cos d.dec * (Circular.cos d.ra * Circular.cos d.dec) +
      Circular.sin d.ra * Circular.cos d.dec * (Circular.sin d.ra * Circular.cos d.dec) +
      Circular.sin d.dec * Circular.sin d.dec = 1
    linear_combination Circular.cos d.dec * Circular.cos d.dec * hra + hdec
  rw [Direction.separation, hnorm, hdot]
  exact LawfulCircular.angle_zero 1 one_pos

theorem isNear_self (d : Direction K) {tolerance : K} (h : 0 < tolerance) :
    d.isNear d tolerance = true := by
  rw [Direction.isNear, separation_self, less_iff]
  exact h

theorem earthRotationRate_pos : (0 : K) < earthRotationRate := by
  have htwo : (0 : K) < (2 : Nat) := Nat.cast_pos.mpr Nat.two_pos
  have hday : (0 : K) < (86400 : Nat) := Nat.cast_pos.mpr (by decide)
  exact div_pos (mul_pos htwo LawfulCircular.pi_pos) hday

end Near

section Fit

variable {α : Type} [Scalar α]

def Chunk.plane? (rows : Chunk α) : Option (Plane α) :=
  match rows.fit with
  | .ok plane => plane
  | .error _ => none

theorem plane?_eq_some_iff (rows : Chunk α) (plane : Plane α) :
    rows.plane? = some plane ↔ rows.fit = .ok (some plane) := by
  unfold Chunk.plane?
  cases rows.fit <;> simp

theorem plane?_of_fit {rows : Chunk α} {plane : Option (Plane α)} (h : rows.fit = .ok plane) :
    rows.plane? = plane := by
  simp [Chunk.plane?, h]

theorem plane?_of_few {rows : Chunk α} (h : rows.length < minFitRows) : rows.plane? = none := by
  simp [Chunk.plane?, Chunk.fit, h]

theorem not_few_of_plane? {rows : Chunk α} {plane : Plane α} (h : rows.plane? = some plane) :
    ¬ rows.length < minFitRows := by
  intro hfew
  rw [plane?_of_few hfew] at h
  cases h

end Fit

theorem plane?_eq_none_iff {K : Type} [Field K] [LinearOrder K] [Circular K] (rows : Chunk K) :
    rows.plane? = none ↔ rows.length < minFitRows ∨ rows.fit = .ok none := by
  by_cases hn : rows.length < minFitRows
  · simp [hn, plane?_of_few hn]
  · obtain ⟨plane, hp⟩ := fit_of_rows rows (by omega)
    simp [hn, hp, plane?_of_fit hp]

end Coplanar
