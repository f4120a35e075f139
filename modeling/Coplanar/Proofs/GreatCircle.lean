import Coplanar.Proofs.Sphere

/-! The separation is the distance on great circles.  It is a metric of the directions as
points of the sphere: at a pole every longitude names the same point, and everywhere a full
turn leads back to it.  What is turned about the pole keeps its separations. -/
namespace Coplanar.Direction

theorem unit_inj {d e : Direction ℝ} : d.unit = e.unit ↔ d.cosines = e.cosines := by
  constructor
  · intro h
    have hentry : ∀ i, ![d.cosines.x, d.cosines.y, d.cosines.z] i =
        ![e.cosines.x, e.cosines.y, e.cosines.z] i := congrFun (WithLp.toLp_injective 2 h)
    exact (Vec3.mk.injEq ..).mpr ⟨hentry 0, hentry 1, hentry 2⟩
  · intro h
    rw [unit, unit, h]

theorem cos_separation (d e : Direction ℝ) :
    Real.cos (d.separation e) = d.cosines.dot e.cosines := by
  rw [separation_eq_angle, InnerProductGeometry.cos_angle, norm_unit, norm_unit, inner_unit,
    mul_one, div_one]

theorem separation_eq_zero_iff (d e : Direction ℝ) :
    d.separation e = 0 ↔ d.cosines = e.cosines := by
  have hinner : inner ℝ d.unit e.unit = 1 ↔ d.unit = e.unit :=
    inner_eq_one_iff_of_norm_eq_one (norm_unit d) (norm_unit e)
  rw [← unit_inj, ← hinner, inner_unit, ← cos_separation]
  constructor
  · intro h
    rw [h, Real.cos_zero]
  · intro h
    have hrange := separation_nonneg d e
    exact (Real.cos_eq_one_iff_of_lt_of_lt (by linarith [Real.pi_pos])
      (by linarith [separation_le_pi d e, Real.pi_pos])).mp h

theorem dot_cosines (d e : Direction ℝ) :
    d.cosines.dot e.cosines =
      Real.cos (d.ra - e.ra) * (Real.cos d.dec * Real.cos e.dec) +
        Real.sin d.dec * Real.sin e.dec := by
  rw [cosines_eq, cosines_eq, Real.cos_sub]
  simp only [Vec3.dot]
  ring

theorem separation_shift (d e : Direction ℝ) (t : ℝ) :
    (d.shift t).separation (e.shift t) = d.separation e := by
  have hdifference : (d.shift t).ra - (e.shift t).ra = d.ra - e.ra :=
    add_sub_add_right_eq_sub d.ra e.ra t
  rw [separation_eq_arccos, separation_eq_arccos, dot_cosines, dot_cosines, hdifference]
  rfl

theorem cosines_shift_eq_iff (d : Direction ℝ) (t : ℝ) :
    (d.shift t).cosines = d.cosines ↔ Real.cos d.dec = 0 ∨ ∃ n : ℤ, t = n * (2 * Real.pi) := by
  have hcosines : (d.shift t).cosines = d.cosines ↔ Real.cos d.dec = 0 ∨
      Real.cos (d.ra + t) = Real.cos d.ra ∧ Real.sin (d.ra + t) = Real.sin d.ra := by
    rw [cosines_eq, cosines_eq, Vec3.mk.injEq]
    change Real.cos (d.ra + t) * Real.cos d.dec = Real.cos d.ra * Real.cos d.dec ∧
      Real.sin (d.ra + t) * Real.cos d.dec = Real.sin d.ra * Real.cos d.dec ∧
      Real.sin d.dec = Real.sin d.dec ↔ _
    by_cases hpole : Real.cos d.dec = 0 <;> simp [hpole]
  rw [hcosines]
  apply or_congr_right
  constructor
  · rintro ⟨hcos, hsin⟩
    obtain ⟨n, hn⟩ := Real.Angle.angle_eq_iff_two_pi_dvd_sub.mp (Real.Angle.cos_sin_inj hcos hsin)
    exact ⟨n, by linarith⟩
  · rintro ⟨n, rfl⟩
    exact ⟨Real.cos_add_int_mul_two_pi d.ra n, Real.sin_add_int_mul_two_pi d.ra n⟩

/-- The separation is a metric of the directions on the sphere, at most half a turn, and its
cosine is the product of the directions.  It is zero only between directions that are the same
there: a shift in longitude leaves a direction where it is if it is a pole or the shift is by
full turns.  Two directions shifted alike are as far apart as before. -/
theorem separation_is_metric (d e f : Direction ℝ) (t : ℝ) :
    0 ≤ d.separation e ∧ d.separation e ≤ Real.pi ∧
      d.separation e = e.separation d ∧
      (d.separation e = 0 ↔ d.cosines = e.cosines) ∧
      ((d.shift t).cosines = d.cosines ↔
        Real.cos d.dec = 0 ∨ ∃ n : ℤ, t = n * (2 * Real.pi)) ∧
      (d.shift t).separation (e.shift t) = d.separation e ∧
      d.separation f ≤ d.separation e + e.separation f ∧
      Real.cos (d.separation e) = d.cosines.dot e.cosines :=
  ⟨separation_nonneg d e, separation_le_pi d e, separation_comm d e, separation_eq_zero_iff d e,
    cosines_shift_eq_iff d t, separation_shift d e t, separation_triangle d e f,
    cos_separation d e⟩

end Coplanar.Direction
