import Mathlib.Geometry.Euclidean.Angle.Unoriented.TriangleInequality
import Coplanar.Proofs.Exact

/-! Directions over the real numbers.  A direction is a unit vector, its separation from
another one is the angle between the two, and no two directions are so far apart that
small steps do not lead from one to the other. -/
namespace Coplanar

noncomputable instance : Circular ℝ where
  pi := Real.pi
  sin := Real.sin
  cos := Real.cos
  root := Real.sqrt
  angle y x := Complex.arg ⟨x, y⟩

instance : LawfulCircular ℝ where
  pi_pos := Real.pi_pos
  sin_mul_self_add_cos_mul_self x := by
    have h := Real.sin_sq_add_cos_sq x
    rwa [sq, sq] at h
  root_zero := Real.sqrt_zero
  angle_zero x hx := Complex.arg_ofReal_of_nonneg hx.le

namespace Direction

noncomputable def unit (d : Direction ℝ) : EuclideanSpace ℝ (Fin 3) :=
  WithLp.toLp _ ![d.cosines.x, d.cosines.y, d.cosines.z]

theorem cosines_eq (d : Direction ℝ) :
    d.cosines =
      ⟨Real.cos d.ra * Real.cos d.dec, Real.sin d.ra * Real.cos d.dec, Real.sin d.dec⟩ := rfl

theorem inner_unit (d e : Direction ℝ) : inner ℝ d.unit e.unit = d.cosines.dot e.cosines := by
  simp only [unit, PiLp.inner_apply, Fin.sum_univ_three]
  simp [Vec3.dot, mul_comm]

theorem norm_unit (d : Direction ℝ) : ‖d.unit‖ = 1 := by
  have hinner : inner ℝ d.unit d.unit = 1 := by
    rw [inner_unit, cosines_eq]
    simp only [Vec3.dot]
    linear_combination
      Real.cos d.dec ^ 2 * Real.sin_sq_add_cos_sq d.ra + Real.sin_sq_add_cos_sq d.dec
  rw [real_inner_self_eq_norm_sq] at hinner
  exact (pow_eq_one_iff_of_nonneg (norm_nonneg _) two_ne_zero).mp hinner

theorem dot_self_nonneg (p : Vec3 ℝ) : 0 ≤ p.dot p :=
  add_nonneg (add_nonneg (mul_self_nonneg p.x) (mul_self_nonneg p.y)) (mul_self_nonneg p.z)

theorem dot_sq_add_norm_cross_sq (p q : Vec3 ℝ) :
    p.dot q ^ 2 + (p.cross q).norm ^ 2 = p.dot p * q.dot q := by
  have hnorm : (p.cross q).norm ^ 2 = (p.cross q).dot (p.cross q) :=
    Real.sq_sqrt (dot_self_nonneg _)
  rw [hnorm]
  simp only [Vec3.dot, Vec3.cross]
  ring

theorem separation_eq_angle (d e : Direction ℝ) :
    d.separation e = InnerProductGeometry.angle d.unit e.unit := by
  have hself : ∀ d : Direction ℝ, d.cosines.dot d.cosines = 1 := fun d => by
    rw [← inner_unit, real_inner_self_eq_norm_sq, norm_unit, one_pow]
  have hlength : d.cosines.dot e.cosines ^ 2 + (d.cosines.cross e.cosines).norm ^ 2 = 1 := by
    rw [dot_sq_add_norm_cross_sq, hself, hself, one_mul]
  have hunit : ‖(⟨d.cosines.dot e.cosines, (d.cosines.cross e.cosines).norm⟩ : ℂ)‖ = 1 := by
    rw [Complex.norm_eq_sqrt_sq_add_sq]
    simp [hlength]
  change Complex.arg ⟨d.cosines.dot e.cosines, (d.cosines.cross e.cosines).norm⟩ = _
  rw [Complex.arg_of_im_nonneg_of_ne_zero (Real.sqrt_nonneg _)
      (norm_ne_zero_iff.mp (by simp [hunit])),
    hunit, InnerProductGeometry.angle, inner_unit, norm_unit, norm_unit, mul_one]

theorem separation_eq_arccos (d e : Direction ℝ) :
    d.separation e = Real.arccos (d.cosines.dot e.cosines) := by
  rw [separation_eq_angle, InnerProductGeometry.angle, inner_unit, norm_unit, norm_unit,
    mul_one, div_one]

theorem separation_le_pi (d e : Direction ℝ) : d.separation e ≤ Real.pi := by
  rw [separation_eq_angle]
  exact InnerProductGeometry.angle_le_pi _ _

theorem separation_nonneg (d e : Direction ℝ) : 0 ≤ d.separation e := by
  rw [separation_eq_angle]
  exact InnerProductGeometry.angle_nonneg _ _

theorem separation_comm (d e : Direction ℝ) : d.separation e = e.separation d := by
  rw [separation_eq_angle, separation_eq_angle, InnerProductGeometry.angle_comm]

theorem separation_triangle (d e f : Direction ℝ) :
    d.separation f ≤ d.separation e + e.separation f := by
  simp only [separation_eq_angle]
  exact InnerProductGeometry.angle_le_angle_add_angle _ _ _

theorem arccos_cos_le (x : ℝ) : Real.arccos (Real.cos x) ≤ |x| := by
  by_cases h : |x| ≤ Real.pi
  · rw [← Real.cos_abs, Real.arccos_cos (abs_nonneg x) h]
  · exact (Real.arccos_le_pi _).trans (not_le.mp h).le

theorem separation_on_equator (ra ra' : ℝ) :
    separation ⟨ra, 0⟩ ⟨ra', 0⟩ = Real.arccos (Real.cos (ra - ra')) := by
  rw [separation_eq_arccos, cosines_eq, cosines_eq, Real.cos_sub]
  simp [Vec3.dot]

theorem separation_on_equator_of_le {ra ra' : ℝ} (h : |ra - ra'| ≤ Real.pi) :
    separation ⟨ra, 0⟩ ⟨ra', 0⟩ = |ra - ra'| := by
  rw [separation_on_equator, ← Real.cos_abs, Real.arccos_cos (abs_nonneg _) h]

theorem separation_along_latitude (ra ra' dec : ℝ) :
    separation ⟨ra, dec⟩ ⟨ra', dec⟩ ≤ |ra - ra'| := by
  refine le_trans ?_ (arccos_cos_le (ra - ra'))
  rw [separation_eq_arccos, cosines_eq, cosines_eq]
  apply Real.arccos_le_arccos
  have hdot : (⟨Real.cos ra * Real.cos dec, Real.sin ra * Real.cos dec, Real.sin dec⟩ : Vec3 ℝ).dot
      ⟨Real.cos ra' * Real.cos dec, Real.sin ra' * Real.cos dec, Real.sin dec⟩ =
        Real.cos (ra - ra') + Real.sin dec ^ 2 * (1 - Real.cos (ra - ra')) := by
    simp only [Vec3.dot]
    rw [Real.cos_sub]
    linear_combination (Real.cos ra * Real.cos ra' + Real.sin ra * Real.sin ra') *
      Real.sin_sq_add_cos_sq dec
  rw [hdot]
  exact le_add_of_nonneg_right (mul_nonneg (sq_nonneg _) (sub_nonneg.mpr (Real.cos_le_one _)))

theorem separation_along_meridian (ra dec dec' : ℝ) :
    separation ⟨ra, dec⟩ ⟨ra, dec'⟩ ≤ |dec - dec'| := by
  refine le_trans (le_of_eq ?_) (arccos_cos_le (dec - dec'))
  rw [separation_eq_arccos, cosines_eq, cosines_eq, Real.cos_sub]
  congr 1
  simp only [Vec3.dot]
  linear_combination Real.cos dec * Real.cos dec' * Real.sin_sq_add_cos_sq ra

theorem separation_le (d e : Direction ℝ) :
    d.separation e ≤ |d.ra - e.ra| + |d.dec - e.dec| :=
  calc d.separation e ≤ d.separation ⟨e.ra, d.dec⟩ + separation ⟨e.ra, d.dec⟩ e :=
        separation_triangle _ _ _
    _ ≤ |d.ra - e.ra| + |d.dec - e.dec| :=
        add_le_add (separation_along_latitude d.ra e.ra d.dec)
          (separation_along_meridian e.ra d.dec e.dec)

end Direction

/-- A request for `e` passes where `d` is the tangent point. -/
def Direction.Linked {α : Type} [Trig α] (tolerance : α) (d e : Direction α) : Prop :=
  e.isNear d tolerance = true

namespace Direction

variable {tolerance : ℝ}

theorem linked_iff {d e : Direction ℝ} : d.Linked tolerance e ↔ e.separation d < tolerance :=
  less_iff _ _

theorem separation_lt_of_isChain {d e : Direction ℝ} {steps : List (Direction ℝ)}
    (h : (d :: (steps ++ [e])).IsChain (Linked tolerance)) :
    e.separation d < (steps.length + 1) * tolerance := by
  induction steps generalizing d with
  | nil =>
    rw [List.nil_append, List.isChain_pair, linked_iff] at h
    simpa using h
  | cons f steps ih =>
    rw [List.cons_append, List.isChain_cons_cons, linked_iff] at h
    have hrest := ih h.2
    have hsides := separation_triangle e f d
    push_cast [List.length_cons]
    linarith

theorem exists_isChain (n : ℕ) {d e : Direction ℝ}
    (h : |e.ra - d.ra| + |e.dec - d.dec| < (n + 1) * tolerance) :
    ∃ steps : List (Direction ℝ), steps.length = n ∧
      (d :: (steps ++ [e])).IsChain (Linked tolerance) := by
  induction n generalizing d with
  | zero =>
    refine ⟨[], rfl, ?_⟩
    rw [List.nil_append, List.isChain_pair, linked_iff]
    exact (separation_le e d).trans_lt (by simpa using h)
  | succ n ih =>
    -- The first step takes its share of the way, and leaves theirs to the others.
    have hn : (0 : ℝ) < n + 2 := by positivity
    let f : Direction ℝ := ⟨d.ra + (e.ra - d.ra) / (n + 2), d.dec + (e.dec - d.dec) / (n + 2)⟩
    have hway : |e.ra - d.ra| + |e.dec - d.dec| < (n + 2) * tolerance := by
      push_cast at h
      linarith
    have hfirst :
        |f.ra - d.ra| + |f.dec - d.dec| = (|e.ra - d.ra| + |e.dec - d.dec|) / (n + 2) := by
      simp [f, abs_div, abs_of_pos hn, add_div]
    have hothers : |e.ra - f.ra| + |e.dec - f.dec| =
        (n + 1) * ((|e.ra - d.ra| + |e.dec - d.dec|) / (n + 2)) := by
      have hra : e.ra - f.ra = (e.ra - d.ra) * ((n + 1) / (n + 2)) := by
        simp only [f]
        field_simp
        ring
      have hdec : e.dec - f.dec = (e.dec - d.dec) * ((n + 1) / (n + 2)) := by
        simp only [f]
        field_simp
        ring
      have hshare : (0 : ℝ) ≤ (n + 1) / (n + 2) := by positivity
      rw [hra, hdec, abs_mul, abs_mul, abs_of_nonneg hshare]
      ring
    have hstep : (|e.ra - d.ra| + |e.dec - d.dec|) / (n + 2) < tolerance := by
      rwa [div_lt_iff₀ hn, mul_comm]
    obtain ⟨steps, hlength, hchain⟩ := ih (d := f) (by
      rw [hothers]
      exact mul_lt_mul_of_pos_left hstep (by positivity))
    refine ⟨f :: steps, by simp [hlength], ?_⟩
    rw [List.cons_append, List.isChain_cons_cons, linked_iff]
    exact ⟨((separation_le f d).trans_eq hfirst).trans_lt hstep, hchain⟩

end Direction

end Coplanar
