import Mathlib.Algebra.Order.BigOperators.Group.List
import Mathlib.Tactic.FieldSimp
import Coplanar.Proofs.Coverage

/-! The fit in the sense of least squares.  What it leaves of the rows is orthogonal to every
plane through the origin, so that any other plane leaves more, by the squared heights of the
difference of the two. -/
namespace Coplanar

variable {K : Type} [Field K] [LinearOrder K] [Circular K]

def Chunk.squaredError (rows : Chunk K) (p : Plane K) : K :=
  rows.total fun r => (p.height r - r.w) ^ 2

instance : Sub (Plane K) where
  sub p q := ⟨p.a - q.a, p.b - q.b⟩

@[simp] theorem height_sub (p q : Plane K) (r : Uvw K) :
    (p - q).height r = p.height r - q.height r := by
  change (p.a - q.a) * r.u + (p.b - q.b) * r.v = p.a * r.u + p.b * r.v - (q.a * r.u + q.b * r.v)
  ring

theorem sub_ne_level {p q : Plane K} (h : p ≠ q) : p - q ≠ .level := by
  intro heq
  obtain ⟨a, b⟩ := p
  obtain ⟨c, d⟩ := q
  have ha : a - c = 0 := congrArg Plane.a heq
  have hb : b - d = 0 := congrArg Plane.b heq
  rw [sub_eq_zero.mp ha, sub_eq_zero.mp hb] at h
  exact h rfl

theorem solve_normal {m : Moments K} {det : K} (hdet : m.uu * m.vv - m.uv * m.uv = det)
    (hne : det ≠ 0) :
    (m.solve det).a * m.uu + (m.solve det).b * m.uv = m.uw ∧
      (m.solve det).a * m.uv + (m.solve det).b * m.vv = m.vw := by
  simp only [Moments.solve]
  constructor
  · field_simp
    linear_combination m.uw * hdet
  · field_simp
    linear_combination m.vw * hdet

theorem total_residual_mul_height (p q : Plane K) (rows : Chunk K) :
    rows.total (fun r => (p.height r - r.w) * q.height r) =
      q.a * (p.a * rows.moments.uu + p.b * rows.moments.uv - rows.moments.uw) +
        q.b * (p.a * rows.moments.uv + p.b * rows.moments.vv - rows.moments.vw) := by
  rw [moments_eq]
  induction rows with
  | nil => simp [Chunk.total]
  | cons r rest ih =>
    simp only [Chunk.total, List.map_cons, List.sum_cons, Plane.height] at ih ⊢
    rw [ih]
    ring

section Best

variable [IsStrictOrderedRing K] {rows : Chunk K} {best : Plane K}

theorem eq_solve_of_fit (h : rows.fit = .ok (some best)) :
    rows.coverage ≠ 0 ∧ best = rows.moments.solve rows.coverage := by
  have hrows := not_lt.mp (not_few_of_plane? ((plane?_eq_some_iff _ _).mpr h))
  rw [fit_eq_of_coverage hrows] at h
  split at h
  · cases h
  · rename_i hcovers
    cases h
    exact ⟨coverage_ne_zero (not_lt.mp hcovers), rfl⟩

theorem residual_orthogonal (h : rows.fit = .ok (some best)) (p : Plane K) :
    rows.total (fun r => (best.height r - r.w) * p.height r) = 0 := by
  obtain ⟨hne, rfl⟩ := eq_solve_of_fit h
  obtain ⟨hu, hv⟩ := solve_normal (moments_determinant rows) hne
  rw [total_residual_mul_height, hu, hv, sub_self, sub_self, mul_zero, mul_zero, add_zero]

theorem squaredError_eq_add (h : rows.fit = .ok (some best)) (p : Plane K) :
    rows.squaredError p =
      rows.squaredError best + rows.total fun r => (p - best).height r ^ 2 := by
  calc rows.squaredError p
      = rows.total fun r => (best.height r - r.w) ^ 2 + (p - best).height r ^ 2 +
          2 * ((best.height r - r.w) * (p - best).height r) := by
        apply congrArg List.sum
        apply List.map_congr_left
        intro r _
        rw [height_sub]
        ring
    _ = rows.squaredError best + rows.total (fun r => (p - best).height r ^ 2) +
          2 * rows.total fun r => (best.height r - r.w) * (p - best).height r := by
        simp only [Chunk.squaredError, Chunk.total, List.sum_map_add, List.sum_map_mul_left]
    _ = rows.squaredError best + rows.total fun r => (p - best).height r ^ 2 := by
        rw [residual_orthogonal h, mul_zero, add_zero]

theorem squaredError_le (h : rows.fit = .ok (some best)) (p : Plane K) :
    rows.squaredError best ≤ rows.squaredError p := by
  rw [squaredError_eq_add h p]
  exact le_add_of_nonneg_right (total_sq_nonneg rows (p - best).height)

theorem total_height_sq_pos (h : rows.coverage ≠ 0) {p : Plane K} (hp : p ≠ .level) :
    0 < rows.total fun r => p.height r ^ 2 := by
  apply lt_of_le_of_ne (total_sq_nonneg rows p.height)
  intro hzero
  apply h
  apply coverage_eq_zero hp
  intro r hr
  have hsq : p.height r ^ 2 = 0 :=
    List.all_zero_of_le_zero_le_of_sum_eq_zero nonneg_of_mem_sq hzero.symm
      (List.mem_map_of_mem hr)
  exact pow_eq_zero_iff two_ne_zero |>.mp hsq

end Best

/-- Rows that can be fitted have one best plane: every other one leaves more of them.  Rows that
lie in a plane are fitted by it, to the point. -/
theorem fit_least_squares {K : Type} [Field K] [LinearOrder K] [IsStrictOrderedRing K] [Circular K]
    (rows : Chunk K) (hrows : minFitRows ≤ rows.length) (hregular : rows.fit ≠ .ok none) :
    ∃ best, rows.fit = .ok (some best) ∧
      (∀ p, p ≠ best → rows.squaredError best < rows.squaredError p) ∧
      ∀ p : Plane K, p.Contains rows → best = p ∧ best.maxDeviation rows = 0 := by
  obtain ⟨plane, hplane⟩ := fit_of_rows rows hrows
  cases plane with
  | none => exact absurd hplane hregular
  | some best =>
    refine ⟨best, hplane, ?_, ?_⟩
    · intro p hp
      rw [squaredError_eq_add hplane p]
      apply lt_add_of_pos_right
      exact total_height_sq_pos (eq_solve_of_fit hplane).1 (sub_ne_level hp)
    · intro p hp
      obtain rfl := Plane.eq_of_contains hp ((plane?_eq_some_iff _ _).mpr hplane)
      exact ⟨rfl, Plane.maxDeviation_of_contains hp⟩

def bumpy : Chunk ℚ := [⟨1, 0, 1⟩, ⟨0, 1, 0⟩, ⟨1, 1, 0⟩, ⟨1, -1, 0⟩]

theorem fit_least_squares_bumpy :
    minFitRows ≤ bumpy.length ∧ bumpy.fit ≠ .ok none ∧ bumpy.fit = .ok (some ⟨1 / 3, 0⟩) ∧
      bumpy.squaredError ⟨1 / 3, 0⟩ < bumpy.squaredError .level ∧
      minFitRows ≤ skewed.length ∧ skewed.fit ≠ .ok none ∧ Plane.Contains ⟨2, -1⟩ skewed ∧
      skewed.fit = .ok (some ⟨2, -1⟩) ∧ Plane.maxDeviation ⟨2, -1⟩ skewed = 0 := by
  have hbumpy : bumpy.fit = .ok (some ⟨1 / 3, 0⟩) := by decide +kernel
  have hregular : bumpy.fit ≠ .ok none := by
    rw [hbumpy]
    nofun
  have hskewed : skewed.fit ≠ .ok none := by decide +kernel
  have hplane : Plane.Contains ⟨2, -1⟩ skewed := by
    unfold Plane.Contains
    decide +kernel
  obtain ⟨best, hbest, hleast, -⟩ := fit_least_squares bumpy (by decide) hregular
  obtain rfl : best = ⟨1 / 3, 0⟩ := Option.some.inj (Except.ok.inj (hbest.symm.trans hbumpy))
  obtain ⟨other, hother, -, hcontains⟩ := fit_least_squares skewed (by decide) hskewed
  obtain ⟨rfl, hzero⟩ := hcontains _ hplane
  exact ⟨by decide, hregular, hbumpy, hleast .level (by decide +kernel), by decide, hskewed,
    hplane, hother, hzero⟩

end Coplanar
