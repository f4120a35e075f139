import Mathlib.Algebra.BigOperators.Ring.List
import Coplanar.Proofs.Exact

/-! Rows that lie in a plane give that plane back, wherever the fit is constrained. -/
namespace Coplanar

variable {K : Type} [Field K] [LinearOrder K] [Circular K]

def Chunk.total (rows : Chunk K) (f : Uvw K → K) : K := (rows.map f).sum

theorem moments_eq (rows : Chunk K) :
    rows.moments = {
      uu := rows.total fun r => r.u * r.u
      vv := rows.total fun r => r.v * r.v
      uv := rows.total fun r => r.u * r.v
      uw := rows.total fun r => r.u * r.w
      vw := rows.total fun r => r.v * r.w } := by
  suffices h : ∀ m : Moments K, rows.foldl Moments.add m = {
      uu := m.uu + rows.total fun r => r.u * r.u
      vv := m.vv + rows.total fun r => r.v * r.v
      uv := m.uv + rows.total fun r => r.u * r.v
      uw := m.uw + rows.total fun r => r.u * r.w
      vw := m.vw + rows.total fun r => r.v * r.w } by
    rw [Chunk.moments, h]
    simp [Moments.zero]
  induction rows with
  | nil => simp [Chunk.total]
  | cons r rest ih =>
    intro m
    rw [List.foldl_cons, ih]
    simp [Chunk.total, Moments.add, add_assoc]

def Chunk.determinant (rows : Chunk K) : K :=
  (rows.total fun r => r.u * r.u) * (rows.total fun r => r.v * r.v) -
    (rows.total fun r => r.u * r.v) * rows.total fun r => r.u * r.v

theorem determinant?_eq (rows : Chunk K) : rows.moments.determinant? = some rows.determinant := by
  rw [moments_eq]
  rfl

theorem fit_eq {rows : Chunk K} (h : minFitRows ≤ rows.length) :
    rows.fit = .ok (if isSingular rows.determinant then none
      else some (rows.moments.solve rows.determinant)) := by
  simp [Chunk.fit, not_lt.mpr h, determinant?_eq]

theorem singularDeterminant_pos [IsStrictOrderedRing K] : (0 : K) < singularDeterminant := by
  change (0 : K) < (1 : Nat) / (10000000 : Nat)
  positivity

namespace Plane

def Contains (p : Plane K) (rows : Chunk K) : Prop := ∀ r ∈ rows, r.w = p.height r

theorem maxDeviation_of_contains [IsStrictOrderedRing K] {p : Plane K} {rows : Chunk K} (h : p.Contains rows) :
    p.maxDeviation rows = 0 := by
  rw [maxDeviation_eq]
  induction rows with
  | nil => rfl
  | cons r rest ih =>
    have hrow : p.deviation r = 0 := by
      rw [Plane.deviation, h r (by simp)]
      exact (congrArg _ (sub_self _)).trans abs_zero
    rw [List.map_cons, List.foldr_cons, ih fun r hr => h r (by simp [hr]), hrow, max_self]

theorem w_eq_zero_of_contains {p : Plane K} {rows : Chunk K} (h : p.Contains rows) :
    ∀ row ∈ rows.map p.subtract, row.w = 0 := by
  intro row hrow
  obtain ⟨r, hr, rfl⟩ := List.mem_map.mp hrow
  rw [subtract_w, h r hr]
  exact sub_self _

theorem total_of_contains {p : Plane K} {rows : Chunk K} (h : p.Contains rows)
    (f : Uvw K → K) :
    (rows.total fun r => f r * r.w) =
      p.a * (rows.total fun r => f r * r.u) + p.b * rows.total fun r => f r * r.v := by
  have hrows : (rows.total fun r => f r * r.w) =
      rows.total fun r => p.a * (f r * r.u) + p.b * (f r * r.v) := by
    refine congrArg List.sum (List.map_congr_left fun r hr => ?_)
    rw [h r hr, height]
    ring
  rw [hrows]
  simp only [Chunk.total, List.sum_map_add, List.sum_map_mul_left]

theorem plane?_of_contains [IsStrictOrderedRing K] {p : Plane K} {rows : Chunk K} (h : p.Contains rows)
    (hrows : minFitRows ≤ rows.length) (hdeterminant : singularDeterminant ≤ |rows.determinant|) :
    rows.plane? = some p := by
  have hregular : isSingular rows.determinant = false := (less_eq_false_iff _ _).mpr hdeterminant
  have hsolve : rows.moments.solve rows.determinant = p := by
    have hne : rows.determinant ≠ 0 := by
      rintro hzero
      rw [hzero, abs_zero] at hdeterminant
      exact absurd singularDeterminant_pos (not_lt.mpr hdeterminant)
    have huw := total_of_contains h Uvw.u
    have hvw := total_of_contains h Uvw.v
    have hswap : (rows.total fun r => r.v * r.u) = rows.total fun r => r.u * r.v := by
      simp only [mul_comm]
    rw [moments_eq, Moments.solve, huw, hvw, hswap]
    congr 1
    · refine (div_eq_iff hne).mpr ?_
      rw [Chunk.determinant]
      ring
    · refine (div_eq_iff hne).mpr ?_
      rw [Chunk.determinant]
      ring
  rw [plane?_eq_some_iff, fit_eq hrows, hregular, hsolve]
  rfl

theorem eq_of_contains [IsStrictOrderedRing K] {p q : Plane K} {rows : Chunk K}
    (h : p.Contains rows) (hbest : rows.plane? = some q) : q = p := by
  have hrows : minFitRows ≤ rows.length := not_lt.mp (not_few_of_plane? hbest)
  have hfit := (plane?_eq_some_iff _ _).mp hbest
  rw [fit_eq hrows] at hfit
  have hregular : isSingular rows.determinant = false := by
    by_contra hsingular
    simp [hsingular] at hfit
  have hdeterminant := (less_eq_false_iff _ _).mp hregular
  exact Option.some.inj (hbest.symm.trans (plane?_of_contains h hrows hdeterminant))

end Plane

end Coplanar
