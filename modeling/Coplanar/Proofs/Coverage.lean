import Mathlib.Algebra.BigOperators.Fin
import Mathlib.Algebra.Order.BigOperators.Group.Finset
import Mathlib.Order.Interval.Finset.Fin
import Mathlib.Tactic.NormNum
import Coplanar.Proofs.Reordering

/-! How much of the `u`, `v` plane rows cover.  The determinant of the normal equations is the
sum of the squared areas that the rows span in pairs, so that only rows along one line through
the origin, or close to one, allow no fit, and further rows never take one away. -/
namespace Coplanar

variable {K : Type} [Field K] [LinearOrder K] [Circular K]

def Uvw.area (r s : Uvw K) : K := r.u * s.v - s.u * r.v

/-- The squared areas of all pairs of rows. -/
def Chunk.coverage (rows : Chunk K) : K :=
  ∑ i : Fin rows.length, ∑ j ∈ Finset.Ioi i, rows[i].area rows[j] ^ 2

@[simp] theorem coverage_cons (r : Uvw K) (rest : Chunk K) :
    Chunk.coverage (r :: rest) = rest.total (fun s => r.area s ^ 2) + rest.coverage := by
  unfold Chunk.coverage
  rw [Chunk.total, ← Fin.sum_univ_fun_getElem]
  simp [Fin.sum_univ_succ, Fin.sum_Ioi_succ]

theorem total_area_sq (r : Uvw K) (rows : Chunk K) :
    rows.total (fun s => r.area s ^ 2) =
      r.u * r.u * rows.total (fun s => s.v * s.v) + r.v * r.v * rows.total (fun s => s.u * s.u) -
        2 * (r.u * r.v) * rows.total fun s => s.u * s.v := by
  induction rows with
  | nil => simp [Chunk.total]
  | cons s rest ih =>
    simp only [Chunk.total, List.map_cons, List.sum_cons] at ih ⊢
    rw [ih, Uvw.area]
    ring

theorem determinant_eq_coverage (rows : Chunk K) : rows.determinant = rows.coverage := by
  induction rows with
  | nil => simp [Chunk.determinant, Chunk.total, Chunk.coverage]
  | cons r rest ih =>
    rw [coverage_cons, total_area_sq, ← ih]
    simp only [Chunk.determinant, Chunk.total, List.map_cons, List.sum_cons]
    ring

theorem moments_determinant (rows : Chunk K) :
    rows.moments.uu * rows.moments.vv - rows.moments.uv * rows.moments.uv = rows.coverage := by
  rw [← determinant_eq_coverage, moments_eq, Chunk.determinant]

theorem determinant_of_perm {rows rows' : Chunk K} (h : rows.Perm rows') :
    rows.determinant = rows'.determinant := by
  apply Option.some.inj
  rw [← determinant?_eq, ← determinant?_eq, moments_of_perm h]

theorem area_eq_zero {r s : Uvw K} {p : Plane K} (hp : p ≠ .level) (hr : p.height r = 0)
    (hs : p.height s = 0) : r.area s = 0 := by
  simp only [Plane.height] at hr hs
  have ha : p.a * r.area s = 0 := by
    rw [Uvw.area]
    linear_combination s.v * hr - r.v * hs
  have hb : p.b * r.area s = 0 := by
    rw [Uvw.area]
    linear_combination r.u * hs - s.u * hr
  by_contra hne
  obtain ⟨a, b⟩ := p
  obtain rfl : a = 0 := (mul_eq_zero.mp ha).resolve_right hne
  obtain rfl : b = 0 := (mul_eq_zero.mp hb).resolve_right hne
  exact hp rfl

theorem coverage_eq_zero {rows : Chunk K} {p : Plane K} (hp : p ≠ .level)
    (h : ∀ r ∈ rows, p.height r = 0) : rows.coverage = 0 := by
  apply Finset.sum_eq_zero
  intro i _
  apply Finset.sum_eq_zero
  intro j _
  have harea : rows[i].area rows[j] = 0 :=
    area_eq_zero hp (h _ (List.getElem_mem _)) (h _ (List.getElem_mem _))
  rw [harea]
  exact zero_pow two_ne_zero

variable [IsStrictOrderedRing K]

theorem nonneg_of_mem_sq {rows : Chunk K} {f : Uvw K → K} :
    ∀ x ∈ rows.map fun r => f r ^ 2, 0 ≤ x := by
  intro x hx
  obtain ⟨r, -, rfl⟩ := List.mem_map.mp hx
  exact sq_nonneg _

theorem total_sq_nonneg (rows : Chunk K) (f : Uvw K → K) : 0 ≤ rows.total fun r => f r ^ 2 :=
  List.sum_nonneg nonneg_of_mem_sq

theorem coverage_nonneg (rows : Chunk K) : 0 ≤ rows.coverage := by
  apply Finset.sum_nonneg
  intro i _
  apply Finset.sum_nonneg
  intro j _
  exact sq_nonneg _

theorem isSingular_determinant_iff (rows : Chunk K) :
    isSingular rows.determinant = true ↔ rows.coverage < 1 / 10 ^ 7 := by
  have hthreshold : (singularDeterminant : K) = 1 / 10 ^ 7 := by
    change ((1 : Nat) : K) / (10000000 : Nat) = _
    norm_num
  have habs : (Scalar.abs rows.coverage : K) = rows.coverage := abs_of_nonneg (coverage_nonneg rows)
  rw [isSingular, determinant_eq_coverage, hthreshold, habs, less_iff]

theorem fit_eq_of_coverage {rows : Chunk K} (h : minFitRows ≤ rows.length) :
    rows.fit = .ok (if rows.coverage < 1 / 10 ^ 7 then none
      else some (rows.moments.solve rows.coverage)) := by
  rw [fit_eq h]
  simp only [isSingular_determinant_iff]
  rw [determinant_eq_coverage]

theorem coverage_ne_zero {rows : Chunk K} (h : 1 / 10 ^ 7 ≤ rows.coverage) : rows.coverage ≠ 0 := by
  intro hzero
  rw [hzero] at h
  exact absurd h (not_le.mpr (by positivity))

theorem coverage_le_append (rows more : Chunk K) :
    rows.coverage ≤ Chunk.coverage (more ++ rows) := by
  induction more with
  | nil => exact le_rfl
  | cons r rest ih =>
    rw [List.cons_append, coverage_cons]
    apply ih.trans
    apply le_add_of_nonneg_left
    exact total_sq_nonneg _ r.area

theorem coverage_le_of_perm {rows more rows' : Chunk K} (h : (rows ++ more).Perm rows') :
    rows.coverage ≤ rows'.coverage := by
  rw [← determinant_eq_coverage rows', ← determinant_of_perm (List.perm_append_comm.trans h),
    determinant_eq_coverage]
  exact coverage_le_append rows more

/-- The determinant is what the rows cover.  Below a threshold they allow no fit, as always
along one line; else the fit divides by what is not zero, and no further rows and no other
order take it away. -/
theorem coverage_decides_fit (rows : Chunk K) (hrows : minFitRows ≤ rows.length) :
    rows.moments.determinant? = some rows.coverage ∧ 0 ≤ rows.coverage ∧
      rows.fit = .ok (if rows.coverage < 1 / 10 ^ 7 then none
        else some (rows.moments.solve rows.coverage)) ∧
      (∀ a b : K, (a, b) ≠ (0, 0) → (∀ r ∈ rows, a * r.u + b * r.v = 0) → rows.fit = .ok none) ∧
      ∀ plane, rows.fit = .ok (some plane) →
        rows.coverage ≠ 0 ∧
          ∀ more rows' : Chunk K, (rows ++ more).Perm rows' →
            ∃ plane', rows'.fit = .ok (some plane') := by
  have hfit := fit_eq_of_coverage hrows
  refine ⟨?_, coverage_nonneg rows, hfit, ?_, ?_⟩
  · rw [determinant?_eq, determinant_eq_coverage]
  · intro a b hab hline
    have hplane : (⟨a, b⟩ : Plane K) ≠ .level := by
      intro heq
      cases heq
      exact hab rfl
    rw [hfit, coverage_eq_zero hplane hline, if_pos (by positivity)]
  · intro plane hplane
    have hcovers : 1 / 10 ^ 7 ≤ rows.coverage := by
      by_contra hless
      rw [hfit, if_pos (not_le.mp hless)] at hplane
      cases hplane
    refine ⟨coverage_ne_zero hcovers, ?_⟩
    intro more rows' hperm
    have hlength : minFitRows ≤ rows'.length := by
      rw [← hperm.length_eq, List.length_append]
      exact hrows.trans (Nat.le_add_right _ _)
    have hmore := hcovers.trans (coverage_le_of_perm hperm)
    exact ⟨_, (fit_eq_of_coverage hlength).trans (by rw [if_neg (not_lt.mpr hmore)])⟩

def skewed : Chunk ℚ := [⟨1, 2, 0⟩, ⟨2, 4, 0⟩, ⟨3, 5, 1⟩]

theorem coverage_decides_fit_skewed :
    minFitRows ≤ skewed.length ∧ skewed.moments.determinant? = some 5 ∧
      Chunk.fit (skewed.take 2) = .ok none ∧ skewed.fit = .ok (some ⟨2, -1⟩) ∧
      ∃ plane, Chunk.fit (⟨7, 7, 7⟩ :: skewed.reverse) = .ok (some plane) := by
  have hcoverage : skewed.coverage = 5 := by decide +kernel
  have hfit : skewed.fit = .ok (some ⟨2, -1⟩) := by decide +kernel
  obtain ⟨hdeterminant, -, -, -, hfitted⟩ := coverage_decides_fit skewed (by decide)
  obtain ⟨-, -, -, hline, -⟩ := coverage_decides_fit (skewed.take 2) (by decide)
  obtain ⟨-, hmore⟩ := hfitted _ hfit
  refine ⟨by decide, by rw [hdeterminant, hcoverage], ?_, hfit, ?_⟩
  · exact hline 2 (-1) (by decide +kernel) (by decide +kernel)
  · exact hmore [⟨7, 7, 7⟩] _ (by decide +kernel)

end Coplanar
