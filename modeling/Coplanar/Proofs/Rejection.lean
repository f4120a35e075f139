import Mathlib.Tactic.Linarith
import Coplanar.Proofs.Agreement
import Coplanar.Proofs.LeastSquares

/-! What a rejected fit says of the other planes.  The fit is the best plane by the sum of
squares and is judged by the largest distance, by which another plane may be better.  It is not
so by more than half of one plus the root of the number of rows. -/
namespace Coplanar

section Rows

variable {K : Type} [Field K] [LinearOrder K] [Circular K] {rows : Chunk K} {p best : Plane K}

theorem maxDeviation_le_iff {bound : K} (h : 0 ≤ bound) :
    p.maxDeviation rows ≤ bound ↔ ∀ r ∈ rows, |p.height r - r.w| ≤ bound := by
  rw [maxDeviation_eq]
  induction rows with
  | nil => simpa using h
  | cons r rest ih =>
    rw [List.map_cons, List.foldr_cons, max_le_iff, ih, List.forall_mem_cons]
    rfl

theorem maxDeviation_nonneg (p : Plane K) (rows : Chunk K) : 0 ≤ p.maxDeviation rows := by
  rw [maxDeviation_eq]
  induction rows with
  | nil => exact le_rfl
  | cons r rest ih => exact ih.trans (le_max_right _ _)

theorem abs_le_maxDeviation {r : Uvw K} (hr : r ∈ rows) :
    |p.height r - r.w| ≤ p.maxDeviation rows :=
  (maxDeviation_le_iff (maxDeviation_nonneg p rows)).mp le_rfl r hr

variable [IsStrictOrderedRing K]

theorem neg_sq_le_residual_mul_height (best p : Plane K) (r : Uvw K) :
    -((p.height r - r.w) ^ 2 / 4) ≤ (best.height r - r.w) * (best - p).height r := by
  have hcomplete : (best.height r - r.w) * (best - p).height r + (p.height r - r.w) ^ 2 / 4 =
      ((p.height r - r.w) / 2 + (best - p).height r) ^ 2 := by
    rw [height_sub]
    ring
  linarith [sq_nonneg ((p.height r - r.w) / 2 + (best - p).height r)]

theorem le_of_total_eq_zero {f : Uvw K → K} {least : K} (hzero : rows.total f = 0)
    (hleast : ∀ r ∈ rows, -least ≤ f r) {r : Uvw K} (hr : r ∈ rows) :
    f r ≤ (rows.length - 1) * least := by
  obtain ⟨before, after, rfl⟩ := List.append_of_mem hr
  have hsplit : f r + ((before ++ after).map f).sum = 0 := by
    rw [← hzero, Chunk.total, ← List.sum_cons, ← List.map_cons]
    exact (List.perm_middle.map f).symm.sum_eq
  have hothers : ∀ x ∈ (before ++ after).map f, -least ≤ x := by
    intro x hx
    obtain ⟨s, hs, rfl⟩ := List.mem_map.mp hx
    exact hleast s (List.perm_middle.symm.subset (List.mem_cons_of_mem _ hs))
  have hsum := List.card_nsmul_le_sum _ _ hothers
  rw [nsmul_eq_mul, List.length_map] at hsum
  have hlength : ((before ++ r :: after).length : K) - 1 = (before ++ after).length := by
    rw [List.perm_middle.length_eq, List.length_cons, Nat.cast_succ, add_sub_cancel_right]
  rw [hlength]
  linarith

/-- What the fit leaves is orthogonal to the way from any other plane, so that one row goes as far
as the others make up for. -/
theorem residual_mul_height_le (h : rows.fit = .ok (some best)) (p : Plane K) {r : Uvw K}
    (hr : r ∈ rows) :
    (best.height r - r.w) * (best - p).height r ≤
      (rows.length - 1) * (p.maxDeviation rows ^ 2 / 4) := by
  apply le_of_total_eq_zero (residual_orthogonal h (best - p)) _ hr
  intro s hs
  have hdeviation : (p.height s - s.w) ^ 2 ≤ p.maxDeviation rows ^ 2 := by
    rw [← sq_abs]
    exact pow_le_pow_left₀ (abs_nonneg _) (abs_le_maxDeviation hs) 2
  linarith [neg_sq_le_residual_mul_height best p s]

theorem residual_sub_sq_le (h : rows.fit = .ok (some best)) (p : Plane K) {r : Uvw K}
    (hr : r ∈ rows) :
    (2 * |best.height r - r.w| - p.maxDeviation rows) ^ 2 ≤
      rows.length * p.maxDeviation rows ^ 2 := by
  have hmul := residual_mul_height_le h p hr
  have hleft : (best.height r - r.w) * (p.height r - r.w) ≤
      |best.height r - r.w| * p.maxDeviation rows := by
    apply (le_abs_self _).trans
    rw [abs_mul]
    exact mul_le_mul_of_nonneg_left (abs_le_maxDeviation hr) (abs_nonneg _)
  have hsq : |best.height r - r.w| ^ 2 =
      (best.height r - r.w) * (p.height r - r.w) +
        (best.height r - r.w) * (best - p).height r := by
    rw [sq_abs, height_sub]
    ring
  calc (2 * |best.height r - r.w| - p.maxDeviation rows) ^ 2
      = 4 * |best.height r - r.w| ^ 2 - 4 * (|best.height r - r.w| * p.maxDeviation rows) +
          p.maxDeviation rows ^ 2 := by ring
    _ ≤ rows.length * p.maxDeviation rows ^ 2 := by linarith

/-- No plane has a largest distance below twice this deviation over one plus the root of the number
of rows, or over one plus anything above that root. -/
def Chunk.NoneNearer (rows : Chunk K) (deviation : K) : Prop :=
  ∀ (p : Plane K) (root : K), 0 ≤ root → rows.length ≤ root ^ 2 →
    deviation + deviation ≤ (1 + root) * p.maxDeviation rows

theorem Chunk.NoneNearer.mono {bound deviation : K} (h : rows.NoneNearer deviation)
    (hle : bound ≤ deviation) : rows.NoneNearer bound := by
  intro p root hroot hrows
  exact (add_le_add hle hle).trans (h p root hroot hrows)

theorem noneNearer_of_fit (h : rows.fit = .ok (some best)) :
    rows.NoneNearer (best.maxDeviation rows) := by
  intro p root hroot hrows
  have hnonneg := maxDeviation_nonneg p rows
  suffices hall : best.maxDeviation rows ≤ (1 + root) * p.maxDeviation rows / 2 by linarith
  have hbound : 0 ≤ (1 + root) * p.maxDeviation rows / 2 :=
    div_nonneg (mul_nonneg (by linarith) hnonneg) zero_le_two
  rw [maxDeviation_le_iff hbound]
  intro r hr
  have hsq : (2 * |best.height r - r.w| - p.maxDeviation rows) ^ 2 ≤
      (root * p.maxDeviation rows) ^ 2 := by
    apply (residual_sub_sq_le h p hr).trans
    rw [mul_pow]
    exact mul_le_mul_of_nonneg_right hrows (sq_nonneg _)
  have habs := abs_le_of_sq_le_sq hsq (mul_nonneg hroot hnonneg)
  linarith [(abs_le.mp habs).2]

/-- As many rows as the square of `root`, of which the first is at the far end of a slope. -/
def peaked (root : K) (count : Nat) : Chunk K :=
  ⟨root - 1, 0, -1⟩ :: ⟨1, 1, 1⟩ :: ⟨1, -1, 1⟩ :: List.replicate count ⟨1, 0, 1⟩

theorem fit_peaked {root : K} {count : Nat} (h : root ^ 2 = count + 3) :
    (peaked root count).fit = .ok (some ⟨1 / 2, 0⟩) := by
  have hmoments : (peaked root count).moments =
      ⟨(root - 1) ^ 2 + 2 + count, 2, 0, 3 - root + count, 0⟩ := by
    rw [moments_eq, Moments.mk.injEq]
    simp only [peaked, Chunk.total, List.map_cons, List.sum_cons, List.map_replicate,
      List.sum_replicate, nsmul_eq_mul]
    refine ⟨?_, ?_, ?_, ?_, ?_⟩ <;> ring
  have hcoverage : (peaked root count).coverage = 4 * (3 - root + count) := by
    apply Option.some.inj
    rw [← determinant_eq_coverage, ← determinant?_eq, hmoments]
    apply congrArg some
    change ((root - 1) ^ 2 + 2 + count) * 2 - 0 * 0 = _
    linear_combination 2 * h
  have hpos : 1 ≤ 3 - root + count := by
    nlinarith [sq_nonneg (root - 1), (Nat.cast_nonneg count : (0 : K) ≤ count)]
  rw [fit_eq_of_coverage (by simp [peaked, minFitRows]), hcoverage, hmoments, if_neg]
  · simp only [Moments.solve]
    congr 3
    · field_simp
      ring
    · simp
  · rw [not_lt]
    norm_num
    linarith

theorem maxDeviation_level_peaked (root : K) (count : Nat) :
    Plane.level.maxDeviation (peaked root count) = 1 := by
  have habs : ∀ r ∈ peaked root count, |Plane.level.height r - r.w| = 1 := by
    intro r hr
    have hw : |r.w| = 1 := by
      simp only [peaked, List.mem_cons, List.mem_replicate] at hr
      rcases hr with rfl | rfl | rfl | ⟨-, rfl⟩ <;> simp
    have hheight : (Plane.level : Plane K).height r = 0 := by
      change 0 * r.u + 0 * r.v = 0
      ring
    rw [hheight, zero_sub, abs_neg, hw]
  apply le_antisymm
  · rw [maxDeviation_le_iff zero_le_one]
    exact fun r hr => (habs r hr).le
  · have hfirst : (⟨root - 1, 0, -1⟩ : Uvw K) ∈ peaked root count := List.mem_cons_self
    exact (habs _ hfirst).ge.trans (abs_le_maxDeviation hfirst)

theorem exists_farthest_fit {n : Nat} {root : K} (hn : 3 ≤ n) (hroot : 0 ≤ root)
    (hsq : root ^ 2 = n) :
    ∃ (rows : Chunk K) (best : Plane K), rows.length = n ∧ rows.fit = .ok (some best) ∧
      Plane.level.maxDeviation rows = 1 ∧ 2 * best.maxDeviation rows = 1 + root := by
  obtain ⟨count, rfl⟩ := Nat.exists_eq_add_of_le' hn
  have hcount : root ^ 2 = count + 3 := by
    rw [hsq]
    push_cast
    rfl
  have hfit := fit_peaked hcount
  have hlevel := maxDeviation_level_peaked root count
  have hlength : (peaked root count).length = count + 3 := by simp [peaked]
  refine ⟨_, _, hlength, hfit, hlevel, le_antisymm ?_ ?_⟩
  · have hmost := noneNearer_of_fit hfit .level root hroot (by rw [hlength, hsq])
    rwa [hlevel, mul_one, ← two_mul] at hmost
  · have hfirst : (⟨root - 1, 0, -1⟩ : Uvw K) ∈ peaked root count := List.mem_cons_self
    have hleast := (le_abs_self _).trans (abs_le_maxDeviation (p := ⟨1 / 2, 0⟩) hfirst)
    simp only [Plane.height] at hleast
    linarith

end Rows

section Policy

variable {ι σ K : Type} [Field K] [LinearOrder K] [Circular K] {rows : Chunk K} {tolerance : K}

theorem Corrector.exceeded_of_fit {c : Corrector ι K} {feeds : ι → Feed σ K} {d : Direction K}
    {s next : σ} {source : ι} {plane : Plane K} {identity : Nat} {fault : Fault K}
    (hpredict : c.settings.predict = false)
    (hfetch : c.Fetches feeds d s source rows tolerance next) (hfit : rows.fit = .ok (some plane))
    (h : (c.correctedRows feeds (.ok d) identity s).result = .error fault) :
    fault = .toleranceExceeded (plane.maxDeviation rows) c.settings.wTolerance tolerance ∧
      tolerance ≤ plane.maxDeviation rows := by
  rw [correctedRows_of_fetches hfetch] at h
  have hplane := (plane?_eq_some_iff _ _).mpr hfit
  obtain ⟨v, hv⟩ : ∃ v, (c.judge (feeds source) d rows tolerance next).result = .ok v :=
    ⟨_, (judge_of_reactive hpredict ..).trans (reactive_eq ..)⟩
  rw [(process_of_ok hv identity).1] at h
  have hadopt := plane_of_adopt c d tolerance v
  rw [judge_of_reactive hpredict, reactive_eq, hplane] at hv
  cases hpasses : (c.adopt d tolerance v).passes rows tolerance with
  | true =>
    rw [deliver_of_passes hpasses] at h
    cases h
  | false =>
    rw [deliver_of_objection hpasses] at h
    have hfar : tolerance ≤ (c.adopt d tolerance v).plane.maxDeviation rows := by
      rw [passes, Bool.or_eq_false_iff, less_eq_false_iff] at hpasses
      exact hpasses.2
    -- A plane in use that is within the tolerance would have passed.
    by_cases hnear : c.plane.maxDeviation rows < tolerance
    · rw [if_pos hnear] at hv
      cases hv
      rw [hadopt] at hfar
      exact absurd hnear (not_lt.mpr hfar)
    · rw [if_neg hnear] at hv
      cases hv
      cases h
      rw [hadopt] at hfar
      rw [objection, adopt_settings, hadopt]
      exact ⟨rfl, hfar⟩

end Policy

/-- A new plane that is out of tolerance is the best by the sum of squares, and no plane is nearer
to the rows by more than a factor that goes with the root of their number.  A call that judges by
the current chunk alone, and could fit it, fails for no other reason.  The factor cannot be
smaller. -/
theorem rejected_fit_nearly_best {ι σ K : Type} [Field K] [LinearOrder K] [IsStrictOrderedRing K]
    [Circular K] :
    (∀ (rows : Chunk K) (tolerance : K) current verdict plane,
      reactive rows tolerance current = .ok verdict → verdict.plane = some plane →
        tolerance ≤ verdict.deviation →
          rows.NoneNearer verdict.deviation ∧ rows.NoneNearer tolerance ∧
            ∀ p, rows.squaredError plane ≤ rows.squaredError p) ∧
      (∀ (c : Corrector ι K) (feeds : ι → Feed σ K) d s source (rows : Chunk K) tolerance next plane
        identity fault, c.settings.predict = false →
          c.Fetches feeds d s source rows tolerance next → rows.fit = .ok (some plane) →
            (c.correctedRows feeds (.ok d) identity s).result = .error fault →
              ∃ deviation, fault = .toleranceExceeded deviation c.settings.wTolerance tolerance ∧
                tolerance ≤ deviation ∧ rows.NoneNearer deviation) ∧
      ∀ (n : Nat) (root : K), 3 ≤ n → 0 ≤ root → root ^ 2 = n →
        ∃ (rows : Chunk K) (best : Plane K), rows.length = n ∧ rows.fit = .ok (some best) ∧
          Plane.level.maxDeviation rows = 1 ∧ 2 * best.maxDeviation rows = 1 + root := by
  refine ⟨?_, ?_, ?_⟩
  · intro rows tolerance current verdict plane hverdict hplane hrejected
    obtain ⟨-, hfit, rfl⟩ := reactive_replaces hverdict hplane
    have hnone := noneNearer_of_fit hfit
    exact ⟨hnone, hnone.mono hrejected, squaredError_le hfit⟩
  · intro c feeds d s source rows tolerance next plane identity fault hpredict hfetch hfit hfault
    obtain ⟨rfl, hfar⟩ := Corrector.exceeded_of_fit hpredict hfetch hfit hfault
    exact ⟨_, rfl, hfar, noneNearer_of_fit hfit⟩
  · intro n root hn hroot hsq
    exact exists_farthest_fit hn hroot hsq

def lopsided : Chunk ℚ := [⟨100, 100, 0⟩, ⟨100, -100, 0⟩, ⟨100, 0, 0⟩, ⟨100, 0, 2⟩]

def lopsidedCorrector : Corrector Unit ℚ :=
  Corrector.associate (.create ⟨5 / 4, true, false, 60, 1440, 1 / 1000000, false⟩) (some ())

def lopsidedFeeds (_ : Unit) : Feed Unit ℚ := Feed.ofChunks (fun _ => lopsided) [299792458]

theorem rejected_fit_nearly_best_lopsided :
    reactive lopsided (5 / 4) .level = .ok ⟨3 / 2, some ⟨1 / 200, 0⟩⟩ ∧
      3 / 2 + 3 / 2 ≤ (1 + 2) * Plane.maxDeviation ⟨1 / 100, 0⟩ lopsided ∧
      (lopsidedCorrector.correctedRows lopsidedFeeds (.ok ⟨0, 0⟩) 0 ()).result =
        .error (.toleranceExceeded (3 / 2) (5 / 4) (5 / 4)) ∧
      lopsided.NoneNearer (3 / 2) := by
  have hverdict : reactive lopsided (5 / 4) .level = .ok ⟨3 / 2, some ⟨1 / 200, 0⟩⟩ := by
    decide +kernel
  have hfit : lopsided.fit = .ok (some ⟨1 / 200, 0⟩) := by decide +kernel
  have hfetch : lopsidedCorrector.Fetches lopsidedFeeds ⟨0, 0⟩ () () lopsided (5 / 4) () :=
    ⟨by decide +kernel, by decide +kernel, rfl, rfl, by decide +kernel⟩
  have hfault : (lopsidedCorrector.correctedRows lopsidedFeeds (.ok ⟨0, 0⟩) 0 ()).result =
      .error (.toleranceExceeded (3 / 2) (5 / 4) (5 / 4)) := by decide +kernel
  obtain ⟨hreactive, hcall, -⟩ := rejected_fit_nearly_best (ι := Unit) (σ := Unit) (K := ℚ)
  obtain ⟨hnone, -, -⟩ := hreactive _ _ _ _ _ hverdict rfl (by decide +kernel)
  obtain ⟨deviation, hdeviation, -, hnearest⟩ := hcall _ _ _ _ _ _ _ _ _ _ _ rfl hfetch hfit hfault
  obtain rfl : 3 / 2 = deviation := by
    cases hdeviation
    rfl
  exact ⟨hverdict, hnone _ 2 zero_le_two (by decide +kernel), hfault, hnearest⟩

/-- A plane within the tolerance does not keep the rows from being refused. -/
theorem rejected_fit_outdone :
    reactive lopsided (5 / 4) .level = .ok ⟨3 / 2, some ⟨1 / 200, 0⟩⟩ ∧
      (lopsidedCorrector.correctedRows lopsidedFeeds (.ok ⟨0, 0⟩) 0 ()).result =
        .error (.toleranceExceeded (3 / 2) (5 / 4) (5 / 4)) ∧
      Plane.maxDeviation ⟨1 / 100, 0⟩ lopsided < 5 / 4 := by
  refine ⟨?_, ?_, ?_⟩ <;> decide +kernel

end Coplanar
