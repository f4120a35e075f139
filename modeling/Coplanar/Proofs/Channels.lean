import Coplanar.Proofs.Exact

/-! A tolerance in wavelengths, on every channel.  The tolerance in metres is taken from the
highest channel alone: a distance is below it exactly if on each channel it is below the
tolerance in wavelengths.  Channels at zero or below set no bound, and do no harm beside one
that does. -/
namespace Coplanar

variable {K : Type} [Field K] [LinearOrder K] [Circular K]

theorem larger_eq_max (x y : K) : Scalar.larger x y = max x y := by
  have hknown : ∀ z : K, Scalar.isMissing z = false := fun z => by simp [Scalar.isMissing]
  rw [Scalar.larger, hknown, hknown]
  by_cases h : x < y
  · simp [h, h.le]
  · simp [h, not_lt.mp h]

theorem highest?_eq_max? (channels : List K) : highest? channels = channels.max? := by
  cases channels with
  | nil => rfl
  | cons f rest =>
    have hlarger : (Scalar.larger : K → K → K) = max := by
      funext x y
      exact larger_eq_max x y
    rw [highest?, hlarger, List.max?]

theorem highest?_eq_some_iff (channels : List K) (highest : K) :
    highest? channels = some highest ↔ highest ∈ channels ∧ ∀ f ∈ channels, f ≤ highest := by
  rw [highest?_eq_max?, List.max?_eq_some_iff]

theorem toleranceInMetres_of_highest (w : K) {channels : List K} {highest : K}
    (hhighest : highest? channels = some highest) :
    toleranceInMetres w channels =
      if 0 < highest then .ok (w * speedOfLight / highest)
      else .error (.noPositiveFrequency highest) := by
  simp [toleranceInMetres, hhighest]

theorem maxDeviation_lt_iff {p : Plane K} {rows : Chunk K} {t : K} (ht : 0 < t) :
    p.maxDeviation rows < t ↔ ∀ r ∈ rows, p.deviation r < t := by
  rw [maxDeviation_eq]
  induction rows with
  | nil => simpa using ht
  | cons r rest ih => simp [ih]

def inWavelengths (d f : K) : K := d * f / speedOfLight

variable [IsStrictOrderedRing K]

theorem exists_toleranceInMetres {channels : List K} (hsome : channels ≠ [])
    (hfrequencies : ∀ f ∈ channels, 0 < f) {wTolerance : K} (hpos : 0 < wTolerance) :
    ∃ tolerance, toleranceInMetres wTolerance channels = .ok tolerance ∧ 0 < tolerance := by
  obtain ⟨highest, hhighest⟩ : ∃ highest, highest? channels = some highest := by
    cases channels with
    | nil => exact absurd rfl hsome
    | cons f rest => exact ⟨_, rfl⟩
  have hpositive := hfrequencies _ ((highest?_eq_some_iff channels highest).mp hhighest).1
  have hok := (toleranceInMetres_of_highest wTolerance hhighest).trans (if_pos hpositive)
  exact ⟨_, hok, toleranceInMetres_pos hpos hok⟩

theorem inWavelengths_lt_iff {channels : List K} {highest w d : K}
    (hhighest : highest? channels = some highest) (hpositive : 0 < highest) (hd : 0 ≤ d) :
    (∀ f ∈ channels, inWavelengths d f < w) ↔ d < w * speedOfLight / highest := by
  obtain ⟨hmem, hle⟩ := (highest?_eq_some_iff channels highest).mp hhighest
  have hat : inWavelengths d highest < w ↔ d < w * speedOfLight / highest := by
    rw [inWavelengths, div_lt_iff₀ speedOfLight_pos, lt_div_iff₀ hpositive]
  refine ⟨fun h => hat.mp (h highest hmem), fun h f hf => ?_⟩
  calc inWavelengths d f ≤ inWavelengths d highest :=
        div_le_div_of_nonneg_right (mul_le_mul_of_nonneg_left (hle f hf) hd) speedOfLight_pos.le
    _ < w := hat.mpr h

/-- A tolerance is known exactly if there are channels and the highest is positive; otherwise
the fault tells which of the two fails.  A distance is below the tolerance exactly if on each
channel it is below the number of wavelengths, and the check of a residual passes exactly if
this is so of every row. -/
theorem tolerance_on_every_channel {w : K} (hw : 0 < w) {frequency : Nested K} {shape : List Nat}
    (hshape : frequency.shape? = some shape) :
    let result := frequency.rectangular.bind (toleranceInMetres w)
    ((∃ tolerance, result = .ok tolerance) ↔
        ∃ highest ∈ frequency.cells, (∀ f ∈ frequency.cells, f ≤ highest) ∧ 0 < highest) ∧
      (frequency.cells = [] → result = .error .noChannels) ∧
      (∀ highest ∈ frequency.cells, (∀ f ∈ frequency.cells, f ≤ highest) → highest ≤ 0 →
        result = .error (.noPositiveFrequency highest)) ∧
      ∀ tolerance, result = .ok tolerance →
        (∀ d, 0 ≤ d → (d < tolerance ↔ ∀ f ∈ frequency.cells, inWavelengths d f < w)) ∧
        ∀ (rows : Chunk K) (plane : Plane K),
          ((∃ d, checkResidual rows plane tolerance w = .ok d) ↔
            ∀ r ∈ rows, ∀ f ∈ frequency.cells, inWavelengths (plane.deviation r) f < w) ∧
          ((∃ r ∈ rows, ∃ f ∈ frequency.cells, w ≤ inWavelengths (plane.deviation r) f) →
            checkResidual rows plane tolerance w =
              .error (.toleranceExceeded (plane.maxDeviation rows) w tolerance)) := by
  intro result
  have hresult : result = toleranceInMetres w frequency.cells := by
    simp only [result, Nested.rectangular, hshape]
    rfl
  generalize frequency.cells = channels at hresult ⊢
  rw [hresult]
  refine ⟨⟨?_, ?_⟩, ?_, ?_, ?_⟩
  · rintro ⟨tolerance, hok⟩
    obtain ⟨highest, hhighest, hpositive, -⟩ := toleranceInMetres_eq_ok hok
    obtain ⟨hmem, hle⟩ := (highest?_eq_some_iff channels highest).mp hhighest
    exact ⟨highest, hmem, hle, (less_iff _ _).mp hpositive⟩
  · rintro ⟨highest, hmem, hle, hpositive⟩
    have hhighest := (highest?_eq_some_iff channels highest).mpr ⟨hmem, hle⟩
    exact ⟨_, (toleranceInMetres_of_highest w hhighest).trans (if_pos hpositive)⟩
  · rintro rfl
    rfl
  · intro highest hmem hle hnot
    have hhighest := (highest?_eq_some_iff channels highest).mpr ⟨hmem, hle⟩
    exact (toleranceInMetres_of_highest w hhighest).trans (if_neg hnot.not_gt)
  · intro tolerance hok
    obtain ⟨highest, hhighest, hless, htolerance⟩ := toleranceInMetres_eq_ok hok
    have hpositive := (less_iff _ _).mp hless
    have hwithin : ∀ d, 0 ≤ d → (d < tolerance ↔ ∀ f ∈ channels, inWavelengths d f < w) := by
      intro d hd
      rw [inWavelengths_lt_iff hhighest hpositive hd, htolerance]
    refine ⟨hwithin, fun rows plane => ?_⟩
    -- A row is within the tolerance on every channel exactly if its deviation is in metres.
    have hrows : plane.maxDeviation rows < tolerance ↔
        ∀ r ∈ rows, ∀ f ∈ channels, inWavelengths (plane.deviation r) f < w := by
      rw [maxDeviation_lt_iff (toleranceInMetres_pos hw hok)]
      exact forall₂_congr fun r _ => hwithin _ (abs_nonneg _)
    constructor
    · rw [← hrows]
      by_cases h : plane.maxDeviation rows < tolerance <;> simp [checkResidual, h]
    · rintro ⟨r, hr, f, hf, hbeyond⟩
      have hnot : ¬ plane.maxDeviation rows < tolerance := fun h =>
        hbeyond.not_gt (hrows.mp h r hr f hf)
      simp [checkResidual, hnot]

theorem tolerance_on_every_channel_mixed :
    let frequency : Nested ℚ := .ofList [0, 299792458, -5, 599584916]
    (0 : ℚ) < 1 ∧ frequency.shape? = some [4] ∧
      frequency.rectangular.bind (toleranceInMetres 1) = .ok (1 / 2) ∧
      (∀ d : ℚ, 0 ≤ d → (d < 1 / 2 ↔ ∀ f ∈ frequency.cells, inWavelengths d f < 1)) ∧
      ∃ d, checkResidual [⟨1, 0, 1⟩, ⟨0, 1, -1 / 4⟩] (⟨1 / 2 + 1 / 8, 0⟩ : Plane ℚ) (1 / 2) 1 =
        .ok d := by
  intro frequency
  have hshape : frequency.shape? = some [4] := Nested.shape?_ofList _
  have hok : frequency.rectangular.bind (toleranceInMetres 1) = .ok (1 / 2) := by
    have hhighest : highest? [0, 299792458, -5, (599584916 : ℚ)] = some 599584916 := by
      rw [highest?_eq_some_iff]
      norm_num
    rw [Nested.rectangular_ofList]
    refine (toleranceInMetres_of_highest 1 hhighest).trans ?_
    norm_num [speedOfLight, natural_eq]
  obtain ⟨-, -, -, hwithin⟩ := tolerance_on_every_channel one_pos hshape
  obtain ⟨hdistance, hresidual⟩ := hwithin _ hok
  refine ⟨one_pos, hshape, hok, hdistance, (hresidual _ _).1.mpr ?_⟩
  have hfirst : |(3 / 8 : ℚ)| = 3 / 8 := abs_of_pos (by norm_num)
  have hsecond : |(1 / 4 : ℚ)| = 1 / 4 := abs_of_pos (by norm_num)
  rw [Nested.cells_ofList]
  norm_num [inWavelengths, Plane.deviation, Plane.height, Scalar.abs, speedOfLight, natural_eq,
    hfirst, hsecond]

end Coplanar
