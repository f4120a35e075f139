import Mathlib.Tactic.Positivity
import Mathlib.Tactic.Tauto
import Coplanar.Proofs.Exact
import Coplanar.Tolerance

/-! Exact numbers some of which are missing.  A missing number is passed on by the
sums of a fit, does not make its determinant singular, and is nothing to the largest
deviation: that is how a plane of which nothing is known can pass for a good one. -/
namespace Coplanar

/-- A number, unless it is missing.  What is computed from a missing number is
missing, and so is a quotient by zero. -/
inductive Sample (K : Type) where
  | missing
  | known (x : K)
deriving DecidableEq, Repr

namespace Sample

variable {K : Type}

def map (f : K → K) : Sample K → Sample K
  | missing => missing
  | known x => known (f x)

def combine (f : K → K → K) : Sample K → Sample K → Sample K
  | known x, known y => known (f x y)
  | _, _ => missing

def compare (f : K → K → Bool) : Sample K → Sample K → Bool
  | known x, known y => f x y
  | _, _ => false

def IsKnown (s : Sample K) : Prop := ∃ x, s = known x

@[simp] theorem isKnown_known (x : K) : (known x).IsKnown := ⟨x, rfl⟩

@[simp] theorem not_isKnown_missing : ¬ (missing : Sample K).IsKnown := nofun

theorem not_isKnown_iff (s : Sample K) : ¬ s.IsKnown ↔ s = missing := by
  cases s <;> simp

@[simp] theorem map_isKnown (f : K → K) (s : Sample K) : (s.map f).IsKnown ↔ s.IsKnown := by
  cases s <;> simp [map]

@[simp] theorem combine_isKnown (f : K → K → K) (s t : Sample K) :
    (combine f s t).IsKnown ↔ s.IsKnown ∧ t.IsKnown := by
  cases s <;> cases t <;> simp [combine]

variable [Field K] [LinearOrder K] [Circular K]

instance : Scalar (Sample K) where
  zero := known 0
  add := combine (· + ·)
  sub := combine (· - ·)
  mul := combine (· * ·)
  div s t := if t = known 0 then missing else combine (· / ·) s t
  neg := map (- ·)
  natural n := known n
  pi := known Circular.pi
  abs := map (|·|)
  less := compare fun x y => decide (x < y)
  same := compare fun x y => decide (x = y)
  square? s := some (combine (· * ·) s s)

instance : Trig (Sample K) where
  sin := map Circular.sin
  cos := map Circular.cos
  root := map Circular.root
  angle := combine Circular.angle

theorem zero_eq : (0 : Sample K) = known 0 := rfl

@[simp] theorem natural_known (n : Nat) : (Scalar.natural n : Sample K) = known (n : K) := rfl

@[simp] theorem add_isKnown (s t : Sample K) : (s + t).IsKnown ↔ s.IsKnown ∧ t.IsKnown :=
  combine_isKnown _ s t

@[simp] theorem sub_isKnown (s t : Sample K) : (s - t).IsKnown ↔ s.IsKnown ∧ t.IsKnown :=
  combine_isKnown _ s t

@[simp] theorem mul_isKnown (s t : Sample K) : (s * t).IsKnown ↔ s.IsKnown ∧ t.IsKnown :=
  combine_isKnown _ s t

@[simp] theorem abs_isKnown (s : Sample K) : (Scalar.abs s).IsKnown ↔ s.IsKnown :=
  map_isKnown _ s

theorem div_isKnown (s t : Sample K) :
    (s / t).IsKnown ↔ s.IsKnown ∧ t.IsKnown ∧ t ≠ known 0 := by
  change (if t = known 0 then missing else combine (· / ·) s t).IsKnown ↔ _
  by_cases h : t = known 0 <;> simp [h]

theorem div_known (x : K) {y : K} (h : y ≠ 0) :
    (known x / known y : Sample K) = known (x / y) :=
  if_neg fun hzero => h (known.inj hzero)

theorem less_known (x y : K) : Scalar.less (known x) (known y) = true ↔ x < y := by
  change decide (x < y) = true ↔ x < y
  exact decide_eq_true_iff

theorem less_iff {s t : Sample K} :
    Scalar.less s t = true ↔ ∃ x y, s = known x ∧ t = known y ∧ x < y := by
  cases s with
  | missing => exact iff_of_false nofun nofun
  | known x =>
    cases t with
    | missing => exact iff_of_false nofun nofun
    | known y => simp [less_known]

end Sample

variable {K : Type}

def Uvw.IsComplete (r : Uvw (Sample K)) : Prop := r.u.IsKnown ∧ r.v.IsKnown ∧ r.w.IsKnown

def Plane.IsComplete (p : Plane (Sample K)) : Prop := p.a.IsKnown ∧ p.b.IsKnown

def Moments.IsComplete (m : Moments (Sample K)) : Prop :=
  m.uu.IsKnown ∧ m.vv.IsKnown ∧ m.uv.IsKnown ∧ m.uw.IsKnown ∧ m.vw.IsKnown

variable [Field K] [LinearOrder K] [Circular K]

theorem isComplete_level : (Plane.level : Plane (Sample K)).IsComplete := ⟨⟨0, rfl⟩, ⟨0, rfl⟩⟩

theorem deviation_isKnown (p : Plane (Sample K)) (r : Uvw (Sample K)) :
    (p.deviation r).IsKnown ↔ p.IsComplete ∧ r.IsComplete := by
  simp only [Plane.deviation, Plane.height, Plane.IsComplete, Uvw.IsComplete, Sample.abs_isKnown,
    Sample.sub_isKnown, Sample.add_isKnown, Sample.mul_isKnown]
  tauto

theorem abs_subtract_w [IsStrictOrderedRing K] (p : Plane (Sample K)) (r : Uvw (Sample K)) :
    Scalar.abs (p.subtract r).w = p.deviation r := by
  unfold Plane.deviation Plane.subtract
  dsimp only
  generalize p.height r = height
  cases height with
  | missing => cases r.w <;> rfl
  | known x =>
    cases r.w with
    | missing => rfl
    | known y => exact congrArg Sample.known (abs_sub_comm y x)

namespace Plane

theorem raise_missing (m : Sample K) : raise m .missing = m := by
  unfold raise
  rw [if_neg (fun h => by simp [Sample.less_iff] at h)]

theorem maxDeviation_of_missing {p : Plane (Sample K)} {rows : Chunk (Sample K)}
    (h : ∀ r ∈ rows, p.deviation r = .missing) : p.maxDeviation rows = 0 := by
  unfold maxDeviation
  induction rows with
  | nil => rfl
  | cons r rest ih =>
    rw [List.forall_mem_cons] at h
    rw [List.foldl_cons, h.1, raise_missing]
    exact ih h.2

theorem maxDeviation_of_incomplete {p : Plane (Sample K)} (h : ¬ p.IsComplete)
    (rows : Chunk (Sample K)) : p.maxDeviation rows = 0 := by
  refine maxDeviation_of_missing fun r _ => ?_
  rw [← Sample.not_isKnown_iff, deviation_isKnown]
  exact fun hboth => h hboth.1

theorem maxDeviation_of_incomplete_rows (p : Plane (Sample K)) {rows : Chunk (Sample K)}
    (h : ∀ r ∈ rows, ¬ r.IsComplete) : p.maxDeviation rows = 0 := by
  refine maxDeviation_of_missing fun r hr => ?_
  rw [← Sample.not_isKnown_iff, deviation_isKnown]
  exact fun hboth => h r hr hboth.2

theorem exists_maxDeviation (p : Plane (Sample K)) (rows : Chunk (Sample K)) :
    ∃ y, 0 ≤ y ∧ p.maxDeviation rows = .known y ∧
      ∀ r ∈ rows, ∀ x, p.deviation r = .known x → x ≤ y := by
  suffices h : ∀ m : K, ∃ y, m ≤ y ∧
      rows.foldl (fun m r => raise m (p.deviation r)) (.known m) = .known y ∧
      ∀ r ∈ rows, ∀ x, p.deviation r = .known x → x ≤ y from
    h 0
  induction rows with
  | nil => exact fun m => ⟨m, le_rfl, rfl, by simp⟩
  | cons r rest ih =>
    intro m
    -- The deviation of the first row, where it is known, is no more than what it raises to.
    obtain ⟨next, hnext, hle, hfirst⟩ : ∃ next, raise (.known m) (p.deviation r) = .known next ∧
        m ≤ next ∧ ∀ x, p.deviation r = .known x → x ≤ next := by
      cases hdeviation : p.deviation r with
      | missing => exact ⟨m, raise_missing _, le_rfl, nofun⟩
      | known x =>
        by_cases hless : m < x
        · refine ⟨x, ?_, hless.le, fun z hz => (Sample.known.inj hz).ge⟩
          exact if_pos ((Sample.less_known m x).mpr hless)
        · refine ⟨m, ?_, le_rfl, fun z hz => (Sample.known.inj hz) ▸ not_lt.mp hless⟩
          exact if_neg fun h => hless ((Sample.less_known m x).mp h)
    obtain ⟨y, hy, hfold, hrest⟩ := ih next
    refine ⟨y, hle.trans hy, ?_, fun q hq x hx => ?_⟩
    · rw [List.foldl_cons, hnext, hfold]
    · rcases List.mem_cons.mp hq with rfl | hmem
      · exact (hfirst x hx).trans hy
      · exact hrest q hmem x hx

theorem less_zero_of_deviation_less {p : Plane (Sample K)} {rows : Chunk (Sample K)}
    {tolerance : Sample K} (h : Scalar.less (p.maxDeviation rows) tolerance = true) :
    Scalar.less 0 tolerance = true := by
  obtain ⟨y, hy, hdeviation, -⟩ := p.exists_maxDeviation rows
  rw [hdeviation] at h
  obtain ⟨_, t, hknown, rfl, hlt⟩ := Sample.less_iff.mp h
  cases hknown
  exact (Sample.less_known 0 t).mpr (hy.trans_lt hlt)

theorem deviation_less {p : Plane (Sample K)} {rows : Chunk (Sample K)} {tolerance : Sample K}
    (hless : Scalar.less (p.maxDeviation rows) tolerance = true) (hp : p.IsComplete)
    {r : Uvw (Sample K)} (hmem : r ∈ rows) (hr : r.IsComplete) :
    Scalar.less (p.deviation r) tolerance = true := by
  obtain ⟨y, -, hy, hrows⟩ := p.exists_maxDeviation rows
  obtain ⟨x, hx⟩ := (deviation_isKnown p r).mpr ⟨hp, hr⟩
  obtain ⟨m, t, hm, rfl, hlt⟩ := Sample.less_iff.mp hless
  obtain rfl : y = m := Sample.known.inj (hy.symm.trans hm)
  rw [hx, Sample.less_known]
  exact (hrows r hmem x hx).trans_lt hlt

end Plane

section Fit

theorem add_isComplete (m : Moments (Sample K)) (r : Uvw (Sample K)) :
    (m.add r).IsComplete ↔ m.IsComplete ∧ r.IsComplete := by
  simp only [Moments.add, Moments.IsComplete, Uvw.IsComplete, Sample.add_isKnown,
    Sample.mul_isKnown]
  tauto

theorem moments_isComplete (rows : Chunk (Sample K)) :
    rows.moments.IsComplete ↔ ∀ r ∈ rows, r.IsComplete := by
  suffices h : ∀ m : Moments (Sample K),
      (rows.foldl Moments.add m).IsComplete ↔ m.IsComplete ∧ ∀ r ∈ rows, r.IsComplete by
    have hzero : (Moments.zero : Moments (Sample K)).IsComplete :=
      ⟨⟨0, rfl⟩, ⟨0, rfl⟩, ⟨0, rfl⟩, ⟨0, rfl⟩, ⟨0, rfl⟩⟩
    rw [Chunk.moments, h, and_iff_right hzero]
  induction rows with
  | nil => simp
  | cons r rest ih =>
    intro m
    rw [List.foldl_cons, ih, add_isComplete, List.forall_mem_cons, and_assoc]

variable [IsStrictOrderedRing K]

theorem singularDeterminant_eq :
    (singularDeterminant : Sample K) = .known (1 / 10000000) := by
  have hne : (Scalar.natural 10000000 : Sample K) ≠ .known 0 := by
    simp
  change (if (Scalar.natural 10000000 : Sample K) = .known 0 then _ else _) = _
  rw [if_neg hne]
  simp [Sample.combine]

theorem ne_zero_of_not_isSingular {det : Sample K} (h : isSingular det = false) :
    det ≠ .known 0 := by
  rintro rfl
  have hzero : (Scalar.abs (.known 0) : Sample K) = .known 0 := congrArg Sample.known abs_zero
  rw [isSingular, hzero, singularDeterminant_eq, ← Bool.not_eq_true, Sample.less_known] at h
  exact h (by positivity)

theorem solve_isComplete {m : Moments (Sample K)} {det : Sample K} (hdet : m.determinant? = some det)
    (hregular : isSingular det = false) : (m.solve det).IsComplete ↔ m.IsComplete := by
  have hne := ne_zero_of_not_isSingular hregular
  have hknown : det.IsKnown ↔ (m.uu.IsKnown ∧ m.vv.IsKnown) ∧ m.uv.IsKnown := by
    obtain rfl : m.uu * m.vv - m.uv * m.uv = det := Option.some.inj hdet
    simp
  simp only [Moments.solve, Plane.IsComplete, Moments.IsComplete, Sample.div_isKnown,
    Sample.sub_isKnown, Sample.mul_isKnown, hknown]
  tauto

theorem fit_isComplete_iff {rows : Chunk (Sample K)} {plane : Plane (Sample K)}
    (h : rows.fit = .ok (some plane)) : plane.IsComplete ↔ ∀ r ∈ rows, r.IsComplete := by
  unfold Chunk.fit at h
  split at h
  · cases h
  · split at h
    · cases h
    · rename_i det hdet
      cases hsingular : isSingular det with
      | true => simp [hsingular] at h
      | false =>
        obtain rfl : rows.moments.solve det = plane := by simpa [hsingular] using h
        rw [solve_isComplete hdet hsingular, moments_isComplete]

end Fit

theorem tolerance_pos [IsStrictOrderedRing K] {wTolerance tolerance : Sample K}
    {channels : Except (Fault (Sample K)) (List (Sample K))}
    (hpositive : Scalar.less 0 wTolerance = true)
    (h : channels.bind (toleranceInMetres wTolerance) = .ok tolerance) :
    Scalar.less 0 tolerance = true := by
  cases channels with
  | error fault => cases h
  | ok channels =>
    obtain ⟨highest, -, hhighest, rfl⟩ := toleranceInMetres_eq_ok h
    obtain ⟨zero, w, hzero, rfl, hw⟩ := Sample.less_iff.mp hpositive
    obtain ⟨zero', x, hzero', rfl, hx⟩ := Sample.less_iff.mp hhighest
    obtain rfl : 0 = zero := Sample.known.inj hzero
    obtain rfl : 0 = zero' := Sample.known.inj hzero'
    have hne : Sample.known x ≠ .known 0 := fun h => hx.ne' (Sample.known.inj h)
    have hquotient : (Sample.known w : Sample K) * speedOfLight / .known x =
        .known (w * (299792458 : Nat) / x) := if_neg hne
    rw [hquotient, Sample.zero_eq, Sample.less_known]
    positivity

end Coplanar
