import Coplanar.Proofs.Frames
import Coplanar.Proofs.Residual
import Coplanar.Proofs.Slices

/-! Turning rows of which something may be missing.  Between two directions that are known
complete rows stay complete, and otherwise nothing is left that is known.  So a plane that
is fitted ahead is as complete as one that is fitted now: where the way ahead is not known,
nothing there speaks against the plane of now. -/
namespace Coplanar

namespace Sample

variable {K : Type} [Field K] [LinearOrder K] [Circular K]

@[simp] theorem add_missing (x : Sample K) : x + missing = missing := by cases x <;> rfl

@[simp] theorem missing_add (x : Sample K) : missing + x = missing := by cases x <;> rfl

@[simp] theorem sub_missing (x : Sample K) : x - missing = missing := by cases x <;> rfl

@[simp] theorem mul_missing (x : Sample K) : x * missing = missing := by cases x <;> rfl

@[simp] theorem missing_mul (x : Sample K) : missing * x = missing := by cases x <;> rfl

theorem isFinite_iff (x : Sample K) : Scalar.isFinite x = true ↔ x.IsKnown := by
  refine ⟨isKnown_of_isFinite, ?_⟩
  rintro ⟨y, rfl⟩
  exact decide_eq_true (sub_self y)

end Sample

section Turned

theorem Uvw.exists_known {K : Type} {r : Uvw (Sample K)} (h : r.IsComplete) :
    ∃ q : Uvw K, r = q.known := by
  obtain ⟨u, v, w⟩ := r
  obtain ⟨⟨x, rfl⟩, ⟨y, rfl⟩, ⟨z, rfl⟩⟩ := h
  exact ⟨⟨x, y, z⟩, rfl⟩

variable {K : Type} [Field K] [LinearOrder K] [Circular K]

theorem Direction.exists_known {d : Direction (Sample K)} (h : d.IsFinite) :
    ∃ e : Direction K, d = e.known := by
  obtain ⟨ra, dec⟩ := d
  obtain ⟨x, rfl⟩ := (Sample.isFinite_iff _).mp h.1
  obtain ⟨y, rfl⟩ := (Sample.isFinite_iff _).mp h.2
  exact ⟨⟨x, y⟩, rfl⟩

theorem Uvw.isComplete_iff (r : Uvw (Sample K)) : r.isComplete = true ↔ r.IsComplete := by
  have hmissing : ∀ x : Sample K, Scalar.isMissing x = false ↔ x.IsKnown := by
    intro x
    cases x with
    | missing =>
      exact iff_of_false (by simp [Scalar.isMissing, Scalar.same, Sample.compare]) (by simp)
    | known x =>
      exact iff_of_true (by simp [Scalar.isMissing, Scalar.same, Sample.compare]) ⟨x, rfl⟩
  simp [isComplete, hasMissing, cells, hmissing, IsComplete]

namespace Rotation

theorem toward_of_not_isFinite {d : Direction (Sample K)} (h : ¬ d.IsFinite) :
    toward (-d.ra) d.dec = constant .missing := by
  obtain ⟨ra, dec⟩ := d
  cases ra with
  | missing =>
    have hneg : -(Sample.missing : Sample K) = .missing := rfl
    have hinfinite : Scalar.isFinite (Sample.missing : Sample K) = false := rfl
    simp [toward, hneg, hinfinite]
  | known x =>
    cases dec with
    | missing =>
      have hinfinite : Scalar.isFinite (Sample.missing : Sample K) = false := rfl
      simp [toward, hinfinite]
    | known y =>
      exact absurd
        ⟨(Sample.isFinite_iff _).mpr ⟨x, rfl⟩, (Sample.isFinite_iff _).mpr ⟨y, rfl⟩⟩ h

theorem act_between_of_not_isFinite {c d : Direction (Sample K)} (h : ¬ (c.IsFinite ∧ d.IsFinite))
    (x y z : Sample K) : ((between c d).act x y z) = ⟨.missing, .missing, .missing⟩ := by
  have hblank : between c d = constant .missing := by
    rw [between]
    by_cases hc : c.IsFinite
    · rw [toward_of_not_isFinite (d := d) fun hd => h ⟨hc, hd⟩]
      simp [mul, act, constant]
    · rw [toward_of_not_isFinite hc]
      simp [mul, act, constant, transpose]
  rw [hblank]
  simp [act, constant]

variable [IsStrictOrderedRing K]

theorem act_between_isComplete {c d : Direction (Sample K)} (hc : c.IsFinite) (hd : d.IsFinite)
    {r : Uvw (Sample K)} (hr : r.IsComplete) : ((between c d).act r.u r.v r.w).IsComplete := by
  obtain ⟨c, rfl⟩ := Direction.exists_known hc
  obtain ⟨d, rfl⟩ := Direction.exists_known hd
  obtain ⟨r, rfl⟩ := Uvw.exists_known hr
  rw [between_known]
  exact ⟨⟨_, rfl⟩, ⟨_, rfl⟩, ⟨_, rfl⟩⟩

end Rotation

end Turned

section Ahead

variable {σ α : Type} [Scalar α] {track : Track σ α} {tolerance : α} {now : Chunk α}

/-- There are rows at every step ahead, and no plane deviates from them. -/
def Track.Idle (track : Track σ α) : Prop :=
  ∀ (plane : Plane α) n s, ∃ rows next, track (n + 1) s = (.ok rows, next) ∧
    plane.maxDeviation rows = 0

theorem climb_of_idle (h : track.Idle) (hpositive : Scalar.less 0 tolerance = true)
    (plane : Plane α)
    (limit n : Nat) (s : σ) : (climb track tolerance plane limit n s).ending = .exhausted := by
  induction limit generalizing n s with
  | zero => rfl
  | succ limit ih =>
    obtain ⟨rows, next, hrows, hzero⟩ := h plane n s
    rw [climb, hrows]
    dsimp only
    rw [hzero, if_pos hpositive]
    exact ih (n + 1) next

end Ahead

section Complete

variable {σ K : Type} [Field K] [LinearOrder K] [Circular K]

theorem fit_of_idle [IsStrictOrderedRing K] {track : Track σ (Sample K)} {now : Chunk (Sample K)}
    {tolerance : Sample K} {current plane : Plane (Sample K)} {limit : Nat} {s : σ}
    {v : Verdict (Sample K)} (hidle : track.Idle)
    (h : (predictive track now tolerance current limit s).result = .ok v)
    (hplane : v.plane = some plane) : now.fit = .ok (some plane) := by
  unfold predictive at h
  dsimp only at h
  split at h
  · cases h
    cases hplane
  · cases hfit : now.fit with
    | error fault =>
      rw [hfit] at h
      cases h
    | ok fitted =>
      rw [hfit] at h
      cases fitted with
      | none =>
        cases h
        cases hplane
      | some fresh =>
        dsimp only at h
        split at h
        · cases h
          cases hplane
        · split at h
          · rename_i hgood
            have hpositive := Plane.less_zero_of_deviation_less hgood
            simp only [search, climb_of_idle hidle hpositive] at h
            cases h
            exact congrArg Except.ok hplane
          · cases h
            exact congrArg Except.ok hplane

end Complete

end Coplanar
