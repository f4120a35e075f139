import Coplanar.Proofs.Coverage
import Coplanar.Proofs.Requests

/-! Rows lifted by a plane.  A plane that is added to the `w` of all rows goes over into every
fit and changes no distance, so that either policy does what it does without it, with that plane
on top of its own. -/
namespace Coplanar

section Lift

variable {σ K : Type} [Field K] [LinearOrder K] [Circular K]

instance : Add (Plane K) where
  add p q := ⟨p.a + q.a, p.b + q.b⟩

/-- The row as high above the plane as it was above `w = 0`. -/
def Plane.lift (p : Plane K) (r : Uvw K) : Uvw K := { r with w := r.w + p.height r }

def Chunk.lifted (rows : Chunk K) (p : Plane K) : Chunk K := rows.map p.lift

def Feed.lifted (feed : Feed σ K) (p : Plane K) : Feed σ K where
  rows d s := ((feed.rows d s).1.map (Chunk.lifted · p), (feed.rows d s).2)
  channels := feed.channels

def Track.lifted (track : Track σ K) (p : Plane K) : Track σ K :=
  fun n s => ((track n s).1.map (Chunk.lifted · p), (track n s).2)

def Verdict.lifted (v : Verdict K) (p : Plane K) : Verdict K :=
  { v with plane := v.plane.map (· + p) }

def Note.lifted (p : Plane K) : Note K → Note K
  | .current deviation tolerance plane => .current deviation tolerance (plane + p)
  | .settled steps plane deviation => .settled steps (plane + p) deviation
  | .committed plane deviation => .committed (plane + p) deviation
  | note => note

def DescentEnd.lifted (p : Plane K) : DescentEnd K → DescentEnd K
  | .stopped steps plane => .stopped steps (plane.map (· + p))
  | .failed fault => .failed fault

def Descent.lifted (down : Descent σ K) (p : Plane K) : Descent σ K where
  ending := down.ending.lifted p
  state := down.state

def Outcome.lifted (outcome : Outcome σ K) (p : Plane K) : Outcome σ K where
  result := outcome.result.map (Verdict.lifted · p)
  notes := outcome.notes.map (Note.lifted p)
  state := outcome.state

end Lift

section Rows

variable {K : Type} [Field K] [LinearOrder K] [Circular K] (p q : Plane K) (rows : Chunk K)

theorem deviation_lift (r : Uvw K) : (q + p).deviation (p.lift r) = q.deviation r := by
  change |(q.a + p.a) * r.u + (q.b + p.b) * r.v - (r.w + (p.a * r.u + p.b * r.v))| =
    |q.a * r.u + q.b * r.v - r.w|
  congr 1
  ring

@[simp] theorem length_lifted : (rows.lifted p).length = rows.length := List.length_map _

@[simp] theorem maxDeviation_lifted :
    (q + p).maxDeviation (rows.lifted p) = q.maxDeviation rows := by
  rw [maxDeviation_eq, maxDeviation_eq, Chunk.lifted, List.map_map]
  congr 1
  exact List.map_congr_left fun r _ => deviation_lift p q r

theorem coverage_lifted : (rows.lifted p).coverage = rows.coverage := by
  induction rows with
  | nil => rfl
  | cons r rest ih =>
    rw [Chunk.lifted, List.map_cons, coverage_cons, coverage_cons, Chunk.total, List.map_map]
    exact congrArg _ ih

theorem total_mul_lift (f : Uvw K → K) :
    rows.total (fun r => f r * (p.lift r).w) = rows.total (fun r => f r * r.w) +
      (p.a * rows.total (fun r => f r * r.u) + p.b * rows.total fun r => f r * r.v) := by
  induction rows with
  | nil => simp [Chunk.total]
  | cons r rest ih =>
    simp only [Chunk.total, List.map_cons, List.sum_cons, Plane.lift, Plane.height] at ih ⊢
    rw [ih]
    ring

theorem moments_lifted :
    (rows.lifted p).moments = { rows.moments with
      uw := rows.moments.uw + (p.a * rows.moments.uu + p.b * rows.moments.uv)
      vw := rows.moments.vw + (p.a * rows.moments.uv + p.b * rows.moments.vv) } := by
  have hu := total_mul_lift p rows Uvw.u
  have hv := total_mul_lift p rows Uvw.v
  rw [funext fun r : Uvw K => mul_comm r.v r.u] at hv
  rw [moments_eq, moments_eq, Moments.mk.injEq, ← hu, ← hv]
  simp only [Chunk.total, Chunk.lifted, List.map_map]
  exact ⟨rfl, rfl, rfl, rfl, rfl⟩

variable {rows} in
theorem solve_lifted (h : rows.coverage ≠ 0) :
    (rows.lifted p).moments.solve rows.coverage = rows.moments.solve rows.coverage + p := by
  have hdet := moments_determinant rows
  rw [moments_lifted]
  change Plane.mk _ _ = Plane.mk _ _
  rw [Plane.mk.injEq]
  simp only [Moments.solve]
  constructor
  · rw [div_add' _ _ _ h]
    congr 1
    linear_combination p.a * hdet
  · rw [div_add' _ _ _ h]
    congr 1
    linear_combination p.b * hdet

theorem fit_lifted [IsStrictOrderedRing K] :
    (rows.lifted p).fit = rows.fit.map (Option.map (· + p)) := by
  by_cases hfew : rows.length < minFitRows
  · rw [Chunk.fit, Chunk.fit, length_lifted, if_pos hfew, if_pos hfew]
    rfl
  · have hrows : minFitRows ≤ rows.length := not_lt.mp hfew
    rw [fit_eq_of_coverage hrows, fit_eq_of_coverage (by rwa [length_lifted]), coverage_lifted]
    by_cases hsingular : rows.coverage < 1 / 10 ^ 7
    · rw [if_pos hsingular, if_pos hsingular]
      rfl
    · have hcovers := coverage_ne_zero (not_lt.mp hsingular)
      rw [if_neg hsingular, if_neg hsingular, solve_lifted p hcovers]
      rfl

end Rows

section Policies

variable {σ K : Type} [Field K] [LinearOrder K] [Circular K] (p current : Plane K)

theorem keep_lifted (rows : Chunk K) :
    Verdict.keep (current + p) (rows.lifted p) = (Verdict.keep current rows).lifted p := by
  rw [Verdict.keep, maxDeviation_lifted]
  rfl

theorem replace_lifted (plane : Plane K) (rows : Chunk K) :
    Verdict.replace (plane + p) (rows.lifted p) = (Verdict.replace plane rows).lifted p := by
  rw [Verdict.replace, maxDeviation_lifted]
  rfl

theorem ofFeed_lifted (feed : Feed σ K) (center : Direction K) (interval : K) :
    Track.ofFeed (feed.lifted p) center interval = (Track.ofFeed feed center interval).lifted p :=
  rfl

theorem recorded_lifted (feed : Feed σ K) : (feed.lifted p).recorded = feed.recorded.lifted p := rfl

theorem climbNotes_lifted (readings : List K) :
    (climbNotes readings).map (Note.lifted p) = climbNotes readings := by
  rw [climbNotes, List.map_map]
  rfl

variable (track : Track σ K) (now : Chunk K) (tolerance : K)

theorem Track.lifted_apply (n : Nat) (s : σ) :
    track.lifted p n s = ((track n s).1.map (Chunk.lifted · p), (track n s).2) := rfl

theorem climb_lifted (plane : Plane K) (limit n : Nat) (s : σ) :
    climb (track.lifted p) tolerance (plane + p) limit n s =
      climb track tolerance plane limit n s := by
  induction limit generalizing n s with
  | zero => rfl
  | succ limit ih =>
    simp only [climb, Track.lifted_apply]
    rcases track (n + 1) s with ⟨answer, next⟩
    cases answer with
    | error fault => rfl
    | ok there => simp only [Except.map, maxDeviation_lifted, ih]

theorem rowsAt_lifted : rowsAt (track.lifted p) (now.lifted p) = (rowsAt track now).lifted p := by
  funext n s
  cases n <;> rfl

variable [IsStrictOrderedRing K]

theorem reactive_lifted (rows : Chunk K) :
    reactive (rows.lifted p) tolerance (current + p) =
      (reactive rows tolerance current).map (Verdict.lifted · p) := by
  simp only [reactive, length_lifted, maxDeviation_lifted, keep_lifted, fit_lifted]
  split
  · rfl
  · cases rows.fit with
    | error fault => rfl
    | ok fitted =>
      cases fitted with
      | none => rfl
      | some plane => exact congrArg Except.ok (replace_lifted p plane rows)

theorem descend_lifted (n : Nat) (best : Option (Plane K)) (s : σ) :
    descend (track.lifted p) (now.lifted p) tolerance n (best.map (· + p)) s =
      (descend track now tolerance n best s).lifted p := by
  -- The best plane so far is lifted too, and changes on the way.
  induction n generalizing best s with
  | zero => rfl
  | succ n ih =>
    simp only [descend, rowsAt_lifted, Track.lifted_apply]
    rcases rowsAt track now n s with ⟨answer, next⟩
    cases answer with
    | error fault => rfl
    | ok there =>
      simp only [Except.map, length_lifted, fit_lifted]
      split
      · rfl
      · cases there.fit with
        | error fault => rfl
        | ok fitted =>
          cases fitted with
          | none => rfl
          | some plane =>
            simp only [Option.map, maxDeviation_lifted]
            split
            · rfl
            · exact ih (some plane) next

theorem search_lifted (plane : Plane K) (limit : Nat) (s : σ) :
    search (track.lifted p) (now.lifted p) tolerance (current + p) (plane + p) limit s =
      (search track now tolerance current plane limit s).lifted p := by
  unfold search
  -- The way up reads the same deviations, so that the way back starts at the same step.
  rw [climb_lifted]
  generalize climb track tolerance plane limit 0 s = up
  dsimp only
  cases up.ending with
  | failed fault => simp only [Outcome.lifted, climbNotes_lifted, Except.map]
  | exhausted =>
    simp only [Outcome.lifted, List.map_append, climbNotes_lifted, replace_lifted]
    rfl
  | left =>
    have hdown := descend_lifted p track now tolerance up.readings.length none up.state
    rw [Option.map_none] at hdown
    rw [hdown]
    generalize descend track now tolerance up.readings.length none up.state = down
    obtain ⟨ending, next⟩ := down
    dsimp only [Descent.lifted]
    cases ending with
    | failed fault => simp only [DescentEnd.lifted, Outcome.lifted, climbNotes_lifted, Except.map]
    | stopped steps best =>
      cases best with
      | none =>
        simp only [DescentEnd.lifted, Option.map_none, Outcome.lifted, climbNotes_lifted,
          keep_lifted]
        rfl
      | some best =>
        simp only [DescentEnd.lifted, Option.map_some, Outcome.lifted, List.map_append,
          climbNotes_lifted, replace_lifted]
        rfl

/-- The policy that looks ahead does the same on top of a plane, step by step. -/
theorem predictive_lifted (limit : Nat) (s : σ) (exceeds : K → Bool) :
    predictive (track.lifted p) (now.lifted p) tolerance (current + p) limit s exceeds =
      (predictive track now tolerance current limit s exceeds).lifted p := by
  have hkept : ((Verdict.keep current now).lifted p).deviation =
    (Verdict.keep current now).deviation := rfl
  simp only [predictive, keep_lifted, hkept, length_lifted, fit_lifted]
  split
  · rfl
  · cases now.fit with
    | error fault => rfl
    | ok fitted =>
      cases fitted with
      | none => rfl
      | some plane =>
        have hfresh : ((Verdict.replace plane now).lifted p).deviation =
          (Verdict.replace plane now).deviation := rfl
        simp only [Except.map, Option.map_some, replace_lifted, hfresh, search_lifted]
        split
        · rfl
        · split
          · rfl
          · rfl

variable (feed : Feed σ K) (center : Direction K) (interval : K) (limit : Nat) (s : σ)
  (exceeds : K → Bool)

theorem predictiveRequests_lifted :
    predictiveRequests (feed.lifted p) center interval (now.lifted p) tolerance (current + p)
        limit s exceeds =
      predictiveRequests feed center interval now tolerance current limit s exceeds := by
  rw [predictiveRequests, recorded_lifted, ofFeed_lifted, predictive_lifted]
  rfl

end Policies

section Corrected

variable {K : Type} [Field K] [LinearOrder K] [Circular K] (q : Plane K) (rows : Chunk K)

theorem map_subtract : rows.map q.subtract = rows.lifted ⟨-q.a, -q.b⟩ := by
  apply List.map_congr_left
  intro r _
  simp only [Plane.subtract, Plane.lift, Plane.height, Uvw.mk.injEq, true_and]
  ring

variable {q rows} in
theorem fit_corrected [IsStrictOrderedRing K] (h : rows.fit = .ok (some q)) :
    Chunk.fit (rows.map q.subtract) = .ok (some .level) := by
  have hlevel : q + ⟨-q.a, -q.b⟩ = .level := by
    change Plane.mk (q.a + -q.a) (q.b + -q.b) = Plane.mk 0 0
    rw [add_neg_cancel, add_neg_cancel]
  rw [map_subtract, fit_lifted, h, ← hlevel]
  rfl

end Corrected

/-- A plane under all rows, those of the source among them, and under the plane in use goes over
into every fit and into nothing else.  Both policies come to the same deviation with it, by the
same requests, and what they fit has it on top.  Without their best plane, rows fit the level
one. -/
theorem policies_ignore_plane {σ K : Type} [Field K] [LinearOrder K] [IsStrictOrderedRing K]
    [Circular K] (p : Plane K) :
    (∀ rows : Chunk K, (rows.lifted p).fit = rows.fit.map (Option.map (· + p))) ∧
      (∀ (rows : Chunk K) tolerance current,
        reactive (rows.lifted p) tolerance (current + p) =
          (reactive rows tolerance current).map (Verdict.lifted · p)) ∧
      (∀ (feed : Feed σ K) center interval (now : Chunk K) tolerance current limit s exceeds,
        predictive (.ofFeed (feed.lifted p) center interval) (now.lifted p) tolerance (current + p)
            limit s exceeds =
          (predictive (.ofFeed feed center interval) now tolerance current limit s
            exceeds).lifted p ∧
        predictiveRequests (feed.lifted p) center interval (now.lifted p) tolerance (current + p)
            limit s exceeds =
          predictiveRequests feed center interval now tolerance current limit s exceeds) ∧
      ∀ (rows : Chunk K) best, rows.fit = .ok (some best) →
        Chunk.fit (rows.map best.subtract) = .ok (some .level) := by
  refine ⟨?_, ?_, ?_, ?_⟩
  · intro rows
    exact fit_lifted p rows
  · intro rows tolerance current
    exact reactive_lifted p current tolerance rows
  · intro feed center interval now tolerance current limit s exceeds
    constructor
    · rw [ofFeed_lifted]
      exact predictive_lifted p current _ now tolerance limit s exceeds
    · exact predictiveRequests_lifted p current now tolerance feed center interval limit s exceeds
  · intro rows best h
    exact fit_corrected h

theorem policies_ignore_plane_tilting :
    let feed := (Feed.ofChunks tilting [] : Feed Unit ℚ).lifted ⟨1 / 2, -3⟩
    let now := (tilting ⟨0, 0⟩).lifted ⟨1 / 2, -3⟩
    (predictive (.ofFeed feed ⟨0, 0⟩ (1 / earthRotationRate)) now 250 ⟨11 / 2, -3⟩ 3 ()).result =
        .ok ⟨200, some ⟨5 / 2, -3⟩⟩ ∧
      predictiveRequests feed ⟨0, 0⟩ (1 / earthRotationRate) now 250 ⟨11 / 2, -3⟩ 3 ()
        (Scalar.less 250) = [⟨-1, 0⟩, ⟨-2, 0⟩, ⟨-3, 0⟩, ⟨-2, 0⟩] ∧
      skewed.fit = .ok (some ⟨2, -1⟩) ∧
      Chunk.fit (skewed.map (Plane.subtract ⟨2, -1⟩)) = .ok (some .level) := by
  intro feed now
  have hcurrent : (⟨11 / 2, -3⟩ : Plane ℚ) = ⟨5, 0⟩ + ⟨1 / 2, -3⟩ := by decide +kernel
  have hfit : skewed.fit = .ok (some ⟨2, -1⟩) := by decide +kernel
  obtain ⟨-, -, hpredictive, hcorrected⟩ := policies_ignore_plane (σ := Unit) (K := ℚ) ⟨1 / 2, -3⟩
  obtain ⟨houtcome, hrequests⟩ := hpredictive (Feed.ofChunks tilting []) ⟨0, 0⟩
    (1 / earthRotationRate) (tilting ⟨0, 0⟩) 250 ⟨5, 0⟩ 3 () (Scalar.less 250)
  rw [hcurrent]
  refine ⟨?_, ?_, hfit, hcorrected skewed _ hfit⟩
  · rw [houtcome]
    decide +kernel
  · rw [hrequests]
    decide +kernel

end Coplanar
