import Coplanar.Proofs.Outputs
import Coplanar.Proofs.Turning

/-! The correction of a dataset, slice by slice.  Each row comes back at its own place,
turned to the tangent point and less the plane on record for its time; the planes on record
are new exactly when their number grows. -/
namespace Coplanar

/-- Every row of a time has as many coordinates as the first, or as are declared. -/
def Variable.IsRectangular {α : Type} (v : Variable α) : Prop :=
  ∀ steps, v.content.steps? = some steps → ∀ rows, some rows ∈ steps →
    ∀ row ∈ rows, (row.length : Int) = v.width rows

section Reading

variable {α : Type}

theorem readable_ne_nil {first : Option (List (List α))} {rest : List (Option (List (List α)))}
    {all : List (List (List α))} (h : Variable.readable (first :: rest) = .ok all) : all ≠ [] := by
  rintro rfl
  unfold Variable.readable at h
  rw [List.mapM_cons] at h
  cases first with
  | none => cases h
  | some rows => cases hrest : rest.mapM id <;> simp [hrest] at h

theorem read_natCast {v : Variable α} {times : List (Option (List (List α)))} {i : Nat}
    {reading : Reading α} (htimes : v.content.steps? = some times) (hi : i < times.length)
    (h : v.read (.integer i) = .ok reading) :
    (Variable.isUnselectable v.dims = false ∧
        ∃ rows, reading = .step rows ∧ times[i]? = some (some rows)) ∨
      ∃ all, reading = .steps all ∧ all ≠ [] := by
  unfold Variable.read at h
  simp only [htimes] at h
  split at h
  · -- The times cannot be told apart.
    obtain ⟨all, hall, rfl⟩ := map_eq_ok_iff.mp h
    obtain ⟨first, rest, rfl⟩ := List.exists_cons_of_length_pos (Nat.zero_lt_of_lt hi)
    exact .inr ⟨all, rfl, readable_ne_nil hall⟩
  · rename_i hselectable
    have hplace : Places.ofValue (α := α) times.length (.integer i) = .ok (.one i) := by
      simp [Places.ofValue, Places.find, place?_natCast hi, Except.map]
    simp only [hplace, Except.bind] at h
    split at h
    · cases h
    · cases h
    · rename_i rows hrows
      cases h
      exact .inl ⟨by simpa using hselectable, rows, rfl, hrows⟩

theorem slice_eq_ok [Scalar α] {d : Dataset α} {name : String} {v : Variable α}
    {center : Except (Fault α) (Direction α)} {time : Value α} {s : Slice α}
    (hv : d.get? name = some v) (h : d.slice name center time = .ok s) :
    ∃ reading channels c, v.read time = .ok reading ∧ d.frequencies = .ok channels ∧
      center = .ok c ∧
      s = match reading with
        | .step rows => .ofRows rows (v.width rows) c channels
        | .steps steps => .ofSteps steps (v.width steps.flatten) c channels := by
  obtain ⟨reading, hreading, hchannels⟩ := bind_eq_ok_iff.mp h
  obtain ⟨channels, hfrequencies, hcenter⟩ := bind_eq_ok_iff.mp hchannels
  obtain ⟨c, rfl, rfl⟩ := map_eq_ok_iff.mp hcenter
  rw [Dataset.read, hv] at hreading
  refine ⟨reading, channels, c, hreading, hfrequencies, rfl, ?_⟩
  rw [hv]
  cases reading <;> rfl

end Reading

namespace Correction

section Slices

variable {α : Type} [Quantity α] {d : Dataset α} {name : String} {old : Variable α}
  {times : List (Option (List (List α)))} {center : Except (Fault α) (Direction α)} {i : Nat}
  {s : Slice α} {baselines : Int} {p : Direction α} {settings : Settings α} {before : Standing α}
  {r : StepResult α}

theorem place_ofSteps {steps : List (List (List α))} (h : steps ≠ []) (width : Int)
    (c : Direction α) (channels : Nested α) (rows : Chunk α) :
    place baselines (Slice.ofSteps steps width c channels).valid rows = .error .outOfRange := by
  obtain ⟨first, rest, rfl⟩ := List.exists_cons_of_ne_nil h
  rfl

theorem exists_chunk_of_refine (hold : d.get? name = some old) (hrectangular : old.IsRectangular)
    (htimes : old.content.steps? = some times) (hi : i < times.length)
    (hslice : d.slice name center (.integer i) = .ok s)
    (hrefine : refine baselines p settings before s = .ok r) :
    ∃ c channels, ∃ chunk : Chunk α, center = .ok c ∧ d.frequencies = .ok channels ∧
      Variable.isUnselectable old.dims = false ∧ old.width (chunk.map Uvw.cells) = 3 ∧
      times[i]? = some (some (chunk.map Uvw.cells)) ∧ s = .ofChunk chunk c channels := by
  obtain ⟨reading, channels, c, hread, hchannels, rfl, hs⟩ := slice_eq_ok hold hslice
  obtain ⟨rows, tolerance, v, hrefined⟩ := refine_eq_ok_iff.mp hrefine
  obtain ⟨hselectable, cells, rfl, hcells⟩ | ⟨all, rfl, hall⟩ := read_natCast htimes hi hread
  · obtain ⟨served, hserved, -⟩ := map_eq_ok_iff.mp hrefined.rows_eq
    have hwidth : old.width cells = 3 := by
      rw [hs] at hserved
      by_contra hwidth
      simp [Slice.ofRows, Slice.served, hwidth] at hserved
    have hlength : ∀ row ∈ cells, row.length = 3 := fun row hrow => by
      have hrow := hrectangular times htimes cells (List.mem_of_getElem? hcells) row hrow
      omega
    obtain ⟨chunk, rfl⟩ := exists_chunk hlength
    refine ⟨c, channels, chunk, rfl, hchannels, hselectable, hwidth, hcells, hs.trans ?_⟩
    change Slice.ofRows _ (old.width _) c channels = _
    rw [Slice.ofRows, hwidth, Slice.served_cells, Slice.marks_cells, Slice.ofChunk]
  · have hplace := hrefined.place_eq
    rw [hs, place_ofSteps hall] at hplace
    cases hplace

theorem place_ofChunk (baselines : Int) (chunk : Chunk α) (c : Direction α) (channels : Nested α)
    (f : Uvw α → Uvw α) :
    place baselines (Slice.ofChunk chunk c channels).valid
        ((chunk.filter Uvw.isComplete).map f) =
      if (chunk.length : Int) = baselines then
        .ok (chunk.map fun q => if q.isComplete then (f q).cells else gap)
      else .error .outOfRange := by
  rw [place, Slice.ofChunk, marks?_ofList]
  simp only [List.length_map, spread_filter]

theorem rows_of_refine {chunk : Chunk α} {c : Direction α} {channels : Nested α}
    (h : refine baselines p settings before (.ofChunk chunk c channels) = .ok r) :
    (chunk.length : Int) = baselines ∧ r.rows = chunk.map fun q =>
      if q.isComplete then (r.plane.subtract ((Rotation.between c p).act q.u q.v q.w)).cells
      else gap := by
  obtain ⟨rows, tolerance, v, hrefined⟩ := refine_eq_ok_iff.mp h
  have hplace := hrefined.place_eq
  rw [← Except.ok.inj hrefined.rows_eq, List.map_map, place_ofChunk] at hplace
  split at hplace
  · rename_i hlength
    exact ⟨hlength, (Except.ok.inj hplace).symm⟩
  · cases hplace

/-- The rows of a time row by row: where a coordinate is missing nothing is known, and every
other row is turned from one direction to the other, less the plane. -/
structure Corrects (dataCenter imageCenter : Direction α) (cells : List (List α))
    (r : StepResult α) : Prop where
  length_eq : r.rows.length = cells.length
  missing : ∀ (b : Nat) row, cells[b]? = some row → hasMissing row = true → r.rows[b]? = some gap
  turned : ∀ (b : Nat) row, cells[b]? = some row → hasMissing row = false →
    ∃ u v w, row = [u, v, w] ∧
      let q := (Rotation.between dataCenter imageCenter).act u v w
      r.rows[b]? = some [q.u, q.v, q.w - (r.plane.a * q.u + r.plane.b * q.v)]

theorem corrects_of_refine {chunk : Chunk α} {c : Direction α} {channels : Nested α}
    (h : refine baselines p settings before (.ofChunk chunk c channels) = .ok r) :
    Corrects c p (chunk.map Uvw.cells) r := by
  obtain ⟨-, hrows⟩ := rows_of_refine h
  constructor
  · rw [hrows, List.length_map, List.length_map]
  · intro b row hrow hmissing
    rw [List.getElem?_map, Option.map_eq_some_iff] at hrow
    obtain ⟨q, hq, rfl⟩ := hrow
    have hincomplete : q.isComplete = false := by simp [Uvw.isComplete, hmissing]
    rw [hrows, List.getElem?_map, hq, Option.map_some, hincomplete]
    rfl
  · intro b row hrow hcomplete
    rw [List.getElem?_map, Option.map_eq_some_iff] at hrow
    obtain ⟨q, hq, rfl⟩ := hrow
    have hq' : q.isComplete = true := by simp [Uvw.isComplete, hcomplete]
    refine ⟨q.u, q.v, q.w, rfl, ?_⟩
    rw [hrows, List.getElem?_map, hq, Option.map_some, hq']
    rfl

theorem refineAll_getElem? {slices : List (Except (Fault α) (Slice α))}
    {results : List (StepResult α)}
    (h : refineAll baselines p settings before slices = .ok results) :
    results.length = slices.length ∧ ∀ (i : Nat) r, results[i]? = some r →
      ∃ (s : Slice α) (b : Standing α),
      slices[i]? = some (.ok s) ∧ (before :: results.map StepResult.standing)[i]? = some b ∧
        refine baselines p settings b s = .ok r := by
  induction slices generalizing before results with
  | nil =>
    cases h
    exact ⟨rfl, fun _ _ hr => by cases hr⟩
  | cons slice rest ih =>
    obtain ⟨s, rfl, hslice⟩ := bind_eq_ok_iff.mp h
    obtain ⟨first, hfirst, hothers⟩ := bind_eq_ok_iff.mp hslice
    obtain ⟨others, hrest, rfl⟩ := map_eq_ok_iff.mp hothers
    obtain ⟨hlength, hall⟩ := ih hrest
    refine ⟨congrArg (· + 1) hlength, fun i r hr => ?_⟩
    cases i with
    | zero =>
      cases hr
      exact ⟨s, before, rfl, rfl, hfirst⟩
    | succ i => exact hall i r hr

theorem standing_of_refine (h : refine baselines p settings before s = .ok r) :
    (r.plane = before.plane ∧ r.planes = before.planes) ∨
      (r.plane.same before.plane = false ∧ r.planes = before.planes + 1) := by
  obtain ⟨rows, tolerance, v, hrefined⟩ := refine_eq_ok_iff.mp h
  have hplane := hrefined.plane_eq
  have hplanes := hrefined.planes_eq
  cases hnew : (bare settings before).newPlane? v with
  | none =>
    rw [hnew] at hplane hplanes
    exact .inl ⟨hplane, hplanes⟩
  | some plane =>
    rw [hnew] at hplane hplanes
    have hother := (Option.filter_eq_some_iff.mp hnew).2
    obtain rfl : r.plane = plane := hplane
    exact .inr ⟨by simpa using hother, hplanes⟩

end Slices

section Complete

variable {K : Type} [Field K] [LinearOrder K] [Circular K] {s : Slice (Sample K)}
  {chunk rows : Chunk (Sample K)} {p : Direction (Sample K)}

theorem same_iff_of_isComplete {p q : Plane (Sample K)} (hp : p.IsComplete) (hq : q.IsComplete) :
    p.same q = true ↔ p = q := by
  obtain ⟨a, b⟩ := p
  obtain ⟨a', b'⟩ := q
  obtain ⟨⟨a, rfl⟩, ⟨b, rfl⟩⟩ := hp
  obtain ⟨⟨a', rfl⟩, ⟨b', rfl⟩⟩ := hq
  simp [Plane.same, Scalar.same, Sample.compare]

theorem toward_of_not_isFinite (hrows : s.rows = .ok chunk)
    (h : ¬ (s.center.IsFinite ∧ p.IsFinite)) (htoward : s.toward p = .ok rows) :
    ∀ r ∈ rows, ¬ r.IsComplete := by
  rw [Slice.toward, hrows] at htoward
  cases htoward
  intro r hr
  obtain ⟨q, -, rfl⟩ := List.mem_map.mp hr
  rw [Rotation.act_between_of_not_isFinite h]
  rintro ⟨hu, -⟩
  simp at hu

theorem idle_of_interval (hrows : s.rows = .ok chunk) {interval : Sample K}
    (h : ¬ interval.IsKnown) :
    (Track.ofFeed s.scene.feed p interval).Idle := by
  intro plane n _
  have hinterval : interval = .missing := (Sample.not_isKnown_iff _).mp h
  have hlost : ¬ (p.shift (Scalar.natural (n + 1) * stepAngle interval)).IsFinite := by
    rw [hinterval, stepAngle, Sample.mul_missing, Sample.mul_missing]
    rintro ⟨hra, -⟩
    rw [Direction.shift, Sample.add_missing] at hra
    cases hra
  obtain ⟨rows, htoward⟩ :
      ∃ rows, s.toward (p.shift (Scalar.natural (n + 1) * stepAngle interval)) = .ok rows :=
    ⟨_, by rw [Slice.toward, hrows]; rfl⟩
  exact ⟨rows, (), congrArg (·, ()) htoward, Plane.maxDeviation_of_incomplete_rows plane
    (toward_of_not_isFinite hrows (fun hboth => hlost hboth.2) htoward)⟩

variable [IsStrictOrderedRing K]

theorem toward_isComplete (hrows : s.rows = .ok chunk) (hchunk : ∀ r ∈ chunk, r.IsComplete)
    (hcenter : s.center.IsFinite) (hp : p.IsFinite) (htoward : s.toward p = .ok rows) :
    ∀ r ∈ rows, r.IsComplete := by
  rw [Slice.toward, hrows] at htoward
  cases htoward
  intro r hr
  obtain ⟨q, hq, rfl⟩ := List.mem_map.mp hr
  exact Rotation.act_between_isComplete hcenter hp (hchunk q hq)

theorem shift_isFinite (hp : p.IsFinite) {interval : Sample K} (h : interval.IsKnown) (n : Nat) :
    (p.shift (Scalar.natural n * stepAngle interval)).IsFinite := by
  obtain ⟨x, rfl⟩ := h
  obtain ⟨q, rfl⟩ := Direction.exists_known hp
  rw [stepAngle_known]
  exact ⟨(Sample.isFinite_iff _).mpr ⟨_, rfl⟩, (Sample.isFinite_iff _).mpr ⟨_, rfl⟩⟩

variable {c : Corrector (Slice (Sample K)) (Sample K)} {tolerance : Sample K}
  {v : Verdict (Sample K)} {plane : Plane (Sample K)}

theorem isComplete_of_opinion (hrows : s.rows = .ok chunk) (hchunk : ∀ r ∈ chunk, r.IsComplete)
    (htoward : s.toward p = .ok rows) (hopinion : c.opinion s.scene p rows tolerance = .ok v)
    (hplane : v.plane = some plane)
    (hsound : Scalar.less 0 tolerance = true ∨ s.center.IsFinite ∧ p.IsFinite) :
    plane.IsComplete := by
  by_cases hfinite : s.center.IsFinite ∧ p.IsFinite
  · have hnow := toward_isComplete hrows hchunk hfinite.1 hfinite.2 htoward
    unfold Corrector.opinion at hopinion
    cases hpredict : c.settings.predict with
    | false =>
      rw [Corrector.judge_of_reactive hpredict] at hopinion
      obtain rfl | ⟨fitted, hfit, rfl⟩ := reactive_cases hopinion
      · cases hplane
      · cases hplane
        exact (fit_isComplete_iff hfit).mpr hnow
    | true =>
      by_cases hinterval : c.settings.interval.IsKnown
      · obtain ⟨n, _, ahead, hahead, hfit⟩ := Corrector.fits_of_judge hopinion hplane
        rw [fit_isComplete_iff hfit]
        cases n with
        | zero =>
          cases hahead
          exact hnow
        | succ n =>
          exact toward_isComplete hrows hchunk hfinite.1
            (shift_isFinite hfinite.2 hinterval (n + 1))
            hahead
      · rw [Corrector.judge_of_predictive hpredict] at hopinion
        rw [fit_isComplete_iff (fit_of_idle (idle_of_interval hrows hinterval) hopinion hplane)]
        exact hnow
  · -- Then no row is complete, and every plane is within the tolerance.
    have hnone := toward_of_not_isFinite hrows hfinite htoward
    have hnear : Scalar.less (c.plane.maxDeviation rows) tolerance = true := by
      rw [Plane.maxDeviation_of_incomplete_rows c.plane hnone]
      exact hsound.resolve_right hfinite
    have hkeep := hopinion.symm.trans (Corrector.judge_of_near _ p () hnear)
    cases hkeep
    cases hplane

theorem standing_isComplete {settings : Settings (Sample K)} {before : Standing (Sample K)}
    [FloorRing K] [Roots K] {baselines : Int} {r : StepResult (Sample K)}
    (hrows : s.rows = .ok chunk)
    (hchunk : ∀ q ∈ chunk, q.IsComplete) (h : refine baselines p settings before s = .ok r)
    (hbefore : before.plane.IsComplete)
    (hsound : Scalar.less 0 settings.wTolerance = true ∨ s.center.IsFinite ∧ p.IsFinite) :
    r.plane.IsComplete := by
  obtain ⟨rows, tolerance, v, hrefined⟩ := refine_eq_ok_iff.mp h
  rw [hrefined.plane_eq]
  cases hnew : (bare settings before).newPlane? v with
  | none => exact hbefore
  | some plane =>
    refine isComplete_of_opinion hrows hchunk hrefined.rows_eq hrefined.opinion_eq
      (Option.filter_eq_some_iff.mp hnew).1 (hsound.imp_left fun hpositive => ?_)
    exact tolerance_pos hpositive hrefined.tolerance_eq

theorem residual_of_refine {settings : Settings (Sample K)} {before : Standing (Sample K)}
    [FloorRing K] [Roots K] {baselines : Int} {r : StepResult (Sample K)} {chunk : Chunk (Sample K)}
    {center : Direction (Sample K)} {channels : Nested (Sample K)}
    (h : refine baselines p settings before (.ofChunk chunk center channels) = .ok r)
    (hcheck : settings.checkResidual = true) :
    ∃ frequencies highest, channels.rectangular = .ok frequencies ∧
      highest? frequencies = some highest ∧ ∀ row ∈ r.rows, hasMissing row = false →
        ∃ u v w, row = [u, v, w] ∧
          Scalar.less (Scalar.abs w) (settings.wTolerance * speedOfLight / highest) = true := by
  obtain ⟨-, hplaced⟩ := rows_of_refine h
  obtain ⟨rows, tolerance, v, hrefined⟩ := refine_eq_ok_iff.mp h
  obtain ⟨frequencies, hfrequencies, htolerance⟩ := bind_eq_ok_iff.mp hrefined.tolerance_eq
  obtain ⟨highest, hhighest, -, rfl⟩ := toleranceInMetres_eq_ok htolerance
  refine ⟨frequencies, highest, hfrequencies, hhighest, fun row hrow hknown => ?_⟩
  rw [hplaced, List.mem_map] at hrow
  obtain ⟨q, hq, hrow⟩ := hrow
  cases hcomplete : q.isComplete with
  | false =>
    rw [hcomplete, if_neg (by decide)] at hrow
    rw [← hrow] at hknown
    cases hknown
  | true =>
    rw [hcomplete, if_pos rfl] at hrow
    let turned := (Rotation.between center p).act q.u q.v q.w
    have hmem : turned ∈ rows := by
      rw [← Except.ok.inj hrefined.rows_eq]
      exact List.mem_map_of_mem (List.mem_filter.mpr ⟨hq, hcomplete⟩)
    have hleft : (r.plane.subtract turned).IsComplete := by
      rw [← Uvw.isComplete_iff, Uvw.isComplete, hrow, hknown]
      rfl
    have hdeviation : (r.plane.deviation turned).IsKnown := by
      rw [← abs_subtract_w, Sample.abs_isKnown]
      exact hleft.2.2
    obtain ⟨hplane, hturned⟩ := (deviation_isKnown _ _).mp hdeviation
    refine ⟨_, _, _, hrow.symm, ?_⟩
    change Scalar.less (Scalar.abs (r.plane.subtract turned).w) _ = true
    rw [abs_subtract_w]
    exact Plane.deviation_less (hrefined.passes hcheck) hplane hmem hturned

end Complete

def history {α : Type} [Scalar α] (results : List (StepResult α)) : List (Standing α) :=
  .start :: results.map StepResult.standing

theorem slice_of_result {α : Type} [Quantity α] {d : Dataset α} {chosen : Resolved α}
    {old : Variable α} {times : List (Option (List (List α)))} {baselines : Int} {p : Direction α}
    {settings : Settings α} {results : List (StepResult α)} (hold : d.get? chosen.name = some old)
    (hrectangular : old.IsRectangular) (htimes : old.content.steps? = some times)
    (h : refineAll baselines p settings .start (slices d chosen times.length) = .ok results)
    {i : Nat} {r : StepResult α} (hr : results[i]? = some r) :
    ∃ (b : Standing α) (c : Direction α) (channels : Nested α) (chunk : Chunk α),
      (history results)[i]? = some b ∧ Direction.ofValue chosen.dataCenter = .ok c ∧
      d.frequencies = .ok channels ∧ times[i]? = some (some (chunk.map Uvw.cells)) ∧
      refine baselines p settings b (.ofChunk chunk c channels) = .ok r := by
  obtain ⟨s, b, hslice, hb, hrefine⟩ := (refineAll_getElem? h).2 i r hr
  rw [slices, List.getElem?_map, Option.map_eq_some_iff] at hslice
  obtain ⟨j, hj, hslice⟩ := hslice
  obtain ⟨hi, rfl⟩ : i < times.length ∧ i = j := by
    simpa [List.getElem?_eq_some_iff] using hj
  obtain ⟨c, channels, chunk, hc, hchannels, -, -, hcells, rfl⟩ :=
    exists_chunk_of_refine hold hrectangular htimes hi hslice hrefine
  exact ⟨b, c, channels, chunk, hb, hc, hchannels, hcells, hrefine⟩

section History

variable {K : Type} [Field K] [LinearOrder K] [IsStrictOrderedRing K] [FloorRing K] [Circular K]
  [Roots K]
  {d : Dataset (Sample K)} {chosen : Resolved (Sample K)} {old : Variable (Sample K)}
  {times : List (Option (List (List (Sample K))))} {baselines : Int} {p : Direction (Sample K)}
  {settings : Settings (Sample K)} {results : List (StepResult (Sample K))}

theorem history_isComplete (hold : d.get? chosen.name = some old)
    (hrectangular : old.IsRectangular) (htimes : old.content.steps? = some times)
    (h : refineAll baselines p settings .start (slices d chosen times.length) = .ok results)
    (hsound : Scalar.less 0 settings.wTolerance = true ∨
      ∃ c, Direction.ofValue chosen.dataCenter = .ok c ∧ c.IsFinite ∧ p.IsFinite)
    (i : Nat) {b : Standing (Sample K)} (hb : (history results)[i]? = some b) :
    b.plane.IsComplete := by
  induction i generalizing b with
  | zero =>
    cases hb
    exact isComplete_level
  | succ i ih =>
    rw [history, List.getElem?_cons_succ, List.getElem?_map, Option.map_eq_some_iff] at hb
    obtain ⟨r, hr, rfl⟩ := hb
    obtain ⟨before, c, channels, chunk, hbefore, hc, -, -, hrefine⟩ :=
      slice_of_result hold hrectangular htimes h hr
    refine standing_isComplete rfl (fun q hq => ?_) hrefine (ih hbefore)
      (hsound.imp_right fun ⟨c', hc', hfinite⟩ => ?_)
    · exact (Uvw.isComplete_iff q).mp (List.of_mem_filter hq)
    · rw [hc] at hc'
      cases hc'
      exact hfinite

end History

end Correction

open Correction in
/-- A dataset that is corrected has on record, for each time, rows of which each is that
very row turned from the center of the data to that of the image, less the plane on record,
and not known where a coordinate was missing.  From one time to the next, and from none
before the first, the number of planes stays with its plane or is one more with another:
it grows exactly when the plane is another, unless neither the tolerance nor the centers are
known.  Where the residual is checked, every row that is known is within the tolerance. -/
theorem corrected_slicewise {K : Type} [Field K] [LinearOrder K] [IsStrictOrderedRing K]
    [FloorRing K] [Circular K] [Roots K] (d new : Dataset (Sample K))
    (parameters selection : Value (Sample K))
    (settings : Settings (Sample K)) (chosen : Resolved (Sample K)) (old : Variable (Sample K))
    (haccepted : (Settings.ofParameters parameters).result = .ok settings)
    (hselects : d.Selects selection chosen) (hold : d.get? chosen.name = some old)
    (hrectangular : old.IsRectangular)
    (hnew : (d.correct parameters selection).result = .ok new) :
    ∃ (times : List (Option (List (List (Sample K))))) (results : List (StepResult (Sample K))),
      old.content.steps? = some times ∧ results.length = times.length ∧
      Records new chosen.outName results ∧
      (∀ (i : Nat) r, results[i]? = some r →
        ∃ (dataCenter imageCenter : Direction (Sample K)) (cells : List (List (Sample K))),
        Direction.ofValue chosen.dataCenter = .ok dataCenter ∧
        Direction.ofValue chosen.imageCenter = .ok imageCenter ∧
        times[i]? = some (some cells) ∧ Corrects dataCenter imageCenter cells r ∧
        (settings.checkResidual = true → ∃ frequencies highest,
          d.frequencies.bind Nested.rectangular = .ok frequencies ∧
          highest? frequencies = some highest ∧ ∀ row ∈ r.rows, hasMissing row = false →
            ∃ u v w, row = [u, v, w] ∧
              Scalar.less (Scalar.abs w) (settings.wTolerance * speedOfLight / highest) = true)) ∧
      ∀ (i : Nat) before after, (history results)[i]? = some before →
        (history results)[i + 1]? = some after →
        ((after.planes = before.planes ∧ after.plane = before.plane) ∨
          (after.planes = before.planes + 1 ∧ after.plane.same before.plane = false)) ∧
        (Scalar.less 0 settings.wTolerance = true ∨ (∃ dataCenter imageCenter,
            Direction.ofValue chosen.dataCenter = .ok dataCenter ∧ dataCenter.IsFinite ∧
            Direction.ofValue chosen.imageCenter = .ok imageCenter ∧ imageCenter.IsFinite) →
          (after.planes = before.planes + 1 ↔ after.plane ≠ before.plane)) := by
  rw [result_of_selects hselects haccepted, run_eq_ok_iff] at hnew
  obtain ⟨old', times, results, hold', htimes, -, hsteps, hassemble⟩ := hnew
  rw [hold] at hold'
  cases hold'
  obtain ⟨p, hpoint, hall⟩ := exists_refineAll hsteps
  have hlength : results.length = times.length := by
    rw [(refineAll_getElem? hall).1, slices, List.length_map, List.length_range]
  -- There is a point to turn to as soon as there is a time.
  have hcenter : ∀ (i : Nat) r, results[i]? = some r →
      Direction.ofValue chosen.imageCenter = .ok p := fun i r hr => by
    refine hpoint fun hnone => ?_
    rw [hnone] at hall
    cases hall
    cases hr
  refine ⟨times, results, htimes, hlength, records_of_assemble hassemble, fun i r hr => ?_,
    fun i before after hbefore hafter => ?_⟩
  · obtain ⟨b, c, channels, chunk, -, hc, hchannels, hcells, hrefine⟩ :=
      slice_of_result hold hrectangular htimes hall hr
    refine ⟨c, p, _, hc, hcenter i r hr, hcells, corrects_of_refine hrefine, fun hcheck => ?_⟩
    obtain ⟨frequencies, highest, hfrequencies, hrest⟩ := residual_of_refine hrefine hcheck
    exact ⟨frequencies, highest, by rw [hchannels]; exact hfrequencies, hrest⟩
  · have hafter' := hafter
    rw [history, List.getElem?_cons_succ, List.getElem?_map, Option.map_eq_some_iff] at hafter'
    obtain ⟨r, hr, rfl⟩ := hafter'
    obtain ⟨b, c, channels, chunk, hb, hc, -, -, hrefine⟩ :=
      slice_of_result hold hrectangular htimes hall hr
    rw [hbefore] at hb
    cases hb
    obtain ⟨hplane, hplanes⟩ | ⟨hplane, hplanes⟩ := standing_of_refine hrefine
    · refine ⟨.inl ⟨hplanes, hplane⟩, fun _ => iff_of_false ?_ fun hother => hother hplane⟩
      change r.planes ≠ before.planes + 1
      omega
    · refine ⟨.inr ⟨hplanes, hplane⟩, fun hsound => iff_of_true hplanes fun hsame => ?_⟩
      have hcomplete := history_isComplete hold hrectangular htimes hall
        (hsound.imp_right fun ⟨c', p', hc', hfinite, hp', hfinite'⟩ => ⟨c', hc', hfinite, by
          rw [hcenter i r hr] at hp'
          cases hp'
          exact hfinite'⟩)
      have hequal :=
        (same_iff_of_isComplete (hcomplete (i + 1) hafter) (hcomplete i hbefore)).mpr hsame
      exact Bool.false_ne_true (hplane.symm.trans hequal)

def alternating : Dataset (Sample ℚ) where
  entries :=
    [("UVW",
        { dims := ["time", "baseline", "uvw"], shape := [2, 3, 3]
          content := .cube
            [[[.known 100, .known 0, .known 50], [.known 0, .known 100, .known 0],
                [.known 10, .missing, .known 0]],
              [[.missing, .known 0, .known 50], [.known 0, .known 100, .known 0],
                [.known 100, .known 0, .known 50]]] }),
      ("chan", .along "chan" [.known 299792458])]
  coordinates := ["chan"]
  attributes := []

def oneWavelength : Value (Sample ℚ) := .dict [("w_tolerance", .real (.known 1))]

def originToOrigin : Value (Sample ℚ) :=
  .dict [("data_phase_center", originValue), ("image_phase_center", originValue)]

theorem corrected_slicewise_alternating :
    ∃ new results, (alternating.correct oneWavelength originToOrigin).result = .ok new ∧
      Correction.Records new "UVW_WPLANE" results ∧ results.length = 2 ∧
      ∀ r, results[0]? = some r → r.rows[2]? = some Correction.gap := by
  have haccepted : (Settings.ofParameters oneWavelength).result =
      .ok ⟨.known 1, true, false, .known 60, 1440, .known (1 / 1000000), false⟩ := by
    decide +kernel
  obtain ⟨new, hnew, -⟩ : ∃ new, (alternating.correct oneWavelength originToOrigin).result =
      .ok new ∧ () = () := map_eq_ok_iff.mp (by decide +kernel)
  obtain ⟨times, results, htimes, hlength, hrecords, hrows, -⟩ :=
    corrected_slicewise alternating new _ _ _ ⟨"UVW", "UVW_WPLANE", originValue, originValue⟩ _
      haccepted ⟨by decide +kernel, rfl⟩ rfl (by
        intro steps hsteps rows hmem
        cases hsteps
        fin_cases hmem <;> decide +kernel) hnew
  cases htimes
  refine ⟨new, results, hnew, hrecords, hlength, fun r hr => ?_⟩
  obtain ⟨dataCenter, imageCenter, cells, -, -, hcells, hcorrects, -⟩ := hrows 0 r hr
  cases hcells
  exact hcorrects.missing 2 _ rfl (by decide +kernel)

def lastTimeOut : Dataset (Sample ℚ) where
  entries :=
    [("UVW",
        { dims := ["time", "baseline", "uvw"], shape := [3, 2, 3]
          content := .cube
            [[[.known 100, .known 0, .known 0], [.known 0, .known 100, .known 0]],
              [[.known 100, .known 0, .known 0], [.known 0, .known 100, .known 0]],
              [[.missing, .known 0, .known 0], [.missing, .known 0, .known 0]]] }),
      ("chan", .along "chan" [.known 299792458])]
  coordinates := ["chan"]
  attributes := []

/-- Where neither the tolerance nor the center of the data is known, a plane of which
nothing is known takes the place of another one, and is counted. -/
theorem unknown_plane_counted_again :
    let parameters : Value (Sample ℚ) :=
      .dict [("w_tolerance", .real .missing), ("check_residual", .truth false)]
    let selection : Value (Sample ℚ) :=
      .dict [("data_phase_center", .list [.real .missing, .real (.known 0)]),
        ("image_phase_center", originValue)]
    ∃ new, (lastTimeOut.correct parameters selection).result = .ok new ∧
      ((new.get? Correction.epochName).map (·.content),
        (new.get? Correction.coefficientsName).map (·.content)) =
        (some (.counts [1, 2, 2]), some (.table (List.replicate 3 [.missing, .missing]))) :=
  map_eq_ok_iff.mp (by decide +kernel)

end Coplanar
