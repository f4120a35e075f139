import Coplanar.Proofs.Policies
import Coplanar.Proofs.Coherence

/-! What a corrector reports beside the rows it hands out.  Every call that comes to a
verdict writes a deviation and a tolerance, also one whose rows are refused, so the two
go with the rows at hand only while these are up to date. -/
namespace Coplanar

namespace Corrector

section Last

variable {ι σ α : Type} [Trig α] {feeds : ι → Feed σ α}

/-- The last call of the run that computes rows anew finds the corrector as `found`, and
computes them from `rows`.  Nothing is announced after it. -/
def LastRenewal (feeds : ι → Feed σ α) (c : Corrector ι α) (moments : List (Moment ι σ α))
    (found : Corrector ι α) (rows : Chunk α) : Prop :=
  ∃ before m after, moments = before ++ m :: after ∧ found = c.run feeds before ∧
    found.event? feeds m = some (.renewed rows) ∧ (found.next feeds m).events feeds after = []

theorem exists_lastRenewal {c : Corrector ι α} {moments : List (Moment ι σ α)} {rows : Chunk α}
    (h : (c.events feeds moments).getLast? = some (.renewed rows)) :
    ∃ found, LastRenewal feeds c moments found rows := by
  induction moments generalizing c with
  | nil => simp [events] at h
  | cons m rest ih =>
    rw [events, List.getLast?_append] at h
    by_cases hrest : (c.next feeds m).events feeds rest = []
    · refine ⟨c, [], m, rest, rfl, rfl, ?_, hrest⟩
      rw [hrest, List.getLast?_nil, Option.none_or] at h
      cases hevent : c.event? feeds m with
      | none => simp [hevent] at h
      | some event => simpa [hevent] using h
    · have hlast := List.getLast?_eq_some_getLast hrest
      rw [hlast, Option.some_or, ← hlast] at h
      obtain ⟨found, before, n, after, rfl, hfound, hrenewal⟩ := ih h
      exact ⟨found, m :: before, n, after, rfl, hfound, hrenewal⟩

def holding (c : Corrector ι α) (served : Served α) : Corrector ι α :=
  { c with cache := some served }

omit [Trig α] in
theorem holding_self {c : Corrector ι α} {served : Served α} (h : c.current? = some served) :
    c.holding served = c := by
  rw [current?_eq_some_iff] at h
  simp [holding, ← h.1]

omit [Trig α] in
theorem current?_holding {c : Corrector ι α} {served : Served α}
    (h : served.epoch = c.epoch.source) : (c.holding served).current? = some served :=
  (current?_eq_some_iff _ _).mpr ⟨rfl, h⟩

theorem next_of_quiet {c : Corrector ι α} {m : Moment ι σ α} {served : Served α}
    (hcurrent : c.current? = some served) (hquiet : c.event? feeds m = none) :
    ∃ identity, c.next feeds m = c.holding { served with identity := identity } := by
  obtain ⟨after, event, hafter, hevent, hstep⟩ := c.exists_step feeds m
  rw [hafter]
  -- A call that fetches finds nothing up to date.
  have hkeeps : ∀ {d s source rows tolerance next},
      ¬ c.Fetches feeds d s source rows tolerance next := fun hfetches => by
    simp [hfetches.outdated] at hcurrent
  cases hstep with
  | associated => simp [hquiet] at hevent
  | notified => simp [hquiet] at hevent
  | duplicated identity =>
    have hcache := ((current?_eq_some_iff _ _).mp hcurrent).1
    exact ⟨identity, by simp [duplicate, holding, hcache]⟩
  | corrected _ _ _ _ renewal _ hcourse =>
    cases hcourse with
    | refused => exact ⟨_, (holding_self hcurrent).symm⟩
    | answered => exact ⟨_, (holding_self hcurrent).symm⟩
    | undecided _ _ _ _ _ _ _ hfetches => exact absurd hfetches hkeeps
    | exceeded _ _ _ _ _ _ hdecides => exact absurd hdecides.fetches hkeeps
    | renewed _ _ _ _ _ _ hdecides => exact absurd hdecides.fetches hkeeps

theorem run_of_quiet {c : Corrector ι α} {moments : List (Moment ι σ α)} {served : Served α}
    (hcurrent : c.current? = some served) (hquiet : c.events feeds moments = []) :
    ∃ identity, c.run feeds moments = c.holding { served with identity := identity } := by
  induction moments generalizing c served with
  | nil => exact ⟨_, (holding_self hcurrent).symm⟩
  | cons m rest ih =>
    rw [events, List.append_eq_nil_iff, Option.toList_eq_nil_iff] at hquiet
    obtain ⟨identity, hnext⟩ := next_of_quiet hcurrent hquiet.1
    have hepoch := ((current?_eq_some_iff _ _).mp hcurrent).2
    have hheld : (c.next feeds m).current? = some { served with identity := identity } := by
      rw [hnext]
      exact current?_holding hepoch
    obtain ⟨other, hrest⟩ := ih hheld hquiet.2
    exact ⟨other, by rw [run_cons, hrest, hnext]; rfl⟩

theorem renewed_of_event {c : Corrector ι α} {m : Moment ι σ α} {rows : Chunk α}
    (h : c.event? feeds m = some (.renewed rows)) :
    ∃ tangentPoint identity d source tolerance s v,
      c.Decides feeds tangentPoint m.sources d source rows tolerance s v ∧
      (c.adopt d tolerance v).passes rows tolerance = true ∧
      c.next feeds m =
        (c.adopt d tolerance v).holding ((c.adopt d tolerance v).serving rows identity) := by
  obtain ⟨after, event, hafter, hevent, hstep⟩ := c.exists_step feeds m
  rw [h] at hevent
  rw [hafter]
  cases hstep with
  | associated => cases hevent
  | notified => cases hevent
  | duplicated => cases hevent
  | corrected tangentPoint identity _ _ _ _ hcourse =>
    cases hcourse with
    | refused => cases hevent
    | answered => cases hevent
    | undecided => cases hevent
    | exceeded => cases hevent
    | renewed d source _ tolerance s v hdecides hpasses =>
      cases hevent
      exact ⟨tangentPoint, identity, d, source, tolerance, s, v, hdecides, hpasses, rfl⟩

theorem LastRenewal.exists_verdict {c found : Corrector ι α} {moments : List (Moment ι σ α)}
    {rows : Chunk α} (h : LastRenewal feeds c moments found rows) :
    ∃ source d tolerance s v served,
      (found.judge (feeds source) d rows tolerance s).result = .ok v ∧
      (found.adopt d tolerance v).passes rows tolerance = true ∧
      served.rows = rows.map (found.adopt d tolerance v).plane.subtract ∧
      c.run feeds moments = (found.adopt d tolerance v).holding served := by
  obtain ⟨before, m, after, rfl, rfl, hevent, hafter⟩ := h
  obtain ⟨_, identity, d, source, tolerance, s, v, hdecides, hpasses, hnext⟩ :=
    renewed_of_event hevent
  have hcurrent : ((c.run feeds before).next feeds m).current? =
      some (((c.run feeds before).adopt d tolerance v).serving rows identity) := by
    rw [hnext]
    exact current?_holding rfl
  obtain ⟨other, hrun⟩ := run_of_quiet hcurrent hafter
  refine ⟨source, d, tolerance, s, v,
    { ((c.run feeds before).adopt d tolerance v).serving rows identity with identity := other },
    hdecides.judge_eq, hpasses, rfl, ?_⟩
  rw [run_append, run_cons, hrun, hnext]
  rfl

end Last

section Reports

variable {ι σ K : Type} [Field K] [LinearOrder K] [Circular K]

/-- Looking ahead, the policy gives up on the rows at once: the plane in use is out of
tolerance, and so is the plane that fits them. -/
def GivesUp (c : Corrector ι K) (rows : Chunk K) (tolerance : K) : Prop :=
  c.settings.predict = true ∧ tolerance ≤ c.plane.maxDeviation rows ∧
    ∃ fresh, rows.plane? = some fresh ∧ tolerance < fresh.maxDeviation rows

theorem judge_of_givesUp {c : Corrector ι K} {rows : Chunk K} {tolerance : K}
    (h : c.GivesUp rows tolerance) (feed : Feed σ K) (d : Direction K) (s : σ) :
    ∃ fresh, rows.plane? = some fresh ∧ tolerance < fresh.maxDeviation rows ∧
      (c.judge feed d rows tolerance s).result = .ok ⟨fresh.maxDeviation rows, none⟩ := by
  obtain ⟨hpredict, hfar, fresh, hfit, hpoor⟩ := h
  have hfew := not_few_of_plane? hfit
  have hplane := (plane?_eq_some_iff _ _).mp hfit
  refine ⟨fresh, hfit, hpoor, ?_⟩
  rw [judge_of_predictive hpredict]
  simp [predictive, Verdict.keep, Verdict.replace, not_lt.mpr hfar, hfew, hplane, hpoor]

theorem deviation_of_judge {c : Corrector ι K} {feed : Feed σ K} {d : Direction K}
    {rows : Chunk K} {tolerance : K} {s : σ} {v : Verdict K}
    (h : (c.judge feed d rows tolerance s).result = .ok v) (hclear : ¬ c.GivesUp rows tolerance) :
    v.deviation = (c.adopt d tolerance v).plane.maxDeviation rows := by
  rw [plane_of_adopt]
  cases hpredict : c.settings.predict with
  | true =>
    rw [judge_of_predictive hpredict] at h
    obtain rfl | ⟨fresh, hfit, rfl, hpoor, hfar⟩ | ⟨plane, -, rfl⟩ := predictive_cases h
    · rfl
    · rw [less_iff] at hpoor
      rw [less_eq_false_iff] at hfar
      exact absurd ⟨hpredict, hfar, fresh, plane?_of_fit hfit, hpoor⟩ hclear
    · rfl
  | false =>
    rw [judge_of_reactive hpredict] at h
    obtain rfl | ⟨plane, -, rfl⟩ := reactive_cases h
    · rfl
    · rfl

variable [IsStrictOrderedRing K]

/-- What is reported of the rows at hand, while they are up to date.  It is their largest
distance from the plane in use, unless the policy gave up on them; in any case it is on
the same side of the tolerance. -/
theorem fitted_deviation (settings : Settings K) (feeds : ι → Feed σ K)
    (moments : List (Moment ι σ K)) :
    let c : Corrector ι K := run feeds (create settings) moments
    c.phase = .fitted →
    ∃ served deviation tolerance found rows,
      c.cache = some served ∧ c.deviation = some deviation ∧ c.tolerance = some tolerance ∧
      LastRenewal feeds (create settings) moments found rows ∧
      (deviation < tolerance ↔ served.rows.maxHeight < tolerance) ∧
      (settings.checkResidual = true → served.rows.maxHeight < tolerance) ∧
      (¬ found.GivesUp rows tolerance → deviation = served.rows.maxHeight) ∧
      (found.GivesUp rows tolerance → settings.checkResidual = false ∧ c.plane = found.plane ∧
        (∃ fresh, rows.plane? = some fresh ∧ deviation = fresh.maxDeviation rows) ∧
        tolerance < deviation ∧ tolerance ≤ served.rows.maxHeight) := by
  intro c hfitted
  obtain ⟨rows, hlast⟩ := (coherent_run settings feeds moments).fitted_iff.mp hfitted
  obtain ⟨found, hrenewal⟩ := exists_lastRenewal hlast
  obtain ⟨source, d, tolerance, s, v, served, hjudge, hpasses, hrows, hrun⟩ :=
    hrenewal.exists_verdict
  have hheight : served.rows.maxHeight =
      (found.adopt d tolerance v).plane.maxDeviation rows := by
    rw [hrows, maxHeight_map_subtract]
  have hsettings : (found.adopt d tolerance v).settings = settings := by
    obtain ⟨before, -, -, -, rfl, -⟩ := hrenewal
    simp [create]
  have hc : c = (found.adopt d tolerance v).holding served := hrun
  have hcache : c.cache = some served := by rw [hc, holding]
  have hplane : c.plane = (found.adopt d tolerance v).plane := by rw [hc, holding]
  have hdeviation : c.deviation = some v.deviation := by rw [hc, holding, adopt_deviation]
  have htolerance : c.tolerance = some tolerance := by rw [hc, holding, adopt_tolerance]
  refine ⟨served, v.deviation, tolerance, found, rows, hcache, hdeviation, htolerance, hrenewal, ?_,
    fun hcheck => ?_, fun hclear => ?_, fun hgivesUp => ?_⟩
  · rw [hheight, adopt_less_iff hjudge]
  · rw [hheight]
    rwa [passes_of_checked (by rw [hsettings, hcheck]), less_iff] at hpasses
  · rw [hheight, deviation_of_judge hjudge hclear]
  · obtain ⟨fresh, hfit, hpoor, hverdict⟩ := judge_of_givesUp hgivesUp (feeds source) d s
    obtain rfl : v = ⟨fresh.maxDeviation rows, none⟩ := Except.ok.inj (hjudge.symm.trans hverdict)
    have hkept : (found.adopt d tolerance ⟨fresh.maxDeviation rows, none⟩).plane = found.plane :=
      plane_of_adopt ..
    have hfar : tolerance ≤ served.rows.maxHeight := by
      rw [hheight, hkept]
      exact hgivesUp.2.1
    refine ⟨?_, hplane.trans hkept, ⟨fresh, hfit, rfl⟩, hpoor, hfar⟩
    by_contra hcheck
    rw [Bool.not_eq_false] at hcheck
    rw [passes_of_checked (by rw [hsettings, hcheck]), less_iff, ← hheight] at hpasses
    exact absurd hpasses (not_lt.mpr hfar)

def peak : Chunk ℚ := [⟨100, 0, 0⟩, ⟨0, 100, 0⟩, ⟨50, 50, 60⟩]

def peakFeeds (_ : Unit) : Feed Unit ℚ := .ofChunks (fun _ => peak) [299792458]

def lenient : Settings ℚ := ⟨1, false, true, 6, 10, 1 / 1000000, false⟩

def peakMoments : List (Moment Unit Unit ℚ) :=
  [⟨.associate (some ()), ()⟩, ⟨.correct (.ok ⟨0, 0⟩) 0, ()⟩]

theorem fitted_deviation_peak :
    (run peakFeeds (create lenient) peakMoments).phase = .fitted ∧
      ∃ served found rows,
        (run peakFeeds (create lenient) peakMoments).cache = some served ∧
        (run peakFeeds (create lenient) peakMoments).deviation = some 40 ∧
        served.rows.maxHeight = 60 ∧
        LastRenewal peakFeeds (create lenient) peakMoments found rows ∧ found.GivesUp rows 1 := by
  have hfitted : (run peakFeeds (create lenient) peakMoments).phase = .fitted := by decide +kernel
  have hcache : (run peakFeeds (create lenient) peakMoments).cache =
      some ⟨peak, 0, 1⟩ := by decide +kernel
  have hreported : (run peakFeeds (create lenient) peakMoments).deviation = some 40 ∧
      (run peakFeeds (create lenient) peakMoments).tolerance = some 1 := by decide +kernel
  have hheight : peak.maxHeight = 60 := by decide +kernel
  obtain ⟨served, deviation, tolerance, found, rows, hserved, hdeviation, htolerance, hrenewal, -, -,
    hclear, -⟩ := fitted_deviation lenient peakFeeds peakMoments hfitted
  obtain rfl : ⟨peak, 0, 1⟩ = served := Option.some.inj (hcache.symm.trans hserved)
  obtain rfl : 40 = deviation := Option.some.inj (hreported.1.symm.trans hdeviation)
  obtain rfl : 1 = tolerance := Option.some.inj (hreported.2.symm.trans htolerance)
  have hne : (40 : ℚ) ≠ peak.maxHeight := by
    rw [hheight]
    decide
  exact ⟨hfitted, _, found, rows, hcache, hdeviation, hheight, hrenewal,
    not_not.mp (mt hclear hne)⟩

end Reports

end Corrector

end Coplanar
