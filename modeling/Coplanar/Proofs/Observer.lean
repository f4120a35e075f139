import Mathlib.Data.List.Chain
import Coplanar.Proofs.Repetition
import Coplanar.Proofs.Reporting
import Coplanar.Proofs.Telling

/-! The residual check looks on.  A corrector that refuses rows out of tolerance comes to
the same planes as one that hands them out.  After a refusal it has nothing at hand and
fetches the rows again, where the other answers from what it has; but then it comes to
what it came to before. -/
namespace Coplanar

def Settings.checking {α : Type} (settings : Settings α) (check : Bool) : Settings α :=
  { settings with checkResidual := check }

def Scene.Raises {α : Type} (scene : Scene α) (fault : Fault α) : Prop :=
  (∃ d, scene.rows d = .error fault) ∨ scene.channels = .error fault

namespace Corrector

variable {ι σ K : Type} [Field K] [LinearOrder K] [Circular K]

/-- A row is handed out that is out of the tolerance reported with it. -/
def Oversteps (result : Except (Fault K) (Served K)) (tolerance? : Option K) : Prop :=
  ∃ served tolerance, result = .ok served ∧ tolerance? = some tolerance ∧
    ∃ r ∈ served.rows, tolerance ≤ |r.w|

/-- The same in all but the residual check and the rows at hand. -/
structure Twins (checked free : Corrector ι K) : Prop where
  settings : checked.settings = free.settings.checking true
  unchecked : free.settings.checkResidual = false
  plane : checked.plane = free.plane
  epoch : checked.epoch = free.epoch
  source : checked.source = free.source
  center : checked.center = free.center
  deviation : checked.deviation = free.deviation
  tolerance : checked.tolerance = free.tolerance

structure Refused (d : Direction K) (scene : Scene K) (c : Corrector ι K) (rows : Chunk K)
    (tolerance : K) (v : Verdict K) : Prop where
  outdated : c.current? = none
  center : c.center = some d
  chunk : scene.chunk c.settings.wTolerance d = .ok (rows, tolerance)
  opinion : c.opinion scene d rows tolerance = .ok v
  keeps : c.newPlane? v = none
  far : tolerance ≤ c.plane.maxDeviation rows
  deviation : c.deviation = some v.deviation
  tolerance : c.tolerance = some tolerance

/-- The rows at hand: the same ones, which are in tolerance, or on one side only, where the
other side has refused them. -/
inductive Held (d : Direction K) (scenes : ι → Scene K) (checked free : Corrector ι K) : Prop where
  | same (hcurrent : checked.current? = free.current?)
    (hwithin : ∀ served, free.current? = some served → ∃ tolerance,
      free.tolerance = some tolerance ∧ ∀ r ∈ served.rows, |r.w| < tolerance)
  | refused (source : ι) (rows : Chunk K) (tolerance : K) (v : Verdict K) (served : Served K)
    (hsource : checked.source = some source)
    (hrefused : Refused d (scenes source) checked rows tolerance v)
    (hcurrent : free.current? = some served) (hserved : served.rows = rows.map free.plane.subtract)

inductive Observed (wTolerance : K) (tolerance? : Option K) :
    (checked free : Except (Fault K) (Served K)) → Prop where
  | passed (result : Except (Fault K) (Served K)) (hwithin : ¬ Oversteps result tolerance?) :
    Observed wTolerance tolerance? result result
  | refused (served : Served K) (tolerance : K) (htolerance : tolerance? = some tolerance)
    (hover : Oversteps (.ok served) tolerance?) :
    Observed wTolerance tolerance?
      (.error (.toleranceExceeded served.rows.maxHeight wTolerance tolerance)) (.ok served)

omit [Circular K] in
theorem not_oversteps_error (fault : Fault K) (tolerance? : Option K) :
    ¬ Oversteps (.error fault) tolerance? := by
  rintro ⟨served, tolerance, hserved, -⟩
  cases hserved

theorem oversteps_iff {served : Served K} {tolerance : K} (hpos : 0 < tolerance) :
    Oversteps (.ok served) (some tolerance) ↔ tolerance ≤ served.rows.maxHeight := by
  rw [← not_lt, maxHeight_lt_iff hpos]
  simp [Oversteps]

theorem Observed.refusal {wTolerance : K} {tolerance? : Option K}
    {checked free : Except (Fault K) (Served K)} (h : Observed wTolerance tolerance? checked free)
    (hover : Oversteps free tolerance?) :
    ∃ served tolerance, free = .ok served ∧ tolerance? = some tolerance ∧
      checked = .error (.toleranceExceeded served.rows.maxHeight wTolerance tolerance) := by
  cases h with
  | passed _ hwithin => exact absurd hover hwithin
  | refused served tolerance htolerance _ => exact ⟨served, tolerance, rfl, htolerance, rfl⟩

theorem Observed.eq_of_within {wTolerance : K} {tolerance? : Option K}
    {checked free : Except (Fault K) (Served K)} (h : Observed wTolerance tolerance? checked free)
    (hwithin : ¬ Oversteps free tolerance?) : checked = free := by
  cases h with
  | passed _ _ => rfl
  | refused _ _ _ hover => exact absurd hover hwithin

omit [Field K] [LinearOrder K] [Circular K] in
theorem Twins.wTolerance {checked free : Corrector ι K} (h : Twins checked free) :
    checked.settings.wTolerance = free.settings.wTolerance := by
  rw [h.settings, Settings.checking]

theorem Twins.opinion_eq {checked free : Corrector ι K} (h : Twins checked free) (scene : Scene K)
    (d : Direction K) (rows : Chunk K) (tolerance : K) :
    checked.opinion scene d rows tolerance = free.opinion scene d rows tolerance := by
  simp only [opinion, judge, h.settings, h.plane, Settings.checking]

theorem Twins.adopt {checked free : Corrector ι K} (h : Twins checked free) (d : Direction K)
    (tolerance : K) (v : Verdict K) :
    Twins (checked.adopt d tolerance v) (free.adopt d tolerance v) := by
  simp only [Corrector.adopt, commit_eq, newPlane?, h.plane, h.epoch, h.source]
  exact ⟨h.settings, h.unchecked, rfl, rfl, rfl, rfl, rfl, rfl⟩

omit [Field K] [LinearOrder K] [Circular K] in
theorem Twins.holding {checked free : Corrector ι K} (h : Twins checked free)
    (cache cache' : Option (Served K)) :
    Twins { checked with cache := cache } { free with cache := cache' } :=
  ⟨h.settings, h.unchecked, h.plane, h.epoch, h.source, h.center, h.deviation, h.tolerance⟩

theorem current?_adopt (c : Corrector ι K) (d : Direction K) (tolerance : K) (v : Verdict K) :
    (c.adopt d tolerance v).current? = c.current? := by
  simp [current?]

theorem Refused.attend {c : Corrector ι K} {scene : Scene K} {d : Direction K} {rows : Chunk K}
    {tolerance : K} {v : Verdict K} (h : Refused d scene c rows tolerance v)
    (hcheck : c.settings.checkResidual = true) (identity : Nat) :
    c.attend scene d identity = (.error (c.objection rows tolerance), { c with isFresh := false }) := by
  have hadopt : c.adopt d tolerance v = { c with isFresh := false } := by
    rw [adopt_of_newPlane?_none h.keeps, ← h.center, ← h.deviation, ← h.tolerance]
  have hobjects : (c.adopt d tolerance v).passes rows tolerance = false := by
    rw [hadopt, passes_of_checked (by exact hcheck)]
    exact (less_eq_false_iff _ _).mpr h.far
  rw [attend_of_opinion_ok h.chunk h.opinion, deliver_of_objection hobjects, hadopt]
  rfl

theorem refused_adopt {c : Corrector ι K} {scene : Scene K} {d : Direction K} {rows : Chunk K}
    {tolerance : K} {v : Verdict K} (houtdated : c.current? = none)
    (hchunk : scene.chunk c.settings.wTolerance d = .ok (rows, tolerance))
    (hopinion : c.opinion scene d rows tolerance = .ok v)
    (hfar : tolerance ≤ (c.adopt d tolerance v).plane.maxDeviation rows) :
    ∃ v', Refused d scene (c.adopt d tolerance v) rows tolerance v' := by
  obtain ⟨v', hagain, hdeviation, hkeeps⟩ :=
    opinion_again hopinion (adopt_settings c d tolerance v) (plane_of_adopt ..)
  exact ⟨v', (current?_adopt ..).trans houtdated, adopt_center .., by rwa [adopt_settings], hagain,
    hkeeps, hfar, by rw [adopt_deviation, hdeviation], adopt_tolerance ..⟩

section Steps

variable [IsStrictOrderedRing K] {checked free : Corrector ι K} {d : Direction K}
  {scenes : ι → Scene K}

omit [IsStrictOrderedRing K] in
theorem Held.of_none (hchecked : checked.current? = none) (hfree : free.current? = none) :
    Held d scenes checked free :=
  .same (hchecked.trans hfree.symm) fun served hserved => by simp [hfree] at hserved

theorem chunk_tolerance_pos {scene : Scene K} {wTolerance tolerance : K} {rows : Chunk K}
    (hpos : 0 < wTolerance) (h : scene.chunk wTolerance d = .ok (rows, tolerance)) :
    0 < tolerance := by
  unfold Scene.chunk at h
  split at h
  · rename_i htolerance
    cases h
    cases hchannels : scene.channels with
    | error fault => simp [hchannels, Except.bind] at htolerance
    | ok channels =>
      rw [hchannels] at htolerance
      exact toleranceInMetres_pos hpos htolerance
  · cases h
  · cases h

omit [IsStrictOrderedRing K] in
theorem raises_of_chunk_error {scene : Scene K} {w deviation wTolerance tolerance : K}
    (h : scene.chunk w d = .error (.toleranceExceeded deviation wTolerance tolerance)) :
    scene.Raises (.toleranceExceeded deviation wTolerance tolerance) := by
  unfold Scene.chunk at h
  split at h
  · cases h
  · rename_i htolerance
    cases h
    refine .inr ?_
    cases hchannels : scene.channels with
    | error fault =>
      rw [hchannels] at htolerance
      cases htolerance
      rfl
    | ok channels =>
      rw [hchannels] at htolerance
      change toleranceInMetres w channels = _ at htolerance
      unfold toleranceInMetres at htolerance
      split at htolerance
      · cases htolerance
      · split at htolerance <;> cases htolerance
  · rename_i hrows
    cases h
    exact .inl ⟨d, hrows⟩

omit [IsStrictOrderedRing K] in
theorem fit_ne_exceeded (rows : Chunk K) {deviation wTolerance tolerance : K} :
    rows.fit ≠ .error (.toleranceExceeded deviation wTolerance tolerance) := by
  unfold Chunk.fit
  split
  · nofun
  · split <;> nofun

omit [IsStrictOrderedRing K] in
theorem Twins.deliver_eq (h : Twins checked free) (rows : Chunk K) (tolerance : K) (identity : Nat) :
    free.deliver rows tolerance identity =
        (.ok (free.serving rows identity), free.holding (free.serving rows identity)) ∧
      checked.deliver rows tolerance identity =
        if free.plane.maxDeviation rows < tolerance then
          (.ok (free.serving rows identity), checked.holding (free.serving rows identity))
        else
          (.error (.toleranceExceeded (free.plane.maxDeviation rows) free.settings.wTolerance
            tolerance), checked) := by
  have hpasses : checked.passes rows tolerance =
      Scalar.less (free.plane.maxDeviation rows) tolerance := by
    rw [passes_of_checked (by rw [h.settings]; rfl), h.plane]
  refine ⟨deliver_of_passes (by rw [passes, h.unchecked]; rfl) identity, ?_⟩
  split
  · rename_i hnear
    have hserving : checked.serving rows identity = free.serving rows identity := by
      rw [serving, serving, h.plane, h.epoch]
    rw [← hserving]
    exact deliver_of_passes (hpasses.trans ((less_iff _ _).mpr hnear)) identity
  · rename_i hfar
    rw [deliver_of_objection (hpasses.trans ((less_eq_false_iff _ _).mpr (not_lt.mp hfar))),
      objection, h.plane, h.settings]
    rfl

theorem Twins.deliver (h : Twins checked free) (hpos : 0 < free.settings.wTolerance)
    (hchecked : checked.current? = none) {source : ι} (hsource : checked.source = some source)
    {rows : Chunk K} {tolerance : K} {v : Verdict K}
    (hchunk : (scenes source).chunk checked.settings.wTolerance d = .ok (rows, tolerance))
    (hopinion : checked.opinion (scenes source) d rows tolerance = .ok v) (identity : Nat) :
    let a := (checked.adopt d tolerance v).deliver rows tolerance identity
    let b := (free.adopt d tolerance v).deliver rows tolerance identity
    Twins a.2 b.2 ∧ Held d scenes a.2 b.2 ∧
      Observed free.settings.wTolerance b.2.tolerance a.1 b.1 := by
  intro a b
  have hadopt : Twins (checked.adopt d tolerance v) (free.adopt d tolerance v) := h.adopt d tolerance v
  have htolerance : 0 < tolerance := chunk_tolerance_pos (by rwa [h.wTolerance]) hchunk
  have hreported : (free.adopt d tolerance v).tolerance = some tolerance := adopt_tolerance ..
  have hheight : ((free.adopt d tolerance v).serving rows identity).rows.maxHeight =
      (free.adopt d tolerance v).plane.maxDeviation rows := maxHeight_map_subtract ..
  have hover : Oversteps (.ok ((free.adopt d tolerance v).serving rows identity))
      (free.adopt d tolerance v).tolerance ↔
        tolerance ≤ (free.adopt d tolerance v).plane.maxDeviation rows := by
    rw [hreported, oversteps_iff htolerance, hheight]
  obtain ⟨hb, ha⟩ := hadopt.deliver_eq rows tolerance identity
  change b = _ at hb
  change a = _ at ha
  rw [hb]
  -- Rows that reach the tolerance are refused by the one that checks, and served by the other.
  rcases lt_or_ge ((free.adopt d tolerance v).plane.maxDeviation rows) tolerance with hnear | hfar
  · rw [if_pos hnear] at ha
    rw [ha]
    refine ⟨hadopt.holding _ _, .same ?_ fun served hserved => ?_, .passed _ ?_⟩
    · rw [current?_holding (congrArg Epoch.source hadopt.epoch.symm), current?_holding rfl]
    · rw [current?_holding rfl] at hserved
      cases hserved
      exact ⟨tolerance, hreported, (maxHeight_lt_iff htolerance).mp (hheight ▸ hnear)⟩
    · exact mt hover.mp (not_le.mpr hnear)
  · rw [if_neg (not_lt.mpr hfar), ← hheight, adopt_settings] at ha
    rw [ha]
    obtain ⟨v', hrefused⟩ := refused_adopt hchecked hchunk hopinion (hadopt.plane ▸ hfar)
    exact ⟨hadopt.holding _ _, .refused source rows tolerance v' _ ((adopt_source ..).trans hsource)
      hrefused (current?_holding rfl) rfl, .refused _ tolerance hreported (hover.mpr hfar)⟩

theorem Twins.attend (h : Twins checked free) (hpos : 0 < free.settings.wTolerance)
    (hchecked : checked.current? = none) (hfree : free.current? = none) {source : ι}
    (hsource : checked.source = some source) (identity : Nat) :
    let a := checked.attend (scenes source) d identity
    let b := free.attend (scenes source) d identity
    Twins a.2 b.2 ∧ Held d scenes a.2 b.2 ∧
      Observed free.settings.wTolerance b.2.tolerance a.1 b.1 := by
  have hwTolerance := h.wTolerance
  cases hchunk : (scenes source).chunk checked.settings.wTolerance d with
  | error fault =>
    rw [attend_of_chunk_error hchunk, attend_of_chunk_error (hwTolerance ▸ hchunk)]
    exact ⟨h, .of_none hchecked hfree, .passed _ (not_oversteps_error _ _)⟩
  | ok pair =>
    obtain ⟨rows, tolerance⟩ := pair
    cases hopinion : checked.opinion (scenes source) d rows tolerance with
    | error fault =>
      rw [attend_of_opinion_error hchunk hopinion, attend_of_opinion_error (hwTolerance ▸ hchunk)
        ((h.opinion_eq ..).symm.trans hopinion)]
      exact ⟨⟨h.settings, h.unchecked, h.plane, h.epoch, h.source, rfl, h.deviation, h.tolerance⟩,
        .of_none hchecked hfree, .passed _ (not_oversteps_error _ _)⟩
    | ok v =>
      rw [attend_of_opinion_ok hchunk hopinion, attend_of_opinion_ok (hwTolerance ▸ hchunk)
        ((h.opinion_eq ..).symm.trans hopinion)]
      exact h.deliver hpos hchecked hsource hchunk hopinion identity

omit [IsStrictOrderedRing K] in
theorem Twins.accepts_eq (h : Twins checked free) : checked.accepts d = free.accepts d := by
  simp only [accepts, h.center, h.settings, Settings.checking]

theorem Twins.correct (h : Twins checked free) (hpos : 0 < free.settings.wTolerance)
    (haccepts : free.accepts d = true) (hheld : Held d scenes checked free) (identity : Nat) :
    let a := checked.correctedRows sceneFeed (.ok d) identity scenes
    let b := free.correctedRows sceneFeed (.ok d) identity scenes
    Twins a.corrector b.corrector ∧ Held d scenes a.corrector b.corrector ∧
      Observed free.settings.wTolerance b.corrector.tolerance a.result b.result := by
  intro a b
  have haccepts' : checked.accepts d = true := h.accepts_eq.trans haccepts
  -- Both hold the same rows, or none, or else one has refused what the other one holds.
  cases hheld with
  | same hcurrent hwithin =>
    cases hfree : free.current? with
    | some served =>
      have ha : a = ⟨.ok served, checked, [], scenes⟩ :=
        correctedRows_of_current haccepts' (hcurrent.trans hfree) ..
      have hb : b = ⟨.ok served, free, [], scenes⟩ := correctedRows_of_current haccepts hfree ..
      rw [ha, hb]
      refine ⟨h, .same hcurrent hwithin, .passed _ ?_⟩
      rintro ⟨_, tolerance, hserved, htolerance, r, hr, hfar⟩
      cases hserved
      obtain ⟨_, htolerance', hnear⟩ := hwithin served hfree
      cases htolerance.symm.trans htolerance'
      exact absurd (hnear r hr) (not_lt.mpr hfar)
    | none =>
      have hchecked := hcurrent.trans hfree
      cases hsource : checked.source with
      | none =>
        have ha : a = ⟨.error .noSource, checked, [], scenes⟩ :=
          correctedRows_of_noSource haccepts' hchecked hsource ..
        have hb : b = ⟨.error .noSource, free, [], scenes⟩ :=
          correctedRows_of_noSource haccepts hfree (h.source.symm.trans hsource) ..
        rw [ha, hb]
        exact ⟨h, .same hcurrent hwithin, .passed _ (not_oversteps_error _ _)⟩
      | some source =>
        obtain ⟨haresult, hacorrector⟩ := correctedRows_of_shows haccepts' hchecked hsource
          (shows_sceneFeed source scenes) identity
        obtain ⟨hbresult, hbcorrector⟩ := correctedRows_of_shows haccepts hfree
          (h.source.symm.trans hsource) (shows_sceneFeed source scenes) identity
        rw [haresult, hacorrector, hbresult, hbcorrector]
        exact h.attend hpos hchecked hfree hsource identity
  | refused source rows tolerance v served hsource hrefused hcurrent hserved =>
    obtain ⟨haresult, hacorrector⟩ := correctedRows_of_shows haccepts' hrefused.outdated hsource
      (shows_sceneFeed source scenes) identity
    have hattend := hrefused.attend (by rw [h.settings]; rfl) identity
    have hb : b = ⟨.ok served, free, [], scenes⟩ := correctedRows_of_current haccepts hcurrent ..
    have hheight : served.rows.maxHeight = checked.plane.maxDeviation rows := by
      rw [hserved, maxHeight_map_subtract, h.plane]
    have hobjection : checked.objection rows tolerance =
        .toleranceExceeded served.rows.maxHeight free.settings.wTolerance tolerance := by
      rw [objection, hheight, h.wTolerance]
    have hreported : free.tolerance = some tolerance := h.tolerance.symm.trans hrefused.tolerance
    have hover : Oversteps (.ok served) free.tolerance := by
      rw [hreported, oversteps_iff (chunk_tolerance_pos (by rwa [h.wTolerance]) hrefused.chunk), hheight]
      exact hrefused.far
    rw [haresult, hacorrector, hattend, hb, hobjection]
    refine ⟨⟨h.settings, h.unchecked, h.plane, h.epoch, h.source, h.center, h.deviation,
      h.tolerance⟩, .refused source rows tolerance v served hsource ?_ hcurrent hserved,
      .refused served tolerance hreported hover⟩
    exact ⟨hrefused.outdated, hrefused.center, hrefused.chunk, hrefused.opinion, hrefused.keeps,
      hrefused.far, hrefused.deviation, hrefused.tolerance⟩

omit [IsStrictOrderedRing K] in
theorem raises_of_attend {c : Corrector ι K} {scene : Scene K} {identity : Nat}
    (hunchecked : c.settings.checkResidual = false) {deviation wTolerance tolerance : K}
    (h : (c.attend scene d identity).1 =
      .error (.toleranceExceeded deviation wTolerance tolerance)) :
    scene.Raises (.toleranceExceeded deviation wTolerance tolerance) := by
  cases hchunk : scene.chunk c.settings.wTolerance d with
  | error fault =>
    rw [attend_of_chunk_error hchunk] at h
    cases h
    exact raises_of_chunk_error hchunk
  | ok pair =>
    cases hopinion : c.opinion scene d pair.1 pair.2 with
    | error fault =>
      rw [attend_of_opinion_error hchunk hopinion] at h
      cases h
      obtain ⟨e, _, hrows⟩ | ⟨rows, hfit⟩ := judge_failed hopinion
      · exact .inl ⟨e, hrows⟩
      · exact absurd hfit (fit_ne_exceeded rows)
    | ok v =>
      have hpasses : (c.adopt d pair.2 v).passes pair.1 pair.2 = true := by
        rw [passes, adopt_settings, hunchecked]
        rfl
      rw [attend_of_opinion_ok hchunk hopinion, deliver_of_passes hpasses] at h
      cases h

omit [IsStrictOrderedRing K] in
theorem raises_of_exceeded {c : Corrector ι K} (hunchecked : c.settings.checkResidual = false)
    {identity : Nat} {deviation wTolerance tolerance : K}
    (h : (c.correctedRows sceneFeed (.ok d) identity scenes).result =
      .error (.toleranceExceeded deviation wTolerance tolerance)) :
    ∃ source, c.source = some source ∧
      (scenes source).Raises (.toleranceExceeded deviation wTolerance tolerance) := by
  cases haccepts : c.accepts d with
  | false => simp [correctedRows, rowsToward, haccepts] at h
  | true =>
    cases hcurrent : c.current? with
    | some served =>
      rw [correctedRows_of_current haccepts hcurrent] at h
      cases h
    | none =>
      cases hsource : c.source with
      | none =>
        rw [correctedRows_of_noSource haccepts hcurrent hsource] at h
        cases h
      | some source =>
        rw [(correctedRows_of_shows haccepts hcurrent hsource (shows_sceneFeed source scenes)
          identity).1] at h
        exact ⟨source, rfl, raises_of_attend hunchecked h⟩

end Steps

section Runs

variable [IsStrictOrderedRing K] [LawfulCircular K] {checked free : Corrector ι K}
  {d : Direction K}

omit [IsStrictOrderedRing K] [LawfulCircular K] in
theorem Held.duplicate {scenes : ι → Scene K} (h : Held d scenes checked free) (identity : Nat) :
    Held d scenes (checked.duplicate identity) (free.duplicate identity) := by
  cases h with
  | same hcurrent hwithin =>
    refine .same (by rw [current?_duplicate, current?_duplicate, hcurrent]) fun served hserved => ?_
    rw [current?_duplicate, Option.map_eq_some_iff] at hserved
    obtain ⟨original, horiginal, rfl⟩ := hserved
    exact hwithin original horiginal
  | refused source rows tolerance v served hsource hrefused hcurrent hserved =>
    refine .refused source rows tolerance v { served with identity := identity } hsource ?_
      (by rw [current?_duplicate, hcurrent]; rfl) hserved
    exact ⟨by rw [current?_duplicate, hrefused.outdated]; rfl, hrefused.center, hrefused.chunk,
      hrefused.opinion, hrefused.keeps, hrefused.far, hrefused.deviation, hrefused.tolerance⟩

omit [LawfulCircular K] in
theorem Twins.next (h : Twins checked free) (hpos : 0 < free.settings.wTolerance)
    (hchecked : Ready d checked) (hfree : Ready d free) {m : Moment ι (ι → Scene K) K}
    (htoward : m.Toward d) (hheld : ¬ m.Announces → Held d m.sources checked free) :
    Twins (checked.next sceneFeed m) (free.next sceneFeed m) ∧
      ∀ scenes, m.Announces ∨ m.sources = scenes →
        Held d scenes (checked.next sceneFeed m) (free.next sceneFeed m) := by
  obtain ⟨_, hcheckedLog⟩ := hchecked.coherent
  obtain ⟨_, hfreeLog⟩ := hfree.coherent
  obtain ⟨call, scenes⟩ := m
  cases call with
  | associate source =>
    refine ⟨⟨h.settings, h.unchecked, h.plane, ?_, rfl, h.center, h.deviation, h.tolerance⟩,
      fun _ _ => .of_none (hcheckedLog.current?_of_announced _ rfl rfl)
        (hfreeLog.current?_of_announced _ rfl rfl)⟩
    exact congrArg Epoch.sourceChanged h.epoch
  | notify =>
    refine ⟨⟨h.settings, h.unchecked, h.plane, ?_, h.source, h.center, h.deviation, h.tolerance⟩,
      fun _ _ => .of_none (hcheckedLog.current?_of_announced _ rfl rfl)
        (hfreeLog.current?_of_announced _ rfl rfl)⟩
    exact congrArg Epoch.sourceChanged h.epoch
  | duplicate identity =>
    have hquiet : ¬ (⟨.duplicate identity, scenes⟩ : Moment ι (ι → Scene K) K).Announces := by
      simp [Moment.Announces]
    refine ⟨h.holding _ _, fun _ hsame => ?_⟩
    rw [← hsame.resolve_left hquiet]
    exact (hheld hquiet).duplicate identity
  | correct tangentPoint identity =>
    obtain rfl := htoward _ _ rfl
    have hquiet : ¬ (⟨.correct (.ok d) identity, scenes⟩ : Moment ι (ι → Scene K) K).Announces := by
      simp [Moment.Announces]
    obtain ⟨htwins, hafter, -⟩ := h.correct hpos hfree.accepts (hheld hquiet) identity
    refine ⟨htwins, fun _ hsame => ?_⟩
    rw [← hsame.resolve_left hquiet]
    exact hafter

theorem run_twins (h : Twins checked free) (hpos : 0 < free.settings.wTolerance)
    (htangent : 0 < free.settings.tangentTolerance) (hchecked : Ready d checked)
    (hfree : Ready d free) {moments : List (Moment ι (ι → Scene K) K)}
    (htoward : ∀ m ∈ moments, m.Toward d) (hsteady : moments.IsChain Moment.Steady)
    (hheld : ∀ m ∈ moments.head?, ¬ m.Announces → Held d m.sources checked free) (n : Nat) :
    let checked' := checked.run sceneFeed (moments.take n)
    let free' := free.run sceneFeed (moments.take n)
    Twins checked' free' ∧ Ready d free' ∧
      ∀ m, moments[n]? = some m → ¬ m.Announces → Held d m.sources checked' free' := by
  induction n generalizing checked free moments with
  | zero => exact ⟨h, hfree, fun m hm => hheld m (by rw [List.head?_eq_getElem?]; exact hm)⟩
  | succ n ih =>
    cases moments with
    | nil => exact ⟨h, hfree, by simp⟩
    | cons m rest =>
      rw [List.forall_mem_cons] at htoward
      rw [List.isChain_cons] at hsteady
      obtain ⟨htwins, hafter⟩ := h.next hpos hchecked hfree htoward.1 (hheld m rfl)
      have htangent' : 0 < checked.settings.tangentTolerance := by
        rw [h.settings]
        exact htangent
      refine ih htwins (by rwa [next_settings]) (by rwa [next_settings])
        (hchecked.next htangent' sceneFeed htoward.1) (hfree.next htangent sceneFeed htoward.1)
        htoward.2 hsteady.2 fun m' hm' hquiet => hafter _ ?_
      obtain hannounces | hannounces | hsame := hsteady.1 m' hm'
      · exact .inl hannounces
      · exact absurd hannounces hquiet
      · exact .inr hsame

/-- Two runs through the same calls, whose sources show the same, one with the residual
check and one without.  After every step they agree on the plane, the epochs, the tangent
point, the deviation and the tolerance.  A correction is refused by the check exactly if the
other hands out a row that is out of tolerance; otherwise both end the same, and then it is
a source if anyone speaks of the tolerance. -/
theorem check_observes {τ : Type} (settings : Settings K) (hpos : 0 < settings.wTolerance)
    (htangent : 0 < settings.tangentTolerance) (d : Direction K) (feeds : ι → Feed σ K)
    (feeds' : ι → Feed τ K) (moments : List (Moment ι σ K)) (moments' : List (Moment ι τ K))
    (hsettled : ∀ m ∈ moments, m.Settled feeds) (hsettled' : ∀ m ∈ moments', m.Settled feeds')
    (hsame : moments.map (Moment.told feeds) = moments'.map (Moment.told feeds'))
    (htoward : ∀ m ∈ moments, m.Toward d)
    (hsteady : (moments.map (Moment.told feeds)).IsChain Moment.Steady) (n : Nat) :
    let checked := run feeds (create (settings.checking true)) (moments.take n)
    let free := run feeds' (create (settings.checking false)) (moments'.take n)
    (checked.plane = free.plane ∧ checked.epoch = free.epoch ∧ checked.center = free.center ∧
        checked.deviation = free.deviation ∧ checked.tolerance = free.tolerance) ∧
      ∀ m m' identity, moments[n]? = some m → moments'[n]? = some m' →
        m.call = .correct (.ok d) identity →
        let a := checked.correctedRows feeds (.ok d) identity m.sources
        let b := free.correctedRows feeds' (.ok d) identity m'.sources
        let oversteps := Oversteps b.result b.corrector.tolerance
        (oversteps → ∃ served tolerance, b.result = .ok served ∧
          b.corrector.tolerance = some tolerance ∧ a.result =
            .error (.toleranceExceeded served.rows.maxHeight settings.wTolerance tolerance)) ∧
        (¬ oversteps → a.result = b.result ∧ ∀ deviation wTolerance tolerance,
          a.result = .error (.toleranceExceeded deviation wTolerance tolerance) →
          ∃ source, free.source = some source ∧ ((feeds' source).scene m'.sources).Raises
            (.toleranceExceeded deviation wTolerance tolerance)) := by
  intro checked free
  have htaken : ∀ m ∈ moments.take n, m.Settled feeds :=
    fun m hm => hsettled m (List.mem_of_mem_take hm)
  have htaken' : ∀ m ∈ moments'.take n, m.Settled feeds' :=
    fun m hm => hsettled' m (List.mem_of_mem_take hm)
  have htoward' : ∀ m ∈ moments.map (Moment.told feeds), m.Toward d := by
    simp only [List.forall_mem_map]
    exact htoward
  have hcreated : Twins (create (settings.checking true)) (create (settings.checking false) :
      Corrector ι K) := ⟨rfl, rfl, rfl, rfl, rfl, rfl, rfl, rfl⟩
  have hready : ∀ check, Ready d (create (settings.checking check) : Corrector ι K) :=
    fun check => ⟨rfl, [], coherent_create _⟩
  obtain ⟨htwins, hfree, hheld⟩ := run_twins hcreated hpos htangent (hready true) (hready false)
    htoward' hsteady (fun _ _ _ => .of_none rfl rfl) n
  -- The feeds show the same scenes, and both runs are runs over those.
  have hchecked : checked = run sceneFeed (create (settings.checking true))
      ((moments.map (Moment.told feeds)).take n) := by
    rw [← List.map_take]
    exact run_told _ htaken
  have hfreed : free = run sceneFeed (create (settings.checking false))
      ((moments.map (Moment.told feeds)).take n) := by
    rw [hsame, ← List.map_take]
    exact run_told _ htaken'
  rw [← hchecked, ← hfreed] at htwins hheld
  rw [← hfreed] at hfree
  refine ⟨⟨htwins.plane, htwins.epoch, htwins.center, htwins.deviation, htwins.tolerance⟩, ?_⟩
  intro m m' identity hm hm' hcall a b oversteps
  have hsettings : free.settings = settings.checking false := run_settings ..
  have htold : m.told feeds = m'.told feeds' := eq_of_map_eq hsame hm hm'
  obtain ⟨-, -, hobserved⟩ := htwins.correct (by rwa [hsettings]) hfree.accepts
    (hheld (m.told feeds) (by simp [hm]) (by simp [Moment.Announces, Moment.told, hcall])) identity
  obtain ⟨haresult, -⟩ := checked.correctedRows_told (hsettled m (List.mem_of_getElem? hm)) (.ok d)
    identity
  obtain ⟨hbresult, hbcorrector⟩ := free.correctedRows_told
    (hsettled' m' (List.mem_of_getElem? hm')) (.ok d) identity
  rw [← haresult, htold, ← hbresult, ← hbcorrector] at hobserved
  have hwTolerance : free.settings.wTolerance = settings.wTolerance := by
    rw [hsettings, Settings.checking]
  refine ⟨fun hover => hwTolerance ▸ hobserved.refusal hover, fun hwithin => ?_⟩
  have hsameResult : a.result = b.result := hobserved.eq_of_within hwithin
  refine ⟨hsameResult, fun deviation wTolerance tolerance hexceeded => ?_⟩
  rw [hsameResult] at hexceeded
  exact raises_of_exceeded htwins.unchecked (hbresult.symm.trans hexceeded)

end Runs

def falteringMoments : List (Moment Unit Unit ℚ) :=
  [⟨.associate (some ()), ()⟩, ⟨.correct (.ok ⟨0, 0⟩) 0, ()⟩, ⟨.correct (.ok ⟨0, 0⟩) 1, ()⟩]

theorem check_observes_faltering :
    let feeds : Unit → Feed Unit ℚ := fun _ => faltering.feed
    let checked := run feeds (create (farsighted.checking true)) (falteringMoments.take 2)
    let free := run feeds (create (farsighted.checking false)) (falteringMoments.take 2)
    checked.current? = none ∧ free.plane = ⟨1, 0⟩ ∧ checked.plane = ⟨1, 0⟩ ∧
      (free.correctedRows feeds (.ok ⟨0, 0⟩) 1 ()).result =
        .ok ⟨[⟨100, 0, -50⟩, ⟨0, 100, 0⟩], 0, 1⟩ ∧
      (checked.correctedRows feeds (.ok ⟨0, 0⟩) 1 ()).result =
        .error (.toleranceExceeded 50 1 1) := by
  intro feeds checked free
  have hsettled : ∀ m ∈ falteringMoments, m.Settled feeds :=
    fun _ _ _ => Feed.shows_feed faltering _
  have htoward : ∀ m ∈ falteringMoments, m.Toward (⟨0, 0⟩ : Direction ℚ) := by
    simp [falteringMoments, Moment.Toward, eq_comm]
  have hsteady : (falteringMoments.map (Moment.told feeds)).IsChain Moment.Steady :=
    List.isChain_cons_cons.mpr ⟨.inl (.inl ⟨_, rfl⟩),
      List.isChain_cons_cons.mpr ⟨.inr (.inr rfl), .singleton _⟩⟩
  obtain ⟨⟨hplane, -⟩, h⟩ := check_observes farsighted (by decide +kernel) (by decide +kernel)
    ⟨0, 0⟩ feeds feeds falteringMoments falteringMoments hsettled hsettled rfl htoward hsteady 2
  have hfree : free.plane = ⟨1, 0⟩ := by decide +kernel
  have hserved : (free.correctedRows feeds (.ok ⟨0, 0⟩) 1 ()).result =
      .ok ⟨[⟨100, 0, -50⟩, ⟨0, 100, 0⟩], 0, 1⟩ := by decide +kernel
  have htolerance : (free.correctedRows feeds (.ok ⟨0, 0⟩) 1 ()).corrector.tolerance = some 1 := by
    decide +kernel
  obtain ⟨hrefusal, -⟩ := h _ _ 1 rfl rfl rfl
  obtain ⟨served, tolerance, hserved', htolerance', hresult⟩ := hrefusal
    ⟨_, 1, hserved, htolerance, ⟨100, 0, -50⟩, by decide, by decide +kernel⟩
  cases hserved.symm.trans hserved'
  cases htolerance.symm.trans htolerance'
  refine ⟨by decide +kernel, hfree, hplane.trans hfree, hserved, hresult.trans ?_⟩
  decide +kernel

end Corrector

end Coplanar
