import Coplanar.Proofs.Coherence
import Coplanar.Proofs.Missing
import Coplanar.Proofs.Policies

/-! What the residual check is worth.  Rows that are handed out have passed it, with the
plane and tolerance of now.  With missing coordinates that says something of a complete
row only if the plane is complete, which it is until a call takes over a plane fitted to
rows with a gap, and never after. -/
namespace Coplanar

namespace Corrector

theorem judge_of_near {ι σ α : Type} [Scalar α] {c : Corrector ι α} (feed : Feed σ α)
    (d : Direction α) {rows : Chunk α} {tolerance : α} (s : σ)
    (hless : Scalar.less (c.plane.maxDeviation rows) tolerance = true) :
    (c.judge feed d rows tolerance s).result = .ok (.keep c.plane rows) := by
  cases hpredict : c.settings.predict with
  | true => simp [judge_of_predictive hpredict, predictive, Verdict.keep, hless]
  | false => simp [judge_of_reactive hpredict, reactive, Verdict.keep, hless]

section Checked

variable {ι σ α : Type} [Trig α]

structure Checked (log : List (Event α)) (c : Corrector ι α) : Prop where
  coherent : Coherent log c
  passed : ∀ rows, log.getLast? = some (.renewed rows) →
    ∃ tolerance, c.tolerance = some tolerance ∧ c.passes rows tolerance = true

theorem checked_create (settings : Settings α) : Checked [] (create settings : Corrector ι α) :=
  ⟨coherent_create settings, by simp⟩

theorem Checked.next {log : List (Event α)} {c : Corrector ι α} (feeds : ι → Feed σ α)
    (m : Moment ι σ α) (h : Checked log c) :
    Checked (log ++ (c.event? feeds m).toList) (c.next feeds m) := by
  refine ⟨h.coherent.next feeds m, ?_⟩
  obtain ⟨after, event, hafter, hevent, hstep⟩ := c.exists_step feeds m
  rw [hafter, hevent]
  cases hstep with
  | associated source => simp
  | notified => simp
  | duplicated identity =>
    rw [Option.toList_none, List.append_nil]
    exact h.passed
  | corrected _ _ _ _ _ _ hcourse =>
    cases hcourse with
    | refused => simpa using h.passed
    | answered => simpa using h.passed
    | undecided d =>
      rw [Option.map_none, Option.toList_none, List.append_nil]
      exact h.passed
    | exceeded d source rows tolerance next v hdecides =>
      -- The tolerance may be another now, but no rows are up to date.
      have houtdated : ∀ rows, log.getLast? ≠ some (.renewed rows) := fun rows hrows => by
        obtain ⟨served, hserved⟩ := h.coherent.current rows hrows
        simp [hdecides.fetches.outdated] at hserved
      simpa using fun rows hrows => absurd hrows (houtdated rows)
    | renewed d source rows tolerance next v hdecides hpasses =>
      intro other hother
      obtain rfl : rows = other := by simpa using hother
      exact ⟨tolerance, adopt_tolerance .., hpasses⟩

theorem checked_run (settings : Settings α) (feeds : ι → Feed σ α)
    (moments : List (Moment ι σ α)) :
    Checked (events feeds (create settings) moments) (run feeds (create settings) moments) := by
  have h := run_induction feeds (P := Checked) (fun _ _ m h => h.next feeds m)
    (checked_create settings) moments
  simpa using h

end Checked

section Gaps

variable {ι σ K : Type} [Field K] [LinearOrder K] [Circular K]

/-- The plane fits rows with a gap that the track shows at some step, be it those of
now. -/
def FitsGap (track : Track σ (Sample K)) (now : Chunk (Sample K)) (plane : Plane (Sample K)) : Prop :=
  ∃ n s rows, (rowsAt track now n s).1 = .ok rows ∧ rows.fit = .ok (some plane) ∧
    ∃ r ∈ rows, ¬ r.IsComplete

def TakesGap (feeds : ι → Feed σ (Sample K)) (c : Corrector ι (Sample K))
    (m : Moment ι σ (Sample K)) : Prop :=
  (c.next feeds m).plane ≠ c.plane ∧
    ∃ d identity source rows tolerance s, m.call = .correct (.ok d) identity ∧
      c.Fetches feeds d m.sources source rows tolerance s ∧
      FitsGap (.ofFeed (feeds source) d c.settings.interval) rows (c.next feeds m).plane

theorem judge_of_incomplete {c : Corrector ι (Sample K)} (feed : Feed σ (Sample K))
    (d : Direction (Sample K)) (rows : Chunk (Sample K)) {tolerance : Sample K} (s : σ)
    (hplane : ¬ c.plane.IsComplete) (htolerance : Scalar.less 0 tolerance = true) :
    (c.judge feed d rows tolerance s).result = .ok (.keep c.plane rows) := by
  refine judge_of_near feed d s ?_
  rwa [Plane.maxDeviation_of_incomplete hplane]

variable [IsStrictOrderedRing K]

theorem FitsGap.not_isComplete {track : Track σ (Sample K)} {now : Chunk (Sample K)}
    {plane : Plane (Sample K)} (h : FitsGap track now plane) : ¬ plane.IsComplete := by
  obtain ⟨n, s, rows, -, hfit, r, hmem, hr⟩ := h
  rw [fit_isComplete_iff hfit]
  exact fun hall => hr (hall r hmem)

theorem next_isComplete_iff {feeds : ι → Feed σ (Sample K)} {c : Corrector ι (Sample K)}
    (hplane : c.plane.IsComplete) (m : Moment ι σ (Sample K)) :
    (c.next feeds m).plane.IsComplete ↔ ¬ TakesGap feeds c m := by
  constructor
  · rintro hnext ⟨-, d, identity, source, rows, tolerance, s, -, -, hgap⟩
    exact hgap.not_isComplete hnext
  · intro hgap
    by_contra hnext
    have hne : (c.next feeds m).plane ≠ c.plane := fun h => hnext (h ▸ hplane)
    obtain hsame | ⟨tangentPoint, identity, d, source, rows, tolerance, s, v, hcall, hdecides, hnew⟩ :=
      c.next_plane_cases feeds m
    · exact hne hsame
    · rw [hdecides.point_eq] at hcall
      have hv := (Option.filter_eq_some_iff.mp hnew).1
      obtain ⟨n, s', shown, hshown, hfit⟩ := fits_of_judge hdecides.judge_eq hv
      rw [fit_isComplete_iff hfit] at hnext
      push Not at hnext
      exact hgap ⟨hne, d, identity, source, rows, tolerance, s, hcall, hdecides.fetches, n, s', shown,
        hshown, hfit, hnext⟩

theorem next_of_incomplete {feeds : ι → Feed σ (Sample K)} {c : Corrector ι (Sample K)}
    (hpositive : Scalar.less 0 c.settings.wTolerance = true) (hplane : ¬ c.plane.IsComplete)
    (m : Moment ι σ (Sample K)) : (c.next feeds m).plane = c.plane := by
  obtain hsame | ⟨tangentPoint, identity, d, source, rows, tolerance, s, v, hcall, hdecides, hnew⟩ :=
    c.next_plane_cases feeds m
  · exact hsame
  · have htolerance := tolerance_pos hpositive hdecides.fetches.tolerance_eq
    have hkeep := hdecides.judge_eq.symm.trans (judge_of_incomplete _ d rows s hplane htolerance)
    cases hkeep
    simp [newPlane?, Verdict.keep] at hnew

theorem run_of_incomplete {feeds : ι → Feed σ (Sample K)} {c : Corrector ι (Sample K)}
    (hpositive : Scalar.less 0 c.settings.wTolerance = true) (hplane : ¬ c.plane.IsComplete)
    (moments : List (Moment ι σ (Sample K))) : (c.run feeds moments).plane = c.plane := by
  induction moments generalizing c with
  | nil => rfl
  | cons m rest ih =>
    have hnext : (c.next feeds m).plane = c.plane := next_of_incomplete hpositive hplane m
    rw [run_cons, ih (by rwa [next_settings]) (by rwa [hnext]), hnext]

theorem run_isComplete_iff {feeds : ι → Feed σ (Sample K)} {c : Corrector ι (Sample K)}
    (hpositive : Scalar.less 0 c.settings.wTolerance = true) (hplane : c.plane.IsComplete)
    (moments : List (Moment ι σ (Sample K))) :
    (c.run feeds moments).plane.IsComplete ↔
      ∀ before m after, moments = before ++ m :: after →
        ¬ TakesGap feeds (c.run feeds before) m := by
  induction moments generalizing c with
  | nil => simpa using hplane
  | cons m rest ih =>
    rw [run_cons]
    by_cases hgap : TakesGap feeds c m
    · have hnext : ¬ (c.next feeds m).plane.IsComplete := by
        rw [next_isComplete_iff hplane]
        exact not_not.mpr hgap
      refine iff_of_false ?_ fun h => h [] m rest rfl hgap
      rwa [run_of_incomplete (by rwa [next_settings]) hnext]
    · rw [ih (by rwa [next_settings]) ((next_isComplete_iff hplane m).mpr hgap)]
      constructor
      · intro h before n after hsplit
        cases before with
        | nil =>
          obtain ⟨rfl, rfl⟩ := List.cons.inj hsplit
          exact hgap
        | cons first before =>
          obtain ⟨rfl, hrest⟩ := List.cons.inj hsplit
          exact h before n after hrest
      · intro h before n after hsplit
        exact h (m :: before) n after (congrArg (m :: ·) hsplit)

theorem within_iff_of_passed {p : Plane (Sample K)} {rows : Chunk (Sample K)} {tolerance : Sample K}
    (hless : Scalar.less (p.maxDeviation rows) tolerance = true) :
    (∀ r ∈ rows, r.IsComplete → Scalar.less (Scalar.abs (p.subtract r).w) tolerance = true) ↔
      p.IsComplete ∨ ∀ r ∈ rows, ¬ r.IsComplete := by
  constructor
  · intro hwithin
    by_contra hneither
    push Not at hneither
    obtain ⟨hplane, r, hmem, hr⟩ := hneither
    have hmissing : p.deviation r = .missing := by
      rw [← Sample.not_isKnown_iff, deviation_isKnown]
      exact fun hboth => hplane hboth.1
    have hbad := hwithin r hmem hr
    rw [abs_subtract_w, hmissing] at hbad
    simp [Sample.less_iff] at hbad
  · rintro (hplane | hnone) r hmem hr
    · rw [abs_subtract_w]
      exact Plane.deviation_less hless hplane hmem hr
    · exact absurd hr (hnone r hmem)

end Gaps

/-- What a corrector that checks the residual returns is the chunk last corrected, less
the plane in use.  Every complete row of it is within the tolerance exactly if that plane
is complete or no row is, and the plane is complete exactly if no call of the run took
over one fitted to rows with a gap. -/
theorem residual_within_iff {ι σ K : Type} [Field K] [LinearOrder K] [IsStrictOrderedRing K]
    [Circular K] (settings : Settings (Sample K)) (hcheck : settings.checkResidual = true)
    (hpositive : Scalar.less 0 settings.wTolerance = true) (feeds : ι → Feed σ (Sample K))
    (moments : List (Moment ι σ (Sample K)))
    (tangentPoint : Except (Fault (Sample K)) (Direction (Sample K))) (identity : Nat) (s : σ)
    (served : Served (Sample K))
    (hserved : ((run feeds (create settings) moments).correctedRows feeds tangentPoint identity
      s).result = .ok served) :
    let calls := moments ++ [⟨.correct tangentPoint identity, s⟩]
    let c := run feeds (create settings) calls
    ∃ rows tolerance,
      (events feeds (create settings) calls).getLast? = some (.renewed rows) ∧
      c.tolerance = some tolerance ∧ served.rows = rows.map c.plane.subtract ∧
      ((∀ r ∈ rows, r.IsComplete →
          Scalar.less (Scalar.abs (c.plane.subtract r).w) tolerance = true) ↔
        c.plane.IsComplete ∨ ∀ r ∈ rows, ¬ r.IsComplete) ∧
      (c.plane.IsComplete ↔ ∀ before m after, calls = before ++ m :: after →
        ¬ TakesGap feeds (run feeds (create settings) before) m) := by
  intro calls c
  have hchecked : Checked (events feeds (create settings) calls) c :=
    checked_run settings feeds calls
  have hcurrent : c.current? = some served := by
    have hreply := current?_of_correctedRows hserved
    simpa [c, calls, run_append, next] using hreply
  rw [current?_eq_some_iff] at hcurrent
  obtain ⟨rows, hlast, hrows⟩ := hchecked.coherent.renewed served hcurrent.1 hcurrent.2
  obtain ⟨tolerance, htolerance, hpasses⟩ := hchecked.passed rows hlast
  have hsettings : c.settings = settings := by
    rw [run_settings]
    rfl
  rw [passes_of_checked (by rwa [hsettings])] at hpasses
  exact ⟨rows, tolerance, hlast, htolerance, hrows, within_iff_of_passed hpasses,
    run_isComplete_iff hpositive isComplete_level calls⟩

def strict : Settings (Sample ℚ) := ⟨.known 1, true, false, .known 6, 10, .known 0, false⟩

def withThird (w : Sample ℚ) : Chunk (Sample ℚ) :=
  [⟨.known 100, .known 0, .known 50⟩, ⟨.known 0, .known 100, .known 0⟩,
    ⟨.known 50, .known 50, w⟩]

def thirdFeeds (w : Sample ℚ) (_ : Unit) : Feed Unit (Sample ℚ) :=
  .ofChunks (fun _ => withThird w) [.known 299792458]

def firstReply (w : Sample ℚ) : Reply Unit Unit (Sample ℚ) :=
  (run (thirdFeeds w) (create strict) [⟨.associate (some ()), ()⟩]).correctedRows (thirdFeeds w)
    (.ok ⟨.known 0, .known 0⟩) 0 ()

theorem residual_within_iff_inPlane :
    ∃ served, (firstReply (.known 25)).result = .ok served ∧
      ∃ (plane : Plane (Sample ℚ)) (tolerance : Sample ℚ) (rows : Chunk (Sample ℚ)),
        served.rows = rows.map plane.subtract ∧ ∀ r ∈ rows, r.IsComplete →
          Scalar.less (Scalar.abs (plane.subtract r).w) tolerance = true := by
  have hserved : (firstReply (.known 25)).result =
      .ok ⟨(withThird (.known 25)).map (⟨.known (1 / 2), .known 0⟩ : Plane _).subtract, 0, 1⟩ := by
    decide +kernel
  obtain ⟨rows, tolerance, -, -, hrows, hwithin, -⟩ :=
    residual_within_iff strict rfl (by decide +kernel) (thirdFeeds (.known 25))
      [⟨.associate (some ()), ()⟩] (.ok ⟨.known 0, .known 0⟩) 0 () _ hserved
  refine ⟨_, hserved, _, tolerance, rows, hrows, hwithin.mpr (.inl ⟨⟨1 / 2, ?_⟩, ⟨0, ?_⟩⟩)⟩
  · decide +kernel
  · decide +kernel

/-- One missing coordinate is enough to let everything pass. -/
theorem residual_passes_gap :
    strict.checkResidual = true ∧ Scalar.less 0 strict.wTolerance = true ∧
      ∃ served, (firstReply .missing).result = .ok served ∧
        (firstReply .missing).corrector.tolerance = some (.known 1) ∧
        ∃ r ∈ withThird .missing, r.IsComplete ∧
          (firstReply .missing).corrector.plane.subtract r ∈ served.rows ∧
          ¬ Scalar.less (Scalar.abs ((firstReply .missing).corrector.plane.subtract r).w)
            (.known 1) := by
  refine ⟨rfl, by decide +kernel,
    ⟨(withThird .missing).map (⟨.missing, .missing⟩ : Plane _).subtract, 0, 1⟩,
    by decide +kernel, by decide +kernel, ⟨.known 100, .known 0, .known 50⟩, by decide +kernel,
    ⟨⟨100, rfl⟩, ⟨0, rfl⟩, ⟨50, rfl⟩⟩, by decide +kernel, by decide +kernel⟩

end Corrector

end Coplanar
