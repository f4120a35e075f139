import Coplanar.Proofs.Acceptance
import Coplanar.Proofs.Binding
import Coplanar.Proofs.Faults
import Coplanar.Proofs.Quantities

/-! A corrector that is only ever asked for one tangent point.  Its own point is at no
distance, so the corrector refuses it exactly if the tolerance is not positive: a tolerance
of zero, or a missing one, is accepted and then allows no second request, and no second
time step of a dataset. -/
namespace Coplanar

section Faults

variable {σ α : Type}

def Feed.Avoids (feed : Feed σ α) (fault : Fault α) : Prop :=
  (∀ d s, (feed.rows d s).1 ≠ .error fault) ∧ ∀ s, feed.channels s ≠ .error fault

theorem fit_ne_otherTangentPoint [Scalar α] (rows : Chunk α) :
    rows.fit ≠ .error .otherTangentPoint := by
  unfold Chunk.fit
  split
  · nofun
  · split <;> nofun

end Faults

namespace Corrector

variable {ι σ α : Type} [Trig α] {feeds : ι → Feed σ α} {c : Corrector ι α} {p : Direction α}

theorem refused_iff
    (hfeeds : ∀ source, c.source = some source → (feeds source).Avoids .otherTangentPoint)
    (identity : Nat) (s : σ) :
    (c.correctedRows feeds (.ok p) identity s).result = .error .otherTangentPoint ↔
      c.accepts p = false := by
  constructor
  · intro h
    obtain hrefusal | hundecided | hexceeded := failing_cases h
    · cases hrefusal with
      | malformedPoint _ hpoint => cases hpoint
      | otherPoint d hpoint hother =>
        cases hpoint
        exact hother
      | noRows d source next _ hasks hrows =>
        exact absurd (by rw [hrows]) ((hfeeds source hasks.source_eq).1 d s)
      | noFrequencies d source rows next _ hasks hrows hchannels =>
        exact absurd hchannels ((hfeeds source hasks.source_eq).2 next)
    · obtain ⟨d, source, rows, tolerance, next, -, hfetches, hjudge⟩ := hundecided
      obtain ⟨e, s', hrows⟩ | ⟨rows', hfit⟩ := judge_failed hjudge
      · exact absurd hrows ((hfeeds source hfetches.source_eq).1 e s')
      · exact absurd hfit (fit_ne_otherTangentPoint rows')
    · obtain ⟨_, _, _, _, _, _, _, _, hfault⟩ := hexceeded
      cases hfault
  · intro h
    simp [correctedRows, rowsToward, h]

theorem accepts_of_center_none (h : c.center = none) : c.accepts p = true := by
  rw [accepts, h]

theorem accepts_center [LawfulNearness α] (hfinite : p.IsFinite) (h : c.center = some p) :
    c.accepts p = Scalar.less 0 c.settings.tangentTolerance := by
  rw [accepts, h]
  exact Direction.isNear_self hfinite _

theorem next_center_of_toward {m : Moment ι σ α} (htoward : m.Toward p)
    (h : c.center = none ∨ c.center = some p) :
    (c.next feeds m).center = none ∨ (c.next feeds m).center = some p := by
  rw [next_center]
  cases hbinding : c.binding? feeds m with
  | none => exact h
  | some d =>
    obtain ⟨identity, _, _, _, _, hcall, -⟩ := fetches_of_binding? hbinding
    cases htoward _ identity hcall
    exact .inr rfl

theorem run_center_of_toward {moments : List (Moment ι σ α)} (htoward : ∀ m ∈ moments, m.Toward p)
    (h : c.center = none ∨ c.center = some p) :
    (c.run feeds moments).center = none ∨ (c.run feeds moments).center = some p := by
  induction moments generalizing c with
  | nil => exact h
  | cons m rest ih =>
    rw [List.forall_mem_cons] at htoward
    exact ih htoward.2 (next_center_of_toward htoward.1 h)

theorem accepts_eq_false_iff [LawfulNearness α] (hfinite : p.IsFinite)
    (h : c.center = none ∨ c.center = some p) :
    c.accepts p = false ↔
      c.center = some p ∧ Scalar.less 0 c.settings.tangentTolerance = false := by
  obtain hnone | hsome := h
  · simp [accepts_of_center_none hnone, hnone]
  · simp [accepts_center hfinite hsome, hsome]

end Corrector

namespace Correction

variable {α : Type} [Quantity α] {p : Direction α} {baselines : Int} {c : Corrector (Slice α) α}
  {s : Slice α}

theorem feed_avoids (h : s.rows ≠ .error .otherTangentPoint) :
    (feed s).Avoids .otherTangentPoint := by
  constructor
  · intro d _
    change s.toward d ≠ _
    unfold Slice.toward
    cases hrows : s.rows with
    | error fault => simpa [Except.map, hrows] using h
    | ok rows => nofun
  · intro _
    change s.channels.rectangular ≠ _
    unfold Nested.rectangular
    split <;> nofun

theorem place_ne_otherTangentPoint (baselines : Int) (valid : Nested Bool) (rows : Chunk α) :
    place baselines valid rows ≠ .error .otherTangentPoint := by
  unfold place
  split
  · split <;> nofun
  · nofun

theorem map_eq_error_iff {ε β γ : Type} {x : Except ε β} {f : β → γ} {e : ε} :
    x.map f = .error e ↔ x = .error e := by
  cases x <;> simp [Except.map]

theorem step_corrector (baselines : Int) (point : Except (Fault α) (Direction α))
    (c : Corrector (Slice α) α) (s : Slice α) :
    (step baselines point c s).2.1 =
      (c.associate (some s)).next feed ⟨.correct point 0, ()⟩ := rfl

theorem step_refused_iff (h : s.rows ≠ .error .otherTangentPoint) :
    (step baselines (.ok p) c s).1 = .error .otherTangentPoint ↔ c.accepts p = false := by
  have hreply : (step baselines (.ok p) c s).1 = .error .otherTangentPoint ↔
      ((c.associate (some s)).correctedRows feed (.ok p) 0 ()).result =
        .error .otherTangentPoint := by
    unfold step
    dsimp only
    cases ((c.associate (some s)).correctedRows feed (.ok p) 0 ()).result with
    | error fault => simp [Except.bind]
    | ok served =>
      refine iff_of_false ?_ nofun
      intro hplace
      cases hrows : place baselines s.valid served.rows with
      | error fault => simp_all [Except.bind, Except.map, place_ne_otherTangentPoint]
      | ok rows => simp [Except.bind, Except.map, hrows] at hplace
  rw [hreply]
  apply Corrector.refused_iff
  intro source hsource
  cases hsource
  exact feed_avoids h

theorem step_center (baselines : Int) (h : c.center = none ∨ c.center = some p) (s : Slice α) :
    (step baselines (.ok p) c s).2.1.center = none ∨
      (step baselines (.ok p) c s).2.1.center = some p := by
  rw [step_corrector]
  apply Corrector.next_center_of_toward (c := c.associate (some s)) _ h
  intro tangentPoint identity hcall
  cases hcall
  rfl

theorem step_settings (baselines : Int) (p : Direction α) (c : Corrector (Slice α) α)
    (s : Slice α) :
    (step baselines (.ok p) c s).2.1.settings = c.settings := by
  rw [step_corrector, Corrector.next_settings]
  rfl

theorem center_of_step {result : StepResult α} (hcache : c.cache = none)
    (h : (step baselines (.ok p) c s).1 = .ok result) :
    (step baselines (.ok p) c s).2.1.center = some p := by
  have hserves : (c.associate (some s)).Serves feed ⟨.correct (.ok p) 0, ()⟩ p := by
    unfold step at h
    dsimp only at h
    cases hresult : ((c.associate (some s)).correctedRows feed (.ok p) 0 ()).result with
    | error fault => simp [Except.bind, hresult] at h
    | ok served => exact ⟨0, served, rfl, hresult⟩
  have hbinding := hserves.binding?_eq (by simp [Corrector.current?, Corrector.associate, hcache])
  rw [step_corrector, Corrector.next_center, hbinding]
  rfl

theorem steps_cons (baselines : Int) (point : Except (Fault α) (Direction α))
    (c : Corrector (Slice α) α) (s : Slice α) (rest : List (Except (Fault α) (Slice α))) :
    (steps baselines point c (.ok s :: rest)).1 =
      (step baselines point c s).1.bind fun first =>
        (steps baselines point (step baselines point c s).2.1 rest).1.map (first :: ·) := by
  rw [steps]
  rcases step baselines point c s with ⟨result, next, notes⟩
  cases result <;> rfl

/-- The slices there are can be used, so far as a corrector is concerned with them. -/
structure Usable (slices : List (Except (Fault α) (Slice α))) : Prop where
  error_ne : ∀ fault, .error fault ∈ slices → fault ≠ .otherTangentPoint
  rows_ne : ∀ s, .ok s ∈ slices → s.rows ≠ .error .otherTangentPoint

omit [Quantity α] in
theorem Usable.tail {slice : Except (Fault α) (Slice α)} {rest : List (Except (Fault α) (Slice α))}
    (h : Usable (slice :: rest)) : Usable rest :=
  ⟨fun fault hmem => h.error_ne fault (.tail _ hmem), fun s hmem => h.rows_ne s (.tail _ hmem)⟩

theorem Usable.steps_ne {fault : Fault α} {rest : List (Except (Fault α) (Slice α))}
    (h : Usable (.error fault :: rest)) :
    (steps baselines (.ok p) c (.error fault :: rest)).1 ≠ .error .otherTangentPoint := by
  intro hsteps
  exact h.error_ne fault (.head _) (Except.error.inj hsteps)

variable [LawfulNearness α]

theorem steps_not_refused (hfinite : p.IsFinite) {slices : List (Except (Fault α) (Slice α))}
    (husable : Usable slices) (hcenter : c.center = none ∨ c.center = some p)
    (hpositive : Scalar.less 0 c.settings.tangentTolerance = true) :
    (steps baselines (.ok p) c slices).1 ≠ .error .otherTangentPoint := by
  induction slices generalizing c with
  | nil => nofun
  | cons slice rest ih =>
    cases slice with
    | error fault => exact husable.steps_ne
    | ok s =>
      rw [steps_cons]
      cases hresult : (step baselines (.ok p) c s).1 with
      | error fault =>
        intro h
        cases h
        rw [step_refused_iff (husable.rows_ne s (.head _)),
          Corrector.accepts_eq_false_iff hfinite hcenter, hpositive] at hresult
        cases hresult.2
      | ok first =>
        intro h
        rw [Except.bind, map_eq_error_iff] at h
        exact ih husable.tail (step_center baselines hcenter s) (by rwa [step_settings]) h

/-- Without one the first is that a bound corrector gets to. -/
theorem steps_refused_of_bound (hfinite : p.IsFinite) {slices : List (Except (Fault α) (Slice α))}
    (husable : Usable slices) (hcenter : c.center = some p)
    (hpositive : Scalar.less 0 c.settings.tangentTolerance = false) :
    (steps baselines (.ok p) c slices).1 = .error .otherTangentPoint ↔
      ∃ s rest, slices = .ok s :: rest := by
  cases slices with
  | nil => exact iff_of_false nofun nofun
  | cons slice rest =>
    cases slice with
    | error fault => exact iff_of_false husable.steps_ne nofun
    | ok s =>
      have hrefused : (step baselines (.ok p) c s).1 = .error .otherTangentPoint := by
        rw [step_refused_iff (husable.rows_ne s (.head _)),
          Corrector.accepts_eq_false_iff hfinite (.inr hcenter)]
        exact ⟨hcenter, hpositive⟩
      refine iff_of_true ?_ ⟨s, rest, rfl⟩
      rw [steps_cons, hrefused]
      rfl

theorem steps_refused_iff (hfinite : p.IsFinite) (settings : Settings α)
    {slices : List (Except (Fault α) (Slice α))} (husable : Usable slices) :
    (steps baselines (.ok p) (.create settings) slices).1 = .error .otherTangentPoint ↔
      Scalar.less 0 settings.tangentTolerance = false ∧ ∃ first second rest result,
        slices = .ok first :: .ok second :: rest ∧
          (step baselines (.ok p) (.create settings) first).1 = .ok result := by
  cases hpositive : Scalar.less 0 settings.tangentTolerance with
  | true =>
    refine iff_of_false (steps_not_refused hfinite husable (.inl rfl) hpositive) ?_
    rintro ⟨h, -⟩
    cases h
  | false =>
    rw [eq_self, true_and]
    cases slices with
    | nil =>
      refine iff_of_false nofun ?_
      rintro ⟨_, _, _, _, hcons, -⟩
      cases hcons
    | cons slice rest =>
      cases slice with
      | error fault =>
        refine iff_of_false husable.steps_ne ?_
        rintro ⟨_, _, _, _, hcons, -⟩
        cases hcons
      | ok first =>
        rw [steps_cons]
        cases hresult : (step baselines (.ok p) (.create settings) first).1 with
        | error fault =>
          -- A first request finds nothing bound.
          have hserved : fault ≠ .otherTangentPoint := by
            rintro rfl
            rw [step_refused_iff (husable.rows_ne first (.head _)),
              Corrector.accepts_of_center_none rfl] at hresult
            cases hresult
          refine iff_of_false ?_ ?_
          · intro h
            exact hserved (Except.error.inj h)
          · rintro ⟨_, _, _, result, hcons, hok⟩
            cases hcons
            rw [hresult] at hok
            cases hok
        | ok result =>
          rw [Except.bind, map_eq_error_iff, steps_refused_of_bound hfinite husable.tail
            (center_of_step rfl hresult) (by rwa [step_settings])]
          constructor
          · rintro ⟨second, rest, rfl⟩
            exact ⟨first, second, rest, result, rfl, hresult⟩
          · rintro ⟨_, second, rest, _, hcons, -⟩
            cases hcons
            exact ⟨second, rest, rfl⟩

end Correction

section Datasets

variable {α : Type} [Quantity α] {d : Dataset α} {parameters selection : Value α}
  {settings : Settings α} {chosen : Correction.Resolved α} {p : Direction α}

/-- What is selected of the dataset, once every check has passed. -/
structure Dataset.Selects (d : Dataset α) (selection : Value α)
    (chosen : Correction.Resolved α) : Prop where
  checked : (Selection.check d.names d.attributes selection).result = .ok true
  resolved :
    Correction.resolve (Selection.check d.names d.attributes selection).parameters = .ok chosen

namespace Correction

theorem usable_slices (d : Dataset α) (chosen : Resolved α) (times : Nat) :
    Usable (slices d chosen times) := by
  constructor
  · rintro fault hmem rfl
    obtain ⟨i, -, hslice⟩ := List.mem_map.mp hmem
    exact slice_failsByData d chosen.name (direction_failsByData _) i _ hslice
  · intro s hmem hrows
    obtain ⟨i, -, hslice⟩ := List.mem_map.mp hmem
    exact slice_rows_failsByData hslice _ hrows

theorem bind_eq_error_iff {ε β γ : Type} {x : Except ε β} {next : β → Except ε γ} {e : ε}
    (hnext : ∀ y, next y ≠ .error e) : x.bind next = .error e ↔ x = .error e := by
  cases x with
  | error e' => simp [Except.bind]
  | ok y => simp [Except.bind, hnext]

theorem run_result {old : Variable α} {times : List (Option (List (List α)))}
    (hold : d.get? chosen.name = some old) (htimes : old.content.steps? = some times)
    (hbaselines : 0 ≤ old.baselines) :
    (run d chosen settings parameters).result =
      (steps old.baselines (Direction.ofValue chosen.imageCenter) (.create settings)
        (slices d chosen times.length)).1.bind fun results =>
          (assemble d old chosen.outName parameters chosen.imageCenter results).result := by
  unfold run
  simp only [hold, htimes, if_neg (Int.not_lt.mpr hbaselines)]
  cases (steps old.baselines (Direction.ofValue chosen.imageCenter) (.create settings)
    (slices d chosen times.length)).1 <;> rfl

theorem run_cases (d : Dataset α) (chosen : Resolved α) (settings : Settings α)
    (parameters : Value α) :
    (∃ fault, (run d chosen settings parameters).result = .error fault ∧
        fault ≠ .otherTangentPoint) ∨
      ∃ old times, d.get? chosen.name = some old ∧ old.content.steps? = some times ∧
        0 ≤ old.baselines := by
  cases hold : d.get? chosen.name with
  | none => exact .inl ⟨.unknownName, by simp [run, hold], nofun⟩
  | some old =>
    cases htimes : old.content.steps? with
    | none => exact .inl ⟨.malformed, by simp [run, hold, htimes], nofun⟩
    | some times =>
      by_cases hbaselines : 0 ≤ old.baselines
      · exact .inr ⟨old, times, rfl, htimes, hbaselines⟩
      · refine .inl ⟨.malformed, ?_, nofun⟩
        simp [run, hold, htimes, if_pos (Int.not_le.mp hbaselines)]

theorem run_refused_iff :
    (run d chosen settings parameters).result = .error .otherTangentPoint ↔
      ∃ old times, d.get? chosen.name = some old ∧ old.content.steps? = some times ∧
        0 ≤ old.baselines ∧
        (steps old.baselines (Direction.ofValue chosen.imageCenter) (.create settings)
          (slices d chosen times.length)).1 = .error .otherTangentPoint := by
  constructor
  · intro h
    obtain ⟨fault, hfault, hne⟩ | ⟨old, times, hold, htimes, hbaselines⟩ :=
      run_cases d chosen settings parameters
    · exact absurd (Except.error.inj (hfault.symm.trans h)) hne
    · rw [run_result hold htimes hbaselines,
        bind_eq_error_iff fun _ => (assemble_failsByData _ _ _ _ _ _).ne_otherTangentPoint] at h
      exact ⟨old, times, hold, htimes, hbaselines, h⟩
  · rintro ⟨old, times, hold, htimes, hbaselines, hsteps⟩
    rw [run_result hold htimes hbaselines, hsteps]
    rfl

def PassesFirst (d : Dataset α) (chosen : Resolved α) (settings : Settings α)
    (p : Direction α) : Prop :=
  ∃ old times first second rest result, d.get? chosen.name = some old ∧
    old.content.steps? = some times ∧ 0 ≤ old.baselines ∧
    slices d chosen times.length = .ok first :: .ok second :: rest ∧
    (step old.baselines (.ok p) (.create settings) first).1 = .ok result

theorem run_refused_iff_passesFirst [LawfulNearness α] (hfinite : p.IsFinite)
    (hcenter : Direction.ofValue chosen.imageCenter = .ok p) :
    (run d chosen settings parameters).result = .error .otherTangentPoint ↔
      Scalar.less 0 settings.tangentTolerance = false ∧ PassesFirst d chosen settings p := by
  rw [run_refused_iff, hcenter]
  constructor
  · rintro ⟨old, times, hold, htimes, hbaselines, hsteps⟩
    rw [steps_refused_iff hfinite settings (usable_slices _ _ _)] at hsteps
    obtain ⟨hpositive, first, second, rest, result, hslices, hresult⟩ := hsteps
    exact ⟨hpositive, old, times, first, second, rest, result, hold, htimes, hbaselines, hslices,
      hresult⟩
  · rintro ⟨hpositive, old, times, first, second, rest, result, hold, htimes, hbaselines,
      hslices, hresult⟩
    refine ⟨old, times, hold, htimes, hbaselines, ?_⟩
    rw [steps_refused_iff hfinite settings (usable_slices _ _ _)]
    exact ⟨hpositive, first, second, rest, result, hslices, hresult⟩

theorem result_of_selects (hselects : d.Selects selection chosen)
    (haccepted : (Settings.ofParameters parameters).result = .ok settings) :
    (d.correct parameters selection).result =
      (run d chosen settings (Settings.ofParameters parameters).parameters).result := by
  unfold Dataset.correct
  simp only [hselects.checked, hselects.resolved, haccepted]

theorem selects_of_refused
    (h : (d.correct parameters selection).result = .error .otherTangentPoint) :
    ∃ chosen, d.Selects selection chosen := by
  unfold Dataset.correct at h
  -- No check fails in this way, so that all of them have been passed.
  cases hchecked : (Selection.check d.names d.attributes selection).result with
  | error fault =>
    simp only [hchecked] at h
    cases h
    exact absurd hchecked (selection_failsByData _ _ _).ne_otherTangentPoint
  | ok passed =>
    cases passed with
    | false => simp [hchecked] at h
    | true =>
      simp only [hchecked] at h
      cases hresolved :
          resolve (Selection.check d.names d.attributes selection).parameters with
      | ok chosen => exact ⟨chosen, hchecked, hresolved⟩
      | error fault =>
        cases haccepted : (Settings.ofParameters parameters).result with
        | error fault' =>
          simp only [haccepted] at h
          cases h
          exact absurd haccepted (ofParameters_failsByData parameters).ne_otherTangentPoint
        | ok settings =>
          simp only [haccepted, hresolved] at h
          cases h
          exact absurd hresolved (resolve_failsByData _).ne_otherTangentPoint

end Correction

/-- With accepted parameters, of which the tolerance of tangent points is the number given
there or the default, a corrector that is only asked for one finite tangent point refuses it
exactly if it is bound to it and the tolerance is not positive.  The correction of a dataset
for that point is then refused as soon as there is a second time step. -/
theorem bound_point_refused_iff [LawfulNearness α]
    (haccepted : (Settings.ofParameters parameters).result = .ok settings)
    (hfinite : p.IsFinite) :
    (∃ entries, parameters = .dict entries ∧
      ((Keyed.get? entries Settings.tangentToleranceKey).getD
        (.real defaultTangentTolerance)).toNumber = .ok settings.tangentTolerance ∧
      (Keyed.get? entries Settings.tangentToleranceKey = none →
        Scalar.less 0 settings.tangentTolerance = true)) ∧
    (∀ (ι σ : Type) (feeds : ι → Feed σ α) (moments : List (Moment ι σ α)),
      (∀ source, (feeds source).Avoids .otherTangentPoint) → (∀ m ∈ moments, m.Toward p) →
      ∀ c, c = (Corrector.create settings).run feeds moments → ∀ identity s,
      ((c.correctedRows feeds (.ok p) identity s).result = .error .otherTangentPoint ↔
        c.center = some p ∧ Scalar.less 0 settings.tangentTolerance = false)) ∧
    ∀ (d : Dataset α) (selection : Value α),
      (∀ chosen, d.Selects selection chosen → Direction.ofValue chosen.imageCenter = .ok p) →
      ((d.correct parameters selection).result = .error .otherTangentPoint ↔
        Scalar.less 0 settings.tangentTolerance = false ∧
          ∃ chosen, d.Selects selection chosen ∧ Correction.PassesFirst d chosen settings p) := by
  refine ⟨?_, ?_, ?_⟩
  · obtain ⟨entries, hentries, hnumber⟩ := Settings.tangentTolerance_of_accepted haccepted
    refine ⟨entries, hentries, hnumber, ?_⟩
    intro hnone
    rw [hnone] at hnumber
    have hdefault : defaultTangentTolerance = settings.tangentTolerance := Except.ok.inj hnumber
    rw [← hdefault]
    exact LawfulNearness.default_pos
  · rintro ι σ feeds moments hfeeds htoward c rfl identity s
    have hcenter : ((Corrector.create settings).run feeds moments).center = none ∨
        ((Corrector.create settings).run feeds moments).center = some p :=
      Corrector.run_center_of_toward htoward (.inl rfl)
    rw [Corrector.refused_iff fun source _ => hfeeds source,
      Corrector.accepts_eq_false_iff hfinite hcenter, Corrector.run_settings]
    rfl
  · intro d selection hcenter
    constructor
    · intro hrefused
      obtain ⟨chosen, hselects⟩ := Correction.selects_of_refused hrefused
      rw [Correction.result_of_selects hselects haccepted,
        Correction.run_refused_iff_passesFirst hfinite (hcenter chosen hselects)] at hrefused
      exact ⟨hrefused.1, chosen, hselects, hrefused.2⟩
    · rintro ⟨hpositive, chosen, hselects, hpasses⟩
      rw [Correction.result_of_selects hselects haccepted,
        Correction.run_refused_iff_passesFirst hfinite (hcenter chosen hselects)]
      exact ⟨hpositive, hpasses⟩

end Datasets

def twoTimes : Dataset (Sample ℚ) where
  entries :=
    [("UVW",
        { dims := ["time", "baseline", "uvw"], shape := [2, 2, 3]
          content := .cube (List.replicate 2
            [[.known 100, .known 0, .known 0], [.known 0, .known 100, .known 0]]) }),
      ("chan", .along "chan" [.known 299792458])]
  coordinates := ["chan"]
  attributes := []

def origin : Direction (Sample ℚ) := ⟨.known 0, .known 0⟩

def originValue : Value (Sample ℚ) := .list [.real (.known 0), .real (.known 0)]

def towardOrigin : Value (Sample ℚ) := .dict [("image_phase_center", originValue)]

def firstRequest : List (Moment Unit Unit (Sample ℚ)) :=
  [⟨.associate (some ()), ()⟩, ⟨.correct (.ok origin) 0, ()⟩]

def twoTimesFeed (_ : Unit) : Feed Unit (Sample ℚ) :=
  .ofChunks (fun _ => [⟨.known 100, .known 0, .known 0⟩, ⟨.known 0, .known 100, .known 0⟩])
    [.known 299792458]

theorem bound_point_refused_iff_default :
    let parameters : Value (Sample ℚ) := .dict [("w_tolerance", .real (.known 1))]
    ∃ settings : Settings (Sample ℚ), (Settings.ofParameters parameters).result = .ok settings ∧
      ∃ c, c = (Corrector.create settings).run twoTimesFeed firstRequest ∧ c.center = some origin ∧
        (c.correctedRows twoTimesFeed (.ok origin) 1 ()).result ≠ .error .otherTangentPoint ∧
        (twoTimes.correct parameters towardOrigin).result ≠ .error .otherTangentPoint := by
  intro parameters
  have haccepted : (Settings.ofParameters parameters).result =
      .ok ⟨.known 1, true, false, .known 60, 1440, .known (1 / 1000000), false⟩ := by
    decide +kernel
  have hpositive : Scalar.less 0 (.known (1 / 1000000) : Sample ℚ) = true := by decide +kernel
  have hfeeds : ∀ source, (twoTimesFeed source).Avoids .otherTangentPoint :=
    fun _ => ⟨fun _ _ => nofun, fun _ => nofun⟩
  have htoward : ∀ m ∈ firstRequest, m.Toward origin := by simp [firstRequest, Moment.Toward]
  have hcenter : ∀ chosen, twoTimes.Selects towardOrigin chosen →
      Direction.ofValue chosen.imageCenter = .ok origin := by
    rintro chosen ⟨-, hresolved⟩
    cases hresolved
    rfl
  obtain ⟨-, hrun, hdataset⟩ := bound_point_refused_iff haccepted (p := origin)
    ⟨by decide +kernel, by decide +kernel⟩
  refine ⟨_, haccepted, _, rfl, by decide +kernel, ?_, ?_⟩
  · rw [Ne, hrun _ _ _ _ hfeeds htoward _ rfl, hpositive]
    rintro ⟨-, h⟩
    cases h
  · rw [Ne, hdataset _ _ hcenter, hpositive]
    rintro ⟨h, -⟩
    cases h

/-- A tolerance of zero is accepted, and allows one request only. -/
theorem bound_point_refused_at_zero :
    let parameters : Value (Sample ℚ) :=
      .dict [("w_tolerance", .real (.known 1)), ("tangent_tolerance", .integer 0)]
    origin.IsFinite ∧ (∀ m ∈ firstRequest, m.Toward origin) ∧
    ∃ settings : Settings (Sample ℚ), (Settings.ofParameters parameters).result = .ok settings ∧
      ∃ c, c = (Corrector.create settings).run twoTimesFeed firstRequest ∧ c.center = some origin ∧
        (c.correctedRows twoTimesFeed (.ok origin) 1 ()).result = .error .otherTangentPoint ∧
        (twoTimes.correct parameters towardOrigin).result = .error .otherTangentPoint := by
  refine ⟨⟨by decide +kernel, by decide +kernel⟩, by simp [firstRequest, Moment.Toward],
    ⟨.known 1, true, false, .known 60, 1440, .known 0, false⟩, by decide +kernel, _, rfl,
    by decide +kernel, by decide +kernel, ?_⟩
  refine (Correction.map_eq_error_iff (f := fun _ => ())).mp ?_
  decide +kernel

end Coplanar
