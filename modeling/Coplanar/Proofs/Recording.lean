import Coplanar.Proofs.Slicewise

/-! What a correction leaves on record.  The time steps are the calls of one corrector, and
each of them leaves its rows at their places, and the plane, the number of planes and the
deviation that the corrector has then.  All of it is under its names in the new dataset, and
every other variable is as it was; but where the name chosen for the rows is one of those for
the planes, the rows are lost. -/
namespace Coplanar

theorem mem_names_putAll {α : Type} {vs added : Keyed (Variable α)} {name : String} :
    name ∈ (putAll vs added).names ↔ name ∈ vs.names ∨ name ∈ added.names := by
  induction added generalizing vs with
  | nil => simp [putAll, Keyed.names]
  | cons first rest ih =>
    change name ∈ (putAll (vs.put first.1 first.2) rest).names ↔ _
    have hcons : name ∈ Keyed.names (first :: rest) ↔ name = first.1 ∨ name ∈ Keyed.names rest :=
      List.mem_cons
    rw [ih, mem_names_put, hcons]
    tauto

namespace Dataset

variable {α : Type} {d new : Dataset α} {vs added : Keyed (Variable α)} {name : String}

theorem coordinates_of_settle (h : d.settle vs = .ok new) (hname : d.isCoordinate name = true) :
    new.isCoordinate name = true := by
  unfold settle at h
  split at h
  · cases h
    simp only [isCoordinate, List.contains_eq_mem, decide_eq_true_eq] at hname ⊢
    exact List.mem_append_left _ hname
  · cases h

theorem prepare_of_no_coordinate (h : ∀ name ∈ added.names, d.isCoordinate name = false)
    {ready : Dataset α} (hready : d.prepare added = .ok ready) : ready = d := by
  have hmoved : d.moved added = [] := by
    refine List.filter_eq_nil_iff.mpr fun entry hentry => ?_
    change ¬ d.isCoordinate entry.1 = true
    rw [h entry.1 (List.mem_map_of_mem hentry)]
    exact Bool.false_ne_true
  rw [prepare_eq, hmoved] at hready
  simp only [List.isEmpty_nil, if_true, Except.bind] at hready
  split at hready
  · exact (Except.ok.inj hready).symm
  · cases hready

theorem isCoordinate_of_assign (h : d.assign added = .ok new)
    (hadded : ∀ name ∈ added.names, d.isCoordinate name = false)
    (hname : name ∈ d.entries.names) : new.isCoordinate name = d.isCoordinate name := by
  obtain ⟨ready, hready, habsorbed⟩ := bind_eq_ok_iff.mp h
  obtain rfl := prepare_of_no_coordinate hadded hready
  obtain ⟨settled, hsettled, hchecked⟩ := bind_eq_ok_iff.mp habsorbed
  split at hchecked
  · cases hchecked
  · rename_i hdata
    cases hchecked
    cases hcoordinate : ready.isCoordinate name with
    | true => exact coordinates_of_settle hsettled hcoordinate
    | false =>
      have hdatum : name ∈ ready.names :=
        List.mem_filter.mpr ⟨hname, by rw [hcoordinate]; rfl⟩
      simp only [List.any_eq_true, not_exists, not_and, Bool.not_eq_true] at hdata
      exact hdata name hdatum

theorem get?_of_assign_of_not_mem (h : d.assign added = .ok new) (hname : name ∉ added.names) :
    new.get? name = d.get? name := by
  have hmoved : name ∉ (d.moved added).names := fun hmem =>
    hname ((List.filter_sublist.map _).subset hmem)
  have hothers : name ∉ (d.others added).names := fun hmem =>
    hname ((List.filter_sublist.map _).subset hmem)
  rw [get?, entries_of_assign h, get?_putAll_of_not_mem hothers, get?_putAll_of_not_mem hmoved]
  rfl

end Dataset

namespace Correction

variable {α : Type}

/-! ### Names -/

section Names

variable {d new : Dataset α} {old : Variable α} {outName name : String}
  {blocks : List (List Int)} {results : List (StepResult α)}

theorem mem_names_outputs :
    name ∈ (outputs old outName blocks results).names ↔ name ∈ outName :: planeNames := by
  rw [outputs, mem_names_putAll, List.mem_cons, Keyed.names, List.map_singleton,
    List.mem_singleton]
  rfl

structure Recorded (d new : Dataset α) (outName : String) (old : Variable α)
    (results : List (StepResult α)) : Prop where
  /-- The rows are on record just if their name is not taken for the planes. -/
  rows_iff : (∃ blocks, new.get? outName = some
    { dims := old.dims, shape := [(results.length : Int), old.baselines, 3]
      content := .cube (results.map (·.rows)), blocks := some blocks }) ↔ outName ∉ planeNames
  planes : new.get? coefficientsName = some
    { dims := [old.dims.headD "", coefficientDim], shape := [(results.length : Int), 2]
      content := .table (results.map fun r => [r.plane.a, r.plane.b]) }
  counts : new.get? epochName = some
    { dims := [old.dims.headD ""], shape := [(results.length : Int)]
      content := .counts (results.map (·.planes)) }
  deviations : new.get? deviationName =
    some (.along (old.dims.headD "") (results.map (·.deviation)))
  others : ∀ name, name ∉ outName :: planeNames → new.get? name = d.get? name
  coordinates : (∀ name ∈ outName :: planeNames, d.isCoordinate name = false) →
    ∀ name ∈ d.entries.names, new.isCoordinate name = d.isCoordinate name

theorem recorded_of_assign (h : d.assign (outputs old outName blocks results) = .ok new) :
    Recorded d new outName old results := by
  have hnodup : (outputs old outName blocks results).names.Nodup :=
    nodup_names_putAll (by simp [Keyed.names])
  have hthree : planeNames.Nodup := by decide
  have hplanes : ∀ name v, (name, v) ∈ _ → new.get? name = some v := fun name v hmem =>
    Dataset.get?_of_assign h hnodup (mem_of_get? (get?_putAll_of_mem hthree hmem))
  have hcoefficients := hplanes _ _ (.head _)
  have hepochs := hplanes _ _ (.tail _ (.head _))
  have hdeviations := hplanes _ _ (.tail _ (.tail _ (.head _)))
  refine ⟨⟨?_, fun hname => ?_⟩, hcoefficients, hepochs, hdeviations, fun name hname => ?_,
    fun hadded name hname => ?_⟩
  · rintro ⟨blocks', hrows⟩ hname
    -- Each of the names for the planes has contents of another form.
    simp only [planeNames, List.mem_cons, List.not_mem_nil, or_false] at hname
    obtain rfl | rfl | rfl := hname
    · simp [hcoefficients] at hrows
    · simp [hepochs] at hrows
    · simp [hdeviations, Variable.along] at hrows
  · refine ⟨blocks, Dataset.get?_of_assign h hnodup (mem_of_get? ?_)⟩
    unfold outputs
    rw [get?_putAll_of_not_mem]
    · exact if_pos rfl
    · exact hname
  · exact Dataset.get?_of_assign_of_not_mem h (mt mem_names_outputs.mp hname)
  · exact Dataset.isCoordinate_of_assign h
      (fun added hmem => hadded added (mem_names_outputs.mp hmem)) hname

end Names

variable [Quantity α]

/-! ### Time steps -/

def calls (point : Except (Fault α) (Direction α)) (slices : List (Slice α)) :
    List (Moment (Slice α) Unit α) :=
  slices.flatMap fun s => [⟨.associate (some s), ()⟩, ⟨.correct point 0, ()⟩]

/-- What comes of a time step is what the corrector returns for its slice, and what it has
then. -/
structure Observes (baselines : Int) (point : Except (Fault α) (Direction α))
    (c : Corrector (Slice α) α) (s : Slice α) (r : StepResult α) : Prop where
  rows : ∃ served, ((c.associate (some s)).correctedRows feed point 0 ()).result = .ok served ∧
    place baselines s.valid served.rows = .ok r.rows
  plane : r.plane = ((c.associate (some s)).correctedRows feed point 0 ()).corrector.plane
  planes : r.planes =
    ((c.associate (some s)).correctedRows feed point 0 ()).corrector.epoch.plane
  deviation :
    ((c.associate (some s)).correctedRows feed point 0 ()).corrector.deviation = some r.deviation

section Steps

variable {baselines : Int} {point : Except (Fault α) (Direction α)} {c : Corrector (Slice α) α}
  {s : Slice α} {r : StepResult α}

theorem length_spread (valid : List Bool) (rows : Chunk α) :
    (spread valid rows).length = valid.length := by
  induction valid generalizing rows with
  | nil => rfl
  | cons mark rest ih =>
    cases mark with
    | false => exact congrArg (· + 1) (ih rows)
    | true => cases rows with
      | nil => exact congrArg (· + 1) (ih [])
      | cons row rows => exact congrArg (· + 1) (ih rows)

theorem length_of_mem_spread {valid : List Bool} {rows : Chunk α} {row : List α}
    (h : row ∈ spread valid rows) : row.length = 3 := by
  induction valid generalizing rows with
  | nil => cases h
  | cons mark rest ih =>
    cases mark with
    | false =>
      obtain rfl | h := List.mem_cons.mp h
      · rfl
      · exact ih h
    | true => cases rows with
      | nil =>
        obtain rfl | h := List.mem_cons.mp h
        · rfl
        · exact ih h
      | cons first rows =>
        obtain rfl | h := List.mem_cons.mp h
        · rfl
        · exact ih h

theorem shape_of_place {valid : Nested Bool} {rows : Chunk α} {placed : List (List α)}
    (h : place baselines valid rows = .ok placed) :
    (placed.length : Int) = baselines ∧ ∀ row ∈ placed, row.length = 3 := by
  unfold place at h
  split at h
  · split at h
    · rename_i hlength
      cases h
      exact ⟨by rw [length_spread, hlength], fun row => length_of_mem_spread⟩
    · cases h
  · cases h

theorem observes_of_step (hcurrent : (c.associate (some s)).current? = none)
    (h : (step baselines point c s).1 = .ok r) : Observes baselines point c s r := by
  obtain ⟨served, hserved, hplaced⟩ := bind_eq_ok_iff.mp h
  obtain ⟨rows, hrows, rfl⟩ := map_eq_ok_iff.mp hplaced
  refine ⟨⟨served, hserved, hrows⟩, rfl, rfl, ?_⟩
  -- The rows are computed anew, so that a policy has come to a verdict.
  have hcourse := (c.associate (some s)).course feed point 0 ()
  dsimp only at hcourse hserved ⊢
  rw [hserved] at hcourse
  generalize ((c.associate (some s)).correctedRows feed point 0 ()).corrector = after at hcourse ⊢
  generalize (c.associate (some s)).renewal? feed point 0 () = renewal at hcourse
  cases hcourse with
  | answered _ hanswered => cases hcurrent.symm.trans hanswered
  | renewed => simp

theorem step_of_steps {slices : List (Except (Fault α) (Slice α))}
    {results : List (StepResult α)} (h : (steps baselines point c slices).1 = .ok results) :
    ∃ given : List (Slice α), slices = given.map .ok ∧ results.length = given.length ∧
      ∀ (i : Nat) s r, given[i]? = some s → results[i]? = some r →
        (step baselines point (c.run feed (calls point (given.take i))) s).1 = .ok r := by
  induction slices generalizing c results with
  | nil =>
    cases h
    exact ⟨[], rfl, rfl, fun i s r hs => by cases hs⟩
  | cons slice rest ih =>
    cases slice with
    | error fault => cases h
    | ok s =>
      rw [steps_cons] at h
      obtain ⟨first, hfirst, hothers⟩ := bind_eq_ok_iff.mp h
      obtain ⟨others, hrest, rfl⟩ := map_eq_ok_iff.mp hothers
      obtain ⟨given, rfl, hlength, hsteps⟩ := ih hrest
      refine ⟨s :: given, rfl, congrArg (· + 1) hlength, fun i s' r hs hr => ?_⟩
      cases i with
      | zero =>
        cases hs
        cases hr
        exact hfirst
      | succ i => exact hsteps i s' r hs hr

end Steps

/-! ### The whole correction -/

variable {d new : Dataset α} {parameters selection : Value α}

theorem exists_selects_of_correct (h : (d.correct parameters selection).result = .ok new) :
    ∃ settings chosen, (Settings.ofParameters parameters).result = .ok settings ∧
      d.Selects selection chosen := by
  unfold Dataset.correct at h
  cases hchecked : (Selection.check d.names d.attributes selection).result with
  | error fault => simp [hchecked] at h
  | ok passed =>
    cases passed with
    | false => simp [hchecked] at h
    | true =>
      cases haccepted : (Settings.ofParameters parameters).result with
      | error fault => simp [hchecked, haccepted] at h
      | ok settings =>
        cases hresolved :
            resolve (Selection.check d.names d.attributes selection).parameters with
        | error fault => simp [hchecked, haccepted, hresolved] at h
        | ok chosen => exact ⟨settings, chosen, rfl, hchecked, hresolved⟩

/-- A dataset that is corrected has on record what one corrector does with its slices, one
after the other; the rows as well if their name is not one of those for the planes.  All
other variables are as they were. -/
theorem correct_records (hnew : (d.correct parameters selection).result = .ok new) :
    ∃ (settings : Settings α) (chosen : Resolved α) (old : Variable α)
      (times : List (Option (List (List α)))) (given : List (Slice α))
      (results : List (StepResult α)),
      (Settings.ofParameters parameters).result = .ok settings ∧ d.Selects selection chosen ∧
      d.get? chosen.name = some old ∧ old.content.steps? = some times ∧
      slices d chosen times.length = given.map .ok ∧ results.length = times.length ∧
      (∀ (i : Nat) s r, given[i]? = some s → results[i]? = some r →
        Observes old.baselines (Direction.ofValue chosen.imageCenter)
          ((Corrector.create settings).run feed
            (calls (Direction.ofValue chosen.imageCenter) (given.take i))) s r ∧
        (r.rows.length : Int) = old.baselines ∧ ∀ row ∈ r.rows, row.length = 3) ∧
      Recorded d new chosen.outName old results := by
  obtain ⟨settings, chosen, haccepted, hselects⟩ := exists_selects_of_correct hnew
  rw [result_of_selects hselects haccepted, run_eq_ok_iff] at hnew
  obtain ⟨old, times, results, hold, htimes, -, hsteps, hassemble⟩ := hnew
  obtain ⟨blocks, made, coordinates, -, hassign, -, rfl⟩ := assemble_eq_ok_iff.mp hassemble
  obtain ⟨given, hgiven, hlength, hstep⟩ := step_of_steps hsteps
  have hrecorded := recorded_of_assign hassign
  refine ⟨settings, chosen, old, times, given, results, haccepted, hselects, hold, htimes, hgiven,
    ?_, fun i s r hs hr => ?_, ⟨hrecorded.rows_iff, hrecorded.planes, hrecorded.counts,
      hrecorded.deviations, hrecorded.others, hrecorded.coordinates⟩⟩
  · have hslices := congrArg List.length hgiven
    rw [slices, List.length_map, List.length_range, List.length_map] at hslices
    rw [hlength, hslices]
  · have hcoherent := Corrector.coherent_run settings feed
      (calls (Direction.ofValue chosen.imageCenter) (given.take i))
    have hobserves := observes_of_step (current?_associate ⟨_, hcoherent⟩ s) (hstep i s r hs hr)
    obtain ⟨_, -, hplace⟩ := hobserves.rows
    exact ⟨hobserves, shape_of_place hplace⟩

end Correction

theorem correct_records_twoTimes :
    ∃ new old results, (twoTimes.correct oneWavelength towardOrigin).result = .ok new ∧
      twoTimes.get? "UVW" = some old ∧ results.length = 2 ∧
      Correction.Recorded twoTimes new "UVW_WPLANE" old results := by
  obtain ⟨new, hnew, -⟩ : ∃ new, (twoTimes.correct oneWavelength towardOrigin).result = .ok new ∧
      () = () := map_eq_ok_iff.mp (by decide +kernel)
  obtain ⟨settings, chosen, old, times, given, results, -, hselects, hold, htimes, -, hlength, -,
    hrecorded⟩ := Correction.correct_records hnew
  obtain rfl : ⟨"UVW", "UVW_WPLANE", originValue, originValue⟩ = chosen :=
    Except.ok.inj hselects.resolved
  cases hold
  cases htimes
  exact ⟨new, _, results, hnew, rfl, hlength, hrecorded⟩

def tilted : Dataset (Sample ℚ) where
  entries :=
    [("UVW",
        { dims := ["time", "baseline", "uvw"], shape := [1, 2, 3]
          content := .cube
            [[[.known 100, .known 0, .known 50], [.known 0, .known 100, .known 0]]] }),
      ("chan", .along "chan" [.known 299792458])]
  coordinates := ["chan"]
  attributes := []

def ontoCoefficients : Value (Sample ℚ) :=
  .dict [("uvw_out", .text "WPLANE_COEFF"), ("image_phase_center", originValue)]

theorem rows_lost_to_coefficients :
    ∃ new, (tilted.correct oneWavelength ontoCoefficients).result = .ok new ∧
      new.entries.map (fun (name, v) => (name, v.content)) =
        [("UVW", .cube [[[.known 100, .known 0, .known 50], [.known 0, .known 100, .known 0]]]),
          ("chan", .series [.known 299792458]),
          ("WPLANE_COEFF", .table [[.known (1 / 2), .known 0]]),
          ("WPLANE_EPOCH", .counts [1]), ("WPLANE_MAX_DEVIATION", .series [.known 0])] :=
  map_eq_ok_iff.mp (by decide +kernel)

end Coplanar
