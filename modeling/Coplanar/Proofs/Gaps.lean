import Mathlib.Data.List.InsertIdx
import Coplanar.Proofs.Cutting
import Coplanar.Proofs.Resizing
import Coplanar.Proofs.Slicewise

/-! What a correction does not look at.  The result for a time does not depend on later
ones.  A time of which no row is complete leaves the plane as it was, and so does not show in
any other; a row that is never complete does not show in the others. -/
namespace Coplanar

structure Variable.IsArray {α : Type} (v : Variable α) (time baseline row : String)
    (steps : List (List (List α))) (baselines width : Nat) : Prop where
  dims : v.dims = [time, baseline, row]
  shape : v.shape = [(steps.length : Int), (baselines : Int), (width : Int)]
  content : v.content.steps? = some (steps.map some)
  rows : ∀ rows ∈ steps, rows.length = baselines ∧ ∀ r ∈ rows, r.length = width

namespace Variable.IsArray

variable {α : Type} {v : Variable α} {time baseline row : String} {steps : List (List (List α))}
  {baselines width : Nat}

theorem extents (h : v.IsArray time baseline row steps baselines width) :
    v.extents =
      [(time, (steps.length : Int)), (baseline, (baselines : Int)), (row, (width : Int))] := by
  rw [Variable.extents, h.dims, h.shape]
  rfl

theorem baselines_eq (h : v.IsArray time baseline row steps baselines width) :
    v.baselines = baselines := by
  rw [Variable.baselines, h.shape]
  rfl

theorem width_eq (h : v.IsArray time baseline row steps baselines width) {rows : List (List α)}
    (hrows : rows ∈ steps) : v.width rows = width := by
  cases rows with
  | nil => rw [Variable.width, h.shape]; rfl
  | cons r rest => exact congrArg Nat.cast ((h.rows _ hrows).2 r (.head _))

theorem isRectangular (h : v.IsArray time baseline row steps baselines width) :
    v.IsRectangular := by
  intro times htimes rows hmem r hr
  rw [h.content] at htimes
  cases htimes
  obtain ⟨rows', hrows, hsome⟩ := List.mem_map.mp hmem
  cases hsome
  rw [h.width_eq hrows, (h.rows rows hrows).2 r hr]

theorem read_eq (h : v.IsArray time baseline row steps baselines width)
    (hselectable : Variable.isUnselectable [time, baseline, row] = false) {i : Nat}
    {rows : List (List α)} (hrows : steps[i]? = some rows) :
    v.read (.integer i) = .ok (.step rows) := by
  have hi : i < steps.length := (List.getElem?_eq_some_iff.mp hrows).1
  have htimes : (steps.map some)[i]? = some (some rows) := by rw [List.getElem?_map, hrows]; rfl
  have hplace : Places.ofValue (α := α) (steps.map some).length (.integer i) = .ok (.one i) := by
    simp [Places.ofValue, Places.find, place?_natCast hi, Except.map]
  unfold Variable.read
  simp only [h.content, h.dims, hselectable, hplace, htimes, Except.bind, Bool.false_eq_true,
    if_false]

end Variable.IsArray

/-- Corrected rows of an array can be cut into blocks, as those of the variable are.  Where
there are both times and baselines they can be; 256 times without a baseline, in memory,
cannot. -/
def Variable.CanStore {α : Type} [Numeral α] (v : Variable α) (times baselines : Nat) : Prop :=
  ∃ blocks, Correction.newBlocks (α := α) [times, baselines, 3] v.blocks = .ok blocks

theorem Variable.canStore {K : Type} [Field K] [LinearOrder K] [IsStrictOrderedRing K] [FloorRing K]
    [Circular K] [Roots K] {v : Variable (Sample K)} {times baselines : Nat}
    (htimes : Cut.IsLength times) (hbaselines : Cut.IsLength baselines)
    (hblocks : ∀ blocks, v.blocks = some blocks → blocks.length = 3 ∧
      ∀ sizes ∈ blocks, Cut.IsSize (sizes.foldl max (sizes.headD 0))) :
    v.CanStore times baselines := by
  have hlengths : ∀ n ∈ [times, baselines, 3], Cut.IsLength n := by
    simp only [List.forall_mem_cons, List.not_mem_nil, false_imp_iff, implies_true, and_true]
    exact ⟨htimes, hbaselines, by decide⟩
  unfold CanStore Correction.newBlocks
  cases hstored : v.blocks with
  | none =>
    have hsaid : ∀ w ∈ List.replicate 3 (.text Cut.automaticText : Value (Sample K)),
        Cut.Saying w := fun w hw => List.eq_of_mem_replicate hw ▸ .automatic
    obtain ⟨blocks, h, -⟩ := Cut.exists_blocksOfValues (by rfl) hlengths hsaid
    exact ⟨blocks, h⟩
  | some stored =>
    obtain ⟨hlength, hsizes⟩ := hblocks stored hstored
    have hsaid : ∀ w ∈ stored.map fun sizes =>
        (.integer (sizes.foldl max (sizes.headD 0)) : Value (Sample K)), Cut.Saying w :=
      List.forall_mem_map.mpr fun sizes hmem => .size (hsizes sizes hmem)
    obtain ⟨blocks, h, -⟩ := Cut.exists_blocksOfValues (by simp [hlength]) hlengths hsaid
    exact ⟨blocks, h⟩

/-- The dataset with another array under one name, and another length of one dimension.  The
channels are as they were. -/
structure Dataset.Edited {α : Type} [Scalar α] (d e : Dataset α) (name : String) (v : Variable α)
    (dim : String) (n : Int) : Prop extends d.Resized dim n e where
  attributes : e.attributes = d.attributes
  frequencies : e.frequencies = d.frequencies
  variable_eq : e.get? name = some v

def Dataset.Yields {α : Type} [Quantity α] (d : Dataset α) (parameters selection : Value α)
    (outName : String) (results : List (StepResult α)) : Prop :=
  ∃ new, (d.correct parameters selection).result = .ok new ∧ Correction.Records new outName results

namespace Correction

theorem outputs_resized {α : Type} {old v : Variable α} {time baseline row dim : String} {n : Int}
    {results results' : List (StepResult α)} (hold : old.dims = [time, baseline, row])
    (hv : v.dims = [time, baseline, row])
    (hcoefficients : dim ≠ coefficientDim)
    (htimes : resize dim n (time, (results.length : Int)) = (time, (results'.length : Int)))
    (hbaselines : resize dim n (baseline, old.baselines) = (baseline, v.baselines))
    (hrow : resize dim n (row, 3) = (row, 3)) (outName : String)
    (blocks blocks' : List (List Int)) :
    Resized dim n (outputs old outName blocks results) (outputs v outName blocks' results') := by
  have hpair : resize dim n (coefficientDim, 2) = (coefficientDim, 2) :=
    resize_of_ne hcoefficients.symm 2
  unfold outputs
  rw [hold, hv]
  refine Resized.putAll (.cons ⟨rfl, ⟨rfl, ?_⟩⟩ .nil)
    (.cons ⟨rfl, ⟨rfl, ?_⟩⟩ (.cons ⟨rfl, ⟨rfl, ?_⟩⟩
    (.cons ⟨rfl, ⟨rfl, ?_⟩⟩ .nil)))
  · simp [Variable.extents, htimes, hbaselines, hrow]
  · simp [Variable.extents, htimes, hpair]
  · simp [Variable.extents, htimes]
  · simp [Variable.extents, Variable.along, htimes]

variable {α : Type} [Quantity α] {baselines : Int} {p c : Direction α} {settings : Settings α}
  {before : Standing α} {r : StepResult α} {chunk : Chunk α} {channels : Nested α}

section Gaps

theorem filter_insertIdx_of_neg {β : Type} {keep : β → Bool} {x : β} (hx : keep x = false)
    (xs : List β) (j : Nat) : (xs.insertIdx j x).filter keep = xs.filter keep := by
  induction xs generalizing j with
  | nil => cases j <;> simp [hx]
  | cons y rest ih =>
    cases j with
    | zero => simp [hx]
    | succ j => rw [List.insertIdx_succ_cons, List.filter_cons, List.filter_cons, ih]

theorem opinion_nil {ι : Type} (corrector : Corrector ι α) (scene : Scene α) (d : Direction α)
    (tolerance : α) : corrector.opinion scene d [] tolerance = .ok (.keep corrector.plane []) := by
  unfold Corrector.opinion Corrector.judge
  split
  · simp [predictive, minFitRows]
  · simp [reactive, minFitRows]

theorem refine_of_incomplete (before : Standing α) {tolerance : α}
    (hchunk : ∀ q ∈ chunk, q.isComplete = false)
    (hlength : (chunk.length : Int) = baselines)
    (htolerance : channels.rectangular.bind (toleranceInMetres settings.wTolerance) = .ok tolerance)
    (hcheck : settings.checkResidual = true → Scalar.less 0 tolerance = true) :
    refine baselines p settings before (.ofChunk chunk c channels) =
      .ok ⟨List.replicate chunk.length gap, before.plane, before.planes, 0⟩ := by
  have hnone : chunk.filter Uvw.isComplete = [] :=
    List.filter_eq_nil_iff.mpr fun q hq => by simp [hchunk q hq]
  refine refine_eq_ok_iff.mpr ⟨[], tolerance, .keep before.plane [], ?_, htolerance,
    opinion_nil .., rfl, rfl, rfl, hcheck, ?_⟩
  · rw [Slice.toward, Slice.ofChunk, hnone]
    rfl
  · have hplace := place_ofChunk baselines chunk c channels id
    rw [hnone, if_pos hlength] at hplace
    refine hplace.trans (congrArg Except.ok ?_)
    rw [← List.map_const']
    exact List.map_congr_left fun q hq => by simp [hchunk q hq]

theorem refine_insertIdx {q : Uvw α} (hq : q.isComplete = false) {j : Nat} (hj : j ≤ chunk.length)
    (h : refine baselines p settings before (.ofChunk chunk c channels) = .ok r) :
    refine (baselines + 1) p settings before (.ofChunk (chunk.insertIdx j q) c channels) =
      .ok { r with rows := r.rows.insertIdx j gap } := by
  have hfilter := filter_insertIdx_of_neg hq chunk j
  obtain ⟨hlength, hrows⟩ := rows_of_refine h
  obtain ⟨rows, tolerance, v, hrefined⟩ := refine_eq_ok_iff.mp h
  -- The row put in is dropped before anything is computed and comes back as a gap.
  have hscene : (Slice.ofChunk (chunk.insertIdx j q) c channels).scene =
      (Slice.ofChunk chunk c channels).scene := by
    unfold Slice.scene Slice.toward Slice.ofChunk
    rw [hfilter]
  have htoward : (Slice.ofChunk (chunk.insertIdx j q) c channels).toward p = .ok rows := by
    rw [← hrefined.rows_eq]
    exact congrFun (congrArg Scene.rows hscene) p
  refine refine_eq_ok_iff.mpr ⟨rows, tolerance, v, htoward, hrefined.tolerance_eq, ?_,
    hrefined.plane_eq, hrefined.planes_eq, hrefined.deviation_eq, hrefined.passes, ?_⟩
  · rw [hscene]
    exact hrefined.opinion_eq
  · have hinserted : ((chunk.insertIdx j q).length : Int) = baselines + 1 := by
      rw [List.length_insertIdx_of_le_length hj]
      omega
    rw [← Except.ok.inj htoward, List.map_map, place_ofChunk, if_pos hinserted, hrows,
      List.map_insertIdx, hq]
    rfl

end Gaps

section Runs

variable {slices : List (Except (Fault α) (Slice α))} {results : List (StepResult α)}

theorem refineAll_take (h : refineAll baselines p settings before slices = .ok results) (k : Nat) :
    refineAll baselines p settings before (slices.take k) = .ok (results.take k) := by
  induction slices generalizing before results k with
  | nil =>
    cases h
    simp [refineAll]
  | cons slice rest ih =>
    cases k with
    | zero => rfl
    | succ k =>
      obtain ⟨s, rfl, hslice⟩ := bind_eq_ok_iff.mp h
      obtain ⟨first, hfirst, hothers⟩ := bind_eq_ok_iff.mp hslice
      obtain ⟨others, hrest, rfl⟩ := map_eq_ok_iff.mp hothers
      rw [List.take_succ_cons, List.take_succ_cons, refineAll, Except.bind, hfirst]
      change (refineAll _ _ _ _ _).map _ = _
      rw [ih hrest k]
      rfl

theorem refineAll_insertIdx {s : Slice α} {skipped : StepResult α} {i : Nat} {b : Standing α}
    (h : refineAll baselines p settings before slices = .ok results)
    (hb : (before :: results.map StepResult.standing)[i]? = some b)
    (hs : refine baselines p settings b s = .ok skipped) (hskipped : skipped.standing = b) :
    refineAll baselines p settings before (slices.insertIdx i (.ok s)) =
      .ok (results.insertIdx i skipped) := by
  -- What comes after the slice put in finds the standing that it would have found without it.
  induction i generalizing before slices results with
  | zero =>
    cases hb
    rw [List.insertIdx_zero, List.insertIdx_zero, refineAll, Except.bind, hs]
    change (refineAll _ _ _ _ _).map _ = _
    rw [hskipped, h]
    rfl
  | succ i ih =>
    cases slices with
    | nil =>
      cases h
      cases hb
    | cons slice rest =>
      obtain ⟨s', rfl, hslice⟩ := bind_eq_ok_iff.mp h
      obtain ⟨first, hfirst, hothers⟩ := bind_eq_ok_iff.mp hslice
      obtain ⟨others, hrest, rfl⟩ := map_eq_ok_iff.mp hothers
      rw [List.insertIdx_succ_cons, List.insertIdx_succ_cons, refineAll, Except.bind, hfirst]
      change (refineAll _ _ _ _ _).map _ = _
      rw [ih hrest hb]
      rfl

theorem refineAll_map {baselines' : Int} {slices' : List (Except (Fault α) (Slice α))}
    {f : StepResult α → StepResult α} (hf : ∀ r, (f r).standing = r.standing)
    (hslices : List.Forall₂ (fun x x' => ∀ s, x = .ok s → ∃ s', x' = .ok s' ∧
      ∀ before r, refine baselines p settings before s = .ok r →
        refine baselines' p settings before s' = .ok (f r)) slices slices')
    (h : refineAll baselines p settings before slices = .ok results) :
    refineAll baselines' p settings before slices' = .ok (results.map f) := by
  induction hslices generalizing before results with
  | nil =>
    cases h
    rfl
  | cons hx _ ih =>
    obtain ⟨s, rfl, hslice⟩ := bind_eq_ok_iff.mp h
    obtain ⟨first, hfirst, hothers⟩ := bind_eq_ok_iff.mp hslice
    obtain ⟨others, hrest, rfl⟩ := map_eq_ok_iff.mp hothers
    obtain ⟨s', rfl, hs'⟩ := hx s rfl
    rw [refineAll, Except.bind, hs' before first hfirst]
    change (refineAll _ _ _ _ _).map _ = _
    rw [hf, ih hrest]
    rfl

end Runs

section Arrays

variable {d e : Dataset α} {chosen : Resolved α} {v : Variable α} {time baseline row : String}
  {steps : List (List (List α))} {count width : Nat}

theorem slices_of_isArray {chunks : List (Chunk α)} (hv : d.get? chosen.name = some v)
    (harray : v.IsArray time baseline row (chunks.map (List.map Uvw.cells)) count 3)
    (hselectable : Variable.isUnselectable [time, baseline, row] = false)
    (hc : Direction.ofValue chosen.dataCenter = .ok c) (hchannels : d.frequencies = .ok channels) :
    slices d chosen chunks.length = chunks.map fun chunk => .ok (.ofChunk chunk c channels) := by
  refine List.ext_getElem? fun i => ?_
  rw [slices, List.getElem?_map, List.getElem?_map, hc]
  by_cases hi : i < chunks.length
  · rw [List.getElem?_range hi, List.getElem?_eq_getElem hi, Option.map_some, Option.map_some]
    have hrows : (chunks.map (List.map Uvw.cells))[i]? = some (chunks[i].map Uvw.cells) := by
      rw [List.getElem?_map, List.getElem?_eq_getElem hi, Option.map_some]
    have hstores : d.Stores chosen.name (.integer i) chunks[i] :=
      ⟨by rw [Dataset.read, hv]; exact harray.read_eq hselectable hrows,
        v, hv, harray.width_eq (List.mem_of_getElem? hrows)⟩
    rw [hstores.slice_eq hchannels]
  · simp [hi]

theorem exists_of_corrected {results : List (StepResult α)} (hv : d.get? chosen.name = some v)
    (harray : v.IsArray time baseline row steps count width) (hne : steps ≠ [])
    (h : refineAll baselines p settings before (slices d chosen steps.length) = .ok results) :
    width = 3 ∧ Variable.isUnselectable [time, baseline, row] = false ∧
      ∃ c channels, Direction.ofValue chosen.dataCenter = .ok c ∧ d.frequencies = .ok channels := by
  obtain ⟨hlength, hall⟩ := refineAll_getElem? h
  have hpositive : 0 < results.length := by
    rw [hlength, slices, List.length_map, List.length_range]
    exact List.length_pos_of_ne_nil hne
  obtain ⟨s, b, hslice, -, hrefine⟩ := hall 0 _ (List.getElem?_eq_getElem hpositive)
  obtain ⟨j, hj, hslice⟩ := Option.map_eq_some_iff.mp
    ((List.getElem?_map ..).symm.trans hslice)
  obtain ⟨hi, rfl⟩ : 0 < steps.length ∧ 0 = j := by
    simpa [List.getElem?_eq_some_iff] using hj
  obtain ⟨c, channels, chunk, hc, hchannels, hselectable, hwidth, hcells, -⟩ :=
    exists_chunk_of_refine hv harray.isRectangular harray.content (by simpa using hi) hslice hrefine
  rw [harray.dims] at hselectable
  rw [List.getElem?_map, Option.map_eq_some_iff] at hcells
  obtain ⟨cells, hcells, hsame⟩ := hcells
  cases hsame
  rw [harray.width_eq (List.mem_of_getElem? hcells)] at hwidth
  exact ⟨by omega, hselectable, c, channels, hc, hchannels⟩

end Arrays

section Edits

variable {d e new : Dataset α} {old v : Variable α} {chosen : Resolved α}
  {time baseline row dim : String} {n : Int} {steps : List (List (List α))} {count width : Nat}
  {results : List (StepResult α)} {parameters selection : Value α}

theorem selects_of_edited (hedited : d.Edited e chosen.name v dim n)
    (h : d.Selects selection chosen) : e.Selects selection chosen := by
  have hnames := hedited.toResized.names
  constructor
  · rw [hnames, hedited.attributes]
    exact h.checked
  · rw [hnames, hedited.attributes]
    exact h.resolved

theorem lengths_of_edited {steps' : List (List (List α))} {count' width' : Nat}
    (hold : d.get? chosen.name = some old)
    (harray : old.IsArray time baseline row steps count width)
    (hedited : d.Edited e chosen.name v dim n)
    (hv : v.IsArray time baseline row steps' count' width') :
    resize dim n (time, (steps.length : Int)) = (time, (steps'.length : Int)) ∧
      resize dim n (baseline, (count : Int)) = (baseline, (count' : Int)) ∧
      resize dim n (row, (width : Int)) = (row, (width' : Int)) := by
  have hresized := hedited.entries.related.get? chosen.name
  have hold' : Keyed.get? d.entries chosen.name = some old := hold
  have hv' : Keyed.get? e.entries chosen.name = some v := hedited.variable_eq
  rw [hold', hv'] at hresized
  cases hresized with
  | some hresized =>
    have hextents := hresized.extents
    rw [hv.extents, harray.extents] at hextents
    simp only [List.map_cons, List.map_nil, List.cons.injEq] at hextents
    exact ⟨hextents.1.symm, hextents.2.1.symm, hextents.2.2.1.symm⟩

structure Corrected (d : Dataset α) (parameters selection : Value α) (settings : Settings α)
    (chosen : Resolved α) (old : Variable α) (time baseline row : String)
    (steps : List (List (List α))) (count width : Nat) (p : Direction α)
    (results : List (StepResult α)) : Prop where
  accepted : (Settings.ofParameters parameters).result = .ok settings
  selects : d.Selects selection chosen
  old_eq : d.get? chosen.name = some old
  array : old.IsArray time baseline row steps count width
  center : steps ≠ [] → Direction.ofValue chosen.imageCenter = .ok p
  near : 1 < steps.length → p.isNear p settings.tangentTolerance = true
  refined : refineAll count p settings .start (slices d chosen steps.length) = .ok results
  assembled : ∃ new, (assemble d old chosen.outName (Settings.ofParameters parameters).parameters
    chosen.imageCenter results).result = .ok new

theorem exists_corrected (haccepted : (Settings.ofParameters parameters).result = .ok settings)
    (hselects : d.Selects selection chosen) (hold : d.get? chosen.name = some old)
    (harray : old.IsArray time baseline row steps count width)
    (hnew : (d.correct parameters selection).result = .ok new) :
    ∃ p results, Corrected d parameters selection settings chosen old time baseline row steps count
      width p results ∧ Records new chosen.outName results := by
  rw [result_of_selects hselects haccepted, run_eq_ok_iff] at hnew
  obtain ⟨old', times, results, hold', htimes, -, hsteps, hassemble⟩ := hnew
  rw [hold] at hold'
  cases hold'
  rw [harray.content] at htimes
  cases htimes
  rw [List.length_map, harray.baselines_eq] at hsteps
  obtain ⟨p, hpoint, hall⟩ := exists_refineAll hsteps
  have hcenter : steps ≠ [] → Direction.ofValue chosen.imageCenter = .ok p := fun hne =>
    hpoint (by simpa [slices] using hne)
  refine ⟨p, results, ⟨haccepted, hselects, hold, harray, hcenter, fun hmany => ?_, hall, _,
    hassemble⟩, records_of_assemble hassemble⟩
  rw [hcenter (List.ne_nil_of_length_pos (by omega))] at hsteps
  exact near_of_steps hsteps (by simpa [slices] using hmany)

theorem Corrected.length_eq
    (h : Corrected d parameters selection settings chosen old time baseline row steps count width p
      results) : results.length = steps.length := by
  rw [(refineAll_getElem? h.refined).1, slices, List.length_map, List.length_range]

theorem Corrected.yields {results' : List (StepResult α)} {steps' : List (List (List α))}
    {count' width' : Nat}
    (h : Corrected d parameters selection settings chosen old time baseline row steps count width p
      results)
    (hedited : d.Edited e chosen.name v dim n)
    (hv : v.IsArray time baseline row steps' count' width')
    (hstore : v.CanStore steps'.length count')
    (hlength : results'.length = steps'.length) (hcoefficients : dim ≠ coefficientDim)
    (hrow : resize dim n (row, 3) = (row, 3)) (hsome : steps' ≠ [] → steps ≠ [])
    (hnear : 1 < steps'.length → p.isNear p settings.tangentTolerance = true)
    (hrefined : refineAll count' p settings .start (slices e chosen steps'.length) = .ok results') :
    e.Yields parameters selection chosen.outName results' := by
  obtain ⟨new, hassemble⟩ := h.assembled
  obtain ⟨blocks, made, coordinates, -, hassign, hcoordinates, -⟩ := assemble_eq_ok_iff.mp hassemble
  obtain ⟨blocks', hblocks'⟩ := hstore
  obtain ⟨htimes, hbaselines, -⟩ := lengths_of_edited h.old_eq h.array hedited hv
  rw [← h.length_eq, ← hlength] at htimes
  rw [← h.array.baselines_eq, ← hv.baselines_eq] at hbaselines
  obtain ⟨made', hassign', -⟩ := hedited.toResized.assign
    (outputs_resized h.array.dims hv.dims hcoefficients htimes hbaselines hrow chosen.outName blocks
      blocks') hassign
  have hassemble' : (assemble e v chosen.outName (Settings.ofParameters parameters).parameters
      chosen.imageCenter results').result =
        .ok (describe made' (Settings.ofParameters parameters).parameters coordinates) := by
    refine assemble_eq_ok_iff.mpr ⟨blocks', made', coordinates, ?_, hassign', hcoordinates, rfl⟩
    rw [hlength, hv.baselines_eq]
    exact hblocks'
  refine ⟨_, ?_, records_of_assemble hassemble'⟩
  rw [result_of_selects (selects_of_edited hedited h.selects) h.accepted, run_eq_ok_iff]
  refine ⟨v, _, results', hedited.variable_eq, hv.content, by rw [hv.baselines_eq]; omega, ?_,
    hassemble'⟩
  rw [List.length_map, hv.baselines_eq]
  by_cases hne : steps' = []
  · subst hne
    cases hrefined
    rfl
  · rw [h.center (hsome hne), steps_create_eq (by simpa [slices] using hnear), hrefined]

structure Chunked (d : Dataset α) (chosen : Resolved α) (time baseline row : String)
    (steps : List (List (List α))) (width : Nat) (chunks : List (Chunk α)) (c : Direction α)
    (channels : Nested α) : Prop where
  steps_eq : steps = chunks.map (List.map Uvw.cells)
  width_eq : width = 3
  selectable : Variable.isUnselectable [time, baseline, row] = false
  center_eq : Direction.ofValue chosen.dataCenter = .ok c
  frequencies_eq : d.frequencies = .ok channels

variable {chunks : List (Chunk α)}

theorem exists_chunked (hold : d.get? chosen.name = some old)
    (harray : old.IsArray time baseline row steps count width) (hne : steps ≠ [])
    (h : refineAll baselines p settings before (slices d chosen steps.length) = .ok results) :
    ∃ chunks c channels, Chunked d chosen time baseline row steps width chunks c channels := by
  obtain ⟨rfl, hselectable, c, channels, hc, hchannels⟩ := exists_of_corrected hold harray hne h
  obtain ⟨chunks, hchunks⟩ := exists_chunks fun rows hrows => (harray.rows rows hrows).2
  exact ⟨chunks, c, channels, hchunks, rfl, hselectable, hc, hchannels⟩

theorem Chunked.slices_eq {chunks' : List (Chunk α)} {count' : Nat}
    (h : Chunked d chosen time baseline row steps width chunks c channels)
    (hedited : d.Edited e chosen.name v dim n)
    (harray : v.IsArray time baseline row (chunks'.map (List.map Uvw.cells)) count' width) :
    slices e chosen chunks'.length = chunks'.map fun chunk => .ok (.ofChunk chunk c channels) := by
  obtain rfl := h.width_eq
  exact slices_of_isArray hedited.variable_eq harray h.selectable h.center_eq
    (hedited.frequencies.trans h.frequencies_eq)

section Chunked

variable (hchunked : Chunked d chosen time baseline row steps width chunks c channels)
  (h : Corrected d parameters selection settings chosen old time baseline row steps count width p
    results)

include hchunked h

theorem Chunked.refineAll_eq : refineAll count p settings .start
    (chunks.map fun chunk => .ok (.ofChunk chunk c channels)) = .ok results := by
  have hrefined := h.refined
  have harray := h.array
  obtain rfl := hchunked.width_eq
  obtain rfl := hchunked.steps_eq
  rwa [List.length_map, slices_of_isArray h.old_eq harray hchunked.selectable hchunked.center_eq
    hchunked.frequencies_eq] at hrefined

theorem Chunked.take {k : Nat} (hedited : d.Edited e chosen.name v dim n)
    (hv : v.IsArray time baseline row (steps.take k) count width) :
    refineAll count p settings .start (slices e chosen (steps.take k).length) =
      .ok (results.take k) := by
  have hall := refineAll_take (hchunked.refineAll_eq h) k
  rw [hchunked.steps_eq, ← List.map_take] at hv ⊢
  rw [List.length_map, hchunked.slices_eq hedited hv, List.map_take, hall]

theorem Chunked.insertTime {tolerance : α} {i : Nat} {b : Standing α} {gaps : List (List α)}
    (hb : (history results)[i]? = some b) (hi : i ≤ steps.length)
    (hgaps : ∀ r ∈ gaps, hasMissing r = true) (hedited : d.Edited e chosen.name v dim n)
    (hv : v.IsArray time baseline row (steps.insertIdx i gaps) count width)
    (htolerance : channels.rectangular.bind (toleranceInMetres settings.wTolerance) = .ok tolerance)
    (hcheck : settings.checkResidual = true → Scalar.less 0 tolerance = true) :
    refineAll count p settings .start (slices e chosen (steps.insertIdx i gaps).length) =
      .ok (results.insertIdx i ⟨List.replicate count gap, b.plane, b.planes, 0⟩) := by
  have hall := hchunked.refineAll_eq h
  obtain ⟨hcount, hwidth⟩ := hv.rows gaps (List.mem_insertIdx hi |>.mpr (.inl rfl))
  rw [hchunked.width_eq] at hwidth
  obtain ⟨chunk, rfl⟩ := exists_chunk hwidth
  rw [List.length_map] at hcount
  have hchunk : ∀ q ∈ chunk, q.isComplete = false := fun q hq => by
    simp [Uvw.isComplete, hgaps _ (List.mem_map_of_mem hq)]
  have hskipped := refine_of_incomplete (p := p) (c := c) b hchunk
    (congrArg Nat.cast hcount) htolerance hcheck
  rw [hcount] at hskipped
  rw [hchunked.steps_eq, ← List.map_insertIdx] at hv ⊢
  rw [List.length_map, hchunked.slices_eq hedited hv, List.map_insertIdx]
  exact refineAll_insertIdx hall hb hskipped rfl

theorem Chunked.insertBaseline {j : Nat} {gaps : List (List α)} (hj : j ≤ count)
    (hgaps : ∀ r ∈ gaps, hasMissing r = true) (hlength : gaps.length = steps.length)
    (hedited : d.Edited e chosen.name v dim n)
    (hv : v.IsArray time baseline row
      (List.zipWith (fun cells r => cells.insertIdx j r) steps gaps) (count + 1) width) :
    refineAll (count + 1 : Nat) p settings .start (slices e chosen
        (List.zipWith (fun cells r => cells.insertIdx j r) steps gaps).length) =
      .ok (results.map fun r => { r with rows := r.rows.insertIdx j gap }) := by
  have hall := hchunked.refineAll_eq h
  have hthree : ∀ r ∈ gaps, r.length = 3 := fun r hr => by
    obtain ⟨i, hi, rfl⟩ := List.getElem_of_mem hr
    have hcells := List.getElem_mem
      (l := List.zipWith (fun cells r => cells.insertIdx j r) steps gaps)
      (n := i) (by simp; omega)
    rw [List.getElem_zipWith] at hcells
    have hrows := (h.array.rows _ (List.getElem_mem (l := steps) (n := i) (by omega))).1
    rw [← hchunked.width_eq]
    exact (hv.rows _ hcells).2 _ ((List.mem_insertIdx (hrows ▸ hj)).mpr (.inl rfl))
  obtain ⟨qs, rfl⟩ := exists_chunk hthree
  have hzip : List.zipWith (fun cells r => cells.insertIdx j r) steps (qs.map Uvw.cells) =
      (List.zipWith (fun chunk q => chunk.insertIdx j q) chunks qs).map (List.map Uvw.cells) := by
    rw [hchunked.steps_eq, List.zipWith_map, List.map_zipWith]
    simp only [List.map_insertIdx]
  rw [hchunked.steps_eq, List.length_map, List.length_map] at hlength
  rw [hzip] at hv ⊢
  rw [List.length_map, hchunked.slices_eq hedited hv]
  push_cast
  refine refineAll_map (fun _ => rfl) ?_ hall
  rw [List.forall₂_map_left_iff, List.forall₂_map_right_iff, List.forall₂_iff_get]
  refine ⟨by simp [hlength], fun i hi _ s hs => ?_⟩
  cases hs
  refine ⟨_, rfl, fun b r hr => ?_⟩
  have hbound : j ≤ (chunks.get ⟨i, hi⟩).length := by
    have hrows := (rows_of_refine hr).1
    omega
  have hi' : i < qs.length := by omega
  have hq : qs[i].isComplete = false := by
    simp [Uvw.isComplete, hgaps _ (List.mem_map_of_mem (List.getElem_mem hi'))]
  rw [List.get_eq_getElem, List.getElem_zipWith]
  exact refine_insertIdx hq hbound hr

end Chunked

end Edits

section Exact

variable {K : Type} [Field K] [LinearOrder K] [FloorRing K] [Circular K] [Roots K]
  {d e : Dataset (Sample K)} {parameters selection : Value (Sample K)}
  {settings : Settings (Sample K)} {chosen : Resolved (Sample K)} {old v : Variable (Sample K)}
  {time baseline row : String} {steps : List (List (List (Sample K)))} {count width : Nat}
  {p c : Direction (Sample K)} {results : List (StepResult (Sample K))}
  {chunks : List (Chunk (Sample K))} {channels : Nested (Sample K)}

theorem Chunked.exists_tolerance
    (hchunked : Chunked d chosen time baseline row steps width chunks c channels)
    (h : Corrected d parameters selection settings chosen old time baseline row steps count width p
      results) (hne : steps ≠ []) :
    ∃ tolerance,
      channels.rectangular.bind (toleranceInMetres settings.wTolerance) = .ok tolerance ∧
      (settings.checkResidual = true → Scalar.less 0 tolerance = true) := by
  have hpositive : 0 < results.length := by
    rw [h.length_eq]
    exact List.length_pos_of_ne_nil hne
  obtain ⟨s, b, hslice, -, hrefine⟩ := (refineAll_getElem? (hchunked.refineAll_eq h)).2 0 _
    (List.getElem?_eq_getElem hpositive)
  rw [List.getElem?_map, Option.map_eq_some_iff] at hslice
  obtain ⟨chunk, -, hslice⟩ := hslice
  cases hslice
  obtain ⟨rows, tolerance, v, hrefined⟩ := refine_eq_ok_iff.mp hrefine
  exact ⟨tolerance, hrefined.tolerance_eq, fun hcheck =>
    Plane.less_zero_of_deviation_less (hrefined.passes hcheck)⟩

variable
  (h : Corrected d parameters selection settings chosen old time baseline row steps count width
  p results)

include h

theorem Corrected.yields_take {k : Nat} (hk : 0 < k) (hle : k ≤ steps.length)
    (hcoefficients : time ≠ coefficientDim) (hedited : d.Edited e chosen.name v time k)
    (hv : v.IsArray time baseline row (steps.take k) count width) (hstore : v.CanStore k count) :
    e.Yields parameters selection chosen.outName (results.take k) := by
  have hne : steps ≠ [] := List.ne_nil_of_length_pos (by omega)
  have htake : (steps.take k).length = k := by simp [hle]
  obtain ⟨chunks, c, channels, hchunked⟩ := exists_chunked h.old_eq h.array hne h.refined
  obtain ⟨-, -, hrow⟩ := lengths_of_edited h.old_eq h.array hedited hv
  rw [hchunked.width_eq] at hrow
  exact h.yields hedited hv (by rwa [htake]) (by simp [h.length_eq]) hcoefficients hrow
    (fun _ => hne) (fun hmany => h.near (by omega)) (hchunked.take h hedited hv)

theorem Corrected.yields_insertTime [IsStrictOrderedRing K] [LawfulCircular K] {i : Nat}
    {b : Standing (Sample K)}
    {gaps : List (List (Sample K))} (hb : (history results)[i]? = some b) (hsome : 0 < steps.length)
    (hpositive : Scalar.less 0 settings.tangentTolerance = true)
    (hfinite : steps.length = 1 → ∃ p, Direction.ofValue chosen.imageCenter = .ok p ∧ p.IsFinite)
    (hcoefficients : time ≠ coefficientDim) (hgaps : ∀ r ∈ gaps, hasMissing r = true)
    (hedited : d.Edited e chosen.name v time (steps.length + 1))
    (hv : v.IsArray time baseline row (steps.insertIdx i gaps) count width)
    (hstore : v.CanStore (steps.length + 1) count) :
    e.Yields parameters selection chosen.outName
      (results.insertIdx i ⟨List.replicate count gap, b.plane, b.planes, 0⟩) := by
  have hne : steps ≠ [] := List.ne_nil_of_length_pos hsome
  have hi : i ≤ steps.length := by
    have hbound := (List.getElem?_eq_some_iff.mp hb).1
    rw [history, List.length_cons, List.length_map, h.length_eq] at hbound
    omega
  have hinserted : (steps.insertIdx i gaps).length = steps.length + 1 :=
    List.length_insertIdx_of_le_length hi gaps
  obtain ⟨chunks, c, channels, hchunked⟩ := exists_chunked h.old_eq h.array hne h.refined
  obtain ⟨-, -, hrow⟩ := lengths_of_edited h.old_eq h.array hedited hv
  rw [hchunked.width_eq] at hrow
  obtain ⟨tolerance, htolerance, hcheck⟩ := hchunked.exists_tolerance h hne
  have hlength := h.length_eq
  refine h.yields hedited hv (by rwa [hinserted])
    (by rw [hinserted, List.length_insertIdx_of_le_length (by omega), hlength]) hcoefficients hrow
    (fun _ => hne) (fun _ => ?_) (hchunked.insertTime h hb hi hgaps hedited hv htolerance hcheck)
  -- The point of a lone time has been asked for only once.
  by_cases hone : steps.length = 1
  · obtain ⟨p', hp', hfinite⟩ := hfinite hone
    rw [h.center hne] at hp'
    cases hp'
    rw [Direction.isNear_self hfinite, hpositive]
  · exact h.near (by omega)

theorem Corrected.yields_insertBaseline (hconsistent : areConsistent d.entries = true) {j : Nat}
    {gaps : List (List (Sample K))} (hj : j ≤ count) (hcount : gaps.length = steps.length)
    (hcoefficients : baseline ≠ coefficientDim) (hgaps : ∀ r ∈ gaps, hasMissing r = true)
    (hedited : d.Edited e chosen.name v baseline (count + 1))
    (hv : v.IsArray time baseline row
      (List.zipWith (fun cells r => cells.insertIdx j r) steps gaps) (count + 1) width)
    (hstore : v.CanStore steps.length (count + 1)) :
    e.Yields parameters selection chosen.outName
      (results.map fun r => { r with rows := r.rows.insertIdx j gap }) := by
  have hzip : (List.zipWith (fun cells r => cells.insertIdx j r) steps gaps).length =
      steps.length := by
    simp [hcount]
  obtain ⟨-, -, hrow⟩ := lengths_of_edited h.old_eq h.array hedited hv
  have hthree : resize baseline (count + 1) (row, 3) = (row, 3) := by
    by_cases hne : steps = []
    · -- Nothing says how many coordinates there are to a row, but that lengths agree.
      by_cases hsame : row = baseline
      · have hagree := (agree_iff _).mp (agree_of_get? hconsistent h.old_eq)
        rw [h.array.extents] at hagree
        have hwidth := hagree (baseline, (count : Int)) (by simp) (row, (width : Int)) (by simp)
          hsame.symm
        rw [hsame, resize_self] at hrow
        have hwidth' := congrArg Prod.snd hrow
        dsimp only at hwidth hwidth'
        omega
      · exact resize_of_ne hsame 3
    · obtain ⟨rfl, -⟩ := exists_of_corrected h.old_eq h.array hne h.refined
      exact hrow
  refine h.yields hedited hv (by rwa [hzip]) (by rw [List.length_map, h.length_eq, hzip])
    hcoefficients hthree (fun hne hnone => ?_) (fun hmany => h.near (by rwa [hzip] at hmany)) ?_
  · simp [hnone] at hne
  · by_cases hne : steps = []
    · have hlength := h.length_eq
      subst hne
      rw [List.eq_nil_of_length_eq_zero hlength]
      rfl
    · obtain ⟨chunks, c, channels, hchunked⟩ := exists_chunked h.old_eq h.array hne h.refined
      exact hchunked.insertBaseline h hj hgaps hcount hedited hv

end Exact

end Correction

open Correction in
/-- An array that is corrected is corrected alike with later times left out, with another
time at which no row is complete, which only repeats the plane that is in use, and with
another row that is never complete.  The dimension that gets another length is not the one
of the coefficients, and the channels are as before.  Another time is for a point that has
been asked for twice, or is known to be near itself.  The array with its new length has to be
one that can be cut into blocks, as `Variable.canStore` says of each with something in it. -/
theorem corrected_neglects {K : Type} [Field K] [LinearOrder K] [IsStrictOrderedRing K]
    [FloorRing K] [Circular K] [LawfulCircular K] [Roots K] (d new : Dataset (Sample K))
    (parameters selection : Value (Sample K)) (settings : Settings (Sample K))
    (chosen : Resolved (Sample K)) (old : Variable (Sample K)) (time baseline row : String)
    (steps : List (List (List (Sample K)))) (count width : Nat)
    (haccepted : (Settings.ofParameters parameters).result = .ok settings)
    (hpositive : Scalar.less 0 settings.tangentTolerance = true)
    (hselects : d.Selects selection chosen) (hconsistent : areConsistent d.entries = true)
    (hold : d.get? chosen.name = some old)
    (harray : old.IsArray time baseline row steps count width)
    (hnew : (d.correct parameters selection).result = .ok new) :
    ∃ results : List (StepResult (Sample K)),
      results.length = steps.length ∧ Records new chosen.outName results ∧
      (∀ (k : Nat) e v, 0 < k → k ≤ steps.length → time ≠ coefficientDim →
        d.Edited e chosen.name v time k →
        v.IsArray time baseline row (steps.take k) count width → v.CanStore k count →
        e.Yields parameters selection chosen.outName (results.take k)) ∧
      (∀ (i : Nat) b gaps e v, (history results)[i]? = some b → 0 < steps.length →
        (steps.length = 1 → ∃ p, Direction.ofValue chosen.imageCenter = .ok p ∧ p.IsFinite) →
        time ≠ coefficientDim → (∀ r ∈ gaps, hasMissing r = true) →
        d.Edited e chosen.name v time (steps.length + 1) →
        v.IsArray time baseline row (steps.insertIdx i gaps) count width →
        v.CanStore (steps.length + 1) count →
        e.Yields parameters selection chosen.outName
          (results.insertIdx i ⟨List.replicate count gap, b.plane, b.planes, 0⟩)) ∧
      ∀ (j : Nat) gaps e v, j ≤ count → gaps.length = steps.length → baseline ≠ coefficientDim →
        (∀ r ∈ gaps, hasMissing r = true) →
        d.Edited e chosen.name v baseline (count + 1) →
        v.IsArray time baseline row
          (List.zipWith (fun cells r => cells.insertIdx j r) steps gaps) (count + 1) width →
        v.CanStore steps.length (count + 1) →
        e.Yields parameters selection chosen.outName
          (results.map fun r => { r with rows := r.rows.insertIdx j gap }) := by
  obtain ⟨p, results, hcorrected, hrecords⟩ :=
    exists_corrected haccepted hselects hold harray hnew
  refine ⟨results, hcorrected.length_eq, hrecords, ?_, ?_, ?_⟩
  · intro k e v hk hle hcoefficients hedited hv hstore
    exact hcorrected.yields_take hk hle hcoefficients hedited hv hstore
  · intro i b gaps e v hb hsome hfinite hcoefficients hgaps hedited hv hstore
    exact hcorrected.yields_insertTime hb hsome hpositive hfinite hcoefficients hgaps hedited hv
      hstore
  · intro j gaps e v hj hcount hcoefficients hgaps hedited hv hstore
    exact hcorrected.yields_insertBaseline hconsistent hj hcount hcoefficients hgaps hedited hv
      hstore

def arrayDataset (time baseline : String) (steps : List (List (List (Sample ℚ)))) (count : Nat)
    (others : Keyed (Variable (Sample ℚ))) : Dataset (Sample ℚ) where
  entries :=
    ("UVW",
      { dims := [time, baseline, "uvw"], shape := [steps.length, count, 3]
        content := .cube steps }) :: others
  coordinates := others.names
  attributes := []

def oneChannel : Keyed (Variable (Sample ℚ)) := [("chan", .along "chan" [.known 299792458])]

def slantedRows : List (List (Sample ℚ)) :=
  [[.known 100, .known 0, .known 50], [.known 0, .known 100, .known 0]]

def lostRow : List (Sample ℚ) := [.missing, .known 0, .known 0]

def slantedTwice : Dataset (Sample ℚ) :=
  arrayDataset "time" "baseline" [slantedRows, slantedRows] 2 oneChannel

theorem exists_edited (dim : String) (n : Int) (steps : List (List (List (Sample ℚ))))
    (count : Nat) (hdim : dim = "time" ∨ dim = "baseline")
    (htime : resize dim n ("time", 2) = ("time", (steps.length : Int)))
    (hbaseline : resize dim n ("baseline", 2) = ("baseline", (count : Int)))
    (hrows : ∀ rows ∈ steps, rows.length = count ∧ ∀ r ∈ rows, r.length = 3) :
    ∃ v, slantedTwice.Edited (arrayDataset "time" "baseline" steps count oneChannel) "UVW" v dim n ∧
      v.IsArray "time" "baseline" "uvw" steps count 3 ∧ v.blocks = none := by
  refine ⟨_, ⟨⟨rfl, .cons ⟨rfl, rfl, ?_⟩ (.cons ⟨rfl, rfl, ?_⟩ .nil)⟩, rfl, rfl, rfl⟩,
    ⟨rfl, rfl, rfl, hrows⟩, rfl⟩
  · have hrow : resize dim n ("uvw", 3) = ("uvw", 3) := resize_of_ne (by rintro rfl; simp at hdim) 3
    simp [Variable.extents, htime, hbaseline, hrow]
  · have hchannel : resize dim n ("chan", 1) = ("chan", 1) :=
      resize_of_ne (by rintro rfl; simp at hdim) 1
    simp [Variable.extents, Variable.along, hchannel]

theorem corrected_neglects_slanted :
    ∃ results : List (StepResult (Sample ℚ)), results.length = 2 ∧
      (arrayDataset "time" "baseline" [slantedRows] 2 oneChannel).Yields oneWavelength originToOrigin
        "UVW_WPLANE" (results.take 1) ∧
      (arrayDataset "time" "baseline" [[lostRow, lostRow], slantedRows, slantedRows] 2 oneChannel).Yields
        oneWavelength originToOrigin "UVW_WPLANE"
        (results.insertIdx 0 ⟨[Correction.gap, Correction.gap], .level, 0, 0⟩) ∧
      (arrayDataset "time" "baseline" [lostRow :: slantedRows, lostRow :: slantedRows] 3 oneChannel).Yields
        oneWavelength originToOrigin "UVW_WPLANE"
        (results.map fun r => { r with rows := r.rows.insertIdx 0 Correction.gap }) := by
  have haccepted : (Settings.ofParameters oneWavelength).result =
      .ok ⟨.known 1, true, false, .known 60, 1440, .known (1 / 1000000), false⟩ := by
    decide +kernel
  obtain ⟨new, hnew, -⟩ :
      ∃ new, (slantedTwice.correct oneWavelength originToOrigin).result = .ok new ∧
      () = () := map_eq_ok_iff.mp (by decide +kernel)
  obtain ⟨results, hlength, -, htake, htime, hbaseline⟩ :=
    corrected_neglects slantedTwice new _ _ _ ⟨"UVW", "UVW_WPLANE", originValue, originValue⟩ _
      "time" "baseline" "uvw" [slantedRows, slantedRows] 2 3 haccepted (by decide +kernel)
      ⟨by decide +kernel, rfl⟩ (by decide +kernel) rfl ⟨rfl, rfl, rfl, by decide⟩ hnew
  have hstore {v : Variable (Sample ℚ)} {times count : Nat} (hblocks : v.blocks = none)
      (htimes : Cut.IsLength times) (hcount : Cut.IsLength count) : v.CanStore times count :=
    Variable.canStore htimes hcount fun blocks hsome => by cases hblocks.symm.trans hsome
  refine ⟨results, hlength, ?_, ?_, ?_⟩
  · obtain ⟨v, hedited, harray, hblocks⟩ :=
      exists_edited "time" 1 [slantedRows] 2 (by decide) rfl rfl
      (by decide)
    exact htake 1 _ v (by decide) (by decide) (by decide) hedited harray
      (hstore hblocks (by decide) (by decide))
  · obtain ⟨v, hedited, harray, hblocks⟩ := exists_edited "time" 3
      [[lostRow, lostRow], slantedRows, slantedRows] 2 (by decide) rfl rfl (by decide)
    exact htime 0 .start [lostRow, lostRow] _ v rfl (by decide)
      (fun hone => absurd hone (by decide)) (by decide) (by decide +kernel) hedited harray
      (hstore hblocks (by decide) (by decide))
  · obtain ⟨v, hedited, harray, hblocks⟩ := exists_edited "baseline" 3
      [lostRow :: slantedRows, lostRow :: slantedRows] 3 (by decide) rfl rfl (by decide)
    exact hbaseline 0 [lostRow, lostRow] _ v (by decide) rfl (by decide) (by decide +kernel) hedited
      harray (hstore hblocks (by decide) (by decide))

/-- Lengths are heeded where they are those of something else, or decide what is asked for.
Of no times nothing is asked, so that no channels are missed; one time may be for a point
that is not known; the coefficients have a dimension of two; and there may be a channel for
each time or baseline. -/
theorem corrected_heeds_lengths :
    let corrects (d : Dataset (Sample ℚ)) (selection : Value (Sample ℚ)) : Bool :=
      (d.correct oneWavelength selection).result.isOk
    let coefficients (d : Dataset (Sample ℚ)) : Option (Option (Content (Sample ℚ))) :=
      (d.correct oneWavelength originToOrigin).result.toOption.map fun new =>
        (new.get? Correction.coefficientsName).map (·.content)
    let unknown : Value (Sample ℚ) := .dict [("data_phase_center", originValue),
      ("image_phase_center", .list [.real .missing, .real (.known 0)])]
    let channels (n : Nat) : Keyed (Variable (Sample ℚ)) :=
      [("chan", .along "chan" ((List.range n).map fun i => .known i))]
    let steep : List (List (Sample ℚ)) :=
      [[.known 100, .known 0, .known 200000000], [.known 0, .known 100, .known 0]]
    (corrects (arrayDataset "time" "baseline" [] 2 []) originToOrigin = true ∧
      corrects (arrayDataset "time" "baseline" [[lostRow, lostRow]] 2 []) originToOrigin = false) ∧
    (corrects (arrayDataset "time" "baseline" [slantedRows] 2 oneChannel) unknown = true ∧
      corrects (arrayDataset "time" "baseline" [[lostRow, lostRow], slantedRows] 2 oneChannel)
        unknown = false) ∧
    (corrects (arrayDataset "wplane_coeff" "baseline" [slantedRows, slantedRows] 2 oneChannel)
        originToOrigin = true ∧
      corrects (arrayDataset "wplane_coeff" "baseline" [slantedRows] 2 oneChannel)
        originToOrigin = false) ∧
    (corrects (arrayDataset "time" "wplane_coeff" [slantedRows] 2 oneChannel) originToOrigin = true ∧
      corrects (arrayDataset "time" "wplane_coeff" [slantedRows ++ [lostRow]] 3 oneChannel)
        originToOrigin = false) ∧
    (corrects (arrayDataset "chan" "baseline" [slantedRows, slantedRows] 2 (channels 2))
        originToOrigin = true ∧
      corrects (arrayDataset "chan" "baseline" [slantedRows] 2 (channels 1)) originToOrigin = false) ∧
    coefficients (arrayDataset "time" "chan" [steep] 2 []) =
        some (some (.table [[.known 0, .known 0]])) ∧
      coefficients (arrayDataset "time" "chan" [steep ++ [lostRow]] 3 []) =
        some (some (.table [[.known 2000000, .known 0]])) := by
  decide +kernel

end Coplanar
