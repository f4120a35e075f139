import Mathlib.Data.List.Nodup
import Coplanar.Proofs.Refinement

/-! What the dataset has on record once it is corrected: under each name, the part of every
result that goes there. -/
namespace Coplanar

section Replacing

variable {α : Type} {vs added : Keyed (Variable α)} {name : String} {v : Variable α}

theorem get?_putAll_of_not_mem (h : name ∉ added.names) :
    (putAll vs added).get? name = vs.get? name := by
  induction added generalizing vs with
  | nil => rfl
  | cons first rest ih =>
    rw [Keyed.names, List.map_cons, List.mem_cons, not_or] at h
    change (putAll (vs.put first.1 first.2) rest).get? name = _
    rw [ih h.2, Keyed.get?_put_of_ne _ _ (Ne.symm h.1)]

theorem get?_putAll_of_mem (hnodup : added.names.Nodup) (hmem : (name, v) ∈ added) :
    (putAll vs added).get? name = some v := by
  induction added generalizing vs with
  | nil => cases hmem
  | cons first rest ih =>
    rw [Keyed.names, List.map_cons, List.nodup_cons] at hnodup
    change (putAll (vs.put first.1 first.2) rest).get? name = _
    obtain rfl | hrest := List.mem_cons.mp hmem
    · rw [get?_putAll_of_not_mem hnodup.1, Keyed.get?_put_self]
    · exact ih hnodup.2 hrest

theorem mem_of_get? {β : Type} {entries : Keyed β} {x : β} (h : entries.get? name = some x) :
    (name, x) ∈ entries := by
  induction entries with
  | nil => cases h
  | cons first rest ih =>
    obtain ⟨key, y⟩ := first
    rw [Keyed.get?_cons] at h
    split at h
    · rename_i hkey
      cases h
      rw [hkey]
      exact .head _
    · exact .tail _ (ih h)

theorem mem_names_put {β : Type} {entries : Keyed β} {key : String} {x : β} :
    name ∈ (entries.put key x).names ↔ name = key ∨ name ∈ entries.names := by
  induction entries with
  | nil => simp [Keyed.put, Keyed.names]
  | cons first rest ih =>
    by_cases hkey : first.1 = key
    · simp [Keyed.put, hkey, Keyed.names]
    · rw [Keyed.put, if_neg hkey, Keyed.names, List.map_cons, List.mem_cons]
      change name = first.1 ∨ name ∈ (Keyed.put rest key x).names ↔
        name = key ∨ name ∈ first.1 :: Keyed.names rest
      rw [ih, List.mem_cons]
      exact or_left_comm

theorem nodup_names_put {β : Type} {entries : Keyed β} {key : String} {x : β}
    (h : entries.names.Nodup) : (entries.put key x).names.Nodup := by
  induction entries with
  | nil => simp [Keyed.put, Keyed.names]
  | cons first rest ih =>
    rw [Keyed.names, List.map_cons, List.nodup_cons] at h
    by_cases hkey : first.1 = key
    · rw [Keyed.put, if_pos hkey, Keyed.names, List.map_cons, List.nodup_cons]
      exact h
    · rw [Keyed.put, if_neg hkey, Keyed.names, List.map_cons, List.nodup_cons]
      refine ⟨fun hmem => ?_, ih h.2⟩
      obtain hsame | hrest := mem_names_put.mp hmem
      · exact hkey hsame
      · exact h.1 hrest

theorem nodup_names_putAll (h : vs.names.Nodup) : (putAll vs added).names.Nodup := by
  induction added generalizing vs with
  | nil => exact h
  | cons first rest ih => exact ih (nodup_names_put h)

end Replacing

namespace Dataset

variable {α : Type} {d new : Dataset α} {vs added : Keyed (Variable α)} {name : String}
  {v : Variable α}

theorem entries_of_settle (h : d.settle vs = .ok new) : new.entries = vs := by
  unfold settle at h
  split at h
  · cases h
    rfl
  · cases h

def moved (d : Dataset α) (added : Keyed (Variable α)) : Keyed (Variable α) :=
  added.filter fun (name, _) => d.isCoordinate name

def others (d : Dataset α) (added : Keyed (Variable α)) : Keyed (Variable α) :=
  added.filter fun (name, _) => !d.isCoordinate name

theorem prepare_eq (d : Dataset α) (added : Keyed (Variable α)) :
    d.prepare added =
      (if (d.moved added).isEmpty then .ok d else d.relabel (d.moved added)).bind fun ready =>
        if agree (sizes ready.entries ++ sizes (d.others added)) then .ok ready
        else .error .lengthsDisagree := by
  have hothers : d.others added = added.filter (not ∘ fun (name, _) => d.isCoordinate name) := rfl
  unfold prepare
  rw [List.partition_eq_filter_filter, ← hothers]
  change (if (d.moved added).isEmpty = true then _ else _) = _
  split <;> rfl

theorem entries_of_assign (h : d.assign added = .ok new) :
    new.entries = putAll (putAll d.entries (d.moved added)) (d.others added) := by
  obtain ⟨ready, hready, habsorbed⟩ := bind_eq_ok_iff.mp h
  obtain ⟨settled, hsettled, hchecked⟩ := bind_eq_ok_iff.mp habsorbed
  have hmoved : ready.entries = putAll d.entries (d.moved added) := by
    rw [prepare_eq] at hready
    obtain ⟨relabeled, hrelabeled, hagree⟩ := bind_eq_ok_iff.mp hready
    split at hagree
    · cases hagree
      split at hrelabeled
      · rename_i hempty
        cases hrelabeled
        rw [List.isEmpty_iff.mp hempty]
        rfl
      · unfold relabel at hrelabeled
        dsimp only at hrelabeled
        split at hrelabeled
        · cases hrelabeled
        · split at hrelabeled
          · cases hrelabeled
          · exact entries_of_settle hrelabeled
    · cases hagree
  split at hchecked
  · cases hchecked
  · cases hchecked
    rw [entries_of_settle hsettled, hmoved]
    rfl

theorem get?_of_assign (h : d.assign added = .ok new) (hnodup : added.names.Nodup)
    (hmem : (name, v) ∈ added) : new.get? name = some v := by
  have hnames : ∀ p : String × Variable α → Bool, (Keyed.names (added.filter p)).Nodup := fun p =>
    hnodup.sublist (List.filter_sublist.map _)
  rw [get?, entries_of_assign h]
  cases hcoordinate : d.isCoordinate name with
  | true =>
    have hothers : name ∉ Keyed.names (d.others added) := by
      simp [Keyed.names, others, hcoordinate]
    rw [get?_putAll_of_not_mem hothers]
    refine get?_putAll_of_mem (hnames _) ?_
    exact List.mem_filter.mpr ⟨hmem, hcoordinate⟩
  | false =>
    refine get?_putAll_of_mem (hnames _) ?_
    exact List.mem_filter.mpr ⟨hmem, by simp [hcoordinate]⟩

end Dataset

namespace Correction

def planeNames : List String := [coefficientsName, epochName, deviationName]

/-- The dataset has on record what each time has come to; the rows if their name is not taken
for the planes. -/
structure Records {α : Type} (d : Dataset α) (outName : String) (results : List (StepResult α)) :
    Prop where
  rows : outName ∉ planeNames →
    ∃ v, d.get? outName = some v ∧ v.content = .cube (results.map (·.rows))
  planes : ∃ v, d.get? coefficientsName = some v ∧
    v.content = .table (results.map fun r => [r.plane.a, r.plane.b])
  counts : ∃ v, d.get? epochName = some v ∧ v.content = .counts (results.map (·.planes))
  deviations : ∃ v, d.get? deviationName = some v ∧
    v.content = .series (results.map (·.deviation))

variable {α : Type} {d new : Dataset α} {old : Variable α} {outName : String}
  {blocks : List (List Int)} {results : List (StepResult α)}

theorem records_of_assign (h : d.assign (outputs old outName blocks results) = .ok new) :
    Records new outName results := by
  have hnodup : (outputs old outName blocks results).names.Nodup :=
    nodup_names_putAll (by simp [Keyed.names])
  have hthree : planeNames.Nodup := by decide
  have hplanes : ∀ name v, (name, v) ∈ _ → new.get? name = some v := fun name v hmem =>
    Dataset.get?_of_assign h hnodup (mem_of_get? (get?_putAll_of_mem hthree hmem))
  refine ⟨fun hname => ?_, ⟨_, hplanes _ _ (.head _), rfl⟩,
    ⟨_, hplanes _ _ (.tail _ (.head _)), rfl⟩,
    ⟨_, hplanes _ _ (.tail _ (.tail _ (.head _))), rfl⟩⟩
  have hrows : (outputs old outName blocks results).get? outName =
      some ⟨old.dims, [(results.length : Int), old.baselines, 3], .cube (results.map (·.rows)),
        some blocks⟩ := by
    unfold outputs
    rw [get?_putAll_of_not_mem]
    · exact if_pos rfl
    · exact hname
  exact ⟨_, Dataset.get?_of_assign h hnodup (mem_of_get? hrows), rfl⟩

variable [Quantity α] {parameters center : Value α}

theorem assemble_eq_ok_iff :
    (assemble d old outName parameters center results).result = .ok new ↔
      ∃ blocks made coordinates,
        newBlocks (α := α) [results.length, old.baselines.toNat, 3] old.blocks = .ok blocks ∧
          d.assign (outputs old outName blocks results) = .ok made ∧
          center.coordinates = .ok coordinates ∧ describe made parameters coordinates = new := by
  unfold assemble
  cases newBlocks (α := α) [results.length, old.baselines.toNat, 3] old.blocks with
  | error fault => simp
  | ok blocks =>
    simp only [Except.ok.injEq, exists_and_left, exists_eq_left']
    cases hprepare : d.prepare (outputs old outName blocks results) with
    | error fault =>
      have hassign : d.assign (outputs old outName blocks results) = .error fault := by
        rw [Dataset.assign, hprepare]
        rfl
      simp [hassign]
    | ok ready =>
      cases d.assign (outputs old outName blocks results) with
      | error fault => simp
      | ok made =>
        cases center.coordinates with
        | error fault => simp
        | ok coordinates => simp

theorem records_of_assemble
    (h : (assemble d old outName parameters center results).result = .ok new) :
    Records new outName results := by
  obtain ⟨blocks, made, coordinates, -, hassign, -, rfl⟩ := assemble_eq_ok_iff.mp h
  have hmade := records_of_assign hassign
  exact ⟨hmade.rows, hmade.planes, hmade.counts, hmade.deviations⟩

variable {settings : Settings α} {chosen : Resolved α}

theorem run_eq_ok_iff :
    (run d chosen settings parameters).result = .ok new ↔
      ∃ old times results, d.get? chosen.name = some old ∧ old.content.steps? = some times ∧
        0 ≤ old.baselines ∧
        (steps old.baselines (Direction.ofValue chosen.imageCenter) (.create settings)
          (slices d chosen times.length)).1 = .ok results ∧
        (assemble d old chosen.outName parameters chosen.imageCenter results).result = .ok new := by
  constructor
  · intro h
    obtain ⟨fault, hfault, -⟩ | ⟨old, times, hold, htimes, hbaselines⟩ :=
      run_cases d chosen settings parameters
    · cases hfault.symm.trans h
    · rw [run_result hold htimes hbaselines] at h
      obtain ⟨results, hresults, hassemble⟩ := bind_eq_ok_iff.mp h
      exact ⟨old, times, results, hold, htimes, hbaselines, hresults, hassemble⟩
  · rintro ⟨old, times, results, hold, htimes, hbaselines, hresults, hassemble⟩
    rw [run_result hold htimes hbaselines, hresults]
    exact hassemble

theorem exists_refineAll {baselines : Int} {point : Except (Fault α) (Direction α)}
    {slices : List (Except (Fault α) (Slice α))}
    (h : (steps baselines point (.create settings) slices).1 = .ok results) :
    ∃ p, (slices ≠ [] → point = .ok p) ∧
      refineAll baselines p settings .start slices = .ok results := by
  cases point with
  | ok p => exact ⟨p, fun _ => rfl, refineAll_of_steps coherent_create h⟩
  | error fault =>
    cases slices with
    | nil => exact ⟨⟨0, 0⟩, fun hne => absurd rfl hne, h⟩
    | cons slice rest =>
      cases slice with
      | error fault' => cases h
      | ok s => cases h

end Correction

end Coplanar
