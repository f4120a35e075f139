import Coplanar.Corrector
import Coplanar.Dataset
import Coplanar.Dataset.Cut
import Coplanar.Parameter.Selection
import Coplanar.Parameter.Settings

/-! Correction of a whole dataset: one corrector sees its time steps in order. -/
namespace Coplanar

variable {α : Type}

structure StepResult (α : Type) where
  rows : List (List α)
  plane : Plane α
  planes : Int
  deviation : α
deriving DecidableEq, Repr

abbrev Correction (α : Type) := Reported α (Dataset α)

namespace Correction

def coefficientsName : String := "WPLANE_COEFF"
def epochName : String := "WPLANE_EPOCH"
def deviationName : String := "WPLANE_MAX_DEVIATION"
def coefficientDim : String := "wplane_coeff"
def parametersAttribute : String := "wplane_parms"
def centerAttribute : String := "wplane_image_phase_center"

def feed [Trig α] (s : Slice α) : Feed Unit α where
  rows d _ := (s.toward d, ())
  channels _ := s.channels.rectangular

/-- Corrected rows at the places of the valid baselines, and nothing known at
the others. -/
def spread [Numeral α] : List Bool → Chunk α → List (List α)
  | [], _ => []
  | true :: valid, r :: rows => [r.u, r.v, r.w] :: spread valid rows
  | _ :: valid, rows =>
    [Numeral.missing, Numeral.missing, Numeral.missing] :: spread valid rows

def marks? : Nested Bool → Option (List Bool)
  | .leaf _ => none
  | .node items =>
    items.mapM fun
      | .leaf mark => some mark
      | .node _ => none

@[simp] theorem marks?_ofList (marks : List Bool) : marks? (.ofList marks) = some marks := by
  show (marks.map Nested.leaf).mapM _ = some marks
  induction marks with
  | nil => rfl
  | cons mark rest ih => rw [List.map_cons, List.mapM_cons, ih]; rfl

def place [Numeral α] (baselines : Int) (valid : Nested Bool) (rows : Chunk α) :
    Except (Fault α) (List (List α)) :=
  match marks? valid with
  | some marks => if (marks.length : Int) = baselines then .ok (spread marks rows) else .error .outOfRange
  | none => .error .outOfRange

/-- The largest of the sizes along each dimension is that of the new blocks. -/
def newBlocks [Numeral α] (shape : List Nat) :
    Option (List (List Int)) → Except (Fault α) (List (List Int))
  | none => Cut.usualBlocks shape
  | some blocks =>
    Cut.blocksOfValues shape
      (blocks.map fun sizes => .integer (sizes.foldl max (sizes.headD 0)))

variable [Quantity α]

def step (baselines : Int) (tangentPoint : Except (Fault α) (Direction α))
    (c : Corrector (Slice α) α) (s : Slice α) :
    Except (Fault α) (StepResult α) × Corrector (Slice α) α × List (Note α) :=
  let reply := (c.associate (some s)).correctedRows feed tangentPoint 0 ()
  let result := reply.result.bind fun served =>
    (place baselines s.valid served.rows).map fun rows =>
      { rows
        plane := reply.corrector.plane
        planes := reply.corrector.epoch.plane
        deviation := reply.corrector.deviation.getD 0 }
  (result, reply.corrector, reply.notes)

def steps (baselines : Int) (tangentPoint : Except (Fault α) (Direction α)) :
    Corrector (Slice α) α → List (Except (Fault α) (Slice α)) →
    Except (Fault α) (List (StepResult α)) × Corrector (Slice α) α × List (Note α)
  | c, [] => (.ok [], c, [])
  | c, slice :: rest =>
    match slice with
    | .error fault => (.error fault, c, [])
    | .ok s =>
      match step baselines tangentPoint c s with
      | (.error fault, c, notes) => (.error fault, c, notes)
      | (.ok first, c, notes) =>
        let (others, c, more) := steps baselines tangentPoint c rest
        (others.map (first :: ·), c, notes ++ more)

/-- What has come out of all time steps, by name.  Where the chosen name is one of
the others, theirs wins. -/
def outputs (old : Variable α) (outName : String) (blocks : List (List Int))
    (results : List (StepResult α)) : Keyed (Variable α) :=
  let times : Int := results.length
  let time := old.dims.headD ""
  let corrected : Variable α :=
    { dims := old.dims, shape := [times, old.baselines, 3]
      content := .cube (results.map (·.rows)), blocks := some blocks }
  let coefficients : Variable α :=
    { dims := [time, coefficientDim], shape := [times, 2]
      content := .table (results.map fun r => [r.plane.a, r.plane.b]) }
  let epochs : Variable α :=
    { dims := [time], shape := [times], content := .counts (results.map (·.planes)) }
  putAll [(outName, corrected)]
    [(coefficientsName, coefficients), (epochName, epochs),
      (deviationName, .along time (results.map (·.deviation)))]

def coefficientNotices (old : Variable α) (count : Nat) : List (Message α) :=
  (List.replicate count (Variable.notices [old.dims.headD "", coefficientDim])).flatten

def describe (d : Dataset α) (parameters : Value α) (center : List (Value α)) : Dataset α :=
  { d with
    attributes :=
      (d.attributes.put parametersAttribute parameters).put centerAttribute (.list center) }

/-- The dataset with the new variables.  The coefficients become a variable, are made
anew twice when they join the dataset, and once more when it is described. -/
def assemble (d : Dataset α) (old : Variable α) (outName : String) (parameters center : Value α)
    (results : List (StepResult α)) : Correction α :=
  match newBlocks [results.length, old.baselines.toNat, 3] old.blocks with
  | .error fault => ⟨.error fault, []⟩
  | .ok blocks =>
    let added := outputs old outName blocks results
    match d.prepare added, d.assign added with
    | .error fault, _ => ⟨.error fault, coefficientNotices old 1⟩
    | .ok _, .error fault => ⟨.error fault, coefficientNotices old 3⟩
    | .ok _, .ok new =>
      match center.coordinates with
      | .error fault => ⟨.error fault, coefficientNotices old 3⟩
      | .ok center => ⟨.ok (describe new parameters center), coefficientNotices old 4⟩

structure Resolved (α : Type) where
  name : String
  outName : String
  dataCenter : Value α
  imageCenter : Value α

def resolve (parameters : Value α) : Except (Fault α) (Resolved α) := do
  let name ← parameters.entry Selection.uvwKey
  let outName ← parameters.entry Selection.uvwOutKey
  let dataCenter ← parameters.entry Selection.dataCenterKey
  let imageCenter ← parameters.entry Selection.imageCenterKey
  match name, outName with
  | .text name, .text outName => return { name, outName, dataCenter, imageCenter }
  | _, _ => throw .wrongType

def slices (d : Dataset α) (chosen : Resolved α) (times : Nat) :
    List (Except (Fault α) (Slice α)) :=
  let center := Direction.ofValue chosen.dataCenter
  (List.range times).map fun (i : Nat) => d.slice chosen.name center (.integer i)

def run (d : Dataset α) (chosen : Resolved α) (settings : Settings α) (parameters : Value α) :
    Correction α :=
  match d.get? chosen.name with
  | none => ⟨.error .unknownName, []⟩
  | some old =>
    match old.content.steps? with
    | none => ⟨.error .malformed, []⟩
    | some times =>
      let opening := if settings.verbose then [Message.started] else []
      if old.baselines < 0 then ⟨.error .malformed, opening⟩
      else
        let (results, c, notes) :=
          steps old.baselines (Direction.ofValue chosen.imageCenter) (.create settings)
            (slices d chosen times.length)
        let said := opening ++ Message.ofNotes settings.verbose settings.interval notes
        match results with
        | .error fault => ⟨.error fault, said⟩
        | .ok results =>
          let made := assemble d old chosen.outName parameters chosen.imageCenter results
          let closing :=
            match made.result with
            | .ok _ => if settings.verbose then [.finished c.epoch.plane] else []
            | .error _ => []
          ⟨made.result, said ++ made.messages ++ closing⟩

end Correction

/-- Takes the best plane out of a variable of a dataset, one time step at a
time.  The dataset given stays as it is. -/
def Dataset.correct [Quantity α] (d : Dataset α) (parameters selection : Value α) :
    Correction α :=
  let selected := Selection.check d.names d.attributes selection
  let before := selected.complaints.map Message.complaint
  match selected.result with
  | .error fault => ⟨.error fault, before⟩
  | .ok false => ⟨.error .selectionRefused, before⟩
  | .ok true =>
    let checked := Settings.ofParameters parameters
    let said := before ++ checked.complaints.map Message.complaint
    match checked.result, Correction.resolve selected.parameters with
    | .error fault, _ => ⟨.error fault, said⟩
    | .ok _, .error fault => ⟨.error fault, said⟩
    | .ok settings, .ok chosen =>
      let done := Correction.run d chosen settings checked.parameters
      { done with messages := said ++ done.messages }

end Coplanar
