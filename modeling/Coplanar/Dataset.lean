import Coplanar.Dataset.Places
import Coplanar.Message
import Coplanar.Source

/-! Datasets of visibilities: variables by name along named dimensions, and
attributes.  A dimension has one length.  A variable is a datum or a coordinate;
one that is named like a dimension is a coordinate. -/
namespace Coplanar

inductive Content (α : Type) where
  /-- For each time, for each baseline, its coordinates. -/
  | cube (steps : List (List (List α)))
  /-- As a cube, of which not all times can be read. -/
  | patchy (steps : List (Option (List (List α))))
  /-- For each time, a row. -/
  | table (rows : List (List α))
  /-- For each place along the dimension, a number. -/
  | series (items : List α)
  | counts (items : List Int)
  /-- A number along no dimension. -/
  | point (x : α)
deriving DecidableEq, Repr

/-- The lengths in `shape` are those that are declared: what can be read of a variable
stored in blocks may differ from them. -/
structure Variable (α : Type) where
  dims : List String
  shape : List Int
  content : Content α
  /-- The sizes of the blocks along each dimension, if it is stored in blocks. -/
  blocks : Option (List (List Int)) := none
deriving DecidableEq, Repr

structure Dataset (α : Type) where
  entries : Keyed (Variable α)
  /-- The names of those that are coordinates. -/
  coordinates : List String
  attributes : Dict α

variable {α : Type}

namespace Content

def ofSteps (steps : List (Option (List (List α)))) : Content α :=
  match steps.mapM id with
  | some all => .cube all
  | none => .patchy steps

def steps? : Content α → Option (List (Option (List (List α))))
  | .cube steps => some (steps.map some)
  | .patchy steps => some steps
  | _ => none

def toNested [Scalar α] : Content α → Nested α
  | .cube steps => .node (steps.map fun rows => .node (rows.map .ofList))
  | .patchy steps => .node (steps.map fun rows => .node ((rows.getD []).map .ofList))
  | .table rows => .node (rows.map .ofList)
  | .series items => .ofList items
  | .counts items => .ofList (items.map fun (n : Int) => Scalar.natural n.toNat)
  | .point x => .leaf x

end Content

inductive Reading (α : Type) where
  | step (rows : List (List α))
  | steps (steps : List (List (List α)))
deriving DecidableEq, Repr

namespace Variable

def along (dim : String) (items : List α) : Variable α :=
  { dims := [dim], shape := [items.length], content := .series items }

def extents (v : Variable α) : List (String × Int) := v.dims.zip v.shape

/-- The dimensions by name.  Of one that is repeated the last counts. -/
def sizes (v : Variable α) : Keyed Int := v.extents.foldl (fun d (dim, n) => d.put dim n) []

def baselines (v : Variable α) : Int := (v.shape[1]?).getD 0

/-- A variable along the dimension of its own name labels the places there. -/
def isLabel (name : String) (v : Variable α) : Bool := v.dims == [name]

def notices (dims : List String) : List (Message α) :=
  if dims.eraseDups.length < dims.length then [.repeated dims] else []

/-- The name of the first dimension stands for another one too, so that nothing can be
selected by it. -/
def isUnselectable : (dims : List String) → Bool
  | [] => false
  | first :: rest => rest.contains first

def readDims (v : Variable α) : Reading α → List String
  | .step _ => v.dims.tail
  | .steps _ => v.dims

def readable (steps : List (Option (List (List α)))) :
    Except (Fault α) (List (List (List α))) :=
  match steps.mapM id with
  | some steps => .ok steps
  | none => .error .malformed

/-- The rows at a time.  All are read where it cannot be selected.  A text is no time, and
names nothing else either. -/
def read (v : Variable α) (time : Value α) : Except (Fault α) (Reading α) :=
  match time, v.content.steps? with
  | .text _, _ => .error .unknownName
  | time, none => (Places.ofValue 0 time).bind fun _ => .error .outOfRange
  | time, some steps =>
    if isUnselectable v.dims then (readable steps).map .steps
    else
      (Places.ofValue steps.length time).bind fun
        | .one i =>
          match steps[i]? with
          | none => .error .outOfRange
          | some none => .error .malformed
          | some (some rows) => .ok (.step rows)
        | .several is => (readable (is.filterMap fun i => steps[i]?)).map .steps

/-- The coordinates of a row: where there are no rows, the length that is declared. -/
def width (v : Variable α) : List (List α) → Int
  | row :: _ => row.length
  | [] => (v.shape[2]?).getD 0

end Variable

def extents (vs : Keyed (Variable α)) : List (String × Int) := vs.flatMap fun (_, v) => v.extents

def sizes (vs : Keyed (Variable α)) : List (String × Int) := vs.flatMap fun (_, v) => v.sizes

def agree (lengths : List (String × Int)) : Bool :=
  lengths.all fun (dim, n) => lengths.all fun (other, m) => dim != other || n == m

/-- Variables that can be in one dataset: lengths agree, and a number along no
dimension has not the name of one. -/
def areConsistent (vs : Keyed (Variable α)) : Bool :=
  agree (extents vs) &&
    vs.all fun (name, v) => !v.dims.isEmpty || !(extents vs).any fun (dim, _) => dim == name

def putAll (vs added : Keyed (Variable α)) : Keyed (Variable α) :=
  added.foldl (fun vs (name, v) => vs.put name v) vs

namespace Dataset

def channelDim : String := "chan"

def get? (d : Dataset α) (name : String) : Option (Variable α) := d.entries.get? name

def hasDim (d : Dataset α) (name : String) : Bool :=
  (extents d.entries).any fun (dim, _) => dim == name

def isCoordinate (d : Dataset α) (name : String) : Bool := d.coordinates.contains name

def names (d : Dataset α) : List String :=
  d.entries.names.filter fun name => !d.isCoordinate name

def notices (d : Dataset α) : List (Message α) :=
  d.entries.flatMap fun (_, v) => Variable.notices v.dims

/-- The dataset with other variables, if these are consistent; what is named like
a dimension is a coordinate from now on. -/
def settle (d : Dataset α) (vs : Keyed (Variable α)) : Except (Fault α) (Dataset α) :=
  if areConsistent vs then
    let dims := (extents vs).map (·.1)
    .ok { d with
      entries := vs
      coordinates := d.coordinates ++ vs.names.filter (dims.contains ·) }
  else .error .malformed

def labelsFit (v : Variable α) (coordinates : Keyed (Variable α)) : Bool :=
  agree (sizes (coordinates.filter fun (name, v) => v.isLabel name) ++ v.sizes)

def ofVariable (name : String) (v : Variable α) (coordinates : Keyed (Variable α))
    (attributes : Dict α) : Except (Fault α) (Dataset α) :=
  settle ⟨[], coordinates.names, attributes⟩ ((name, v) :: coordinates)

/-- Puts other coordinates in place of some; labels go before lengths are
compared. -/
def relabel (d : Dataset α) (added : Keyed (Variable α)) : Except (Fault α) (Dataset α) :=
  let kept := d.entries.filter fun (name, v) =>
    d.isCoordinate name && !(v.isLabel name && (added.get? name).isSome)
  if !areConsistent added then .error .malformed
  else if !agree (sizes kept ++ sizes added) then .error .lengthsDisagree
  else d.settle (putAll d.entries added)

/-- Makes room for variables: those that have the name of a coordinate take its place.
The lengths of the others have to agree with those of the dataset. -/
def prepare (d : Dataset α) (added : Keyed (Variable α)) : Except (Fault α) (Dataset α) := do
  let (moved, others) := added.partition fun (name, _) => d.isCoordinate name
  let d ← if moved.isEmpty then pure d else d.relabel moved
  if agree (sizes d.entries ++ sizes others) then return d else throw .lengthsDisagree

/-- Replaces data, or adds them.  No datum can turn into a coordinate by that. -/
def absorb (d : Dataset α) (added : Keyed (Variable α)) : Except (Fault α) (Dataset α) :=
  (d.settle (putAll d.entries added)).bind fun new =>
    if d.names.any new.isCoordinate then .error .ambiguousName else .ok new

def assign (d : Dataset α) (added : Keyed (Variable α)) : Except (Fault α) (Dataset α) :=
  (d.prepare added).bind fun ready =>
    ready.absorb (added.filter fun (name, _) => !d.isCoordinate name)

/-- The frequencies of the channels: those of their coordinate, or else the places
along their dimension. -/
def frequencies [Scalar α] (d : Dataset α) : Except (Fault α) (Nested α) :=
  match d.get? channelDim with
  | some v => if d.isCoordinate channelDim then .ok v.content.toNested else .error .unknownName
  | none =>
    match Keyed.get? (extents d.entries) channelDim with
    | some n => .ok (.ofList ((List.range n.toNat).map Scalar.natural))
    | none => .error .unknownName

def read (d : Dataset α) (name : String) (time : Value α) : Except (Fault α) (Reading α) :=
  match d.get? name with
  | none => if d.hasDim name then (Variable.along name []).read time else .error .unknownName
  | some v => v.read time

def slice [Scalar α] (d : Dataset α) (name : String) (center : Except (Fault α) (Direction α))
    (time : Value α) : Except (Fault α) (Slice α) :=
  (d.read name time).bind fun reading =>
    d.frequencies.bind fun channels =>
      center.map fun c =>
        let width (rows : List (List α)) := ((d.get? name).map fun v => v.width rows).getD 0
        match reading with
        | .step rows => .ofRows rows (width rows) c channels
        | .steps steps => .ofSteps steps (width steps.flatten) c channels

def sliceNotices (d : Dataset α) (name : String) (time : Value α) : List (Message α) :=
  match d.get? name, d.read name time with
  | some v, .ok reading => Variable.notices (v.readDims reading)
  | _, _ => []

end Dataset

end Coplanar
