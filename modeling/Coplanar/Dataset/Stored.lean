import Coplanar.Dataset
import Coplanar.Dataset.Cut

/-! Datasets from what a caller gives: rows as an array of any shape, to be
brought to times, baselines and coordinates, and perhaps to be cut into blocks. -/
namespace Coplanar

structure Stored (α : Type) where
  name : String
  dims : List String
  rows : Value α
  /-- The shape to bring the rows to.  One length may be left open; it is written
  as a negative one. -/
  shape : Option (List Int)
  /-- How each dimension is cut, or all of them; nothing for no blocks. -/
  blocking : Value α
  channels : Option (Value α)
  attributes : Dict α

def fitShape? (count : Nat) (shape : List Int) : Option (List Nat) :=
  let known := Nested.volume ((shape.filter (0 ≤ ·)).map Int.toNat)
  match shape.countP (· < 0) with
  | 0 => if known = count then some (shape.map Int.toNat) else none
  | 1 =>
    if known ≠ 0 ∧ count % known = 0 then
      some (shape.map fun n => if n < 0 then count / known else n.toNat)
    else none
  | _ => none

namespace Stored

variable {α : Type}

def assembled (baselines widths : List Int) (rows : List (List α)) : List (List α) :=
  (blocksOf rows baselines).flatten.map fun row => (blocksOf row widths).flatten

/-- What can be read of each time when the steps are stored in blocks.  Nothing can along
a dimension of negative length. -/
def readBlocks (steps : List (List (List α))) (times baselines widths : List Int) :
    List (Option (List (List α))) :=
  let readable := 0 ≤ covered baselines && 0 ≤ covered widths
  (List.range (covered times).toNat).map fun i =>
    if readable then (inBlocks? steps times i).map (assembled baselines widths) else none

def readAll (steps : List (List (List α))) (times baselines widths : List Int) :
    List (Option (List (List α))) :=
  if 0 ≤ covered baselines ∧ 0 ≤ covered widths then
    (blocksOf steps times).flatten.map fun rows => some (assembled baselines widths rows)
  else [none]

/-- Blocks that have all baselines and coordinates leave a step as it is. -/
theorem assembled_eq {baselines widths : List Int} {rows : List (List α)}
    (hb : ∀ n ∈ baselines, 0 ≤ n) (hw : ∀ n ∈ widths, 0 ≤ n)
    (fits : covered baselines = rows.length)
    (fit : ∀ row ∈ rows, covered widths = row.length) : assembled baselines widths rows = rows := by
  rw [assembled, flatten_blocksOf rows hb fits]
  conv => rhs; rw [← List.map_id rows]
  exact List.map_congr_left fun row hr => flatten_blocksOf row hw (fit row hr)

variable [Numeral α]

def require {β : Type} : Option β → Except (Fault α) β
  | some x => .ok x
  | none => .error .malformed

def lengths? (s : Stored α) (cells : Nested α) : Option (List Nat) :=
  match s.shape with
  | none => cells.shape?
  | some shape => fitShape? cells.cells.length shape

def blocks (s : Stored α) (shape : List Nat) : Except (Fault α) (Option (List (List Int))) :=
  match s.blocking with
  | .nothing => .ok none
  | said => (Cut.blocksOfValue shape said).map some

def datum (s : Stored α) : Except (Fault α) (Variable α) := do
  let x ← s.rows.toNested
  let shape ← require (s.lengths? x)
  let blocks ← s.blocks shape
  match shape with
  | [times, baselines, width] =>
    let steps := (Nested.pieces (baselines * width) times x.cells).map
      (Nested.pieces width baselines)
    if s.dims.length ≠ shape.length then throw .malformed
    match blocks with
    | some [ts, bs, ws] =>
      let read := if Variable.isUnselectable s.dims then readAll else readBlocks
      return { dims := s.dims, shape := [covered ts, covered bs, covered ws]
               content := .ofSteps (read steps ts bs ws), blocks }
    | _ => return { dims := s.dims, shape := shape.map fun (n : Nat) => n, content := .cube steps }
  | _ => throw .malformed

def channelVariable (x : Nested α) : Except (Fault α) (Variable α) :=
  match x, x.shape? with
  | .leaf f, _ => .ok { dims := [], shape := [], content := .point f }
  | x, some [_] => .ok (.along Dataset.channelDim x.cells)
  | _, _ => .error .unnamedAxes

/-- The coordinates.  The times are counted along the first dimension; if that is the one
of the channels, the counts are their frequencies.  None may have the name of the rows. -/
def coordinates (s : Stored α) (v : Variable α) : Except (Fault α) (Keyed (Variable α)) := do
  let given ← s.channels.mapM Value.toNested
  let first := s.dims.headD ""
  let places := (v.shape.headD 0).toNat
  let times : Variable α := .along first ((List.range places).map Scalar.natural)
  if s.name = first then throw .malformed
  match given with
  | none => return [(first, times)]
  | some x =>
    if s.name = Dataset.channelDim then throw .malformed
    if first = Dataset.channelDim then return [(first, times)]
    return [(Dataset.channelDim, ← channelVariable x), (first, times)]

/-- The dataset.  What is to be said of the dimensions is said when the rows become a
variable, and again when this becomes part of the dataset. -/
def dataset (s : Stored α) : Reported α (Dataset α) :=
  match s.datum with
  | .error fault => ⟨.error fault, []⟩
  | .ok v =>
    let said := Variable.notices v.dims
    match s.coordinates v with
    | .error fault => ⟨.error fault, said⟩
    | .ok coordinates =>
      if Dataset.labelsFit v coordinates then
        ⟨Dataset.ofVariable s.name v coordinates s.attributes, said ++ said⟩
      else ⟨.error .lengthsDisagree, said⟩

end Stored

end Coplanar
