import Coplanar.Rotation
import Coplanar.Value.Arithmetic

/-! Where the rows of a chunk come from.  A `Feed` is anything that answers for
rows and channels; a `Source` is one of the known kinds of it. -/
namespace Coplanar

/-- Rows for a tangent point, and channel frequencies.  Answering may change the state, and
may fail.  An answered chunk is a value, which later requests never overwrite. -/
structure Feed (σ α : Type) where
  rows : Direction α → σ → Except (Fault α) (Chunk α) × σ
  channels : σ → Except (Fault α) (List α)

/-- The same feed, keeping the tangent points asked for, the latest first.  A
request is kept whether or not it is answered. -/
def Feed.recorded {σ α : Type} (feed : Feed σ α) : Feed (σ × List (Direction α)) α where
  rows d s :=
    let (answer, next) := feed.rows d s.1
    (answer, next, d :: s.2)
  channels s := feed.channels s.1

/-- One time step of stored rows, which refer to `center`, or several.  Rows with a
missing coordinate are left out; `valid` marks the others, step by step if there are
several.  Rows of other than three coordinates are a fault, which shows when they are
asked for. -/
structure Slice (α : Type) where
  rows : Except (Fault α) (Chunk α)
  valid : Nested Bool
  center : Direction α
  channels : Nested α

/-- A plane through the origin that tilts at a steady rate as time passes.  Time,
rate and reference are values as they were given. -/
structure Drift (α : Type) where
  uv : List (α × α)
  time : Value α
  rate : Value α
  referenceRa : Value α

inductive Source (α : Type) where
  /-- The same rows for every tangent point. -/
  | steady (rows : Except (Fault α) (Chunk α)) (channels : Except (Fault α) (Nested α))
  /-- Each request is answered by the next chunk; the last one is repeated. -/
  | series (chunks : List (Except (Fault α) (Chunk α))) (served : Nat)
      (channels : Except (Fault α) (Nested α))
  | drift (plane : Drift α) (channels : Except (Fault α) (Nested α))
  /-- Equatorial baselines seen at a local sidereal time, a value as it was given. -/
  | baselines (xyz : List (Vec3 α)) (lst : Value α) (channels : Nested α)
  | slice (stored : Slice α)
  /-- Answers no question. -/
  | silent

variable {α : Type}

def hasMissing [Scalar α] (row : List α) : Bool := row.any Scalar.isMissing

def Chunk.ofValue [Numeral α] (v : Value α) : Except (Fault α) (Chunk α) :=
  v.toNested.bind Chunk.ofNested

def Direction.ofValue [Numeral α] (v : Value α) : Except (Fault α) (Direction α) :=
  v.toNested.bind Direction.ofNested

namespace Slice

def marks [Scalar α] (rows : List (List α)) : List Bool := rows.map fun row => !hasMissing row

/-- The rows that are served, of `width` coordinates each.  The width is known even
where there are no rows. -/
def served [Scalar α] (rows : List (List α)) (width : Int) : Except (Fault α) (Chunk α) :=
  if width = 3 then Chunk.ofCells (rows.filter fun row => !hasMissing row).flatten
  else .error .malformed

def ofRows [Scalar α] (rows : List (List α)) (width : Int) (center : Direction α)
    (channels : Nested α) : Slice α where
  rows := served rows width
  valid := .ofList (marks rows)
  center := center
  channels := channels

def ofSteps [Scalar α] (steps : List (List (List α))) (width : Int) (center : Direction α)
    (channels : Nested α) : Slice α where
  rows := served steps.flatten width
  valid := .node (steps.map fun rows => .ofList (marks rows))
  center := center
  channels := channels

def replace [Numeral α] (s : Slice α) (v : Value α) : Slice α :=
  { s with
    rows := v.grid.bind fun grid =>
      if (grid.shape?.getD []).getLast? = some 3 then v.toOperand.bind Chunk.ofNested
      else .error .malformed }

def toward [Trig α] (s : Slice α) (d : Direction α) : Except (Fault α) (Chunk α) :=
  let m := Rotation.between s.center d
  s.rows.map fun rows => rows.map fun r => m.act r.u r.v r.w

end Slice

namespace Drift

/-- The time that has passed, when the tangent point has the longitude `ra`:
moving it back by the earth's rotation is the same as waiting. -/
def now [Numeral α] (d : Drift α) (ra : Value α) : Except (Fault α) (Value α) := do
  let angle ← d.referenceRa.minus ra
  d.time.plus (← angle.dividedBy earthRotationRate)

def stack (uv : List (α × α)) : Nested α → Except (Fault α) (Chunk α)
  | .node ws =>
    if ws.length = uv.length then
      Chunk.ofCells ((uv.zip ws).flatMap fun (p, w) => p.1 :: p.2 :: w.cells)
    else .error .malformed
  | .leaf _ => .error .malformed

/-- The rows, when the tangent point has the longitude `ra`.  Of several
longitudes there is one for all rows or one for each. -/
def rows [Numeral α] (d : Drift α) (ra : Value α) : Except (Fault α) (Chunk α) := do
  let slope ← d.rate.times (← d.now ra)
  match ← slope.times (.array (.ofList (d.uv.map (·.1)))) with
  | .array w => if (w.shape?.getD []).length ≤ 2 then stack d.uv w else throw .malformed
  | _ => throw .malformed

end Drift

namespace Source

def baselineRows [Trig α] (xyz : List (Vec3 α)) (hourAngle dec : α) : Chunk α :=
  let m := Rotation.toward hourAngle dec
  xyz.map fun p => m.act p.x p.y p.z

def hourAngle [Numeral α] (lst : Value α) (ra : α) : Except (Fault α) α :=
  (lst.minus (.double ra)).bind fun
    | .array _ => .error .malformed
    | angle => angle.toNumber

def anywhere? : Source α → Option (Except (Fault α) (Chunk α) × Source α)
  | .steady rows channels => some (rows, .steady rows channels)
  | .series chunks served channels =>
    let next := Source.series chunks (served + 1) channels
    match chunks[min served (chunks.length - 1)]? with
    | some rows => some (rows, next)
    | none => some (.error .outOfRange, next)
  | .silent => some (.error (.notServed .rows), .silent)
  | _ => none

def serve [Quantity α] (d : Direction α) (s : Source α) :
    Except (Fault α) (Chunk α) × Source α :=
  match s.anywhere? with
  | some answer => answer
  | none =>
    match s with
    | .drift plane _ => (plane.rows (.double d.ra), s)
    | .baselines xyz lst _ => ((hourAngle lst d.ra).map fun angle => baselineRows xyz angle d.dec, s)
    | .slice stored => (stored.toward d, s)
    | _ => (.error (.notServed .rows), s)

def frequency : Source α → Except (Fault α) (Nested α)
  | .steady _ channels => channels
  | .series _ _ channels => channels
  | .drift _ channels => channels
  | .baselines _ _ channels => .ok channels
  | .slice stored => .ok stored.channels
  | .silent => .error (.notServed .channels)

def feed [Quantity α] : Feed (Source α) α where
  rows := serve
  channels s := s.frequency.bind Nested.rectangular

/-! Sources from values as a caller gives them. -/

section Given

variable [Numeral α]

def ofRows (rows channels : Value α) : Source α := .steady (Chunk.ofValue rows) channels.toNested

def ofChunks (chunks : List (Value α)) (channels : Value α) : Source α :=
  .series (chunks.map Chunk.ofValue) 0 channels.toNested

def pairs : List α → Except (Fault α) (List (α × α))
  | [] => .ok []
  | u :: v :: rest => (pairs rest).map ((u, v) :: ·)
  | _ => .error .malformed

def ofDrift (uv time rate referenceRa channels : Value α) : Except (Fault α) (Source α) :=
  uv.toNested.bind fun x =>
    (pairs x.cells).map fun uv => .drift ⟨uv, time, rate, referenceRa⟩ channels.toNested

def ofBaselines (xyz channels lst : Value α) : Except (Fault α) (Source α) := do
  let rows ← Chunk.ofValue xyz
  let channels ← channels.toNested
  let lst ← lst.toNumber
  return .baselines (rows.map fun r => ⟨r.u, r.v, r.w⟩) (.real lst) channels.atLeastOne

inductive Field (α : Type) where
  | rows (value : Value α)
  | channels (x : Nested α)
  | lst (value : Value α)
  | time (value : Value α)

/-- Changes a field, which need not be usable then; one that the source does not
have is ignored. -/
def alter (s : Source α) : Field α → Source α
  | .rows value =>
    match s with
    | .steady _ channels => .steady (Chunk.ofValue value) channels
    | .slice stored => .slice (stored.replace value)
    | s => s
  | .channels x =>
    match s with
    | .steady rows _ => .steady rows (.ok x)
    | .series chunks served _ => .series chunks served (.ok x)
    | .drift plane _ => .drift plane (.ok x)
    | .baselines xyz lst _ => .baselines xyz lst x
    | .slice stored => .slice { stored with channels := x }
    | .silent => .silent
  | .lst value =>
    match s with
    | .baselines xyz _ channels => .baselines xyz value channels
    | s => s
  | .time value =>
    match s with
    | .drift plane channels => .drift { plane with time := value } channels
    | s => s

end Given

def serveAt [Quantity α] (v : Value α) (s : Source α) : Except (Fault α) (Chunk α) × Source α :=
  match s.anywhere?, s with
  | some answer, _ => answer
  | none, .drift plane _ => ((v.item 0).bind plane.rows, s)
  | none, s =>
    match Direction.ofValue v with
    | .ok d => s.serve d
    | .error e => (.error e, s)

end Source

end Coplanar
