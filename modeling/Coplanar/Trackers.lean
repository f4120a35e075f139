import Coplanar.Epoch
import Coplanar.Value

/-! Counters of change by name, and snapshots of them. -/
namespace Coplanar

variable {α : Type}

/-- Counters that start from given values, as whole numbers; zero if not given. -/
def Epoch.ofValues [Numeral α] : List (Value α) → Except (Fault α) Epoch
  | [] => .ok .start
  | [s] => s.toInt.map fun source => ⟨source, 0⟩
  | [s, p] => s.toInt.bind fun source => p.toInt.map fun plane => ⟨source, plane⟩
  | _ => .error .wrongType

structure Trackers where
  counters : Keyed Epoch
  snapshots : Keyed Epoch

namespace Trackers

inductive Command (α : Type) where
  | create (name : String) (values : List (Value α))
  | sourceChanged (name : String)
  | planeChanged (name : String)
  | duplicate (name target : String)
  | snapshot (name label : String)
  | compare (first second : String)

inductive Response (α : Type) where
  | counters (all : Keyed Epoch)
  | comparison (first second : Epoch) (equal less : Bool)
  /-- There is nothing of that name. -/
  | skipped
  | refused (fault : Fault α)

def start : Trackers := ⟨[], []⟩

def told (t : Trackers) : Trackers × Response α := (t, .counters t.counters)

def change (t : Trackers) (name target : String) (f : Epoch → Epoch) : Trackers × Response α :=
  match t.counters.get? name with
  | none => (t, .skipped)
  | some e => told { t with counters := t.counters.put target (f e) }

def create [Numeral α] (t : Trackers) (name : String) (values : List (Value α)) :
    Trackers × Response α :=
  match Epoch.ofValues values with
  | .error fault => (t, .refused fault)
  | .ok e => told { t with counters := t.counters.put name e }

def step [Numeral α] (t : Trackers) : Command α → Trackers × Response α
  | .create name values => t.create name values
  | .sourceChanged name => t.change name name Epoch.sourceChanged
  | .planeChanged name => t.change name name Epoch.planeChanged
  | .duplicate name target => t.change name target id
  | .snapshot name label =>
    match t.counters.get? name with
    | none => (t, .skipped)
    | some e => told { t with snapshots := t.snapshots.put label e }
  | .compare first second =>
    match t.snapshots.get? first, t.snapshots.get? second with
    | some e, some f => (t, .comparison e f (e == f) (e.before f))
    | _, _ => (t, .skipped)

end Trackers

end Coplanar
