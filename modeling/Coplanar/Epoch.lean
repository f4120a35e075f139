/-! Counters of change.  A consumer keeps a snapshot and compares it with a later
one to see whether its own products are out of date. -/
namespace Coplanar

/-- `source` counts announcements of new data, `plane` new planes. -/
structure Epoch where
  source : Int
  plane : Int
deriving DecidableEq, Repr

namespace Epoch

def start : Epoch := ⟨0, 0⟩

def sourceChanged (e : Epoch) : Epoch := { e with source := e.source + 1 }

def planeChanged (e : Epoch) : Epoch := { e with plane := e.plane + 1 }

def before (e f : Epoch) : Bool :=
  e.source < f.source || (e.source == f.source && e.plane < f.plane)

@[simp] theorem sourceChanged_source (e : Epoch) : e.sourceChanged.source = e.source + 1 := rfl

@[simp] theorem sourceChanged_plane (e : Epoch) : e.sourceChanged.plane = e.plane := rfl

@[simp] theorem planeChanged_source (e : Epoch) : e.planeChanged.source = e.source := rfl

@[simp] theorem planeChanged_plane (e : Epoch) : e.planeChanged.plane = e.plane + 1 := rfl

end Epoch

end Coplanar
