import Coplanar.Epoch
import Coplanar.Policy.Predictive
import Coplanar.Settings
import Coplanar.Tolerance

/-! A corrector takes the best plane out of the `w` of each chunk in turn.  It
keeps its plane as long as the tolerance allows, serves a single tangent point,
and hands out the same rows until its source announces a change. -/
namespace Coplanar

/-- Rows handed out: which array object they are, and the source epoch they
belong to. -/
structure Served (α : Type) where
  rows : Chunk α
  identity : Nat
  epoch : Int
deriving DecidableEq, Repr

inductive Phase where
  | uninitialized
  | fitted
  | stale
deriving DecidableEq, Repr

structure Corrector (ι α : Type) where
  settings : Settings α
  plane : Plane α
  epoch : Epoch
  source : Option ι
  /-- The tangent point it is bound to, from the first chunk that was fetched. -/
  center : Option (Direction α)
  cache : Option (Served α)
  /-- As reported by the last policy that came to a verdict. -/
  deviation : Option α
  tolerance : Option α
  /-- That policy brought a new plane. -/
  isFresh : Bool

structure Reply (ι σ α : Type) where
  result : Except (Fault α) (Served α)
  corrector : Corrector ι α
  notes : List (Note α)
  sources : σ

namespace Corrector

variable {ι σ α : Type}

def create [Scalar α] (settings : Settings α) : Corrector ι α where
  settings := settings
  plane := .level
  epoch := .start
  source := none
  center := none
  cache := none
  deviation := none
  tolerance := none
  isFresh := false

def associate (c : Corrector ι α) (source : Option ι) : Corrector ι α :=
  { c with source := source, epoch := c.epoch.sourceChanged }

def notify (c : Corrector ι α) : Corrector ι α :=
  { c with epoch := c.epoch.sourceChanged }

def phase (c : Corrector ι α) : Phase :=
  match c.cache with
  | none => .uninitialized
  | some served => if served.epoch = c.epoch.source then .fitted else .stale

def duplicate (c : Corrector ι α) (identity : Nat) : Corrector ι α :=
  { c with cache := c.cache.map fun served => { served with identity := identity } }

def current? (c : Corrector ι α) : Option (Served α) :=
  c.cache.filter fun served => served.epoch = c.epoch.source

theorem phase_eq_fitted_iff (c : Corrector ι α) : c.phase = .fitted ↔ c.current?.isSome := by
  unfold phase current?
  cases c.cache with
  | none => simp
  | some served => by_cases h : served.epoch = c.epoch.source <;> simp [Option.filter, h]

theorem phase_eq_uninitialized_iff (c : Corrector ι α) :
    c.phase = .uninitialized ↔ c.cache = none := by
  unfold phase
  cases c.cache with
  | none => simp
  | some served => by_cases h : served.epoch = c.epoch.source <;> simp [h]

theorem current?_eq_some_iff (c : Corrector ι α) (served : Served α) :
    c.current? = some served ↔ c.cache = some served ∧ served.epoch = c.epoch.source := by
  simp [current?, Option.filter_eq_some_iff]

theorem current?_duplicate (c : Corrector ι α) (identity : Nat) :
    (c.duplicate identity).current? =
      c.current?.map fun served => { served with identity := identity } := by
  unfold current? duplicate
  cases c.cache with
  | none => rfl
  | some served => by_cases h : served.epoch = c.epoch.source <;> simp [Option.filter, h]

section Scalar

variable [Scalar α]

def judge (c : Corrector ι α) (feed : Feed σ α) (center : Direction α) (rows : Chunk α)
    (tolerance : α) (s : σ) : Outcome σ α :=
  if c.settings.predict then
    predictive (.ofFeed feed center c.settings.interval) rows tolerance c.plane
      c.settings.maxSteps s
  else ⟨reactive rows tolerance c.plane, [], s⟩

/-- Takes over a verdict.  A plane equal to the one in use is no new plane. -/
def commit (c : Corrector ι α) (tolerance : α) (v : Verdict α) : Corrector ι α :=
  let c := { c with deviation := some v.deviation, tolerance := some tolerance, isFresh := false }
  match v.plane with
  | none => c
  | some plane =>
    if plane.same c.plane then c
    else { c with plane := plane, epoch := c.epoch.planeChanged, isFresh := true }

def commitNotes (c : Corrector ι α) (v : Verdict α) : List (Note α) :=
  match v.plane with
  | none => []
  | some plane => if plane.same c.plane then [] else [.committed plane v.deviation]

def deliver (c : Corrector ι α) (rows : Chunk α) (tolerance : α) (identity : Nat) :
    Except (Fault α) (Served α) × Corrector ι α :=
  let check : Except (Fault α) Unit :=
    if c.settings.checkResidual then
      (checkResidual rows c.plane tolerance c.settings.wTolerance).map fun _ => ()
    else .ok ()
  -- The plane is in use by now, also when the rows are refused.
  match check with
  | .error fault => (.error fault, c)
  | .ok () =>
    let served := ⟨rows.map c.plane.subtract, identity, c.epoch.source⟩
    (.ok served, { c with cache := some served })

def process (c : Corrector ι α) (feed : Feed σ α) (center : Direction α) (rows : Chunk α)
    (tolerance : α) (identity : Nat) (s : σ) : Reply ι σ α :=
  -- The point is bound even if no verdict is found or the rows are refused.
  let bound := { c with center := some center }
  let outcome := bound.judge feed center rows tolerance s
  match outcome.result with
  | .error fault => ⟨.error fault, bound, outcome.notes, outcome.state⟩
  | .ok verdict =>
    let (result, final) := (bound.commit tolerance verdict).deliver rows tolerance identity
    ⟨result, final, outcome.notes ++ bound.commitNotes verdict, outcome.state⟩

def recompute (c : Corrector ι α) (feed : Feed σ α) (center : Direction α) (identity : Nat)
    (s : σ) : Reply ι σ α :=
  match feed.rows center s with
  | (.error fault, next) => ⟨.error fault, c, [], next⟩
  | (.ok rows, next) =>
    match (feed.channels next).bind (toleranceInMetres c.settings.wTolerance) with
    | .error fault => ⟨.error fault, c, [], next⟩
    | .ok tolerance => c.process feed center rows tolerance identity next

end Scalar

variable [Trig α]

def accepts (c : Corrector ι α) (d : Direction α) : Bool :=
  match c.center with
  | none => true
  | some center => d.isNear center c.settings.tangentTolerance

/-- The rows of the source at hand, corrected, with `d` as the tangent point.
Rows computed anew get the identity given. -/
def rowsToward (c : Corrector ι α) (feeds : ι → Feed σ α) (d : Direction α) (identity : Nat)
    (s : σ) : Reply ι σ α :=
  if !c.accepts d then ⟨.error .otherTangentPoint, c, [], s⟩
  else
    match c.current? with
    | some served => ⟨.ok served, c, [], s⟩
    | none =>
      match c.source with
      | none => ⟨.error .noSource, c, [], s⟩
      | some source => c.recompute (feeds source) d identity s

def correctedRows (c : Corrector ι α) (feeds : ι → Feed σ α)
    (tangentPoint : Except (Fault α) (Direction α)) (identity : Nat) (s : σ) : Reply ι σ α :=
  match tangentPoint with
  | .error fault => ⟨.error fault, c, [], s⟩
  | .ok d => c.rowsToward feeds d identity s

end Corrector

end Coplanar
