import Coplanar.Policy
import Coplanar.Source

/-! Fitting for a moment ahead.  A plane fitted for now drifts out of tolerance
after a while; one fitted for the middle of that while is at the tolerance now,
improves, and then drifts out as slowly, so it lasts about twice as long.  The
search climbs step by step until the plane of now is out of tolerance, then
comes back until the plane of there is good now. -/
namespace Coplanar

/-- The rows some number of steps ahead, from a source that may change by being
asked and may fail. -/
abbrev Track (σ α : Type) := Nat → σ → Except (Fault α) (Chunk α) × σ

/-- Time that passes is longitude that the tangent point loses. -/
def stepAngle {α : Type} [Scalar α] (interval : α) : α := -earthRotationRate * interval

def Track.ofFeed {σ α : Type} [Scalar α] (feed : Feed σ α) (center : Direction α)
    (interval : α) : Track σ α :=
  fun n => feed.rows (center.shift (Scalar.natural n * stepAngle interval))

def Track.ofNested {σ α : Type} [Scalar α] (feed : Feed σ α) (center : Nested α)
    (interval : α) : Track σ α :=
  match Direction.ofNested center with
  | .ok d => .ofFeed feed d interval
  | .error fault => fun _ s => (.error fault, s)

inductive ClimbEnd (α : Type) where
  | exhausted
  | left
  | failed (fault : Fault α)

structure Climb (σ α : Type) where
  readings : List α
  ending : ClimbEnd α
  state : σ

inductive DescentEnd (α : Type) where
  | stopped (steps : Nat) (plane : Option (Plane α))
  | failed (fault : Fault α)

structure Descent (σ α : Type) where
  ending : DescentEnd α
  state : σ

structure Outcome (σ α : Type) where
  result : Except (Fault α) (Verdict α)
  notes : List (Note α)
  state : σ

variable {σ α : Type} [Scalar α]

def climb (track : Track σ α) (tolerance : α) (plane : Plane α) :
    (limit n : Nat) → σ → Climb σ α
  | 0, _, s => ⟨[], .exhausted, s⟩
  | limit + 1, n, s =>
    match track (n + 1) s with
    | (.error fault, next) => ⟨[], .failed fault, next⟩
    | (.ok there, next) =>
      let deviation := plane.maxDeviation there
      if Scalar.less deviation tolerance then
        let rest := climb track tolerance plane limit (n + 1) next
        { rest with readings := deviation :: rest.readings }
      else ⟨[deviation], .left, next⟩

def rowsAt (track : Track σ α) (now : Chunk α) : Track σ α
  | 0, s => (.ok now, s)
  | n + 1, s => track (n + 1) s

/-- Comes down from `n` steps ahead to the first plane that is good for `now`.
Rows that allow no fit end it with the best plane so far. -/
def descend (track : Track σ α) (now : Chunk α) (tolerance : α) :
    Nat → Option (Plane α) → σ → Descent σ α
  | 0, best, s => ⟨.stopped 0 best, s⟩
  | n + 1, best, s =>
    match rowsAt track now n s with
    | (.error fault, next) => ⟨.failed fault, next⟩
    | (.ok there, next) =>
      if there.length < minFitRows then ⟨.stopped n best, next⟩
      else
        match there.fit with
        | .error fault => ⟨.failed fault, next⟩
        | .ok none => ⟨.stopped n best, next⟩
        | .ok (some plane) =>
          if Scalar.less (plane.maxDeviation now) tolerance then ⟨.stopped n (some plane), next⟩
          else descend track now tolerance n (some plane) next

def climbNotes (readings : List α) : List (Note α) :=
  readings.zipIdx.map fun (deviation, i) => .ahead (i + 1) deviation

def search (track : Track σ α) (now : Chunk α) (tolerance : α) (current plane : Plane α)
    (limit : Nat) (s : σ) : Outcome σ α :=
  let up := climb track tolerance plane limit 0 s
  let seen := climbNotes up.readings
  match up.ending with
  | .failed fault => ⟨.error fault, seen, up.state⟩
  | .exhausted => ⟨.ok (.replace plane now), seen ++ [.gaveUp limit], up.state⟩
  | .left =>
    -- The last reading is the one that is out of tolerance; the way back starts there.
    let down := descend track now tolerance up.readings.length none up.state
    match down.ending with
    | .failed fault => ⟨.error fault, seen, down.state⟩
    | .stopped _ none => ⟨.ok (.keep current now), seen, down.state⟩
    | .stopped steps (some best) =>
      let verdict := Verdict.replace best now
      ⟨.ok verdict, seen ++ [.settled steps best verdict.deviation], down.state⟩

/-- Fits, once the deviation from the current plane reaches the tolerance, for a
moment up to `limit` steps ahead.  A tolerance that is known beyond the precision
of numbers may say for itself what exceeds it. -/
def predictive (track : Track σ α) (now : Chunk α) (tolerance : α) (current : Plane α)
    (limit : Nat) (s : σ) (exceeds : α → Bool := Scalar.less tolerance) : Outcome σ α :=
  let kept := Verdict.keep current now
  let entry := Note.current kept.deviation tolerance current
  if Scalar.less kept.deviation tolerance || now.length < minFitRows then ⟨.ok kept, [entry], s⟩
  else
    match now.fit with
    | .error fault => ⟨.error fault, [entry], s⟩
    | .ok none => ⟨.ok kept, [entry, .degenerate], s⟩
    | .ok (some plane) =>
      let fresh := Verdict.replace plane now
      -- The deviation told is then that of a plane which is not taken.
      if exceeds fresh.deviation then
        ⟨.ok ⟨fresh.deviation, none⟩, [entry, .poorFit fresh.deviation], s⟩
      else if Scalar.less fresh.deviation tolerance then
        let found := search track now tolerance current plane limit s
        { found with notes := entry :: found.notes }
      else ⟨.ok fresh, [entry], s⟩

end Coplanar
