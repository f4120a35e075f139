import Coplanar.Corrector
import Coplanar.Message
import Coplanar.Parameter.Settings

/-! Correctors and sources by name.  Several correctors may share a source;
no two share rows. -/
namespace Coplanar

variable {α : Type}

/-- Sources by name, each with the tangent points it was asked for, the latest
first. -/
abbrev Roster (α : Type) := Keyed (Source α × List (Direction α))

namespace Roster

def ofSources (sources : Keyed (Source α)) : Roster α :=
  sources.map fun (name, source) => (name, source, [])

def unasked (r : Roster α) : Roster α := r.map fun (name, source, _) => (name, source, [])

def requests (r : Roster α) : List (String × List (Direction α)) :=
  r.filterMap fun (name, _, asked) => if asked.isEmpty then none else some (name, asked.reverse)

variable [Quantity α]

def feed (name : String) : Feed (Roster α) α where
  rows d r :=
    match r.get? name with
    | none => (.error .unknownName, r)
    | some source =>
      let (answer, next) := Source.feed.recorded.rows d source
      (answer, r.put name next)
  channels r :=
    match r.get? name with
    | none => .error .unknownName
    | some source => Source.feed.recorded.channels source

end Roster

structure Slot (α : Type) where
  corrector : Corrector String α
  parameters : Value α
  returned : Option Nat

structure World (α : Type) where
  slots : Keyed (Slot α)
  sources : Roster α
  /-- The identity of the next array. -/
  fresh : Nat

inductive Command (α : Type) where
  | create (slot : String) (parameters : Value α)
  | associate (slot : String) (source : Option String)
  | notify (slot : String)
  | correct (slot : String) (tangentPoint : Value α)
  | duplicate (slot target : String)
  /-- Writes into the rows returned last. -/
  | write (slot : String)
  /-- Changes the parameters that the corrector tells. -/
  | editParameters (slot : String)
  /-- Changes the tangent point that the corrector tells. -/
  | editCenter (slot : String)
  | alter (source : String) (field : Source.Field α)

inductive Response (α : Type) where
  | done
  /-- There is nothing to do it to. -/
  | skipped
  | parameters (value : Value α)
  /-- The rows, and the other slots whose last array they are. -/
  | rows (served : Served α) (shared : List String)
  | refused (fault : Fault α)

structure Answer (α : Type) where
  response : Response α
  messages : List (Message α) := []
  requests : List (String × List (Direction α)) := []

namespace World

def start (sources : Keyed (Source α)) : World α := ⟨[], .ofSources sources, 0⟩

def slot? (w : World α) (name : String) : Option (Slot α) := w.slots.get? name

def without (w : World α) (name : String) : World α := { w with slots := w.slots.erase name }

def putSlot (w : World α) (name : String) (slot : Slot α) : World α :=
  { w with slots := w.slots.put name slot }

def holders (w : World α) (identity : Nat) : List String :=
  Keyed.names (w.slots.filter fun entry => entry.2.returned == some identity)

def update (w : World α) (name : String) (f : Corrector String α → Corrector String α) :
    World α × Answer α :=
  match w.slot? name with
  | none => (w, { response := .skipped })
  | some slot => (w.putSlot name { slot with corrector := f slot.corrector }, { response := .done })

def create [Numeral α] (w : World α) (name : String) (parameters : Value α) :
    World α × Answer α :=
  let w := w.without name
  let checked := Settings.ofParameters parameters
  let messages := checked.complaints.map Message.complaint
  match checked.result with
  | .error fault => (w, { response := .refused fault, messages })
  | .ok settings =>
    (w.putSlot name ⟨.create settings, checked.parameters, none⟩,
      { response := .parameters checked.parameters, messages })

def associate (w : World α) (name : String) (source : Option String) : World α × Answer α :=
  match source with
  | none => w.update name (·.associate none)
  | some s =>
    match w.slot? name, w.sources.get? s with
    | some _, none => (w, { response := .refused .unknownName })
    | _, _ => w.update name (·.associate (some s))

/-- A duplicate in place of the one that had the name, with arrays of its own. -/
def duplicate (w : World α) (name target : String) : World α × Answer α :=
  match w.slot? name with
  | none => (w, { response := .skipped })
  | some slot =>
    let copy : Slot α := ⟨slot.corrector.duplicate w.fresh, slot.parameters, none⟩
    ({ w.putSlot target copy with fresh := w.fresh + 1 }, { response := .done })

def correct [Quantity α] (w : World α) (name : String) (tangentPoint : Value α) :
    World α × Answer α :=
  match w.slot? name with
  | none => (w, { response := .skipped })
  | some slot =>
    let reply :=
      slot.corrector.correctedRows Roster.feed (Direction.ofValue tangentPoint) w.fresh
        w.sources.unasked
    let settings := slot.corrector.settings
    let messages := Message.ofNotes settings.verbose settings.interval reply.notes
    let requests := reply.sources.requests
    let next : World α := { w with sources := reply.sources, fresh := w.fresh + 1 }
    match reply.result with
    | .error fault =>
      (next.putSlot name { slot with corrector := reply.corrector },
        { response := .refused fault, messages, requests })
    | .ok served =>
      (next.putSlot name
          { slot with corrector := reply.corrector, returned := some served.identity },
        { response := .rows served (w.holders served.identity), messages, requests })

/-- One command.  What a corrector tells about itself is a copy: changing it
changes nothing. -/
def step [Quantity α] (w : World α) : Command α → World α × Answer α
  | .create name parameters => w.create name parameters
  | .associate name source => w.associate name source
  | .notify name => w.update name (·.notify)
  | .correct name tangentPoint => w.correct name tangentPoint
  | .duplicate name target => w.duplicate name target
  | .write name =>
    match w.slot? name with
    | some { returned := some _, .. } => (w, { response := .refused .readOnly })
    | _ => (w, { response := .skipped })
  | .editParameters name =>
    match w.slot? name with
    | none => (w, { response := .skipped })
    | some slot => (w, { response := .parameters slot.parameters })
  | .editCenter name =>
    match w.slot? name with
    | none => (w, { response := .skipped })
    | some slot =>
      (w, { response := if slot.corrector.center.isSome then .done else .refused .wrongType })
  | .alter source field =>
    match w.sources.get? source with
    | none => (w, { response := .refused .unknownName })
    | some (s, asked) =>
      ({ w with sources := w.sources.put source (s.alter field, asked) }, { response := .done })

end World

end Coplanar
