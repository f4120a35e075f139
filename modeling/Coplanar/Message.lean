import Coplanar.Parameter.Rule
import Coplanar.Policy

/-! What is said along the way. -/
namespace Coplanar

inductive Message (α : Type) where
  | complaint (c : Complaint α)
  /-- A note, with the seconds per step of the search that made it. -/
  | note (interval : α) (n : Note α)
  | started
  | finished (planes : Int)
  /-- A name stands more than once among the dimensions of a variable. -/
  | repeated (dims : List String)

structure Reported (α β : Type) where
  result : Except (Fault α) β
  messages : List (Message α)

/-- The notes that are passed on: all of them to who asked for them, else only
the warnings. -/
def Message.ofNotes {α : Type} (verbose : Bool) (interval : α) (notes : List (Note α)) :
    List (Message α) :=
  (notes.filter fun n => verbose || n.isWarning).map (.note interval)

end Coplanar
