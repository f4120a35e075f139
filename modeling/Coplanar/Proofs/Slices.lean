import Mathlib.Data.List.Basic
import Coplanar.Dataset.Correction

/-! What a slice serves of the rows of a time.  Rows with a missing coordinate are left
out, and their places are marked, so that corrected rows find their way back. -/
namespace Coplanar

variable {α : Type}

namespace Uvw

def cells (r : Uvw α) : List α := [r.u, r.v, r.w]

def isComplete [Scalar α] (r : Uvw α) : Bool := !hasMissing r.cells

end Uvw

theorem ofCells_cells (rows : Chunk α) :
    Chunk.ofCells (rows.map Uvw.cells).flatten = .ok rows := by
  induction rows with
  | nil => rfl
  | cons r rest ih =>
    rw [List.map_cons, List.flatten_cons]
    change (Chunk.ofCells (rest.map Uvw.cells).flatten).map (_ :: ·) = _
    rw [ih]
    rfl

theorem exists_chunk {rows : List (List α)} (h : ∀ row ∈ rows, row.length = 3) :
    ∃ chunk : Chunk α, rows = chunk.map Uvw.cells := by
  induction rows with
  | nil => exact ⟨[], rfl⟩
  | cons row rest ih =>
    rw [List.forall_mem_cons] at h
    obtain ⟨chunk, rfl⟩ := ih h.2
    obtain ⟨u, v, w, rfl⟩ := List.length_eq_three.mp h.1
    exact ⟨⟨u, v, w⟩ :: chunk, rfl⟩

theorem exists_chunks {steps : List (List (List α))}
    (h : ∀ rows ∈ steps, ∀ r ∈ rows, r.length = 3) :
    ∃ chunks : List (Chunk α), steps = chunks.map (List.map Uvw.cells) := by
  induction steps with
  | nil => exact ⟨[], rfl⟩
  | cons rows rest ih =>
    rw [List.forall_mem_cons] at h
    obtain ⟨chunk, rfl⟩ := exists_chunk h.1
    obtain ⟨chunks, rfl⟩ := ih h.2
    exact ⟨chunk :: chunks, rfl⟩

namespace Slice

variable [Scalar α]

/-- The complete rows of a chunk, with their places among all. -/
def ofChunk (chunk : Chunk α) (center : Direction α) (channels : Nested α) : Slice α :=
  ⟨.ok (chunk.filter Uvw.isComplete), .ofList (chunk.map Uvw.isComplete), center, channels⟩

theorem marks_cells (chunk : Chunk α) : marks (chunk.map Uvw.cells) = chunk.map Uvw.isComplete := by
  rw [marks, List.map_map]
  rfl

theorem served_cells (chunk : Chunk α) :
    served (chunk.map Uvw.cells) 3 = .ok (chunk.filter Uvw.isComplete) := by
  rw [served, if_pos rfl, List.filter_map]
  exact ofCells_cells _

end Slice

namespace Dataset

structure Stores (d : Dataset α) (name : String) (time : Value α) (chunk : Chunk α) : Prop where
  read_eq : d.read name time = .ok (.step (chunk.map Uvw.cells))
  width_eq : ∃ v, d.get? name = some v ∧ v.width (chunk.map Uvw.cells) = 3

theorem Stores.slice_eq [Scalar α] {d : Dataset α} {name : String} {time : Value α}
    {chunk : Chunk α} {channels : Nested α} (h : d.Stores name time chunk)
    (hchannels : d.frequencies = .ok channels) (center : Direction α) :
    d.slice name (.ok center) time = .ok (.ofChunk chunk center channels) := by
  obtain ⟨v, hv, hwidth⟩ := h.width_eq
  rw [slice, h.read_eq, hchannels, hv]
  change Except.ok (Slice.ofRows (chunk.map Uvw.cells) (v.width (chunk.map Uvw.cells)) center
    channels) = _
  rw [Slice.ofRows, hwidth, Slice.served_cells, Slice.marks_cells, Slice.ofChunk]

end Dataset

namespace Correction

variable [Numeral α]

def gap : List α := [Numeral.missing, Numeral.missing, Numeral.missing]

theorem spread_filter (f : Uvw α → Uvw α) (chunk : Chunk α) :
    spread (chunk.map Uvw.isComplete) ((chunk.filter Uvw.isComplete).map f) =
      chunk.map fun r => if r.isComplete then (f r).cells else gap := by
  induction chunk with
  | nil => rfl
  | cons r rest ih =>
    cases hr : r.isComplete with
    | true =>
      rw [List.filter_cons_of_pos hr, List.map_cons, List.map_cons, List.map_cons, hr, if_pos rfl,
        ← ih]
      rfl
    | false =>
      rw [List.filter_cons_of_neg (by simp [hr]), List.map_cons, List.map_cons, hr, ← ih]
      rfl

end Correction

end Coplanar
