import Coplanar.Proofs.Likeness
import Coplanar.Proofs.Related
import Coplanar.World

/-! Sources by name that answer by the tangent point alone.  Two tables of them that show the
same scenes give the same answers, whatever was asked of either. -/
namespace Coplanar.Roster

variable {α : Type}

def log (r : Roster α) : Keyed (List (Direction α)) := r.map fun entry => (entry.1, entry.2.2)

theorem get?_log (r : Roster α) (name : String) :
    r.log.get? name = (r.get? name).map fun x => x.2 := by
  induction r with
  | nil => rfl
  | cons entry rest ih =>
    simp only [log, List.map_cons, Keyed.get?] at ih ⊢
    split
    · rfl
    · exact ih

theorem log_put (r : Roster α) (name : String) (x : Source α × List (Direction α)) :
    log (r.put name x) = r.log.put name x.2 := by
  induction r with
  | nil => rfl
  | cons entry rest ih =>
    simp only [log, List.map_cons, Keyed.put] at ih ⊢
    split
    · rfl
    · exact congrArg _ ih

theorem log_unasked (r : Roster α) :
    r.unasked.log = (Keyed.names r).map fun name => (name, []) := by
  simp [log, unasked, Keyed.names]

theorem requests_eq (r : Roster α) : r.requests = r.log.filterMap fun entry =>
    if entry.2.isEmpty then none else some (entry.1, entry.2.reverse) := by
  simp only [requests, log, List.filterMap_map]
  rfl

variable [Quantity α] {scenes : Keyed (Scene α)} {r r' : Roster α} {name : String}

def Shows (scenes : Keyed (Scene α)) (r : Roster α) : Prop :=
  Keyed.Related (fun x scene => Source.feed.Shows scene x.1) r scenes

theorem Shows.exists_scene (h : r.Shows scenes) {x : Source α × List (Direction α)}
    (hx : r.get? name = some x) :
    ∃ scene, scenes.get? name = some scene ∧ Source.feed.Shows scene x.1 := by
  have hrel := Keyed.Related.get? h name
  rw [hx] at hrel
  generalize scenes.get? name = found at hrel ⊢
  cases hrel with
  | some hshows => exact ⟨_, rfl, hshows⟩

theorem Shows.unasked (h : r.Shows scenes) : r.unasked.Shows scenes := by
  induction h with
  | nil => exact .nil
  | cons hfirst _ ih => exact .cons hfirst ih

theorem Shows.put_next (h : r.Shows scenes) {x : Source α × List (Direction α)}
    (hx : r.get? name = some x) (d : Direction α) (asked : List (Direction α)) :
    Shows scenes (r.put name ((Source.feed.rows d x.1).2, asked)) := by
  obtain ⟨scene, hscene, hshows⟩ := h.exists_scene hx
  have hput := Keyed.Related.put h name (v := ((Source.feed.rows d x.1).2, asked)) (hshows.next d)
  rwa [Keyed.put_of_get? hscene] at hput

theorem Shows.feed_rows (h : r.Shows scenes) (name : String) (d : Direction α) :
    ((feed name).rows d r).2.Shows scenes := by
  cases hx : r.get? name with
  | none => simpa [feed, hx] using h
  | some x =>
    simp only [feed, hx]
    exact h.put_next hx d _

/-- The same scenes behind the same requests. -/
structure Level (scenes : Keyed (Scene α)) (r r' : Roster α) : Prop where
  left : r.Shows scenes
  right : r'.Shows scenes
  log_eq : r.log = r'.log

theorem Shows.level_unasked (h : r.Shows scenes) (h' : r'.Shows scenes) :
    Level scenes r.unasked r'.unasked where
  left := h.unasked
  right := h'.unasked
  log_eq := by
    rw [log_unasked, log_unasked, ← Keyed.Related.names h, ← Keyed.Related.names h']

theorem feed_alike (scenes : Keyed (Scene α)) (name : String) :
    Feed.Alike (Level scenes) (feed name) (feed name) := by
  have hget : ∀ r r' : Roster α, Level scenes r r' →
      (r.get? name = none ∧ r'.get? name = none) ∨
        ∃ x x' scene, r.get? name = some x ∧ r'.get? name = some x' ∧ x.2 = x'.2 ∧
          Source.feed.Shows scene x.1 ∧ Source.feed.Shows scene x'.1 := by
    intro r r' h
    have hlog := congrArg (fun log => Keyed.get? log name) h.log_eq
    simp only [get?_log] at hlog
    cases hx : r.get? name with
    | none =>
      rw [hx] at hlog
      exact .inl ⟨rfl, by simpa using hlog.symm⟩
    | some x =>
      rw [hx] at hlog
      obtain ⟨x', hx', hasked⟩ := Option.map_eq_some_iff.mp hlog.symm
      obtain ⟨scene, hscene, hshows⟩ := h.left.exists_scene hx
      obtain ⟨scene', hscene', hshows'⟩ := h.right.exists_scene hx'
      obtain rfl : scene = scene' := Option.some.inj (hscene.symm.trans hscene')
      exact .inr ⟨x, x', scene, rfl, hx', hasked.symm, hshows, hshows'⟩
  constructor
  · intro d r r' h
    obtain ⟨hx, hx'⟩ | ⟨x, x', scene, hx, hx', hasked, hshows, hshows'⟩ := hget r r' h
    · simp only [feed, hx, hx']
      exact ⟨trivial, h⟩
    · refine ⟨?_, h.left.feed_rows name d, h.right.feed_rows name d, ?_⟩
      · simp only [feed, hx, hx']
        exact (hshows.rows_eq d).trans (hshows'.rows_eq d).symm
      · simp only [feed, hx, hx', Feed.recorded, log_put, h.log_eq, hasked]
  · intro r r' h
    obtain ⟨hx, hx'⟩ | ⟨x, x', scene, hx, hx', -, hshows, hshows'⟩ := hget r r' h
    · simp only [feed, hx, hx']
    · simp only [feed, hx, hx']
      exact hshows.channels_eq.trans hshows'.channels_eq.symm

end Coplanar.Roster
