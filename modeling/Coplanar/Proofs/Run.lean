import Coplanar.Proofs.Recomputation

/-! Runs: what becomes of a corrector from call to call, and what a run does with the
rows it is asked for. -/
namespace Coplanar

theorem eq_of_map_eq {α β γ : Type} {f : α → γ} {g : β → γ} {l : List α} {l' : List β}
    (h : l.map f = l'.map g) {n : Nat} {x : α} {y : β} (hx : l[n]? = some x)
    (hy : l'[n]? = some y) : f x = g y := by
  have hn : (l.map f)[n]? = (l'.map g)[n]? := by rw [h]
  simpa [hx, hy] using hn

/-- What can be done with a corrector.  After a duplication it is the duplicate that
the run is about. -/
inductive Call (ι α : Type) where
  | associate (source : Option ι)
  | notify
  | duplicate (identity : Nat)
  | correct (tangentPoint : Except (Fault α) (Direction α)) (identity : Nat)

/-- A call, and the sources as it finds them: they may have changed in any way since
the call before it. -/
structure Moment (ι σ α : Type) where
  call : Call ι α
  sources : σ

inductive Event (α : Type) where
  | announced
  | renewed (rows : Chunk α)

namespace Corrector

variable {ι σ α : Type} [Trig α] (feeds : ι → Feed σ α)

def next (c : Corrector ι α) (m : Moment ι σ α) : Corrector ι α :=
  match m.call with
  | .associate source => c.associate source
  | .notify => c.notify
  | .duplicate identity => c.duplicate identity
  | .correct tangentPoint identity =>
    (c.correctedRows feeds tangentPoint identity m.sources).corrector

def event? (c : Corrector ι α) (m : Moment ι σ α) : Option (Event α) :=
  match m.call with
  | .associate _ => some .announced
  | .notify => some .announced
  | .duplicate _ => none
  | .correct tangentPoint identity =>
    (c.renewal? feeds tangentPoint identity m.sources).map .renewed

def run (c : Corrector ι α) (moments : List (Moment ι σ α)) : Corrector ι α :=
  moments.foldl (next feeds) c

def events (c : Corrector ι α) : List (Moment ι σ α) → List (Event α)
  | [] => []
  | m :: rest => (c.event? feeds m).toList ++ events (c.next feeds m) rest

@[simp] theorem run_nil (c : Corrector ι α) : c.run feeds [] = c := rfl

@[simp] theorem run_cons (c : Corrector ι α) (m : Moment ι σ α) (rest : List (Moment ι σ α)) :
    c.run feeds (m :: rest) = (c.next feeds m).run feeds rest := rfl

theorem run_append (c : Corrector ι α) (before after : List (Moment ι σ α)) :
    c.run feeds (before ++ after) = (c.run feeds before).run feeds after :=
  List.foldl_append

def Throughout (P : Corrector ι α → Moment ι σ α → Prop) (c : Corrector ι α) :
    List (Moment ι σ α) → Prop
  | [] => True
  | m :: rest => P c m ∧ Throughout P (c.next feeds m) rest

theorem throughout_append (P : Corrector ι α → Moment ι σ α → Prop) (c : Corrector ι α)
    (before after : List (Moment ι σ α)) :
    c.Throughout feeds P (before ++ after) ↔
      c.Throughout feeds P before ∧ (c.run feeds before).Throughout feeds P after := by
  induction before generalizing c with
  | nil => simp [Throughout]
  | cons m before ih => simp only [List.cons_append, Throughout, run_cons, ih, and_assoc]

inductive Step (c : Corrector ι α) (m : Moment ι σ α) :
    Corrector ι α → Option (Event α) → Prop where
  | associated (source : Option ι) (hcall : m.call = .associate source) :
    Step c m (c.associate source) (some .announced)
  | notified (hcall : m.call = .notify) : Step c m c.notify (some .announced)
  | duplicated (identity : Nat) (hcall : m.call = .duplicate identity) :
    Step c m (c.duplicate identity) none
  | corrected (tangentPoint : Except (Fault α) (Direction α)) (identity : Nat)
    (result : Except (Fault α) (Served α)) (after : Corrector ι α) (renewal : Option (Chunk α))
    (hcall : m.call = .correct tangentPoint identity)
    (hcourse : c.Course feeds tangentPoint identity m.sources result after renewal) :
    Step c m after (renewal.map .renewed)

theorem exists_step (c : Corrector ι α) (m : Moment ι σ α) :
    ∃ after event, c.next feeds m = after ∧ c.event? feeds m = event ∧
      c.Step feeds m after event := by
  refine ⟨_, _, rfl, rfl, ?_⟩
  obtain ⟨call, s⟩ := m
  cases call with
  | associate source => exact .associated source rfl
  | notify => exact .notified rfl
  | duplicate identity => exact .duplicated identity rfl
  | correct tangentPoint identity =>
    exact .corrected tangentPoint identity _ _ _ rfl (c.course feeds tangentPoint identity s)

@[simp] theorem next_settings (c : Corrector ι α) (m : Moment ι σ α) :
    (c.next feeds m).settings = c.settings := by
  obtain ⟨after, event, hafter, -, hstep⟩ := c.exists_step feeds m
  rw [hafter]
  cases hstep with
  | corrected _ _ _ _ _ _ hcourse =>
    cases hcourse with
    | exceeded => exact adopt_settings ..
    | renewed => exact adopt_settings ..
    | _ => rfl
  | _ => rfl

@[simp] theorem run_settings (c : Corrector ι α) (moments : List (Moment ι σ α)) :
    (c.run feeds moments).settings = c.settings := by
  induction moments generalizing c with
  | nil => rfl
  | cons m rest ih => rw [run_cons, ih, next_settings]

def Adopts (c : Corrector ι α) (m : Moment ι σ α) (plane : Plane α) : Prop :=
  ∃ tangentPoint identity d source rows tolerance s v,
    m.call = .correct tangentPoint identity ∧
    c.Decides feeds tangentPoint m.sources d source rows tolerance s v ∧
    c.newPlane? v = some plane

theorem adopt_plane_cases (c : Corrector ι α) (d : Direction α) (tolerance : α) (v : Verdict α) :
    (c.adopt d tolerance v).plane = c.plane ∨
      c.newPlane? v = some (c.adopt d tolerance v).plane := by
  rw [adopt_plane]
  cases c.newPlane? v with
  | none => exact .inl rfl
  | some plane => exact .inr rfl

theorem next_plane_cases (c : Corrector ι α) (m : Moment ι σ α) :
    (c.next feeds m).plane = c.plane ∨ c.Adopts feeds m (c.next feeds m).plane := by
  obtain ⟨after, event, hafter, -, hstep⟩ := c.exists_step feeds m
  rw [hafter]
  cases hstep with
  | corrected _ _ _ _ _ hcall hcourse =>
    cases hcourse with
    | exceeded d source rows tolerance s v hdecides =>
      exact (c.adopt_plane_cases d tolerance v).imp_right fun hnew =>
        ⟨_, _, d, source, rows, tolerance, s, v, hcall, hdecides, hnew⟩
    | renewed d source rows tolerance s v hdecides =>
      exact (c.adopt_plane_cases d tolerance v).imp_right fun hnew =>
        ⟨_, _, d, source, rows, tolerance, s, v, hcall, hdecides, hnew⟩
    | _ => exact .inl rfl
  | _ => exact .inl rfl

/-- What each call keeps, together with the events until then, every run keeps. -/
theorem run_induction {P : List (Event α) → Corrector ι α → Prop}
    (step : ∀ log c m, P log c → P (log ++ (event? feeds c m).toList) (c.next feeds m))
    {log : List (Event α)} {c : Corrector ι α} (start : P log c) (moments : List (Moment ι σ α)) :
    P (log ++ c.events feeds moments) (c.run feeds moments) := by
  induction moments generalizing log c with
  | nil => simpa [events] using start
  | cons m rest ih =>
    rw [events, ← List.append_assoc]
    exact ih (step log c m start)

end Corrector

end Coplanar
