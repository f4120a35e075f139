import Coplanar.Proofs.Repetition
import Coplanar.Proofs.Slices
import Coplanar.Proofs.Steadfast

/-! The correction of a dataset without its corrector.  A slice is always announced, so of
what went before only the plane in use and the number of planes until then have a say in
what becomes of it, once the tangent point is not refused. -/
namespace Coplanar

def Slice.scene {α : Type} [Trig α] (s : Slice α) : Scene α := ⟨s.toward, s.channels.rectangular⟩

theorem Scene.chunk_eq_ok_iff {α : Type} [Scalar α] {scene : Scene α} {wTolerance : α}
    {d : Direction α} {rows : Chunk α} {tolerance : α} :
    scene.chunk wTolerance d = .ok (rows, tolerance) ↔ scene.rows d = .ok rows ∧
      scene.channels.bind (toleranceInMetres wTolerance) = .ok tolerance := by
  unfold Scene.chunk
  cases scene.rows d with
  | error fault => simp
  | ok rows' =>
    cases scene.channels.bind (toleranceInMetres wTolerance) with
    | error fault => simp
    | ok tolerance' => simp

namespace Corrector

section Peers

variable {ι α : Type} [Scalar α]

/-- Alike in what has a say when rows are computed anew. -/
structure Peers (c c' : Corrector ι α) : Prop where
  settings : c'.settings = c.settings
  plane : c'.plane = c.plane
  planes : c'.epoch.plane = c.epoch.plane

theorem Peers.adopt {c c' : Corrector ι α} (h : c.Peers c') (d : Direction α) (tolerance : α)
    (v : Verdict α) : (c.adopt d tolerance v).Peers (c'.adopt d tolerance v) := by
  have hnew : c'.newPlane? v = c.newPlane? v := by rw [newPlane?, newPlane?, h.plane]
  refine ⟨?_, ?_, ?_⟩
  · rw [adopt_settings, adopt_settings, h.settings]
  · rw [adopt_plane, adopt_plane, hnew, h.plane]
  · rw [adopt_epoch_plane, adopt_epoch_plane, hnew, h.planes]

theorem deliver_peers (c : Corrector ι α) (rows : Chunk α) (tolerance : α) (identity : Nat) :
    c.Peers (c.deliver rows tolerance identity).2 ∧
      (c.deliver rows tolerance identity).2.deviation = c.deviation := by
  obtain h | h := c.deliver_corrector_cases rows tolerance identity
  · rw [h]
    exact ⟨⟨rfl, rfl, rfl⟩, rfl⟩
  · rw [h]
    exact ⟨⟨rfl, rfl, rfl⟩, rfl⟩

theorem Peers.attend {c c' : Corrector ι α} (h : c.Peers c') (scene : Scene α) (d : Direction α)
    (identity identity' : Nat) :
    (c'.attend scene d identity').1.map Served.rows =
        (c.attend scene d identity).1.map Served.rows ∧
      (c.attend scene d identity).2.Peers (c'.attend scene d identity').2 ∧
      ∀ served, (c.attend scene d identity).1 = .ok served →
        (c'.attend scene d identity').2.deviation = (c.attend scene d identity).2.deviation := by
  cases hchunk : scene.chunk c.settings.wTolerance d with
  | error fault =>
    have hchunk' : scene.chunk c'.settings.wTolerance d = .error fault := by rw [h.settings, hchunk]
    rw [attend_of_chunk_error hchunk, attend_of_chunk_error hchunk']
    exact ⟨rfl, h, nofun⟩
  | ok pair =>
    obtain ⟨rows, tolerance⟩ := pair
    have hchunk' : scene.chunk c'.settings.wTolerance d = .ok (rows, tolerance) := by
      rw [h.settings, hchunk]
    have hopinions := opinion_congr h.settings h.plane scene d rows tolerance
    cases hopinion : c.opinion scene d rows tolerance with
    | error fault =>
      rw [attend_of_opinion_error hchunk hopinion,
        attend_of_opinion_error hchunk' (hopinions.trans hopinion)]
      exact ⟨rfl, ⟨h.settings, h.plane, h.planes⟩, nofun⟩
    | ok v =>
      rw [attend_of_opinion_ok hchunk hopinion,
        attend_of_opinion_ok hchunk' (hopinions.trans hopinion)]
      have hadopt := h.adopt d tolerance v
      obtain ⟨hleft, hdeviation⟩ := deliver_peers (c.adopt d tolerance v) rows tolerance identity
      obtain ⟨hright, hdeviation'⟩ :=
        deliver_peers (c'.adopt d tolerance v) rows tolerance identity'
      refine ⟨deliver_rows_eq hadopt.settings hadopt.plane rows tolerance identity identity', ⟨?_, ?_, ?_⟩,
        fun _ _ => ?_⟩
      · rw [hright.settings, hadopt.settings, hleft.settings]
      · rw [hright.plane, hadopt.plane, hleft.plane]
      · rw [hright.planes, hadopt.planes, hleft.planes]
      · rw [hdeviation, hdeviation', adopt_deviation, adopt_deviation]

end Peers

end Corrector

structure Standing (α : Type) where
  plane : Plane α
  planes : Int
deriving DecidableEq, Repr

def Standing.start {α : Type} [Scalar α] : Standing α := ⟨.level, 0⟩

def StepResult.standing {α : Type} (r : StepResult α) : Standing α := ⟨r.plane, r.planes⟩

def Corrector.standing {ι α : Type} (c : Corrector ι α) : Standing α := ⟨c.plane, c.epoch.plane⟩

namespace Correction

variable {α : Type}

def bare [Scalar α] (settings : Settings α) (before : Standing α) :
    Corrector (Slice α) α :=
  { Corrector.create settings with plane := before.plane, epoch := ⟨0, before.planes⟩ }

@[simp] theorem bare_settings [Scalar α] (settings : Settings α) (before : Standing α) :
    (bare settings before).settings = settings := rfl

@[simp] theorem bare_plane [Scalar α] (settings : Settings α) (before : Standing α) :
    (bare settings before).plane = before.plane := rfl

variable [Quantity α]

def refine (baselines : Int) (p : Direction α) (settings : Settings α) (before : Standing α)
    (s : Slice α) : Except (Fault α) (StepResult α) :=
  let (answer, after) := (bare settings before).attend s.scene p 0
  answer.bind fun served =>
    (place baselines s.valid served.rows).map fun rows =>
      ⟨rows, after.plane, after.epoch.plane, after.deviation.getD 0⟩

def refineAll (baselines : Int) (p : Direction α) (settings : Settings α) :
    Standing α → List (Except (Fault α) (Slice α)) → Except (Fault α) (List (StepResult α))
  | _, [] => .ok []
  | before, slice :: rest =>
    slice.bind fun s =>
      (refine baselines p settings before s).bind fun r =>
        (refineAll baselines p settings r.standing rest).map (r :: ·)

/-- How a slice came to a result: the rows and the tolerance, the verdict on them, and what
is taken over of it. -/
structure Refined (baselines : Int) (p : Direction α) (settings : Settings α) (before : Standing α)
    (s : Slice α) (r : StepResult α) (rows : Chunk α) (tolerance : α) (v : Verdict α) : Prop where
  rows_eq : s.toward p = .ok rows
  tolerance_eq : s.channels.rectangular.bind (toleranceInMetres settings.wTolerance) = .ok tolerance
  opinion_eq : (bare settings before).opinion s.scene p rows tolerance = .ok v
  plane_eq : r.plane = ((bare settings before).newPlane? v).getD before.plane
  planes_eq : r.planes =
    if ((bare settings before).newPlane? v).isSome then before.planes + 1 else before.planes
  deviation_eq : r.deviation = v.deviation
  passes : settings.checkResidual = true →
    Scalar.less (r.plane.maxDeviation rows) tolerance = true
  place_eq : place baselines s.valid (rows.map r.plane.subtract) = .ok r.rows

section Refined

variable {baselines : Int} {p : Direction α} {settings : Settings α} {before : Standing α}
  {s : Slice α} {r : StepResult α}

theorem refine_of_opinion {rows : Chunk α} {tolerance : α} {v : Verdict α}
    (hchunk : s.scene.chunk settings.wTolerance p = .ok (rows, tolerance))
    (hopinion : (bare settings before).opinion s.scene p rows tolerance = .ok v) :
    refine baselines p settings before s =
      (((bare settings before).adopt p tolerance v).deliver rows tolerance 0).1.bind fun served =>
        (place baselines s.valid served.rows).map fun placed =>
          ⟨placed, ((bare settings before).newPlane? v).getD before.plane,
            if ((bare settings before).newPlane? v).isSome then before.planes + 1 else before.planes,
            v.deviation⟩ := by
  obtain ⟨hpeers, hdeviation⟩ :=
    Corrector.deliver_peers ((bare settings before).adopt p tolerance v)
    rows tolerance 0
  unfold refine
  rw [Corrector.attend_of_opinion_ok hchunk hopinion]
  dsimp only
  rw [hpeers.plane, hpeers.planes, hdeviation, Corrector.adopt_plane, Corrector.adopt_epoch_plane,
    Corrector.adopt_deviation]
  rfl

theorem exists_opinion (h : refine baselines p settings before s = .ok r) :
    ∃ rows tolerance v, s.scene.chunk settings.wTolerance p = .ok (rows, tolerance) ∧
      (bare settings before).opinion s.scene p rows tolerance = .ok v := by
  obtain ⟨served, hanswer, -⟩ := bind_eq_ok_iff.mp h
  have hserved : ((bare settings before).attend s.scene p 0).1 = .ok served := hanswer
  cases hchunk : s.scene.chunk settings.wTolerance p with
  | error fault =>
    rw [Corrector.attend_of_chunk_error (c := bare settings before) hchunk] at hserved
    cases hserved
  | ok pair =>
    obtain ⟨rows, tolerance⟩ := pair
    cases hopinion : (bare settings before).opinion s.scene p rows tolerance with
    | error fault =>
      rw [Corrector.attend_of_opinion_error (c := bare settings before) hchunk hopinion] at hserved
      cases hserved
    | ok v => exact ⟨rows, tolerance, v, rfl, hopinion⟩

theorem refine_eq_ok_iff :
    refine baselines p settings before s = .ok r ↔
      ∃ rows tolerance v, Refined baselines p settings before s r rows tolerance v := by
  constructor
  · intro h
    obtain ⟨rows, tolerance, v, hchunk, hopinion⟩ := exists_opinion h
    rw [refine_of_opinion hchunk hopinion] at h
    obtain ⟨served, hserved, hplaced⟩ := bind_eq_ok_iff.mp h
    obtain ⟨placed, hplace, rfl⟩ := map_eq_ok_iff.mp hplaced
    obtain ⟨hrows, htolerance⟩ := Scene.chunk_eq_ok_iff.mp hchunk
    cases hpasses : ((bare settings before).adopt p tolerance v).passes rows tolerance with
    | false =>
      rw [Corrector.deliver_of_objection hpasses] at hserved
      cases hserved
    | true =>
      rw [Corrector.deliver_of_passes hpasses] at hserved
      cases hserved
      simp only [Corrector.serving, Corrector.adopt_plane, bare_plane] at hplace
      refine ⟨rows, tolerance, v, hrows, htolerance, hopinion, rfl, rfl, rfl,
        fun hcheck => ?_, hplace⟩
      rwa [Corrector.passes_of_checked (by rwa [Corrector.adopt_settings]),
        Corrector.adopt_plane] at hpasses
  · rintro ⟨rows, tolerance, v, h⟩
    have hpasses : ((bare settings before).adopt p tolerance v).passes rows tolerance = true := by
      cases hcheck : settings.checkResidual with
      | false => simp [Corrector.passes, bare, Corrector.create, hcheck]
      | true =>
        rw [Corrector.passes_of_checked (by rwa [Corrector.adopt_settings]), Corrector.adopt_plane]
        have hless := h.passes hcheck
        rwa [h.plane_eq] at hless
    have hplace := h.place_eq
    rw [h.plane_eq] at hplace
    rw [refine_of_opinion (Scene.chunk_eq_ok_iff.mpr ⟨h.rows_eq, h.tolerance_eq⟩) h.opinion_eq,
      Corrector.deliver_of_passes hpasses]
    simp only [Corrector.serving, Corrector.adopt_plane, bare_plane, Except.bind]
    rw [hplace, ← h.plane_eq, ← h.planes_eq, ← h.deviation_eq]
    rfl

end Refined

theorem shows_scene (s : Slice α) : (feed s).Shows s.scene () := fun _ => rfl

theorem step_eq_refine (baselines : Int) {p : Direction α} {c : Corrector (Slice α) α} {s : Slice α}
    (hcurrent : (c.associate (some s)).current? = none) (haccepts : c.accepts p = true) :
    (step baselines (.ok p) c s).1 = refine baselines p c.settings c.standing s := by
  have hpeers : (bare c.settings c.standing).Peers (c.associate (some s)) := ⟨rfl, rfl, rfl⟩
  obtain ⟨hresult, hcorrector⟩ := Corrector.correctedRows_of_shows
    (c := c.associate (some s)) (d := p) haccepts hcurrent rfl (shows_scene s) 0
  obtain ⟨hrows, hafter, hdeviation⟩ := hpeers.attend s.scene p 0 0
  unfold step refine
  dsimp only
  rw [hresult, hcorrector, hafter.plane, hafter.planes]
  generalize ((c.associate (some s)).attend s.scene p 0).1 = answer at hrows
  cases hanswer : ((bare c.settings c.standing).attend s.scene p 0).1 with
  | error fault =>
    rw [hanswer] at hrows
    cases answer with
    | error fault' => exact congrArg _ (Except.error.inj hrows)
    | ok served => cases hrows
  | ok served =>
    rw [hdeviation served hanswer]
    rw [hanswer] at hrows
    cases answer with
    | error fault => cases hrows
    | ok served' =>
      have hsame : served'.rows = served.rows := Except.ok.inj hrows
      simp only [Except.bind, hsame]

theorem standing_of_step {baselines : Int} {p : Direction α} {c : Corrector (Slice α) α}
    {s : Slice α} {r : StepResult α} (h : (step baselines (.ok p) c s).1 = .ok r) :
    (step baselines (.ok p) c s).2.1.standing = r.standing := by
  obtain ⟨served, -, hplaced⟩ := bind_eq_ok_iff.mp h
  obtain ⟨rows, -, rfl⟩ := map_eq_ok_iff.mp hplaced
  rfl

section Runs

variable {baselines : Int} {p : Direction α} {c : Corrector (Slice α) α}

theorem accepts_of_step {s : Slice α} {r : StepResult α}
    (h : (step baselines (.ok p) c s).1 = .ok r) : c.accepts p = true := by
  by_contra hrefused
  rw [Bool.not_eq_true] at hrefused
  have hother : (c.associate (some s)).accepts p = false := hrefused
  obtain ⟨served, hserved, -⟩ := bind_eq_ok_iff.mp h
  simp [Corrector.correctedRows, Corrector.rowsToward, hother] at hserved

theorem coherent_step (baselines : Int) (hcoherent : ∃ log, Corrector.Coherent log c)
    (s : Slice α) :
    ∃ log, Corrector.Coherent log (step baselines (.ok p) c s).2.1 := by
  obtain ⟨log, h⟩ := hcoherent
  rw [step_corrector]
  exact ⟨_, (h.next feed ⟨.associate (some s), ()⟩).next feed ⟨.correct (.ok p) 0, ()⟩⟩

theorem current?_associate (hcoherent : ∃ log, Corrector.Coherent log c) (s : Slice α) :
    (c.associate (some s)).current? = none := by
  obtain ⟨log, h⟩ := hcoherent
  exact h.current?_of_announced _ rfl rfl

theorem refineAll_of_steps {slices : List (Except (Fault α) (Slice α))}
    {results : List (StepResult α)} (hcoherent : ∃ log, Corrector.Coherent log c)
    (h : (steps baselines (.ok p) c slices).1 = .ok results) :
    refineAll baselines p c.settings c.standing slices = .ok results := by
  induction slices generalizing c results with
  | nil => exact h
  | cons slice rest ih =>
    cases slice with
    | error fault => cases h
    | ok s =>
      rw [steps_cons] at h
      obtain ⟨first, hfirst, hothers⟩ := bind_eq_ok_iff.mp h
      obtain ⟨others, hrest, rfl⟩ := map_eq_ok_iff.mp hothers
      have hrefine :=
        step_eq_refine baselines (current?_associate hcoherent s) (accepts_of_step hfirst)
      have hrefineAll := ih (coherent_step baselines hcoherent s) hrest
      rw [step_settings, standing_of_step hfirst] at hrefineAll
      change (refine baselines p c.settings c.standing s).bind _ = _
      rw [← hrefine, hfirst]
      change (refineAll baselines p c.settings first.standing rest).map _ = _
      rw [hrefineAll]
      rfl

theorem steps_eq_refineAll {slices : List (Except (Fault α) (Slice α))}
    (hcoherent : ∃ log, Corrector.Coherent log c) (hcenter : c.center = none ∨ c.center = some p)
    (hnear : p.isNear p c.settings.tangentTolerance = true) :
    (steps baselines (.ok p) c slices).1 = refineAll baselines p c.settings c.standing slices := by
  induction slices generalizing c with
  | nil => rfl
  | cons slice rest ih =>
    cases slice with
    | error fault => rfl
    | ok s =>
      have haccepts : c.accepts p = true := by
        obtain hnone | hsome := hcenter
        · exact Corrector.accepts_of_center_none hnone
        · rw [Corrector.accepts, hsome]
          exact hnear
      -- Each slice is announced as a new source, so that it finds nothing up to date.
      have hrefine := step_eq_refine baselines (current?_associate hcoherent s) haccepts
      rw [steps_cons, hrefine]
      change _ = (refine baselines p c.settings c.standing s).bind _
      rw [← hrefine]
      cases hfirst : (step baselines (.ok p) c s).1 with
      | error fault => rfl
      | ok first =>
        have hrest := ih (coherent_step baselines hcoherent s)
          (step_center baselines hcenter s) (by rwa [step_settings])
        rw [step_settings, standing_of_step hfirst] at hrest
        exact congrArg (Except.map (first :: ·)) hrest

variable {settings : Settings α}

theorem coherent_create :
    ∃ log, Corrector.Coherent log (.create settings : Corrector (Slice α) α) :=
  ⟨[], Corrector.coherent_create settings⟩

theorem near_of_steps {slices : List (Except (Fault α) (Slice α))} {results : List (StepResult α)}
    (h : (steps baselines (.ok p) (.create settings) slices).1 = .ok results)
    (hlength : 1 < slices.length) : p.isNear p settings.tangentTolerance = true := by
  match slices with
  | [] => cases hlength
  | [_] => simp at hlength
  | .error fault :: _ :: _ => cases h
  | .ok s :: second :: rest =>
    rw [steps_cons] at h
    obtain ⟨r, hfirst, hothers⟩ := bind_eq_ok_iff.mp h
    obtain ⟨others, hrest, -⟩ := map_eq_ok_iff.mp hothers
    cases second with
    | error fault => cases hrest
    | ok s' =>
      rw [steps_cons] at hrest
      obtain ⟨r', hsecond, -⟩ := bind_eq_ok_iff.mp hrest
      have haccepts := accepts_of_step hsecond
      rwa [Corrector.accepts, center_of_step rfl hfirst, step_settings] at haccepts

theorem steps_create_eq {slices : List (Except (Fault α) (Slice α))}
    (hnear : 1 < slices.length → p.isNear p settings.tangentTolerance = true) :
    (steps baselines (.ok p) (.create settings) slices).1 =
      refineAll baselines p settings .start slices := by
  match slices with
  | [] => rfl
  | [.error fault] => rfl
  | [.ok s] =>
    rw [steps_cons, step_eq_refine _ (current?_associate coherent_create s)
      (Corrector.accepts_of_center_none rfl)]
    rfl
  | first :: second :: rest =>
    exact steps_eq_refineAll coherent_create (.inl rfl) (hnear (by simp))

end Runs

end Correction

end Coplanar
