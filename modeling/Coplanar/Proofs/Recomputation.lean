import Coplanar.Corrector

/-! What asking a corrector for rows can do to it: one case for each stage at which
the call can end.  A plane is taken over before the residual check, the rows only
after it. -/
namespace Coplanar

namespace Corrector

variable {ι σ α : Type}

section Stages

variable [Scalar α]

def newPlane? (c : Corrector ι α) (v : Verdict α) : Option (Plane α) :=
  v.plane.filter fun plane => !plane.same c.plane

theorem commit_eq (c : Corrector ι α) (tolerance : α) (v : Verdict α) :
    c.commit tolerance v =
      { c with
        plane := (c.newPlane? v).getD c.plane
        epoch := if (c.newPlane? v).isSome then c.epoch.planeChanged else c.epoch
        deviation := some v.deviation
        tolerance := some tolerance
        isFresh := (c.newPlane? v).isSome } := by
  unfold commit newPlane?
  cases v.plane with
  | none => rfl
  | some plane => by_cases h : plane.same c.plane <;> simp [Option.filter, h]

def adopt (c : Corrector ι α) (d : Direction α) (tolerance : α) (v : Verdict α) :
    Corrector ι α :=
  { c with center := some d }.commit tolerance v

@[simp] theorem adopt_settings (c : Corrector ι α) (d : Direction α) (tolerance : α)
    (v : Verdict α) : (c.adopt d tolerance v).settings = c.settings := by
  rw [adopt, commit_eq]

@[simp] theorem adopt_plane (c : Corrector ι α) (d : Direction α) (tolerance : α)
    (v : Verdict α) : (c.adopt d tolerance v).plane = (c.newPlane? v).getD c.plane := by
  rw [adopt, commit_eq]
  rfl

@[simp] theorem adopt_source (c : Corrector ι α) (d : Direction α) (tolerance : α)
    (v : Verdict α) : (c.adopt d tolerance v).source = c.source := by
  rw [adopt, commit_eq]

@[simp] theorem adopt_center (c : Corrector ι α) (d : Direction α) (tolerance : α)
    (v : Verdict α) : (c.adopt d tolerance v).center = some d := by
  rw [adopt, commit_eq]

@[simp] theorem adopt_epoch_source (c : Corrector ι α) (d : Direction α) (tolerance : α)
    (v : Verdict α) : (c.adopt d tolerance v).epoch.source = c.epoch.source := by
  rw [adopt, commit_eq]
  dsimp only
  split <;> rfl

theorem adopt_epoch_plane (c : Corrector ι α) (d : Direction α) (tolerance : α)
    (v : Verdict α) : (c.adopt d tolerance v).epoch.plane =
      if (c.newPlane? v).isSome then c.epoch.plane + 1 else c.epoch.plane := by
  rw [adopt, commit_eq]
  change (if (c.newPlane? v).isSome then _ else _ : Epoch).plane = _
  split <;> rfl

@[simp] theorem adopt_cache (c : Corrector ι α) (d : Direction α) (tolerance : α)
    (v : Verdict α) : (c.adopt d tolerance v).cache = c.cache := by
  rw [adopt, commit_eq]

@[simp] theorem adopt_deviation (c : Corrector ι α) (d : Direction α) (tolerance : α)
    (v : Verdict α) : (c.adopt d tolerance v).deviation = some v.deviation := by
  rw [adopt, commit_eq]

@[simp] theorem adopt_tolerance (c : Corrector ι α) (d : Direction α) (tolerance : α)
    (v : Verdict α) : (c.adopt d tolerance v).tolerance = some tolerance := by
  rw [adopt, commit_eq]

theorem judge_of_reactive {c : Corrector ι α} (h : c.settings.predict = false) (feed : Feed σ α)
    (d : Direction α) (rows : Chunk α) (tolerance : α) (s : σ) :
    (c.judge feed d rows tolerance s).result = reactive rows tolerance c.plane := by
  simp [judge, h]

theorem judge_of_predictive {c : Corrector ι α} (h : c.settings.predict = true) (feed : Feed σ α)
    (d : Direction α) (rows : Chunk α) (tolerance : α) (s : σ) :
    (c.judge feed d rows tolerance s).result =
      (predictive (.ofFeed feed d c.settings.interval) rows tolerance c.plane
        c.settings.maxSteps s).result := by
  simp [judge, h]

def passes (c : Corrector ι α) (rows : Chunk α) (tolerance : α) : Bool :=
  !c.settings.checkResidual || Scalar.less (c.plane.maxDeviation rows) tolerance

theorem passes_of_checked {c : Corrector ι α} (h : c.settings.checkResidual = true)
    (rows : Chunk α) (tolerance : α) :
    c.passes rows tolerance = Scalar.less (c.plane.maxDeviation rows) tolerance := by
  simp [passes, h]

def serving (c : Corrector ι α) (rows : Chunk α) (identity : Nat) : Served α :=
  ⟨rows.map c.plane.subtract, identity, c.epoch.source⟩

def objection (c : Corrector ι α) (rows : Chunk α) (tolerance : α) : Fault α :=
  .toleranceExceeded (c.plane.maxDeviation rows) c.settings.wTolerance tolerance

theorem deliver_of_passes {c : Corrector ι α} {rows : Chunk α} {tolerance : α}
    (h : c.passes rows tolerance = true) (identity : Nat) :
    c.deliver rows tolerance identity =
      (.ok (c.serving rows identity), { c with cache := some (c.serving rows identity) }) := by
  unfold deliver
  cases hcheck : c.settings.checkResidual with
  | false => rfl
  | true =>
    have hless : Scalar.less (c.plane.maxDeviation rows) tolerance = true := by
      simpa [passes, hcheck] using h
    simp [checkResidual, Except.map, hless, serving]

theorem deliver_of_objection {c : Corrector ι α} {rows : Chunk α} {tolerance : α}
    (h : c.passes rows tolerance = false) (identity : Nat) :
    c.deliver rows tolerance identity = (.error (c.objection rows tolerance), c) := by
  have hboth : c.settings.checkResidual = true ∧
      Scalar.less (c.plane.maxDeviation rows) tolerance = false := by
    simpa [passes] using h
  simp [deliver, checkResidual, Except.map, hboth, objection]

theorem process_of_error {c : Corrector ι α} {feed : Feed σ α} {d : Direction α}
    {rows : Chunk α} {tolerance : α} {s : σ} {fault : Fault α}
    (h : (c.judge feed d rows tolerance s).result = .error fault) (identity : Nat) :
    (c.process feed d rows tolerance identity s).result = .error fault ∧
      (c.process feed d rows tolerance identity s).corrector = { c with center := some d } := by
  have hbound : ({ c with center := some d }.judge feed d rows tolerance s).result =
      .error fault := h
  simp [process, hbound]

theorem process_of_ok {c : Corrector ι α} {feed : Feed σ α} {d : Direction α}
    {rows : Chunk α} {tolerance : α} {s : σ} {v : Verdict α}
    (h : (c.judge feed d rows tolerance s).result = .ok v) (identity : Nat) :
    (c.process feed d rows tolerance identity s).result =
        ((c.adopt d tolerance v).deliver rows tolerance identity).1 ∧
      (c.process feed d rows tolerance identity s).corrector =
        ((c.adopt d tolerance v).deliver rows tolerance identity).2 := by
  have hbound : ({ c with center := some d }.judge feed d rows tolerance s).result = .ok v := h
  simp [process, hbound, adopt]

end Stages

variable [Trig α]

/-- The call is accepted with nothing to hand out, and the source answers it with
`rows` and channels that make for `tolerance`. -/
structure Fetches (c : Corrector ι α) (feeds : ι → Feed σ α) (d : Direction α) (s : σ)
    (source : ι) (rows : Chunk α) (tolerance : α) (next : σ) : Prop where
  accepted : c.accepts d = true
  outdated : c.current? = none
  source_eq : c.source = some source
  rows_eq : (feeds source).rows d s = (.ok rows, next)
  tolerance_eq : ((feeds source).channels next).bind
    (toleranceInMetres c.settings.wTolerance) = .ok tolerance

structure Decides (c : Corrector ι α) (feeds : ι → Feed σ α)
    (tangentPoint : Except (Fault α) (Direction α)) (s : σ) (d : Direction α) (source : ι)
    (rows : Chunk α) (tolerance : α) (next : σ) (v : Verdict α) : Prop where
  point_eq : tangentPoint = .ok d
  fetches : c.Fetches feeds d s source rows tolerance next
  judge_eq : (c.judge (feeds source) d rows tolerance next).result = .ok v

def renewal? (c : Corrector ι α) (feeds : ι → Feed σ α)
    (tangentPoint : Except (Fault α) (Direction α)) (identity : Nat) (s : σ) :
    Option (Chunk α) :=
  match c.current?, c.source, tangentPoint,
      (c.correctedRows feeds tangentPoint identity s).result with
  | none, some source, .ok d, .ok _ => ((feeds source).rows d s).1.toOption
  | _, _, _, _ => none

/-- The ways in which a call can end: what is returned, what the corrector becomes
and the chunk if rows were computed anew. -/
inductive Course (c : Corrector ι α) (feeds : ι → Feed σ α)
    (tangentPoint : Except (Fault α) (Direction α)) (identity : Nat) (s : σ) :
    Except (Fault α) (Served α) → Corrector ι α → Option (Chunk α) → Prop where
  /-- Refused, or nothing was fetched. -/
  | refused (fault : Fault α) : Course c feeds tangentPoint identity s (.error fault) c none
  /-- From the rows at hand. -/
  | answered (served : Served α) (h : c.current? = some served) :
    Course c feeds tangentPoint identity s (.ok served) c none
  /-- The policy comes to no verdict. -/
  | undecided (d : Direction α) (source : ι) (rows : Chunk α) (tolerance : α) (next : σ)
    (fault : Fault α) (hpoint : tangentPoint = .ok d)
    (hfetch : c.Fetches feeds d s source rows tolerance next)
    (hjudge : (c.judge (feeds source) d rows tolerance next).result = .error fault) :
    Course c feeds tangentPoint identity s (.error fault) { c with center := some d } none
  /-- The residual check objects, with the plane of the verdict taken over. -/
  | exceeded (d : Direction α) (source : ι) (rows : Chunk α) (tolerance : α) (next : σ)
    (v : Verdict α) (hdecides : c.Decides feeds tangentPoint s d source rows tolerance next v)
    (hpasses : (c.adopt d tolerance v).passes rows tolerance = false) :
    Course c feeds tangentPoint identity s
      (.error ((c.adopt d tolerance v).objection rows tolerance))
      (c.adopt d tolerance v) none
  | renewed (d : Direction α) (source : ι) (rows : Chunk α) (tolerance : α) (next : σ)
    (v : Verdict α) (hdecides : c.Decides feeds tangentPoint s d source rows tolerance next v)
    (hpasses : (c.adopt d tolerance v).passes rows tolerance = true) :
    Course c feeds tangentPoint identity s
      (.ok ((c.adopt d tolerance v).serving rows identity))
      { (c.adopt d tolerance v) with
        cache := some ((c.adopt d tolerance v).serving rows identity) }
      (some rows)

theorem renewal?_of_error {c : Corrector ι α} {feeds : ι → Feed σ α}
    {tangentPoint : Except (Fault α) (Direction α)} {identity : Nat} {s : σ} {fault : Fault α}
    (h : (c.correctedRows feeds tangentPoint identity s).result = .error fault) :
    c.renewal? feeds tangentPoint identity s = none := by
  unfold renewal?
  split
  · rename_i hok
    exact absurd (h.symm.trans hok) nofun
  · rfl

theorem correctedRows_cases (c : Corrector ι α) (feeds : ι → Feed σ α)
    (tangentPoint : Except (Fault α) (Direction α)) (identity : Nat) (s : σ) :
    let reply := c.correctedRows feeds tangentPoint identity s
    (∃ fault, reply.result = .error fault ∧ reply.corrector = c) ∨
      (∃ served, c.current? = some served ∧ reply.result = .ok served ∧ reply.corrector = c) ∨
        ∃ d source rows tolerance next, tangentPoint = .ok d ∧
          c.Fetches feeds d s source rows tolerance next := by
  cases tangentPoint with
  | error fault => exact .inl ⟨fault, rfl, rfl⟩
  | ok d =>
    dsimp only [correctedRows, rowsToward]
    cases haccepts : c.accepts d with
    | false => exact .inl ⟨_, rfl, rfl⟩
    | true =>
      cases hcurrent : c.current? with
      | some served => exact .inr (.inl ⟨served, rfl, rfl, rfl⟩)
      | none =>
        cases hsource : c.source with
        | none => exact .inl ⟨_, rfl, rfl⟩
        | some source =>
          rcases hrows : (feeds source).rows d s with ⟨answer, next⟩
          cases answer with
          | error fault => exact .inl ⟨fault, by simp [recompute, hrows], by simp [recompute, hrows]⟩
          | ok rows =>
            cases htolerance : ((feeds source).channels next).bind
                (toleranceInMetres c.settings.wTolerance) with
            | error fault =>
              exact .inl ⟨fault, by simp [recompute, hrows, htolerance],
                by simp [recompute, hrows, htolerance]⟩
            | ok tolerance =>
              exact .inr (.inr ⟨d, source, rows, tolerance, next, rfl,
                ⟨haccepts, hcurrent, hsource, hrows, htolerance⟩⟩)

theorem correctedRows_of_fetches {c : Corrector ι α} {feeds : ι → Feed σ α} {d : Direction α}
    {s next : σ} {source : ι} {rows : Chunk α} {tolerance : α}
    (h : c.Fetches feeds d s source rows tolerance next) (identity : Nat) :
    c.correctedRows feeds (.ok d) identity s =
      c.process (feeds source) d rows tolerance identity next := by
  simp [correctedRows, rowsToward, recompute, h.accepted, h.outdated, h.source_eq, h.rows_eq,
    h.tolerance_eq]

theorem course (c : Corrector ι α) (feeds : ι → Feed σ α)
    (tangentPoint : Except (Fault α) (Direction α)) (identity : Nat) (s : σ) :
    let reply := c.correctedRows feeds tangentPoint identity s
    c.Course feeds tangentPoint identity s reply.result reply.corrector
      (c.renewal? feeds tangentPoint identity s) := by
  intro reply
  obtain ⟨fault, hresult, hcorrector⟩ | ⟨served, hcurrent, hresult, hcorrector⟩ |
    ⟨d, source, rows, tolerance, next, rfl, hfetch⟩ :=
      c.correctedRows_cases feeds tangentPoint identity s
  · rw [renewal?_of_error hresult, hresult, hcorrector]
    exact .refused fault
  · have hnone : c.renewal? feeds tangentPoint identity s = none := by simp [renewal?, hcurrent]
    rw [hnone, hresult, hcorrector]
    exact .answered served hcurrent
  · have hreply : reply = c.process (feeds source) d rows tolerance identity next :=
      correctedRows_of_fetches hfetch identity
    cases hjudge : (c.judge (feeds source) d rows tolerance next).result with
    | error fault =>
      obtain ⟨hresult, hcorrector⟩ := process_of_error hjudge identity
      rw [← hreply] at hresult hcorrector
      rw [renewal?_of_error hresult, hresult, hcorrector]
      exact .undecided d source rows tolerance next fault rfl hfetch hjudge
    | ok v =>
      obtain ⟨hresult, hcorrector⟩ := process_of_ok hjudge identity
      rw [← hreply] at hresult hcorrector
      cases hpasses : (c.adopt d tolerance v).passes rows tolerance with
      | false =>
        rw [deliver_of_objection hpasses] at hresult hcorrector
        rw [renewal?_of_error hresult, hresult, hcorrector]
        exact .exceeded d source rows tolerance next v ⟨rfl, hfetch, hjudge⟩ hpasses
      | true =>
        rw [deliver_of_passes hpasses] at hresult hcorrector
        have hrenewal : c.renewal? feeds (.ok d) identity s = some rows := by
          simp [renewal?, hfetch.outdated, hfetch.source_eq, hfetch.rows_eq,
            show (c.correctedRows feeds (.ok d) identity s).result = _ from hresult,
            Except.toOption]
        rw [hrenewal, hresult, hcorrector]
        exact .renewed d source rows tolerance next v ⟨rfl, hfetch, hjudge⟩ hpasses

theorem current?_of_correctedRows {c : Corrector ι α} {feeds : ι → Feed σ α}
    {tangentPoint : Except (Fault α) (Direction α)} {identity : Nat} {s : σ} {served : Served α}
    (h : (c.correctedRows feeds tangentPoint identity s).result = .ok served) :
    (c.correctedRows feeds tangentPoint identity s).corrector.current? = some served := by
  have hcourse := c.course feeds tangentPoint identity s
  dsimp only at hcourse
  rw [h] at hcourse
  generalize (c.correctedRows feeds tangentPoint identity s).corrector = after at hcourse ⊢
  generalize c.renewal? feeds tangentPoint identity s = renewal at hcourse
  cases hcourse with
  | answered _ hcurrent => exact hcurrent
  | renewed => simp [current?, serving, Option.filter]

end Corrector

end Coplanar
