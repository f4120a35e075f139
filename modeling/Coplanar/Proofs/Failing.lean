import Coplanar.Proofs.Reporting

/-! What a call that fails leaves behind.  The earlier it fails the less: nothing before a
policy is asked, the tangent point while the policy looks ahead, and once it has come to a
verdict also the plane and what is reported with it.  The rows at hand stay as they are,
and stay as out of date as they are. -/
namespace Coplanar

namespace Corrector

variable {ι σ α : Type} [Trig α]

structure Asks (c : Corrector ι α) (tangentPoint : Except (Fault α) (Direction α))
    (d : Direction α) (source : ι) : Prop where
  point_eq : tangentPoint = .ok d
  accepted : c.accepts d = true
  outdated : c.current? = none
  source_eq : c.source = some source

/-- The ways to fail before a policy is asked, in their order. -/
inductive Refusal (c : Corrector ι α) (feeds : ι → Feed σ α)
    (tangentPoint : Except (Fault α) (Direction α)) (s : σ) : Fault α → Prop where
  | malformedPoint (fault : Fault α) (hpoint : tangentPoint = .error fault) :
    Refusal c feeds tangentPoint s fault
  | otherPoint (d : Direction α) (hpoint : tangentPoint = .ok d) (hother : c.accepts d = false) :
    Refusal c feeds tangentPoint s .otherTangentPoint
  | noSource (d : Direction α) (hpoint : tangentPoint = .ok d) (haccepts : c.accepts d = true)
    (houtdated : c.current? = none) (hnone : c.source = none) :
    Refusal c feeds tangentPoint s .noSource
  /-- The source does not answer with rows of three coordinates. -/
  | noRows (d : Direction α) (source : ι) (next : σ) (fault : Fault α)
    (hasks : c.Asks tangentPoint d source)
    (hrows : (feeds source).rows d s = (.error fault, next)) :
    Refusal c feeds tangentPoint s fault
  | noFrequencies (d : Direction α) (source : ι) (rows : Chunk α) (next : σ) (fault : Fault α)
    (hasks : c.Asks tangentPoint d source) (hrows : (feeds source).rows d s = (.ok rows, next))
    (hchannels : (feeds source).channels next = .error fault) :
    Refusal c feeds tangentPoint s fault
  | emptyChannels (d : Direction α) (source : ι) (rows : Chunk α) (next : σ)
    (hasks : c.Asks tangentPoint d source) (hrows : (feeds source).rows d s = (.ok rows, next))
    (hchannels : (feeds source).channels next = .ok []) :
    Refusal c feeds tangentPoint s .noChannels
  | notPositive (d : Direction α) (source : ι) (rows : Chunk α) (next : σ) (channels : List α)
    (f : α) (hasks : c.Asks tangentPoint d source)
    (hrows : (feeds source).rows d s = (.ok rows, next))
    (hchannels : (feeds source).channels next = .ok channels)
    (hhighest : highest? channels = some f) (hnot : Scalar.less 0 f = false) :
    Refusal c feeds tangentPoint s (.noPositiveFrequency f)

/-- The policy is asked and fails: the source at a tangent point ahead, or a fit. -/
def Undecided (c : Corrector ι α) (feeds : ι → Feed σ α)
    (tangentPoint : Except (Fault α) (Direction α)) (s : σ) (fault : Fault α) : Prop :=
  ∃ d source rows tolerance next, tangentPoint = .ok d ∧
    c.Fetches feeds d s source rows tolerance next ∧
    (c.judge (feeds source) d rows tolerance next).result = .error fault

def Exceeded (c : Corrector ι α) (feeds : ι → Feed σ α)
    (tangentPoint : Except (Fault α) (Direction α)) (s : σ) (fault : Fault α) : Prop :=
  ∃ d source rows tolerance next v,
    c.Decides feeds tangentPoint s d source rows tolerance next v ∧
    (c.adopt d tolerance v).passes rows tolerance = false ∧
    fault = .toleranceExceeded ((c.adopt d tolerance v).plane.maxDeviation rows)
      c.settings.wTolerance tolerance

variable {c : Corrector ι α} {feeds : ι → Feed σ α}
  {tangentPoint : Except (Fault α) (Direction α)} {identity : Nat} {s : σ} {fault : Fault α}

theorem toleranceInMetres_error {wTolerance : α} {channels : List α}
    (h : toleranceInMetres wTolerance channels = .error fault) :
    (channels = [] ∧ fault = .noChannels) ∨
      ∃ f, highest? channels = some f ∧ Scalar.less 0 f = false ∧
        fault = .noPositiveFrequency f := by
  unfold toleranceInMetres at h
  cases channels with
  | nil => exact .inl ⟨rfl, (Except.error.inj h).symm⟩
  | cons f rest =>
    refine .inr ⟨_, rfl, ?_⟩
    cases hpositive : Scalar.less 0 (rest.foldl Scalar.larger f) with
    | true => simp [highest?, hpositive] at h
    | false => exact ⟨rfl, by simpa [highest?, hpositive, eq_comm] using h⟩

theorem Asks.cases {d : Direction α} {source : ι} (h : c.Asks tangentPoint d source)
    (feeds : ι → Feed σ α) (s : σ) :
    (∃ fault, c.Refusal feeds tangentPoint s fault) ∨
      ∃ rows tolerance next, c.Fetches feeds d s source rows tolerance next := by
  rcases hrows : (feeds source).rows d s with ⟨answer, next⟩
  cases answer with
  | error fault => exact .inl ⟨fault, .noRows d source next fault h hrows⟩
  | ok rows =>
    cases hchannels : (feeds source).channels next with
    | error fault => exact .inl ⟨fault, .noFrequencies d source rows next fault h hrows hchannels⟩
    | ok channels =>
      cases htolerance : toleranceInMetres c.settings.wTolerance channels with
      | ok tolerance =>
        refine .inr ⟨rows, tolerance, next, h.accepted, h.outdated, h.source_eq, hrows, ?_⟩
        rw [hchannels]
        exact htolerance
      | error fault =>
        obtain ⟨rfl, -⟩ | ⟨f, hhighest, hnot, -⟩ := toleranceInMetres_error htolerance
        · exact .inl ⟨_, .emptyChannels d source rows next h hrows hchannels⟩
        · exact .inl ⟨_, .notPositive d source rows next channels f h hrows hchannels hhighest hnot⟩

theorem correctedRows_of_asks {d : Direction α} {source : ι} (h : c.Asks tangentPoint d source)
    (feeds : ι → Feed σ α) (identity : Nat) (s : σ) :
    c.correctedRows feeds tangentPoint identity s = c.recompute (feeds source) d identity s := by
  rw [h.point_eq]
  simp [correctedRows, rowsToward, h.accepted, h.outdated, h.source_eq]

theorem Refusal.reply (h : c.Refusal feeds tangentPoint s fault) (identity : Nat) :
    (c.correctedRows feeds tangentPoint identity s).result = .error fault ∧
      (c.correctedRows feeds tangentPoint identity s).corrector = c := by
  cases h with
  | malformedPoint _ hpoint =>
    rw [hpoint]
    exact ⟨rfl, rfl⟩
  | otherPoint d hpoint hother =>
    rw [hpoint]
    simp [correctedRows, rowsToward, hother]
  | noSource d hpoint haccepts houtdated hnone =>
    rw [hpoint]
    simp [correctedRows, rowsToward, haccepts, houtdated, hnone]
  | noRows d source next _ hasks hrows =>
    rw [correctedRows_of_asks hasks]
    simp [recompute, hrows]
  | noFrequencies d source rows next _ hasks hrows hchannels =>
    rw [correctedRows_of_asks hasks]
    simp [recompute, hrows, hchannels, Except.bind]
  | emptyChannels d source rows next hasks hrows hchannels =>
    rw [correctedRows_of_asks hasks]
    simp [recompute, hrows, hchannels, Except.bind, toleranceInMetres, highest?]
  | notPositive d source rows next channels f hasks hrows hchannels hhighest hnot =>
    rw [correctedRows_of_asks hasks]
    simp [recompute, hrows, hchannels, Except.bind, toleranceInMetres, hhighest, hnot]

theorem Undecided.corrector_eq (h : c.Undecided feeds tangentPoint s fault) (identity : Nat) :
    c.current? = none ∧ ∃ d, tangentPoint = .ok d ∧
      (c.correctedRows feeds tangentPoint identity s).corrector = { c with center := some d } := by
  obtain ⟨d, source, rows, tolerance, next, rfl, hfetches, hjudge⟩ := h
  rw [correctedRows_of_fetches hfetches]
  exact ⟨hfetches.outdated, d, rfl, (process_of_error hjudge identity).2⟩

theorem adopt_eq (c : Corrector ι α) (d : Direction α) (tolerance : α) (v : Verdict α) :
    ∃ plane planes isFresh, c.adopt d tolerance v =
      { c with
        center := some d, plane := plane, epoch := ⟨c.epoch.source, planes⟩, isFresh := isFresh,
        deviation := some v.deviation, tolerance := some tolerance } := by
  rw [adopt, commit_eq]
  cases newPlane? { c with center := some d } v with
  | none => exact ⟨_, c.epoch.plane, _, rfl⟩
  | some plane => exact ⟨plane, c.epoch.plane + 1, true, rfl⟩

theorem Exceeded.corrector_eq (h : c.Exceeded feeds tangentPoint s fault) (identity : Nat) :
    c.current? = none ∧ ∃ d plane planes isFresh deviation tolerance, tangentPoint = .ok d ∧
      (c.correctedRows feeds tangentPoint identity s).corrector =
        { c with
          center := some d, plane := plane, epoch := ⟨c.epoch.source, planes⟩, isFresh := isFresh,
          deviation := some deviation, tolerance := some tolerance } := by
  obtain ⟨d, source, rows, tolerance, next, v, hdecides, hobjects, -⟩ := h
  obtain rfl := hdecides.point_eq
  obtain ⟨plane, planes, isFresh, hadopt⟩ := c.adopt_eq d tolerance v
  refine ⟨hdecides.fetches.outdated, d, plane, planes, isFresh, v.deviation, tolerance, rfl, ?_⟩
  rw [correctedRows_of_fetches hdecides.fetches, (process_of_ok hdecides.judge_eq identity).2,
    deliver_of_objection hobjects, hadopt]

/-- Every failing call fails at one of the three stages. -/
theorem failing_cases
    (h : (c.correctedRows feeds tangentPoint identity s).result = .error fault) :
    c.Refusal feeds tangentPoint s fault ∨ c.Undecided feeds tangentPoint s fault ∨
      c.Exceeded feeds tangentPoint s fault := by
  have hrefusal : ∀ fault', c.Refusal feeds tangentPoint s fault' →
      c.Refusal feeds tangentPoint s fault := by
    intro fault' hrefused
    obtain rfl := Except.error.inj ((hrefused.reply identity).1.symm.trans h)
    exact hrefused
  -- The call goes through its tests in this order; up to the fetching each of them refuses.
  cases tangentPoint with
  | error fault' => exact .inl (hrefusal fault' (.malformedPoint fault' rfl))
  | ok d =>
    cases haccepts : c.accepts d with
    | false => exact .inl (hrefusal _ (.otherPoint d rfl haccepts))
    | true =>
      cases hcurrent : c.current? with
      | some served => simp [correctedRows, rowsToward, haccepts, hcurrent] at h
      | none =>
        cases hsource : c.source with
        | none => exact .inl (hrefusal _ (.noSource d rfl haccepts hcurrent hsource))
        | some source =>
          obtain ⟨fault', hrefused⟩ | ⟨rows, tolerance, next, hfetches⟩ :=
            Asks.cases ⟨rfl, haccepts, hcurrent, hsource⟩ feeds s
          · exact .inl (hrefusal fault' hrefused)
          · rw [correctedRows_of_fetches hfetches] at h
            cases hjudge : (c.judge (feeds source) d rows tolerance next).result with
            | error fault' =>
              obtain rfl := Except.error.inj ((process_of_error hjudge identity).1.symm.trans h)
              exact .inr (.inl ⟨d, source, rows, tolerance, next, rfl, hfetches, hjudge⟩)
            | ok v =>
              rw [(process_of_ok hjudge identity).1] at h
              cases hpasses : (c.adopt d tolerance v).passes rows tolerance with
              | true => simp [deliver_of_passes hpasses] at h
              | false =>
                rw [deliver_of_objection hpasses, objection, adopt_settings] at h
                exact .inr (.inr ⟨d, source, rows, tolerance, next, v, ⟨rfl, hfetches, hjudge⟩,
                  hpasses, (Except.error.inj h).symm⟩)

structure Spared (c after : Corrector ι α) : Prop where
  settings : after.settings = c.settings
  source : after.source = c.source
  cache : after.cache = c.cache
  epoch : after.epoch.source = c.epoch.source

theorem spared_of_failing
    (h : (c.correctedRows feeds tangentPoint identity s).result = .error fault) :
    c.Spared (c.correctedRows feeds tangentPoint identity s).corrector := by
  obtain hrefusal | hundecided | hexceeded := failing_cases h
  · rw [(hrefusal.reply identity).2]
    exact ⟨rfl, rfl, rfl, rfl⟩
  · obtain ⟨-, d, -, hcorrector⟩ := hundecided.corrector_eq identity
    rw [hcorrector]
    exact ⟨rfl, rfl, rfl, rfl⟩
  · obtain ⟨-, d, plane, planes, isFresh, deviation, tolerance, -, hcorrector⟩ :=
      hexceeded.corrector_eq identity
    rw [hcorrector]
    exact ⟨rfl, rfl, rfl, rfl⟩

omit [Trig α] in
theorem Spared.current? {after : Corrector ι α} (h : c.Spared after) :
    after.current? = c.current? := by
  rw [Corrector.current?, Corrector.current?, h.cache, h.epoch]

omit [Trig α] in
theorem Spared.phase {after : Corrector ι α} (h : c.Spared after) : after.phase = c.phase := by
  rw [Corrector.phase, Corrector.phase, h.cache, h.epoch]

theorem served_cases {served : Served α}
    (h : (c.correctedRows feeds tangentPoint identity s).result = .ok served) :
    c.current? = some served ∨
      ∃ rows, c.renewal? feeds tangentPoint identity s = some rows ∧
        served.rows = rows.map
          (c.correctedRows feeds tangentPoint identity s).corrector.plane.subtract := by
  have hcourse := c.course feeds tangentPoint identity s
  dsimp only at hcourse
  rw [h] at hcourse
  generalize (c.correctedRows feeds tangentPoint identity s).corrector = after at hcourse ⊢
  generalize c.renewal? feeds tangentPoint identity s = renewal at hcourse ⊢
  cases hcourse with
  | answered _ hcurrent => exact .inl hcurrent
  | renewed d source rows => exact .inr ⟨rows, rfl, rfl⟩

/-- A call that is refused leaves all as it was; one whose policy fails binds the tangent
point; one whose rows are refused has taken over the verdict as well.  None touches the
rows at hand, their epoch, the source, its counter or the settings, so that afterwards
rows are only served that were up to date before, or are computed anew. -/
theorem failing_call_spares (c : Corrector ι α) (feeds : ι → Feed σ α)
    (tangentPoint : Except (Fault α) (Direction α)) (identity : Nat) (s : σ) (fault : Fault α)
    (hfault : (c.correctedRows feeds tangentPoint identity s).result = .error fault) :
    let after := (c.correctedRows feeds tangentPoint identity s).corrector
    (c.Refusal feeds tangentPoint s fault ∨ c.Undecided feeds tangentPoint s fault ∨
        c.Exceeded feeds tangentPoint s fault) ∧
      (c.Refusal feeds tangentPoint s fault → after = c) ∧
      (c.Undecided feeds tangentPoint s fault → c.current? = none ∧
        ∃ d, tangentPoint = .ok d ∧ after = { c with center := some d }) ∧
      (c.Exceeded feeds tangentPoint s fault → c.current? = none ∧
        ∃ d plane planes isFresh deviation tolerance, tangentPoint = .ok d ∧ after =
          { c with
            center := some d, plane := plane, epoch := ⟨c.epoch.source, planes⟩,
            isFresh := isFresh, deviation := some deviation, tolerance := some tolerance }) ∧
      (after.cache = c.cache ∧ after.epoch.source = c.epoch.source ∧ after.source = c.source ∧
        after.settings = c.settings ∧ after.phase = c.phase) ∧
      ∀ point' identity' s' served,
        (after.correctedRows feeds point' identity' s').result = .ok served →
        c.current? = some served ∨ ∃ rows, after.renewal? feeds point' identity' s' = some rows ∧
          served.rows = rows.map
            (after.correctedRows feeds point' identity' s').corrector.plane.subtract := by
  intro after
  have hspared : c.Spared after := spared_of_failing hfault
  refine ⟨failing_cases hfault, fun h => (h.reply identity).2, fun h => h.corrector_eq identity,
    fun h => h.corrector_eq identity,
    ⟨hspared.cache, hspared.epoch, hspared.source, hspared.settings, hspared.phase⟩, ?_⟩
  intro point' identity' s' served hserved
  rw [← hspared.current?]
  exact served_cases hserved

def unevenFeeds (isPeak : Bool) : Feed Unit ℚ :=
  .ofChunks (fun _ => if isPeak then peak else [⟨100, 0, 0⟩, ⟨0, 100, 0⟩]) [299792458]

def unevenMoments : List (Moment Bool Unit ℚ) :=
  [⟨.associate (some false), ()⟩, ⟨.correct (.ok ⟨0, 0⟩) 0, ()⟩, ⟨.associate (some true), ()⟩]

def exacting : Settings ℚ := ⟨1, true, false, 6, 10, 1 / 1000000, false⟩

def unevenReply : Reply Bool Unit ℚ :=
  (run unevenFeeds (create exacting) unevenMoments).correctedRows unevenFeeds (.ok ⟨0, 0⟩) 1 ()

theorem failing_call_spares_uneven :
    unevenReply.result = .error (.toleranceExceeded 40 1 1) ∧
      (run unevenFeeds (create exacting) unevenMoments).plane = .level ∧
      unevenReply.corrector.plane = ⟨1 / 5, 1 / 5⟩ ∧
      unevenReply.corrector.cache = some ⟨[⟨100, 0, 0⟩, ⟨0, 100, 0⟩], 0, 1⟩ ∧
      unevenReply.corrector.epoch.source = 2 ∧ unevenReply.corrector.phase = .stale := by
  have hfault : unevenReply.result = .error (.toleranceExceeded 40 1 1) := by decide +kernel
  have hcache : (run unevenFeeds (create exacting) unevenMoments).cache =
      some ⟨[⟨100, 0, 0⟩, ⟨0, 100, 0⟩], 0, 1⟩ := by decide +kernel
  have hepoch : (run unevenFeeds (create exacting) unevenMoments).epoch.source = 2 := by
    decide +kernel
  have hphase : (run unevenFeeds (create exacting) unevenMoments).phase = .stale := by
    decide +kernel
  obtain ⟨-, -, -, -, ⟨hcache', hepoch', -, -, hphase'⟩, -⟩ :=
    failing_call_spares (run unevenFeeds (create exacting) unevenMoments) unevenFeeds (.ok ⟨0, 0⟩)
      1 () _ hfault
  exact ⟨hfault, by decide +kernel, by decide +kernel, hcache'.trans hcache, hepoch'.trans hepoch,
    hphase'.trans hphase⟩

end Corrector

end Coplanar
