import Coplanar.Proofs.Recomputation

/-! Sources that go on giving the same answers.  To such a source a corrector may put
any questions it likes: what it makes of the answers does not depend on what the source
was asked before, nor on which source gives them. -/
namespace Coplanar

/-- What there is to see: the rows toward each tangent point, and the channels. -/
structure Scene (α : Type) where
  rows : Direction α → Except (Fault α) (Chunk α)
  channels : Except (Fault α) (List α)

section Feeds

variable {σ α : Type}

def Scene.feed (scene : Scene α) : Feed Unit α where
  rows d s := (scene.rows d, s)
  channels _ := scene.channels

namespace Feed

def scene (feed : Feed σ α) (s : σ) : Scene α := ⟨fun d => (feed.rows d s).1, feed.channels s⟩

def after (feed : Feed σ α) (s : σ) (asked : List (Direction α)) : σ :=
  asked.foldl (fun s d => (feed.rows d s).2) s

/-- The answers are those of the scene, whatever else is asked before. -/
def Shows (feed : Feed σ α) (scene : Scene α) (s : σ) : Prop :=
  ∀ asked, feed.scene (feed.after s asked) = scene

variable {feed : Feed σ α} {scene : Scene α} {s : σ}

theorem Shows.rows_eq (h : feed.Shows scene s) (d : Direction α) :
    (feed.rows d s).1 = scene.rows d := by
  rw [← h []]
  rfl

theorem Shows.channels_eq (h : feed.Shows scene s) : feed.channels s = scene.channels := by
  rw [← h []]
  rfl

theorem Shows.next (h : feed.Shows scene s) (d : Direction α) :
    feed.Shows scene (feed.rows d s).2 := fun asked => h (d :: asked)

theorem shows_feed (scene : Scene α) (s : Unit) : scene.feed.Shows scene s := fun _ => rfl

end Feed

end Feeds

def Scene.chunk {α : Type} [Scalar α] (scene : Scene α) (wTolerance : α) (d : Direction α) :
    Except (Fault α) (Chunk α × α) :=
  match scene.rows d, scene.channels.bind (toleranceInMetres wTolerance) with
  | .ok rows, .ok tolerance => .ok (rows, tolerance)
  | .ok _, .error fault => .error fault
  | .error fault, _ => .error fault

inductive Matched {ε β γ : Type} (A : β → γ → Prop) : Except ε β → Except ε γ → Prop where
  | failed (fault : ε) : Matched A (.error fault) (.error fault)
  | given {x : β} {y : γ} (h : A x y) : Matched A (.ok x) (.ok y)

theorem Matched.of_eq {ε β : Type} {A : β → β → Prop} (h : ∀ x, A x x) {x y : Except ε β}
    (hxy : x = y) : Matched A x y := by
  subst hxy
  cases x with
  | error fault => exact .failed fault
  | ok x => exact .given (h x)

theorem Matched.eq_of_forall {ε β : Type} {A : β → β → Prop} (h : ∀ x y, A x y → x = y)
    {x y : Except ε β} (hxy : Matched A x y) : x = y := by
  cases hxy with
  | failed fault => rfl
  | given hA => exact congrArg _ (h _ _ hA)

theorem Matched.imp {ε β γ : Type} {A B : β → γ → Prop} (h : ∀ x y, A x y → B x y)
    {x : Except ε β} {y : Except ε γ} (hxy : Matched A x y) : Matched B x y := by
  cases hxy with
  | failed fault => exact .failed fault
  | given hA => exact .given (h _ _ hA)

section Search

variable {σ τ α : Type}

def Track.Alike (R : σ → τ → Prop) (left : Track σ α) (right : Track τ α) : Prop :=
  ∀ n s t, R s t → (left n s).1 = (right n t).1 ∧ R (left n s).2 (right n t).2

variable [Scalar α]

/-- Chunks that no policy can tell apart. -/
structure Chunk.Equivalent (rows rows' : Chunk α) : Prop where
  length_eq : rows.length = rows'.length
  fit_eq : rows.fit = rows'.fit
  maxDeviation_eq : ∀ p : Plane α, p.maxDeviation rows = p.maxDeviation rows'

theorem Chunk.Equivalent.refl (rows : Chunk α) : rows.Equivalent rows := ⟨rfl, rfl, fun _ => rfl⟩

def Track.Equivalent (R : σ → τ → Prop) (left : Track σ α) (right : Track τ α) : Prop :=
  ∀ n s t, R s t → Matched Chunk.Equivalent (left n s).1 (right n t).1 ∧
    R (left n s).2 (right n t).2

variable {R : σ → τ → Prop} {left : Track σ α} {right : Track τ α} {now now' : Chunk α}

theorem Track.Alike.equivalent (h : Track.Alike R left right) : Track.Equivalent R left right :=
  fun n s t hst => ⟨.of_eq Chunk.Equivalent.refl (h n s t hst).1, (h n s t hst).2⟩

theorem equivalent_rowsAt (h : Track.Equivalent R left right) (hnow : now.Equivalent now') :
    Track.Equivalent R (rowsAt left now) (rowsAt right now') := by
  intro n s t hst
  cases n with
  | zero => exact ⟨.given hnow, hst⟩
  | succ n => exact h (n + 1) s t hst

theorem alike_ofFeed {feed : Feed σ α} {scene : Scene α} (d : Direction α) (interval : α) :
    Track.Alike (fun s (_ : Unit) => feed.Shows scene s) (.ofFeed feed d interval)
      (.ofFeed scene.feed d interval) :=
  fun _ _ _ h => ⟨h.rows_eq _, h.next _⟩

theorem climb_equivalent (h : Track.Equivalent R left right) (tolerance : α) (plane : Plane α)
    (limit n : Nat) {s : σ} {t : τ} (hst : R s t) :
    (climb left tolerance plane limit n s).readings =
        (climb right tolerance plane limit n t).readings ∧
      (climb left tolerance plane limit n s).ending =
        (climb right tolerance plane limit n t).ending ∧
      R (climb left tolerance plane limit n s).state
        (climb right tolerance plane limit n t).state := by
  induction limit generalizing n s t with
  | zero => exact ⟨rfl, rfl, hst⟩
  | succ limit ih =>
    obtain ⟨hrows, hnext⟩ := h (n + 1) s t hst
    rcases hleft : left (n + 1) s with ⟨answer, s'⟩
    rcases hright : right (n + 1) t with ⟨answer', t'⟩
    rw [hleft, hright] at hrows hnext
    dsimp only at hrows hnext
    simp only [climb, hleft, hright]
    cases hrows with
    | failed fault => exact ⟨rfl, rfl, hnext⟩
    | given hthere =>
      dsimp only
      rw [hthere.maxDeviation_eq plane]
      split
      · obtain ⟨hreadings, hending, hstate⟩ := ih (n + 1) hnext
        exact ⟨congrArg _ hreadings, hending, hstate⟩
      · exact ⟨rfl, rfl, hnext⟩

theorem descend_equivalent (h : Track.Equivalent R left right) (hnow : now.Equivalent now')
    (tolerance : α) (n : Nat) (best : Option (Plane α)) {s : σ} {t : τ} (hst : R s t) :
    (descend left now tolerance n best s).ending =
        (descend right now' tolerance n best t).ending ∧
      R (descend left now tolerance n best s).state
        (descend right now' tolerance n best t).state := by
  induction n generalizing best s t with
  | zero => exact ⟨rfl, hst⟩
  | succ n ih =>
    obtain ⟨hrows, hnext⟩ := equivalent_rowsAt h hnow n s t hst
    rcases hleft : rowsAt left now n s with ⟨answer, s'⟩
    rcases hright : rowsAt right now' n t with ⟨answer', t'⟩
    rw [hleft, hright] at hrows hnext
    dsimp only at hrows hnext
    simp only [descend, hleft, hright]
    cases hrows with
    | failed fault => exact ⟨rfl, hnext⟩
    | @given there there' hthere =>
      dsimp only
      rw [hthere.length_eq, hthere.fit_eq]
      split
      · exact ⟨rfl, hnext⟩
      · cases there'.fit with
        | error fault => exact ⟨rfl, hnext⟩
        | ok plane =>
          cases plane with
          | none => exact ⟨rfl, hnext⟩
          | some plane =>
            dsimp only
            rw [hnow.maxDeviation_eq plane]
            split
            · exact ⟨rfl, hnext⟩
            · exact ih (some plane) hnext

structure Outcome.Alike (R : σ → τ → Prop) (o : Outcome σ α) (o' : Outcome τ α) : Prop where
  result_eq : o.result = o'.result
  notes_eq : o.notes = o'.notes
  state : R o.state o'.state

theorem keep_equivalent (hnow : now.Equivalent now') (current : Plane α) :
    Verdict.keep current now = Verdict.keep current now' := by
  rw [Verdict.keep, Verdict.keep, hnow.maxDeviation_eq]

theorem replace_equivalent (hnow : now.Equivalent now') (plane : Plane α) :
    Verdict.replace plane now = Verdict.replace plane now' := by
  rw [Verdict.replace, Verdict.replace, hnow.maxDeviation_eq]

theorem reactive_equivalent (hnow : now.Equivalent now') (tolerance : α) (current : Plane α) :
    reactive now tolerance current = reactive now' tolerance current := by
  simp only [reactive, hnow.length_eq, hnow.fit_eq, hnow.maxDeviation_eq, keep_equivalent hnow,
    replace_equivalent hnow]

theorem search_equivalent (h : Track.Equivalent R left right) (hnow : now.Equivalent now')
    (tolerance : α) (current plane : Plane α) (limit : Nat) {s : σ} {t : τ} (hst : R s t) :
    Outcome.Alike R (search left now tolerance current plane limit s)
      (search right now' tolerance current plane limit t) := by
  obtain ⟨hreadings, hending, hstate⟩ := climb_equivalent h tolerance plane limit 0 hst
  simp only [search, hreadings, hending, keep_equivalent hnow, replace_equivalent hnow]
  cases (climb right tolerance plane limit 0 t).ending with
  | failed fault => exact ⟨rfl, rfl, hstate⟩
  | exhausted => exact ⟨rfl, rfl, hstate⟩
  | left =>
    dsimp only
    obtain ⟨hdown, hbottom⟩ := descend_equivalent h hnow tolerance
      (climb right tolerance plane limit 0 t).readings.length none hstate
    rw [hdown]
    cases (descend right now' tolerance _ none _).ending with
    | failed fault => exact ⟨rfl, rfl, hbottom⟩
    | stopped steps best => cases best <;> exact ⟨rfl, rfl, hbottom⟩

/-- The policy that looks ahead comes to the same, and asks the same, about chunks that it
cannot tell apart. -/
theorem predictive_equivalent (h : Track.Equivalent R left right) (hnow : now.Equivalent now')
    (tolerance : α) (current : Plane α) (limit : Nat) {s : σ} {t : τ} (hst : R s t)
    (exceeds : α → Bool) :
    Outcome.Alike R (predictive left now tolerance current limit s exceeds)
      (predictive right now' tolerance current limit t exceeds) := by
  simp only [predictive, keep_equivalent hnow, replace_equivalent hnow, hnow.length_eq, hnow.fit_eq]
  split
  · exact ⟨rfl, rfl, hst⟩
  · cases now'.fit with
    | error fault => exact ⟨rfl, rfl, hst⟩
    | ok plane =>
      cases plane with
      | none => exact ⟨rfl, rfl, hst⟩
      | some plane =>
        dsimp only
        split
        · exact ⟨rfl, rfl, hst⟩
        · split
          · have hfound := search_equivalent h hnow tolerance current plane limit hst
            exact ⟨hfound.result_eq, congrArg _ hfound.notes_eq, hfound.state⟩
          · exact ⟨rfl, rfl, hst⟩

theorem predictive_alike (h : Track.Alike R left right) (now : Chunk α) (tolerance : α)
    (current : Plane α) (limit : Nat) {s : σ} {t : τ} (hst : R s t) :
    Outcome.Alike R (predictive left now tolerance current limit s)
      (predictive right now tolerance current limit t) :=
  predictive_equivalent h.equivalent (.refl now) tolerance current limit hst _

end Search

namespace Corrector

variable {ι σ α : Type}

section Opinion

variable [Scalar α]

def opinion (c : Corrector ι α) (scene : Scene α) (d : Direction α) (rows : Chunk α)
    (tolerance : α) : Except (Fault α) (Verdict α) :=
  (c.judge scene.feed d rows tolerance ()).result

theorem judge_of_shows (c : Corrector ι α) {feed : Feed σ α} {scene : Scene α} {s : σ}
    (h : feed.Shows scene s) (d : Direction α) (rows : Chunk α) (tolerance : α) :
    (c.judge feed d rows tolerance s).result = c.opinion scene d rows tolerance := by
  unfold opinion judge
  split
  · exact (predictive_alike (alike_ofFeed d c.settings.interval) rows tolerance c.plane
      c.settings.maxSteps h).result_eq
  · rfl

/-- A call for rows of a scene: what is returned, and what becomes of the corrector. -/
def attend (c : Corrector ι α) (scene : Scene α) (d : Direction α) (identity : Nat) :
    Except (Fault α) (Served α) × Corrector ι α :=
  match scene.chunk c.settings.wTolerance d with
  | .error fault => (.error fault, c)
  | .ok (rows, tolerance) =>
    match c.opinion scene d rows tolerance with
    | .error fault => (.error fault, { c with center := some d })
    | .ok v => (c.adopt d tolerance v).deliver rows tolerance identity

variable {c : Corrector ι α} {scene : Scene α} {d : Direction α} {rows : Chunk α} {tolerance : α}

theorem attend_of_chunk_error {fault : Fault α}
    (h : scene.chunk c.settings.wTolerance d = .error fault) (identity : Nat) :
    c.attend scene d identity = (.error fault, c) := by
  simp [attend, h]

theorem attend_of_opinion_error {fault : Fault α}
    (h : scene.chunk c.settings.wTolerance d = .ok (rows, tolerance))
    (hopinion : c.opinion scene d rows tolerance = .error fault) (identity : Nat) :
    c.attend scene d identity = (.error fault, { c with center := some d }) := by
  simp [attend, h, hopinion]

theorem attend_of_opinion_ok {v : Verdict α}
    (h : scene.chunk c.settings.wTolerance d = .ok (rows, tolerance))
    (hopinion : c.opinion scene d rows tolerance = .ok v) (identity : Nat) :
    c.attend scene d identity = (c.adopt d tolerance v).deliver rows tolerance identity := by
  simp [attend, h, hopinion]

end Opinion

variable [Trig α]

theorem correctedRows_of_shows {c : Corrector ι α} {feeds : ι → Feed σ α} {d : Direction α}
    {source : ι} {scene : Scene α} {s : σ} (haccepts : c.accepts d = true)
    (houtdated : c.current? = none) (hsource : c.source = some source)
    (hshows : (feeds source).Shows scene s) (identity : Nat) :
    (c.correctedRows feeds (.ok d) identity s).result = (c.attend scene d identity).1 ∧
      (c.correctedRows feeds (.ok d) identity s).corrector = (c.attend scene d identity).2 := by
  have hrows := hshows.rows_eq d
  have hnext := hshows.next d
  rcases hanswer : (feeds source).rows d s with ⟨answer, next⟩
  rw [hanswer] at hrows hnext
  obtain rfl : answer = scene.rows d := hrows
  have hchannels : (feeds source).channels next = scene.channels := hnext.channels_eq
  cases hrows : scene.rows d with
  | error fault =>
    simp [correctedRows, rowsToward, recompute, haccepts, houtdated, hsource, hanswer, attend,
      Scene.chunk, hrows]
  | ok rows =>
    rw [hrows] at hanswer
    cases htolerance : scene.channels.bind (toleranceInMetres c.settings.wTolerance) with
    | error fault =>
      simp [correctedRows, rowsToward, recompute, haccepts, houtdated, hsource, hanswer, attend,
        Scene.chunk, hrows, hchannels, htolerance]
    | ok tolerance =>
      have hfetches : c.Fetches feeds d s source rows tolerance next :=
        ⟨haccepts, houtdated, hsource, hanswer, by rw [hchannels, htolerance]⟩
      have hjudge := c.judge_of_shows hnext d rows tolerance
      rw [correctedRows_of_fetches hfetches]
      simp only [attend, Scene.chunk, hrows, htolerance]
      cases hopinion : c.opinion scene d rows tolerance with
      | error fault => exact process_of_error (hjudge.trans hopinion) identity
      | ok v => exact process_of_ok (hjudge.trans hopinion) identity

theorem Fetches.chunk_eq {c : Corrector ι α} {feeds : ι → Feed σ α} {d : Direction α} {s next : σ}
    {source : ι} {rows : Chunk α} {tolerance : α} {scene : Scene α}
    (h : c.Fetches feeds d s source rows tolerance next) (hshows : (feeds source).Shows scene s) :
    scene.chunk c.settings.wTolerance d = .ok (rows, tolerance) ∧ (feeds source).Shows scene next := by
  have hrows := hshows.rows_eq d
  have hnext := hshows.next d
  rw [h.rows_eq] at hrows hnext
  have htolerance := h.tolerance_eq
  rw [hnext.channels_eq] at htolerance
  exact ⟨by simp [Scene.chunk, ← hrows, htolerance], hnext⟩

end Corrector

end Coplanar
