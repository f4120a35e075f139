import Mathlib.Data.List.Forall2
import Coplanar.Proofs.Run
import Coplanar.Proofs.Scene

/-! Runs beside each other, on sources whose chunks correspond.  As long as no policy can tell
such chunks apart, the two runs come to the same planes, ask for the same tangent points and
fail alike, and the rows that they hand out correspond as the chunks do. -/
namespace Coplanar

variable {ι σ τ α : Type}

structure Served.Matched (A : Chunk α → Chunk α → Prop) (served served' : Served α) : Prop where
  rows : A served.rows served'.rows
  identity_eq : served.identity = served'.identity
  epoch_eq : served.epoch = served'.epoch

structure Feed.Matched (A : Chunk α → Chunk α → Prop) (R : σ → τ → Prop) (left : Feed σ α)
    (right : Feed τ α) : Prop where
  rows : ∀ d s t, R s t → Coplanar.Matched A (left.rows d s).1 (right.rows d t).1 ∧
    R (left.rows d s).2 (right.rows d t).2
  channels : ∀ s t, R s t → left.channels s = right.channels t

structure Corrector.Matched (A : Chunk α → Chunk α → Prop) (c c' : Corrector ι α) : Prop where
  eq : c' = { c with cache := c'.cache }
  cache : Option.Rel (Served.Matched A) c.cache c'.cache

structure Moment.Matched (R : σ → τ → Prop) (m : Moment ι σ α) (m' : Moment ι τ α) : Prop where
  call_eq : m'.call = m.call
  sources : R m.sources m'.sources

structure Reply.Matched (A : Chunk α → Chunk α → Prop) (R : σ → τ → Prop) (r : Reply ι σ α)
    (r' : Reply ι τ α) : Prop where
  result : Coplanar.Matched (Served.Matched A) r.result r'.result
  corrector : Corrector.Matched A r.corrector r'.corrector
  notes_eq : r.notes = r'.notes
  sources : R r.sources r'.sources

inductive Event.Matched (A : Chunk α → Chunk α → Prop) : Event α → Event α → Prop
  | announced : Event.Matched A .announced .announced
  | renewed {rows rows' : Chunk α} (h : A rows rows') :
    Event.Matched A (.renewed rows) (.renewed rows')

/-- Chunks that correspond cannot be told apart by a policy, and go on corresponding when the
same plane is taken out of them. -/
structure Unnoticed [Scalar α] (A : Chunk α → Chunk α → Prop) : Prop where
  equivalent : ∀ {rows rows'}, A rows rows' → Chunk.Equivalent rows rows'
  subtract : ∀ {rows rows'}, A rows rows' →
    ∀ p : Plane α, A (rows.map p.subtract) (rows'.map p.subtract)

theorem unnoticed_eq [Scalar α] : Unnoticed (Eq : Chunk α → Chunk α → Prop) where
  equivalent h := h ▸ Chunk.Equivalent.refl _
  subtract h _ := h ▸ rfl

namespace Corrector

variable {A : Chunk α → Chunk α → Prop} {R : σ → τ → Prop} {c c' : Corrector ι α}

theorem matched_holding (c : Corrector ι α) {cache cache' : Option (Served α)}
    (h : Option.Rel (Served.Matched A) cache cache') :
    Matched A { c with cache := cache } { c with cache := cache' } := ⟨rfl, h⟩

theorem Matched.current? (h : Matched A c c') :
    Option.Rel (Served.Matched A) c.current? c'.current? := by
  obtain ⟨heq, hcache⟩ := h
  have hsource : c'.epoch.source = c.epoch.source := by rw [heq]
  unfold Corrector.current?
  rw [hsource]
  clear heq hsource
  generalize c.cache = cache at hcache
  generalize c'.cache = cache' at hcache
  cases hcache with
  | none => exact .none
  | some hserved =>
    simp only [Option.filter, hserved.epoch_eq]
    split
    · exact .some hserved
    · exact .none

theorem Matched.phase_eq (h : Matched A c c') : c'.phase = c.phase := by
  obtain ⟨heq, hcache⟩ := h
  have hsource : c'.epoch.source = c.epoch.source := by rw [heq]
  unfold phase
  rw [hsource]
  clear heq hsource
  generalize c.cache = cache at hcache
  generalize c'.cache = cache' at hcache
  cases hcache with
  | none => rfl
  | some hserved => simp only [hserved.epoch_eq]

section Policy

variable [Scalar α] {left : Feed σ α} {right : Feed τ α} {s : σ} {t : τ} {rows rows' : Chunk α}

theorem judge_equivalent (hA : Unnoticed A) (hfeeds : Feed.Matched A R left right) (hst : R s t)
    (c : Corrector ι α) (d : Direction α) (hrows : rows.Equivalent rows') (tolerance : α) :
    Outcome.Alike R (c.judge left d rows tolerance s) (c.judge right d rows' tolerance t) := by
  unfold judge
  split
  · refine predictive_equivalent (fun n s t hst => ?_) hrows tolerance c.plane c.settings.maxSteps
      hst _
    obtain ⟨hanswer, hnext⟩ := hfeeds.rows (d.shift _) s t hst
    exact ⟨hanswer.imp fun _ _ => hA.equivalent, hnext⟩
  · exact ⟨reactive_equivalent hrows tolerance c.plane, rfl, hst⟩

theorem Matched.deliver (h : Matched A c c') (hA : Unnoticed A) (hrows : A rows rows')
    (tolerance : α) (identity : Nat) :
    Coplanar.Matched (Served.Matched A) (c.deliver rows tolerance identity).1
        (c'.deliver rows' tolerance identity).1 ∧
      Matched A (c.deliver rows tolerance identity).2 (c'.deliver rows' tolerance identity).2 := by
  obtain ⟨heq, hcache⟩ := h
  generalize c'.cache = cache' at heq hcache
  subst heq
  have hdeviation := (hA.equivalent hrows).maxDeviation_eq c.plane
  have hserving : Served.Matched A (c.serving rows identity) (c.serving rows' identity) :=
    ⟨hA.subtract hrows c.plane, rfl, rfl⟩
  have hpasses : passes { c with cache := cache' } rows' tolerance = c.passes rows tolerance := by
    simp only [passes, hdeviation]
  cases hcheck : c.passes rows tolerance with
  | true =>
    rw [deliver_of_passes hcheck, deliver_of_passes (hpasses.trans hcheck)]
    exact ⟨.given hserving, c.matched_holding (.some hserving)⟩
  | false =>
    have hobjection : objection { c with cache := cache' } rows' tolerance =
        c.objection rows tolerance := by
      simp only [objection, hdeviation]
    rw [deliver_of_objection hcheck, deliver_of_objection (hpasses.trans hcheck), hobjection]
    exact ⟨.failed _, c.matched_holding hcache⟩

theorem Matched.commit (h : Matched A c c') (tolerance : α) (v : Verdict α) :
    Matched A (c.commit tolerance v) (c'.commit tolerance v) := by
  obtain ⟨heq, hcache⟩ := h
  generalize c'.cache = cache' at heq hcache
  subst heq
  rw [commit_eq, commit_eq]
  exact ⟨rfl, hcache⟩

theorem Matched.process (h : Matched A c c') (hA : Unnoticed A)
    (hfeeds : Feed.Matched A R left right) (hst : R s t) (d : Direction α) (hrows : A rows rows')
    (tolerance : α) (identity : Nat) :
    Reply.Matched A R (c.process left d rows tolerance identity s)
      (c'.process right d rows' tolerance identity t) := by
  have hbound : Matched A { c with center := some d } { c' with center := some d } :=
    ⟨by rw [h.eq], h.cache⟩
  have hjudge : judge { c' with center := some d } right d rows' tolerance t =
      judge { c with center := some d } right d rows' tolerance t := by
    rw [h.eq]
    rfl
  obtain ⟨hresult, hnotes, hstate⟩ := judge_equivalent hA hfeeds hst { c with center := some d } d
    (hA.equivalent hrows) tolerance
  have hcommitNotes : ∀ v, commitNotes { c' with center := some d } v =
      commitNotes { c with center := some d } v := fun v => by
    rw [h.eq]
    rfl
  simp only [Corrector.process, hjudge, hresult, hcommitNotes]
  cases (judge { c with center := some d } right d rows' tolerance t).result with
  | error fault => exact ⟨.failed fault, hbound, hnotes, hstate⟩
  | ok v =>
    obtain ⟨hserved, hafter⟩ := (hbound.commit tolerance v).deliver hA hrows tolerance identity
    exact ⟨hserved, hafter, congrArg (· ++ _) hnotes, hstate⟩

theorem Matched.recompute (h : Matched A c c') (hA : Unnoticed A)
    (hfeeds : Feed.Matched A R left right) (hst : R s t) (d : Direction α) (identity : Nat) :
    Reply.Matched A R (c.recompute left d identity s) (c'.recompute right d identity t) := by
  obtain ⟨hrows, hnext⟩ := hfeeds.rows d s t hst
  have hsettings : c'.settings = c.settings := by rw [h.eq]
  unfold Corrector.recompute
  rcases hleft : left.rows d s with ⟨answer, s'⟩
  rcases hright : right.rows d t with ⟨answer', t'⟩
  rw [hleft, hright] at hrows hnext
  dsimp only at hrows hnext ⊢
  cases hrows with
  | failed fault => exact ⟨.failed fault, h, rfl, hnext⟩
  | given hrows =>
    dsimp only
    rw [hfeeds.channels s' t' hnext, hsettings]
    cases (right.channels t').bind (toleranceInMetres c.settings.wTolerance) with
    | error fault => exact ⟨.failed fault, h, rfl, hnext⟩
    | ok tolerance => exact h.process hA hfeeds hnext d hrows tolerance identity

end Policy

variable [Trig α] {left : ι → Feed σ α} {right : ι → Feed τ α} {s : σ} {t : τ}

theorem Matched.correctedRows (h : Matched A c c') (hA : Unnoticed A)
    (hfeeds : ∀ i, Feed.Matched A R (left i) (right i)) (hst : R s t)
    (tangentPoint : Except (Fault α) (Direction α)) (identity : Nat) :
    Reply.Matched A R (c.correctedRows left tangentPoint identity s)
      (c'.correctedRows right tangentPoint identity t) := by
  cases tangentPoint with
  | error fault => exact ⟨.failed fault, h, rfl, hst⟩
  | ok d =>
    have haccepts : c'.accepts d = c.accepts d := by
      rw [h.eq]
      rfl
    have hsource : c'.source = c.source := by rw [h.eq]
    have hcurrent := h.current?
    dsimp only [Corrector.correctedRows, rowsToward]
    rw [haccepts, hsource]
    cases c.accepts d with
    | false => exact ⟨.failed _, h, rfl, hst⟩
    | true =>
      generalize c.current? = current at hcurrent ⊢
      generalize c'.current? = current' at hcurrent ⊢
      cases hcurrent with
      | some hserved => exact ⟨.given hserved, h, rfl, hst⟩
      | none =>
        cases c.source with
        | none => exact ⟨.failed _, h, rfl, hst⟩
        | some source => exact h.recompute hA (hfeeds source) hst d identity

theorem Matched.next (h : Matched A c c') (hA : Unnoticed A)
    (hfeeds : ∀ i, Feed.Matched A R (left i) (right i)) {m : Moment ι σ α} {m' : Moment ι τ α}
    (hm : m.Matched R m') : Matched A (c.next left m) (c'.next right m') := by
  obtain ⟨call, s⟩ := m
  obtain ⟨call', t⟩ := m'
  obtain rfl : call' = call := hm.call_eq
  cases call' with
  | associate source => exact ⟨by rw [h.eq]; rfl, h.cache⟩
  | notify => exact ⟨by rw [h.eq]; rfl, h.cache⟩
  | duplicate identity =>
    refine ⟨by rw [h.eq]; rfl, ?_⟩
    have hcache := h.cache
    change Option.Rel _ (c.cache.map _) (c'.cache.map _)
    generalize c.cache = cache at hcache
    generalize c'.cache = cache' at hcache
    cases hcache with
    | none => exact .none
    | some hserved => exact .some ⟨hserved.rows, rfl, hserved.epoch_eq⟩
  | correct tangentPoint identity =>
    exact (h.correctedRows hA hfeeds hm.sources tangentPoint identity).corrector

theorem Matched.run (h : Matched A c c') (hA : Unnoticed A)
    (hfeeds : ∀ i, Feed.Matched A R (left i) (right i)) {moments : List (Moment ι σ α)}
    {moments' : List (Moment ι τ α)} (hmoments : List.Forall₂ (Moment.Matched R) moments moments') :
    Matched A (c.run left moments) (c'.run right moments') := by
  induction hmoments generalizing c c' with
  | nil => exact h
  | cons hm _ ih => exact ih (h.next hA hfeeds hm)

theorem Matched.renewal? (h : Matched A c c') (hA : Unnoticed A)
    (hfeeds : ∀ i, Feed.Matched A R (left i) (right i)) (hst : R s t)
    (tangentPoint : Except (Fault α) (Direction α)) (identity : Nat) :
    Option.Rel A (c.renewal? left tangentPoint identity s)
      (c'.renewal? right tangentPoint identity t) := by
  have hcurrent := h.current?
  have hresult := (h.correctedRows hA hfeeds hst tangentPoint identity).result
  have hsource : c'.source = c.source := by rw [h.eq]
  unfold Corrector.renewal?
  rw [hsource]
  generalize c.current? = current at hcurrent ⊢
  generalize c'.current? = current' at hcurrent ⊢
  generalize (c.correctedRows left tangentPoint identity s).result = result at hresult ⊢
  generalize (c'.correctedRows right tangentPoint identity t).result = result' at hresult ⊢
  cases hcurrent with
  | some _ => exact .none
  | none =>
    cases c.source with
    | none => exact .none
    | some source =>
      cases tangentPoint with
      | error fault => exact .none
      | ok d =>
        cases hresult with
        | failed fault => exact .none
        | given _ =>
          obtain ⟨hrows, -⟩ := (hfeeds source).rows d s t hst
          dsimp only
          generalize ((left source).rows d s).1 = answer at hrows ⊢
          generalize ((right source).rows d t).1 = answer' at hrows ⊢
          cases hrows with
          | failed fault => exact .none
          | given hrows => exact .some hrows

theorem Matched.event? (h : Matched A c c') (hA : Unnoticed A)
    (hfeeds : ∀ i, Feed.Matched A R (left i) (right i)) {m : Moment ι σ α} {m' : Moment ι τ α}
    (hm : m.Matched R m') :
    Option.Rel (Event.Matched A) (c.event? left m) (c'.event? right m') := by
  obtain ⟨call, s⟩ := m
  obtain ⟨call', t⟩ := m'
  obtain rfl : call' = call := hm.call_eq
  cases call' with
  | associate source => exact .some .announced
  | notify => exact .some .announced
  | duplicate identity => exact .none
  | correct tangentPoint identity =>
    have hrenewal := h.renewal? hA hfeeds hm.sources tangentPoint identity
    dsimp only at hrenewal
    simp only [Corrector.event?]
    generalize c.renewal? left tangentPoint identity s = renewal at hrenewal ⊢
    generalize c'.renewal? right tangentPoint identity t = renewal' at hrenewal ⊢
    cases hrenewal with
    | none => exact .none
    | some hrows => exact .some (.renewed hrows)

theorem Matched.events (h : Matched A c c') (hA : Unnoticed A)
    (hfeeds : ∀ i, Feed.Matched A R (left i) (right i)) {moments : List (Moment ι σ α)}
    {moments' : List (Moment ι τ α)} (hmoments : List.Forall₂ (Moment.Matched R) moments moments') :
    List.Forall₂ (Event.Matched A) (c.events left moments) (c'.events right moments') := by
  induction hmoments generalizing c c' with
  | nil => exact .nil
  | @cons m m' _ _ hm _ ih =>
    have hevent := h.event? hA hfeeds hm
    have hrest := ih (h.next hA hfeeds hm)
    rw [Corrector.events, Corrector.events]
    generalize c.event? left m = event at hevent ⊢
    generalize c'.event? right m' = event' at hevent ⊢
    cases hevent with
    | none => exact hrest
    | some hevent => exact .cons hevent hrest

end Corrector

end Coplanar
