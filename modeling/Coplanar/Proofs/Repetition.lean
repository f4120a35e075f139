import Coplanar.Proofs.Policies
import Coplanar.Proofs.Coherence
import Coplanar.Proofs.Scene

/-! Rows that are served again.  What a policy makes of rows depends on the plane in use
only in whether that plane is within the tolerance.  So a policy that is asked again,
with the plane in use that it came to, comes to it again: from the second time on it has
nothing new, and says the same. -/
namespace Coplanar

section Proposals

variable {σ α : Type}

inductive Proposal (α : Type) where
  | keep
  | report (deviation : α)
  | use (plane : Plane α)

variable [Scalar α]

def Proposal.verdict (current : Plane α) (now : Chunk α) : Proposal α → Verdict α
  | .keep => .keep current now
  | .report deviation => ⟨deviation, none⟩
  | .use plane => .replace plane now

/-- Keep a plane that is within the tolerance, else do as proposed. -/
def resolve (now : Chunk α) (tolerance : α) (proposal : Except (Fault α) (Proposal α))
    (current : Plane α) : Except (Fault α) (Verdict α) :=
  if Scalar.less (current.maxDeviation now) tolerance then .ok (.keep current now)
  else proposal.map (·.verdict current now)

theorem reactive_eq_resolve (now : Chunk α) (tolerance : α) :
    ∃ proposal, ∀ current, reactive now tolerance current = resolve now tolerance proposal current := by
  by_cases hfew : now.length < minFitRows
  · refine ⟨.ok .keep, fun current => ?_⟩
    simp [reactive, resolve, hfew, Except.map, Proposal.verdict]
  · refine ⟨now.fit.map fun plane => plane.elim .keep .use, fun current => ?_⟩
    cases hless : Scalar.less (current.maxDeviation now) tolerance with
    | true => simp [reactive, resolve, hless]
    | false =>
      simp only [reactive, resolve, hless, hfew, decide_false, Bool.or_self, Bool.false_eq_true, if_false]
      cases now.fit with
      | error fault => rfl
      | ok plane => cases plane <;> rfl

theorem search_eq_resolve (track : Track σ α) (now : Chunk α) (tolerance : α) (plane : Plane α)
    (limit : Nat) (s : σ) :
    ∃ proposal : Except (Fault α) (Proposal α), ∀ current,
      (search track now tolerance current plane limit s).result =
        proposal.map (·.verdict current now) := by
  unfold search
  dsimp only
  cases (climb track tolerance plane limit 0 s).ending with
  | failed fault => exact ⟨.error fault, fun _ => rfl⟩
  | exhausted => exact ⟨.ok (.use plane), fun _ => rfl⟩
  | left =>
    dsimp only
    cases (descend track now tolerance _ none _).ending with
    | failed fault => exact ⟨.error fault, fun _ => rfl⟩
    | stopped steps best =>
      cases best with
      | none => exact ⟨.ok .keep, fun _ => rfl⟩
      | some best => exact ⟨.ok (.use best), fun _ => rfl⟩

theorem predictive_eq_resolve (track : Track σ α) (now : Chunk α) (tolerance : α) (limit : Nat)
    (s : σ) :
    ∃ proposal, ∀ current, (predictive track now tolerance current limit s).result =
      resolve now tolerance proposal current := by
  by_cases hfew : now.length < minFitRows
  · refine ⟨.ok .keep, fun current => ?_⟩
    simp [predictive, resolve, hfew, Except.map, Proposal.verdict]
  -- The proposal is what the policy would do about a plane that is out of tolerance.
  suffices h : ∃ proposal : Except (Fault α) (Proposal α), ∀ current,
      Scalar.less (current.maxDeviation now) tolerance = false →
      (predictive track now tolerance current limit s).result =
        proposal.map (·.verdict current now) by
    obtain ⟨proposal, h⟩ := h
    refine ⟨proposal, fun current => ?_⟩
    cases hless : Scalar.less (current.maxDeviation now) tolerance with
    | true => simp [predictive, resolve, Verdict.keep, hless]
    | false => simp [resolve, hless, h current hless]
  unfold predictive
  cases now.fit with
  | error fault => exact ⟨.error fault, fun current hless => by simp [Verdict.keep, hless, hfew]; rfl⟩
  | ok plane =>
    cases plane with
    | none => exact ⟨.ok .keep, fun current hless => by simp [Verdict.keep, hless, hfew]; rfl⟩
    | some plane =>
      cases hpoor : Scalar.less tolerance (Verdict.replace plane now).deviation with
      | true =>
        exact ⟨.ok (.report _), fun current hless => by simp [Verdict.keep, hless, hfew, hpoor]; rfl⟩
      | false =>
        cases hgood : Scalar.less (Verdict.replace plane now).deviation tolerance with
        | true =>
          obtain ⟨proposal, h⟩ := search_eq_resolve track now tolerance plane limit s
          exact ⟨proposal, fun current hless => by simp [Verdict.keep, hless, hfew, hpoor, hgood, h]⟩
        | false =>
          exact ⟨.ok (.use plane), fun current hless => by
            simp [Verdict.keep, hless, hfew, hpoor, hgood]; rfl⟩

theorem resolve_again {now : Chunk α} {tolerance : α} {proposal : Except (Fault α) (Proposal α)}
    {current : Plane α} {v : Verdict α} (h : resolve now tolerance proposal current = .ok v) :
    ∃ v', resolve now tolerance proposal (v.plane.getD current) = .ok v' ∧
      v'.deviation = v.deviation ∧ ∀ plane, v'.plane = some plane → plane = v.plane.getD current := by
  have hagain := h
  unfold resolve at h
  split at h
  · cases h
    exact ⟨_, hagain, rfl, nofun⟩
  · rename_i hfar
    obtain ⟨q, rfl, rfl⟩ : ∃ q, proposal = .ok q ∧ q.verdict current now = v := by
      cases proposal with
      | error fault => cases h
      | ok q => exact ⟨q, rfl, Except.ok.inj h⟩
    cases q with
    | keep => exact ⟨_, hagain, rfl, nofun⟩
    | report deviation => exact ⟨_, hagain, rfl, nofun⟩
    | use plane =>
      -- The plane taken over may be within the tolerance by now, or be proposed again.
      change ∃ v', resolve now tolerance (.ok (.use plane)) plane = .ok v' ∧ _
      cases hnear : Scalar.less (plane.maxDeviation now) tolerance with
      | true => exact ⟨.keep plane now, by simp [resolve, hnear], rfl, nofun⟩
      | false =>
        refine ⟨.replace plane now, by simp [resolve, hnear, Except.map, Proposal.verdict], rfl, ?_⟩
        rintro other h
        cases h
        rfl

end Proposals

namespace Corrector

section Again

variable {ι : Type}

theorem opinion_congr {α : Type} [Scalar α] {c c' : Corrector ι α}
    (hsettings : c'.settings = c.settings) (hplane : c'.plane = c.plane) (scene : Scene α)
    (d : Direction α) (rows : Chunk α) (tolerance : α) :
    c'.opinion scene d rows tolerance = c.opinion scene d rows tolerance := by
  simp only [opinion, judge, hsettings, hplane]

theorem opinion_eq_resolve {α : Type} [Scalar α] (settings : Settings α) (scene : Scene α)
    (d : Direction α) (rows : Chunk α) (tolerance : α) :
    ∃ proposal, ∀ c : Corrector ι α, c.settings = settings →
      c.opinion scene d rows tolerance = resolve rows tolerance proposal c.plane := by
  cases hpredict : settings.predict with
  | true =>
    obtain ⟨proposal, h⟩ := predictive_eq_resolve (.ofFeed scene.feed d settings.interval) rows
      tolerance settings.maxSteps ()
    refine ⟨proposal, fun c hc => ?_⟩
    subst hc
    rw [opinion, judge_of_predictive hpredict, h]
  | false =>
    obtain ⟨proposal, h⟩ := reactive_eq_resolve rows tolerance
    refine ⟨proposal, fun c hc => ?_⟩
    subst hc
    rw [opinion, judge_of_reactive hpredict, h]

variable {K : Type} [Field K] [LinearOrder K] [Circular K]

theorem opinion_again {c c' : Corrector ι K} {scene : Scene K} {d : Direction K} {rows : Chunk K}
    {tolerance : K} {v : Verdict K} (h : c.opinion scene d rows tolerance = .ok v)
    (hsettings : c'.settings = c.settings) (hplane : c'.plane = v.plane.getD c.plane) :
    ∃ v', c'.opinion scene d rows tolerance = .ok v' ∧ v'.deviation = v.deviation ∧
      c'.newPlane? v' = none := by
  obtain ⟨proposal, hresolve⟩ := opinion_eq_resolve (ι := ι) c.settings scene d rows tolerance
  rw [hresolve c rfl] at h
  obtain ⟨v', hv', hdeviation, hsame⟩ := resolve_again h
  refine ⟨v', ?_, hdeviation, ?_⟩
  · rw [hresolve c' hsettings, hplane, hv']
  · rw [newPlane?, Option.filter_eq_none_iff]
    intro plane hnew
    simp [hsame plane hnew, hplane]

structure Alike (c c' : Corrector ι K) : Prop where
  settings : c.settings = c'.settings
  plane : c.plane = c'.plane
  epoch : c.epoch.plane = c'.epoch.plane
  deviation : c.deviation = c'.deviation
  tolerance : c.tolerance = c'.tolerance

theorem deliver_corrector_cases {α : Type} [Scalar α] (c : Corrector ι α) (rows : Chunk α)
    (tolerance : α) (identity : Nat) :
    (c.deliver rows tolerance identity).2 = c ∨
      (c.deliver rows tolerance identity).2 =
        { c with cache := some (c.serving rows identity) } := by
  cases hpasses : c.passes rows tolerance with
  | true => exact .inr (by rw [deliver_of_passes hpasses])
  | false => exact .inl (by rw [deliver_of_objection hpasses])

theorem deliver_alike (c : Corrector ι K) (rows : Chunk K) (tolerance : K) (identity : Nat) :
    (c.deliver rows tolerance identity).2.Alike c := by
  obtain h | h := c.deliver_corrector_cases rows tolerance identity
  · rw [h]
    exact ⟨rfl, rfl, rfl, rfl, rfl⟩
  · rw [h]
    exact ⟨rfl, rfl, rfl, rfl, rfl⟩

theorem deliver_isFresh (c : Corrector ι K) (rows : Chunk K) (tolerance : K) (identity : Nat) :
    (c.deliver rows tolerance identity).2.isFresh = c.isFresh := by
  obtain h | h := c.deliver_corrector_cases rows tolerance identity
  · rw [h]
  · rw [h]

theorem deliver_rows_eq {α : Type} [Scalar α] {c c' : Corrector ι α}
    (hsettings : c'.settings = c.settings) (hplane : c'.plane = c.plane) (rows : Chunk α)
    (tolerance : α) (identity identity' : Nat) :
    (c'.deliver rows tolerance identity').1.map Served.rows =
      (c.deliver rows tolerance identity).1.map Served.rows := by
  have hsame : c'.passes rows tolerance = c.passes rows tolerance := by
    rw [passes, passes, hsettings, hplane]
  cases hpasses : c.passes rows tolerance with
  | true =>
    rw [deliver_of_passes hpasses, deliver_of_passes (hsame.trans hpasses)]
    simp [Except.map, serving, hplane]
  | false =>
    rw [deliver_of_objection hpasses, deliver_of_objection (hsame.trans hpasses)]
    simp [Except.map, objection, hsettings, hplane]

theorem adopt_of_newPlane?_none {c : Corrector ι K} {v : Verdict K} (h : c.newPlane? v = none)
    (d : Direction K) (tolerance : K) :
    c.adopt d tolerance v =
      { c with
        center := some d, deviation := some v.deviation, tolerance := some tolerance,
        isFresh := false } := by
  have hbound : newPlane? { c with center := some d } v = none := h
  simp [adopt, commit_eq, hbound]

theorem attend_again {c c' : Corrector ι K} {scene : Scene K} {d : Direction K} {identity : Nat}
    (h : c'.Alike (c.attend scene d identity).2) (identity' : Nat) :
    (c'.attend scene d identity').1.map Served.rows =
        (c.attend scene d identity).1.map Served.rows ∧
      (c'.attend scene d identity').2.Alike (c.attend scene d identity).2 ∧
      ∀ rows tolerance v, scene.chunk c'.settings.wTolerance d = .ok (rows, tolerance) →
        c'.opinion scene d rows tolerance = .ok v →
        (c'.attend scene d identity').2.isFresh = false := by
  cases hchunk : scene.chunk c.settings.wTolerance d with
  | error fault =>
    rw [attend_of_chunk_error hchunk] at h ⊢
    rw [← h.settings] at hchunk
    rw [attend_of_chunk_error hchunk]
    exact ⟨rfl, h, fun _ _ _ hok => by simp [hchunk] at hok⟩
  | ok pair =>
    obtain ⟨rows, tolerance⟩ := pair
    cases hopinion : c.opinion scene d rows tolerance with
    | error fault =>
      rw [attend_of_opinion_error hchunk hopinion] at h ⊢
      have hsettings : c'.settings = c.settings := h.settings
      rw [← hsettings] at hchunk
      rw [← opinion_congr hsettings h.plane] at hopinion
      rw [attend_of_opinion_error hchunk hopinion]
      refine ⟨rfl, ⟨h.settings, h.plane, h.epoch, h.deviation, h.tolerance⟩, ?_⟩
      rintro _ _ v hrows hok
      cases hchunk.symm.trans hrows
      cases hopinion.symm.trans hok
    | ok v =>
      rw [attend_of_opinion_ok hchunk hopinion] at h ⊢
      have hfirst := deliver_alike (c.adopt d tolerance v) rows tolerance identity
      have hsettings : c'.settings = c.settings :=
        (h.settings.trans hfirst.settings).trans (adopt_settings ..)
      have hplane : c'.plane = (c.adopt d tolerance v).plane := h.plane.trans hfirst.plane
      rw [← hsettings] at hchunk
      -- The second opinion is on the plane that the first one led to, and keeps it.
      obtain ⟨v', hopinion', hdeviation, hnew⟩ :=
        opinion_again hopinion hsettings (hplane.trans (plane_of_adopt ..))
      rw [attend_of_opinion_ok hchunk hopinion']
      have hadopt := adopt_of_newPlane?_none hnew d tolerance
      have hagain := deliver_alike (c'.adopt d tolerance v') rows tolerance identity'
      refine ⟨?_, ⟨?_, ?_, ?_, ?_, ?_⟩, ?_⟩
      · exact deliver_rows_eq (by rw [adopt_settings, adopt_settings, hsettings])
          (by rw [hadopt, hplane]) ..
      · rw [hagain.settings, hadopt, h.settings]
      · rw [hagain.plane, hadopt, h.plane]
      · rw [hagain.epoch, hadopt, h.epoch]
      · rw [hagain.deviation, hfirst.deviation, adopt_deviation, adopt_deviation, hdeviation]
      · rw [hagain.tolerance, hfirst.tolerance, adopt_tolerance, adopt_tolerance]
      · intros
        rw [deliver_isFresh, hadopt]

end Again

end Corrector

/-- The source is announced to have changed, or another is associated, and the rows are
asked for. -/
structure Round (ι σ : Type) where
  source : Option ι
  sources : σ
  identity : Nat

namespace Round

variable {ι σ α : Type}

def announcement (r : Round ι σ) : Moment ι σ α :=
  ⟨match r.source with
    | none => .notify
    | some source => .associate (some source), r.sources⟩

def moments (d : Direction α) (r : Round ι σ) : List (Moment ι σ α) :=
  [r.announcement, ⟨.correct (.ok d) r.identity, r.sources⟩]

def Show (feeds : ι → Feed σ α) (scene : Scene α) (held : Option ι) : List (Round ι σ) → Prop
  | [] => True
  | r :: rest =>
    (∃ source, r.source.or held = some source ∧ (feeds source).Shows scene r.sources) ∧
      Show feeds scene (r.source.or held) rest

end Round

def Moment.Toward {ι σ α : Type} (d : Direction α) (m : Moment ι σ α) : Prop :=
  ∀ tangentPoint identity, m.call = .correct tangentPoint identity → tangentPoint = .ok d

namespace Corrector

section Rounds

variable {ι σ α : Type} [Trig α]

def reply (feeds : ι → Feed σ α) (c : Corrector ι α) (d : Direction α) (r : Round ι σ) :
    Reply ι σ α :=
  (c.next feeds r.announcement).correctedRows feeds (.ok d) r.identity r.sources

theorem run_moments (feeds : ι → Feed σ α) (c : Corrector ι α) (d : Direction α)
    (r : Round ι σ) : c.run feeds (r.moments d) = (c.reply feeds d r).corrector := rfl

theorem next_announcement (feeds : ι → Feed σ α) (c : Corrector ι α) (r : Round ι σ) :
    c.next feeds r.announcement =
      { c with source := r.source.or c.source, epoch := c.epoch.sourceChanged } := by
  unfold next Round.announcement
  cases r.source <;> rfl

theorem current?_announcement {log : List (Event α)} {c : Corrector ι α} (h : Coherent log c)
    (feeds : ι → Feed σ α) (r : Round ι σ) : (c.next feeds r.announcement).current? = none := by
  rw [next_announcement]
  exact h.current?_of_announced _ rfl rfl

theorem attend_frame (c : Corrector ι α) (scene : Scene α) (d : Direction α) (identity : Nat) :
    let after := (c.attend scene d identity).2
    after.settings = c.settings ∧ after.source = c.source ∧
      (after.center = c.center ∨ after.center = some d) ∧
      after.epoch.plane ≤ c.epoch.plane + 1 := by
  cases hchunk : scene.chunk c.settings.wTolerance d with
  | error fault =>
    rw [attend_of_chunk_error hchunk]
    exact ⟨rfl, rfl, .inl rfl, by simp⟩
  | ok pair =>
    cases hopinion : c.opinion scene d pair.1 pair.2 with
    | error fault =>
      rw [attend_of_opinion_error hchunk hopinion]
      exact ⟨rfl, rfl, .inr rfl, by simp⟩
    | ok v =>
      rw [attend_of_opinion_ok hchunk hopinion]
      have hepoch : (c.adopt d pair.2 v).epoch.plane ≤ c.epoch.plane + 1 := by
        rw [adopt_epoch_plane]
        split <;> omega
      obtain h | h := (c.adopt d pair.2 v).deliver_corrector_cases pair.1 pair.2 identity
      · rw [h]
        exact ⟨adopt_settings .., adopt_source .., .inr (adopt_center ..), hepoch⟩
      · rw [h]
        exact ⟨adopt_settings .., adopt_source .., .inr (adopt_center ..), hepoch⟩

end Rounds

section Exact

variable {ι σ K : Type} [Field K] [LinearOrder K] [IsStrictOrderedRing K] [Circular K]
  [LawfulCircular K]

theorem accepts_of_center {c : Corrector ι K} {d : Direction K}
    (hpos : 0 < c.settings.tangentTolerance) (h : c.center = some d) : c.accepts d = true := by
  simp [accepts, h, isNear_self d hpos]

structure Ready (d : Direction K) (c : Corrector ι K) : Prop where
  accepts : c.accepts d = true
  coherent : ∃ log, Coherent log c

theorem Ready.next {d : Direction K} {c : Corrector ι K} (hpos : 0 < c.settings.tangentTolerance)
    (h : Ready d c) (feeds : ι → Feed σ K) {m : Moment ι σ K} (htoward : m.Toward d) :
    Ready d (c.next feeds m) := by
  obtain ⟨log, hlog⟩ := h.coherent
  refine ⟨?_, _, hlog.next feeds m⟩
  obtain ⟨after, event, hafter, -, hstep⟩ := c.exists_step feeds m
  rw [hafter]
  have hbound : ∀ {c' : Corrector ι K}, c'.settings = c.settings → c'.center = some d →
      c'.accepts d = true := fun hsettings hcenter => accepts_of_center (by rwa [hsettings]) hcenter
  cases hstep with
  | corrected tangentPoint identity _ _ _ hcall hcourse =>
    obtain rfl := htoward _ _ hcall
    cases hcourse with
    | refused => exact h.accepts
    | answered => exact h.accepts
    | undecided e _ _ _ _ _ hpoint =>
      cases hpoint
      exact hbound rfl rfl
    | exceeded e _ _ _ _ _ hdecides =>
      cases hdecides.point_eq
      exact hbound (adopt_settings ..) (adopt_center ..)
    | renewed e _ _ _ _ _ hdecides =>
      cases hdecides.point_eq
      exact hbound (adopt_settings ..) (adopt_center ..)
  | _ => exact h.accepts

section Reply

variable {feeds : ι → Feed σ K} {c : Corrector ι K} {d : Direction K} {scene : Scene K}
  {r : Round ι σ} {source : ι}

omit [IsStrictOrderedRing K] [LawfulCircular K] in
theorem reply_of_shows (h : Ready d c) (hsource : r.source.or c.source = some source)
    (hshows : (feeds source).Shows scene r.sources) :
    (c.reply feeds d r).result =
        ((c.next feeds r.announcement).attend scene d r.identity).1 ∧
      (c.reply feeds d r).corrector =
        ((c.next feeds r.announcement).attend scene d r.identity).2 := by
  obtain ⟨log, hlog⟩ := h.coherent
  refine correctedRows_of_shows ?_ (current?_announcement hlog feeds r) ?_ hshows r.identity
  · rw [next_announcement]
    exact h.accepts
  · rw [next_announcement]
    exact hsource

theorem Ready.reply (hpos : 0 < c.settings.tangentTolerance) (h : Ready d c) :
    Ready d (c.reply feeds d r).corrector := by
  have hannounced : Ready d (c.next feeds r.announcement) := by
    refine h.next hpos feeds fun _ _ hcall => ?_
    unfold Round.announcement at hcall
    cases hsource : r.source <;> simp [hsource] at hcall
  refine hannounced.next (m := ⟨.correct (.ok d) r.identity, r.sources⟩) ?_ feeds fun _ _ hcall => ?_
  · rwa [next_settings]
  · cases hcall
    rfl

omit [IsStrictOrderedRing K] [LawfulCircular K] in
theorem reply_source (h : Ready d c) (hsource : r.source.or c.source = some source)
    (hshows : (feeds source).Shows scene r.sources) :
    (c.reply feeds d r).corrector.source = r.source.or c.source := by
  rw [(reply_of_shows h hsource hshows).2, (attend_frame ..).2.1, next_announcement]

omit [IsStrictOrderedRing K] [LawfulCircular K] in
theorem reply_again {first : Corrector ι K} {identity : Nat} (h : Ready d c)
    (halike : c.Alike (first.attend scene d identity).2)
    (hsource : r.source.or c.source = some source)
    (hshows : (feeds source).Shows scene r.sources) :
    (c.reply feeds d r).result.map Served.rows =
        (first.attend scene d identity).1.map Served.rows ∧
      (c.reply feeds d r).corrector.Alike (first.attend scene d identity).2 ∧
      ∀ source rows tolerance s v, (c.next feeds r.announcement).Decides feeds (.ok d) r.sources d
        source rows tolerance s v → (c.reply feeds d r).corrector.isFresh = false := by
  obtain ⟨hresult, hcorrector⟩ := reply_of_shows h hsource hshows
  have hannounced : (c.next feeds r.announcement).Alike (first.attend scene d identity).2 := by
    rw [next_announcement]
    exact ⟨halike.settings, halike.plane, halike.epoch, halike.deviation, halike.tolerance⟩
  obtain ⟨hrows, hagain, hfresh⟩ := attend_again hannounced r.identity
  rw [hresult, hcorrector]
  refine ⟨hrows, hagain, fun other rows tolerance s v hdecides => ?_⟩
  have hother := hdecides.fetches.source_eq
  rw [next_announcement] at hother
  obtain rfl : source = other := Option.some.inj (hsource.symm.trans hother)
  obtain ⟨hchunk, hnext⟩ := hdecides.fetches.chunk_eq hshows
  exact hfresh rows tolerance v hchunk
    ((judge_of_shows _ hnext d rows tolerance).symm.trans hdecides.judge_eq)

end Reply

theorem run_rounds {feeds : ι → Feed σ K} {c first : Corrector ι K} {d : Direction K}
    {scene : Scene K} {identity : Nat} (hpos : 0 < c.settings.tangentTolerance) (h : Ready d c)
    (halike : c.Alike (first.attend scene d identity).2) (before rest : List (Round ι σ))
    (hshow : Round.Show feeds scene c.source (before ++ rest)) :
    let found := c.run feeds (before.flatMap (Round.moments d))
    Ready d found ∧ found.Alike (first.attend scene d identity).2 ∧
      Round.Show feeds scene found.source rest := by
  induction before generalizing c with
  | nil => exact ⟨h, halike, hshow⟩
  | cons r before ih =>
    obtain ⟨⟨source, hsource, hshows⟩, hrest⟩ := hshow
    obtain ⟨-, hagain, -⟩ := reply_again h halike hsource hshows
    rw [List.flatMap_cons, run_append, run_moments]
    refine ih ?_ (h.reply hpos) hagain ?_
    · rwa [hagain.settings, ← halike.settings]
    · rwa [reply_source h hsource hshows]

/-- However often the same rows are served, to a corrector in any state that it can come
to, every round ends as the first one did: with the same rows or the same fault, the same
plane under the same epoch, and the same deviation and tolerance.  No round after the
first has a fresh plane. -/
theorem rounds_repeat (settings : Settings K) (hpos : 0 < settings.tangentTolerance)
    (feeds : ι → Feed σ K) (moments : List (Moment ι σ K)) (d : Direction K) (scene : Scene K)
    (first : Round ι σ) (rest : List (Round ι σ)) :
    let c : Corrector ι K := run feeds (create settings) moments
    c.accepts d = true → Round.Show feeds scene c.source (first :: rest) →
    let once := c.reply feeds d first
    once.corrector.epoch.plane ≤ c.epoch.plane + 1 ∧
      ∀ before r after, rest = before ++ r :: after →
        let found := once.corrector.run feeds (before.flatMap (Round.moments d))
        let again := found.reply feeds d r
        again.result.map Served.rows = once.result.map Served.rows ∧
          again.corrector.plane = once.corrector.plane ∧
          again.corrector.epoch.plane = once.corrector.epoch.plane ∧
          again.corrector.deviation = once.corrector.deviation ∧
          again.corrector.tolerance = once.corrector.tolerance ∧
          ∀ source rows tolerance s v, (found.next feeds r.announcement).Decides feeds (.ok d)
            r.sources d source rows tolerance s v → again.corrector.isFresh = false := by
  intro c haccepts hshow once
  have hsettings : c.settings = settings := run_settings ..
  have hready : Ready d c := ⟨haccepts, _, coherent_run settings feeds moments⟩
  obtain ⟨⟨source, hsource, hshows⟩, hrest⟩ := hshow
  obtain ⟨hresult, hcorrector⟩ := reply_of_shows hready hsource hshows
  rw [← reply_source hready hsource hshows] at hrest
  refine ⟨?_, ?_⟩
  · have hle := (attend_frame (c.next feeds first.announcement) scene d first.identity).2.2.2
    rw [← hcorrector, next_announcement] at hle
    exact hle
  · rintro before r after rfl found again
    have hpos' : 0 < c.settings.tangentTolerance := by rwa [hsettings]
    have honce : 0 < once.corrector.settings.tangentTolerance := by
      rw [hcorrector, (attend_frame ..).1, next_settings]
      exact hpos'
    have halike : once.corrector.Alike
        ((c.next feeds first.announcement).attend scene d first.identity).2 := by
      rw [hcorrector]
      exact ⟨rfl, rfl, rfl, rfl, rfl⟩
    obtain ⟨hfound, hagain, ⟨source', hsource', hshows'⟩, -⟩ :=
      run_rounds honce (hready.reply hpos') halike before (r :: after) hrest
    obtain ⟨hrows, hlast, hfresh⟩ := reply_again hfound hagain hsource' hshows'
    rw [← hcorrector] at hlast
    exact ⟨hrows.trans (congrArg _ hresult.symm), hlast.plane, hlast.epoch, hlast.deviation, hlast.tolerance, hfresh⟩

/-- A plane of slope `1 / 2`; then a single row of it, two short rows of slope `1`, and
from the third step on a plane of slope `3 / 5`. -/
def faltering : Scene ℚ where
  rows d :=
    .ok (if d.ra = 0 then upright
      else if d.ra = -1 then [⟨100, 0, 50⟩]
      else if d.ra = -2 then [⟨1, 0, 1⟩, ⟨0, 1, 0⟩]
      else [⟨100, 0, 60⟩, ⟨0, 100, 0⟩])
  channels := .ok [299792458]

def farsighted : Settings ℚ := ⟨1, true, true, 1 / earthRotationRate, 10, 1 / 1000000, false⟩

def falteringRound (source : Option Unit) : Round Unit Unit := ⟨source, (), 0⟩

theorem rounds_repeat_faltering :
    let feeds : Unit → Feed Unit ℚ := fun _ => faltering.feed
    let once := (create farsighted : Corrector Unit ℚ).reply feeds ⟨0, 0⟩ (falteringRound (some ()))
    let again := once.corrector.reply feeds ⟨0, 0⟩ (falteringRound none)
    once.result = .error (.toleranceExceeded 50 1 1) ∧ once.corrector.plane = ⟨1, 0⟩ ∧
      again.result.map Served.rows = .error (.toleranceExceeded 50 1 1) ∧
      again.corrector.plane = ⟨1, 0⟩ ∧ again.corrector.epoch.plane = 1 := by
  intro feeds once again
  have honce : once.result = .error (.toleranceExceeded 50 1 1) ∧
      once.corrector.plane = ⟨1, 0⟩ ∧ once.corrector.epoch.plane = 1 := by decide +kernel
  have hshow : Round.Show feeds faltering none [falteringRound (some ()), falteringRound none] :=
    ⟨⟨(), rfl, Feed.shows_feed _ _⟩, ⟨(), rfl, Feed.shows_feed _ _⟩, trivial⟩
  obtain ⟨-, h⟩ := rounds_repeat farsighted (by decide +kernel) feeds [] ⟨0, 0⟩ faltering
    (falteringRound (some ())) [falteringRound none] rfl hshow
  obtain ⟨hrows, hplane, hepoch, -⟩ := h [] (falteringRound none) [] rfl
  refine ⟨honce.1, honce.2.1, hrows.trans ?_, hplane.trans honce.2.1, hepoch.trans honce.2.2⟩
  rw [show ((run feeds (create farsighted) []).reply feeds ⟨0, 0⟩ (falteringRound (some ()))).result =
    .error (.toleranceExceeded 50 1 1) from honce.1]
  rfl

end Exact

end Corrector

end Coplanar
