import Mathlib.Data.List.Induction
import Mathlib.Logic.Basic
import Coplanar.Proofs.Telling

/-! What the counters count.  A consumer compares snapshots of them instead of looking at
the rows or at the plane, so a counter has to move with what it counts, and with nothing
else. -/
namespace Coplanar

namespace Corrector

variable {ι σ α : Type} [Trig α] (feeds : ι → Feed σ α)

def Judges (c : Corrector ι α) (m : Moment ι σ α) (v : Verdict α) : Prop :=
  ∃ tangentPoint identity d source rows tolerance s,
    m.call = .correct tangentPoint identity ∧
    c.Decides feeds tangentPoint m.sources d source rows tolerance s v

def Unjudged (c : Corrector ι α) (m : Moment ι σ α) : Prop := ∀ v, ¬ c.Judges feeds m v

/-- The call gets past its policy and advances the counter of planes. -/
def Raises (c : Corrector ι α) (m : Moment ι σ α) : Prop :=
  (∃ v, c.Judges feeds m v) ∧ (c.next feeds m).epoch.plane = c.epoch.plane + 1

variable {feeds} {c : Corrector ι α} {m : Moment ι σ α}

theorem adopts_iff (plane : Plane α) :
    c.Adopts feeds m plane ↔ ∃ v, c.Judges feeds m v ∧ c.newPlane? v = some plane := by
  constructor
  · rintro ⟨tangentPoint, identity, d, source, rows, tolerance, s, v, hcall, hdecides, hnew⟩
    exact ⟨v, ⟨tangentPoint, identity, d, source, rows, tolerance, s, hcall, hdecides⟩, hnew⟩
  · rintro ⟨v, ⟨tangentPoint, identity, d, source, rows, tolerance, s, hcall, hdecides⟩, hnew⟩
    exact ⟨tangentPoint, identity, d, source, rows, tolerance, s, v, hcall, hdecides, hnew⟩

theorem adopts_same {plane : Plane α} (h : c.Adopts feeds m plane) :
    plane.same c.plane = false := by
  obtain ⟨v, -, hnew⟩ := (adopts_iff plane).mp h
  simpa using (Option.filter_eq_some_iff.mp hnew).2

theorem next_of_judges {v : Verdict α} (h : c.Judges feeds m v) :
    ∃ d tolerance cache, c.next feeds m = { c.adopt d tolerance v with cache := cache } := by
  obtain ⟨call, s⟩ := m
  obtain ⟨_, identity, d, source, rows, tolerance, next, rfl, hdecides⟩ := h
  obtain rfl := hdecides.point_eq
  have hnext : c.next feeds ⟨.correct (.ok d) identity, s⟩ =
      ((c.adopt d tolerance v).deliver rows tolerance identity).2 := by
    change (c.correctedRows feeds (.ok d) identity s).corrector = _
    rw [correctedRows_of_fetches hdecides.fetches, (process_of_ok hdecides.judge_eq identity).2]
  refine ⟨d, tolerance, ?_⟩
  cases hpasses : (c.adopt d tolerance v).passes rows tolerance with
  | true => exact ⟨_, by rw [hnext, deliver_of_passes hpasses]⟩
  | false => exact ⟨(c.adopt d tolerance v).cache, by rw [hnext, deliver_of_objection hpasses]⟩

theorem next_of_unjudged (h : c.Unjudged feeds m) :
    (c.next feeds m).plane = c.plane ∧ (c.next feeds m).epoch.plane = c.epoch.plane ∧
      (c.next feeds m).isFresh = c.isFresh := by
  obtain ⟨after, event, hafter, -, hstep⟩ := c.exists_step feeds m
  rw [hafter]
  cases hstep with
  | corrected tangentPoint identity _ _ _ hcall hcourse =>
    cases hcourse with
    | exceeded d source rows tolerance s v hdecides =>
      exact absurd ⟨_, _, d, source, rows, tolerance, s, hcall, hdecides⟩ (h v)
    | renewed d source rows tolerance s v hdecides =>
      exact absurd ⟨_, _, d, source, rows, tolerance, s, hcall, hdecides⟩ (h v)
    | _ => exact ⟨rfl, rfl, rfl⟩
  | _ => exact ⟨rfl, rfl, rfl⟩

theorem next_of_adopts {plane : Plane α} (h : c.Adopts feeds m plane) :
    (c.next feeds m).plane = plane ∧ (c.next feeds m).epoch.plane = c.epoch.plane + 1 := by
  obtain ⟨v, hjudges, hnew⟩ := (adopts_iff plane).mp h
  obtain ⟨d, tolerance, cache, hnext⟩ := next_of_judges hjudges
  rw [hnext]
  exact ⟨by simp [hnew], by simp [adopt_epoch_plane, hnew]⟩

theorem next_of_not_adopts (h : ∀ plane, ¬ c.Adopts feeds m plane) :
    (c.next feeds m).plane = c.plane ∧ (c.next feeds m).epoch.plane = c.epoch.plane := by
  by_cases hjudges : c.Unjudged feeds m
  · exact ⟨(next_of_unjudged hjudges).1, (next_of_unjudged hjudges).2.1⟩
  · obtain ⟨v, hv⟩ := not_forall_not.mp hjudges
    obtain ⟨d, tolerance, cache, hnext⟩ := next_of_judges hv
    have hnone : c.newPlane? v = none := by
      apply Option.eq_none_iff_forall_ne_some.mpr
      intro plane hplane
      exact h plane ((adopts_iff plane).mpr ⟨v, hv, hplane⟩)
    rw [hnext]
    exact ⟨by simp [hnone], by simp [adopt_epoch_plane, hnone]⟩

theorem next_isFresh_of_judges {v : Verdict α} (h : c.Judges feeds m v) :
    (c.next feeds m).isFresh = true ↔ c.Raises feeds m := by
  obtain ⟨d, tolerance, cache, hnext⟩ := next_of_judges h
  have hfresh : (c.next feeds m).isFresh = (c.newPlane? v).isSome := by
    rw [hnext]
    change (c.adopt d tolerance v).isFresh = _
    rw [adopt, commit_eq]
    rfl
  have hcount : (c.next feeds m).epoch.plane =
      if (c.newPlane? v).isSome then c.epoch.plane + 1 else c.epoch.plane := by
    rw [hnext]
    exact adopt_epoch_plane ..
  rw [hfresh, Raises, and_iff_right ⟨v, h⟩, hcount]
  cases c.newPlane? v with
  | none =>
    simp only [Option.isSome_none, Bool.false_eq_true, if_false, false_iff]
    omega
  | some plane => simp

variable (feeds) in
theorem next_epoch_source (c : Corrector ι α) (m : Moment ι σ α) :
    (m.Announces → (c.next feeds m).epoch.source = c.epoch.source + 1) ∧
      (¬ m.Announces → (c.next feeds m).epoch.source = c.epoch.source) := by
  obtain ⟨after, event, hafter, -, hstep⟩ := c.exists_step feeds m
  rw [hafter]
  cases hstep with
  | associated source hcall =>
    exact ⟨fun _ => rfl, fun hquiet => absurd (.inl ⟨source, hcall⟩) hquiet⟩
  | notified hcall => exact ⟨fun _ => rfl, fun hquiet => absurd (.inr hcall) hquiet⟩
  | duplicated identity hcall => simp [Moment.Announces, hcall, duplicate]
  | corrected _ _ _ _ _ hcall hcourse =>
    refine ⟨fun hannounces => by simp [Moment.Announces, hcall] at hannounces, fun _ => ?_⟩
    cases hcourse with
    | exceeded => exact adopt_epoch_source ..
    | renewed => exact adopt_epoch_source ..
    | _ => rfl

variable (feeds) in
theorem next_epoch_le (c : Corrector ι α) (m : Moment ι σ α) :
    c.epoch.source ≤ (c.next feeds m).epoch.source ∧
      c.epoch.plane ≤ (c.next feeds m).epoch.plane := by
  constructor
  · by_cases h : m.Announces
    · have hnext := (c.next_epoch_source feeds m).1 h
      omega
    · have hnext := (c.next_epoch_source feeds m).2 h
      omega
  · by_cases h : ∃ plane, c.Adopts feeds m plane
    · obtain ⟨plane, hplane⟩ := h
      have hnext := (next_of_adopts hplane).2
      omega
    · have hnext := (next_of_not_adopts (not_exists.mp h)).2
      omega

variable (feeds) in
theorem run_epoch_le (c : Corrector ι α) (moments : List (Moment ι σ α)) :
    c.epoch.source ≤ (c.run feeds moments).epoch.source ∧
      c.epoch.plane ≤ (c.run feeds moments).epoch.plane := by
  induction moments generalizing c with
  | nil => exact ⟨Int.le_refl _, Int.le_refl _⟩
  | cons m rest ih =>
    obtain ⟨hsource, hplane⟩ := c.next_epoch_le feeds m
    obtain ⟨hsource', hplane'⟩ := ih (c.next feeds m)
    exact ⟨Int.le_trans hsource hsource', Int.le_trans hplane hplane'⟩

theorem run_plane_of_epoch {c : Corrector ι α} {moments : List (Moment ι σ α)}
    (h : (c.run feeds moments).epoch.plane = c.epoch.plane) :
    (c.run feeds moments).plane = c.plane := by
  induction moments generalizing c with
  | nil => rfl
  | cons m rest ih =>
    rw [run_cons] at h ⊢
    have hnext := (c.next_epoch_le feeds m).2
    have hrest := ((c.next feeds m).run_epoch_le feeds rest).2
    have hstay : (c.next feeds m).epoch.plane = c.epoch.plane := by omega
    have hnone : ∀ plane, ¬ c.Adopts feeds m plane := by
      intro plane hplane
      have hraised := (next_of_adopts hplane).2
      omega
    rw [ih (h.trans hstay.symm), (next_of_not_adopts hnone).1]

theorem run_isFresh_of_unjudged {c : Corrector ι α} {moments : List (Moment ι σ α)}
    (h : c.Throughout feeds (Unjudged feeds) moments) :
    (c.run feeds moments).isFresh = c.isFresh := by
  induction moments generalizing c with
  | nil => rfl
  | cons m rest ih => rw [run_cons, ih h.2, (next_of_unjudged h.1).2.2]

theorem run_isFresh_iff {c : Corrector ι α} (hstart : c.isFresh = false)
    (moments : List (Moment ι σ α)) :
    (c.run feeds moments).isFresh = true ↔ ∃ before m after, moments = before ++ m :: after ∧
      (c.run feeds before).Raises feeds m ∧
      (c.run feeds (before ++ [m])).Throughout feeds (Unjudged feeds) after := by
  constructor
  · intro hfresh
    induction moments using List.reverseRecOn with
    | nil => exact absurd (hfresh.symm.trans hstart) (by decide)
    | append_singleton moments m ih =>
      rw [run_append] at hfresh
      by_cases hjudges : (c.run feeds moments).Unjudged feeds m
      · -- The last call says nothing, so the one before it that did is still the last.
        obtain ⟨before, m', after, rfl, hraises, hquiet⟩ :=
          ih ((next_of_unjudged hjudges).2.2.symm.trans hfresh)
        refine ⟨before, m', after ++ [m], by simp, hraises, ?_⟩
        rw [throughout_append, ← run_append, List.append_assoc, List.singleton_append]
        exact ⟨hquiet, hjudges, trivial⟩
      · obtain ⟨v, hv⟩ := not_forall_not.mp hjudges
        exact ⟨moments, m, [], rfl, (next_isFresh_of_judges hv).mp hfresh, trivial⟩
  · rintro ⟨before, m, after, rfl, hraises, hquiet⟩
    obtain ⟨v, hv⟩ := hraises.1
    rw [List.append_cons, run_append, run_isFresh_of_unjudged hquiet, run_append]
    exact (next_isFresh_of_judges hv).mpr hraises

theorem before_eq_false {e f : Epoch} (hsource : f.source ≤ e.source)
    (hplane : f.plane ≤ e.plane) : e.before f = false := by
  simp only [Epoch.before, Bool.or_eq_false_iff, decide_eq_false_iff_not, Int.not_lt,
    Bool.and_eq_false_imp, beq_iff_eq]
  omega

/-- The counter of sources counts the announcements, and the counter of planes the planes
that are taken over, each of which differs from the one in use.  So snapshots never go
back, the plane is the same wherever its counter is, and it is fresh exactly if the last
verdict advanced its counter. -/
theorem epoch_counts (settings : Settings α) (feeds : ι → Feed σ α) :
    let after (moments : List (Moment ι σ α)) : Corrector ι α := run feeds (create settings) moments
    (∀ before m, let c := after before
      let next := after (before ++ [m])
      (m.Announces → next.epoch.source = c.epoch.source + 1) ∧
        (¬ m.Announces → next.epoch.source = c.epoch.source) ∧
        (∀ plane, c.Adopts feeds m plane →
          (∃ tangentPoint identity, m.call = .correct tangentPoint identity) ∧
          plane.same c.plane = false ∧ next.plane = plane ∧
          next.epoch.plane = c.epoch.plane + 1) ∧
        ((∀ plane, ¬ c.Adopts feeds m plane) →
          next.plane = c.plane ∧ next.epoch.plane = c.epoch.plane)) ∧
      (∀ before between, let e := (after before).epoch
        let f := (after (before ++ between)).epoch
        e.source ≤ f.source ∧ e.plane ≤ f.plane ∧ f.before e = false) ∧
      (∀ before between rest,
        (after (before ++ (between ++ rest))).epoch.plane = (after before).epoch.plane →
          (after (before ++ between)).plane = (after before).plane) ∧
      ∀ moments, (after moments).isFresh = true ↔
        ∃ before m rest, moments = before ++ m :: rest ∧ (after before).Raises feeds m ∧
          (after (before ++ [m])).Throughout feeds (Unjudged feeds) rest := by
  intro after
  refine ⟨?_, ?_, ?_, run_isFresh_iff rfl⟩
  · intro before m c next
    have hnext : next = c.next feeds m := run_append feeds (create settings) before [m]
    rw [hnext]
    refine ⟨(c.next_epoch_source feeds m).1, (c.next_epoch_source feeds m).2,
      fun plane hplane => ?_,
      next_of_not_adopts⟩
    obtain ⟨tangentPoint, identity, _, _, _, _, _, _, hcall, -⟩ := id hplane
    exact ⟨⟨tangentPoint, identity, hcall⟩, adopts_same hplane, next_of_adopts hplane⟩
  · intro before between e f
    have hle : e.source ≤ f.source ∧ e.plane ≤ f.plane := by
      have hrun := (after before).run_epoch_le feeds between
      rwa [← run_append] at hrun
    exact ⟨hle.1, hle.2, before_eq_false hle.1 hle.2⟩
  · intro before between rest h
    have hbetween := ((after before).run_epoch_le feeds between).2
    have hrest := (((after before).run feeds between).run_epoch_le feeds rest).2
    have hend : (((after before).run feeds between).run feeds rest).epoch.plane =
        (after before).epoch.plane := by
      rw [← run_append, ← run_append]
      exact h
    have hsame : ((after before).run feeds between).plane = (after before).plane :=
      run_plane_of_epoch (by omega)
    exact (congrArg plane (run_append feeds (create settings) before between)).trans hsame

end Corrector

end Coplanar
