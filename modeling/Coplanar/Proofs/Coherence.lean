import Coplanar.Proofs.Run

/-! The rows at hand and the plane in use agree whenever the rows are up to date.
In between they need not: a plane is taken over before the residual check, so a
refused chunk leaves rows at hand that go with an earlier plane.  Such rows are
always out of date. -/
namespace Coplanar

namespace Corrector

variable {ι σ α : Type} [Trig α]

structure Coherent (log : List (Event α)) (c : Corrector ι α) : Prop where
  empty_iff : c.cache = none ↔ ∀ rows, .renewed rows ∉ log
  not_ahead : ∀ served, c.cache = some served → served.epoch ≤ c.epoch.source
  /-- Rows of this epoch are the last event, and go with the plane in use. -/
  renewed : ∀ served, c.cache = some served → served.epoch = c.epoch.source →
    ∃ rows, log.getLast? = some (.renewed rows) ∧ served.rows = rows.map c.plane.subtract
  /-- Rows renewed last are of this epoch. -/
  current : ∀ rows, log.getLast? = some (.renewed rows) → ∃ served, c.current? = some served

theorem coherent_create (settings : Settings α) :
    Coherent [] (create settings : Corrector ι α) where
  empty_iff := by simp [create]
  not_ahead := by simp [create]
  renewed := by simp [create]
  current := by simp

theorem Coherent.announced {log : List (Event α)} {c : Corrector ι α} (h : Coherent log c)
    (next : Corrector ι α) (hcache : next.cache = c.cache)
    (hepoch : next.epoch.source = c.epoch.source + 1) : Coherent (log ++ [.announced]) next where
  empty_iff := by simp [hcache, h.empty_iff]
  not_ahead served hserved := by
    have hle := h.not_ahead served (hcache ▸ hserved)
    omega
  renewed served hserved hnow := by
    have hle := h.not_ahead served (hcache ▸ hserved)
    omega
  current := by simp

theorem Coherent.current?_of_announced {log : List (Event α)} {c : Corrector ι α}
    (h : Coherent log c) (next : Corrector ι α) (hcache : next.cache = c.cache)
    (hepoch : next.epoch.source = c.epoch.source + 1) : next.current? = none := by
  rw [Option.eq_none_iff_forall_ne_some]
  intro served hserved
  rw [current?_eq_some_iff] at hserved
  obtain ⟨rows, hlast, -⟩ := (h.announced next hcache hepoch).renewed served hserved.1 hserved.2
  simp at hlast

theorem Coherent.untouched {log : List (Event α)} {c : Corrector ι α} (h : Coherent log c)
    (next : Corrector ι α) (hcache : next.cache = c.cache)
    (hepoch : next.epoch.source = c.epoch.source)
    (hplane : c.current? = none ∨ next.plane = c.plane) : Coherent log next where
  empty_iff := by rw [hcache, h.empty_iff]
  not_ahead served hserved := by
    rw [hepoch]
    exact h.not_ahead served (hcache ▸ hserved)
  renewed served hserved hnow := by
    rw [hcache] at hserved
    rw [hepoch] at hnow
    obtain hnone | hplane := hplane
    · simp [(c.current?_eq_some_iff served).mpr ⟨hserved, hnow⟩] at hnone
    · rw [hplane]
      exact h.renewed served hserved hnow
  current rows hrows := by
    obtain ⟨served, hserved⟩ := h.current rows hrows
    rw [current?_eq_some_iff] at hserved
    exact ⟨served, (next.current?_eq_some_iff served).mpr ⟨hcache ▸ hserved.1, hepoch ▸ hserved.2⟩⟩

theorem Coherent.duplicated {log : List (Event α)} {c : Corrector ι α} (h : Coherent log c)
    (identity : Nat) : Coherent log (c.duplicate identity) where
  empty_iff := by simp [duplicate, h.empty_iff]
  not_ahead served hserved := by
    obtain ⟨original, horiginal, rfl⟩ := Option.map_eq_some_iff.mp hserved
    exact h.not_ahead original horiginal
  renewed served hserved hnow := by
    obtain ⟨original, horiginal, rfl⟩ := Option.map_eq_some_iff.mp hserved
    exact h.renewed original horiginal hnow
  current rows hrows := by
    obtain ⟨served, hserved⟩ := h.current rows hrows
    rw [current?_eq_some_iff] at hserved
    refine ⟨{ served with identity := identity }, (current?_eq_some_iff _ _).mpr ⟨?_, hserved.2⟩⟩
    simp [duplicate, hserved.1]

theorem coherent_served (log : List (Event α)) (c : Corrector ι α) (rows : Chunk α)
    (identity : Nat) :
    Coherent (log ++ [.renewed rows]) { c with cache := some (c.serving rows identity) } where
  empty_iff := iff_of_false (by simp) fun h => h rows (by simp)
  not_ahead := by simp [serving]
  renewed := by simp [serving]
  current := by simp [current?, serving, Option.filter]

theorem Coherent.next {log : List (Event α)} {c : Corrector ι α} (feeds : ι → Feed σ α)
    (m : Moment ι σ α) (h : Coherent log c) :
    Coherent (log ++ (c.event? feeds m).toList) (c.next feeds m) := by
  obtain ⟨after, event, hafter, hevent, hstep⟩ := c.exists_step feeds m
  rw [hafter, hevent]
  cases hstep with
  | associated source => exact h.announced _ rfl rfl
  | notified => exact h.announced _ rfl rfl
  | duplicated identity => simpa using h.duplicated identity
  | corrected _ _ _ _ _ _ hcourse =>
    cases hcourse with
    | refused => simpa using h
    | answered => simpa using h
    | undecided d =>
      have hbound : Coherent log { c with center := some d } := h.untouched _ rfl rfl (.inr rfl)
      simpa using hbound
    | exceeded d source rows tolerance next v hdecides =>
      have houtdated := hdecides.fetches.outdated
      simpa using h.untouched (c.adopt d tolerance v) (by simp) (by simp) (.inl houtdated)
    | renewed d source rows tolerance next v =>
      simpa using coherent_served log (c.adopt d tolerance v) rows _

theorem coherent_run (settings : Settings α) (feeds : ι → Feed σ α)
    (moments : List (Moment ι σ α)) :
    Coherent (events feeds (create settings) moments) (run feeds (create settings) moments) := by
  have h := run_induction feeds (P := Coherent) (fun _ _ m h => h.next feeds m)
    (coherent_create settings) moments
  simpa using h

theorem exists_renewed_of_correctedRows (settings : Settings α) (feeds : ι → Feed σ α)
    (moments : List (Moment ι σ α)) {tangentPoint : Except (Fault α) (Direction α)} {identity : Nat}
    {s : σ} {served : Served α}
    (h : ((run feeds (create settings) moments).correctedRows feeds tangentPoint identity s).result =
      .ok served) :
    let upTo := moments ++ [⟨.correct tangentPoint identity, s⟩]
    ∃ rows, (events feeds (create settings) upTo).getLast? = some (.renewed rows) ∧
      served.rows = rows.map (run feeds (create settings) upTo).plane.subtract := by
  intro upTo
  have hafter : run feeds (create settings) upTo =
      ((run feeds (create settings) moments).correctedRows feeds tangentPoint identity s).corrector :=
    run_append feeds _ _ _
  have hcurrent := current?_of_correctedRows h
  rw [← hafter, current?_eq_some_iff] at hcurrent
  exact (coherent_run settings feeds upTo).renewed served hcurrent.1 hcurrent.2

theorem Coherent.fitted_iff {log : List (Event α)} {c : Corrector ι α} (h : Coherent log c) :
    c.phase = .fitted ↔ ∃ rows, log.getLast? = some (.renewed rows) := by
  rw [phase_eq_fitted_iff]
  constructor
  · intro hsome
    obtain ⟨served, hserved⟩ := Option.isSome_iff_exists.mp hsome
    rw [current?_eq_some_iff] at hserved
    obtain ⟨rows, hrows, -⟩ := h.renewed served hserved.1 hserved.2
    exact ⟨rows, hrows⟩
  · rintro ⟨rows, hrows⟩
    obtain ⟨served, hserved⟩ := h.current rows hrows
    simp [hserved]

/-- After every run: nothing is at hand exactly if no rows were ever computed, and the
rows at hand are up to date exactly if no announcement followed the last rows computed.
Then they are the chunk last corrected, less the plane in use now, and in exact
arithmetic adding that plane gives the chunk back. -/
theorem run_serves_last_chunk (settings : Settings α) (feeds : ι → Feed σ α)
    (moments : List (Moment ι σ α)) :
    let c : Corrector ι α := run feeds (create settings) moments
    let log := events feeds (create settings) moments
    (c.phase = .uninitialized ↔ ∀ rows, .renewed rows ∉ log) ∧
      (c.phase = .fitted ↔ ∃ rows, log.getLast? = some (.renewed rows)) ∧
      (c.phase = .fitted → ∃ served rows, c.cache = some served ∧
        log.getLast? = some (.renewed rows) ∧
        served.rows = rows.map (fun r => ⟨r.u, r.v, r.w - (c.plane.a * r.u + c.plane.b * r.v)⟩) ∧
        ((∀ x y : α, x - y + y = x) →
          served.rows.map (fun r => ⟨r.u, r.v, r.w + (c.plane.a * r.u + c.plane.b * r.v)⟩) =
            rows)) := by
  intro c log
  have h : Coherent log c := coherent_run settings feeds moments
  refine ⟨?_, h.fitted_iff, fun hfitted => ?_⟩
  · rw [phase_eq_uninitialized_iff, h.empty_iff]
  · obtain ⟨served, hserved⟩ := Option.isSome_iff_exists.mp ((phase_eq_fitted_iff c).mp hfitted)
    rw [current?_eq_some_iff] at hserved
    obtain ⟨rows, hlast, hrows⟩ := h.renewed served hserved.1 hserved.2
    refine ⟨served, rows, hserved.1, hlast, hrows, fun hexact => ?_⟩
    rw [hrows, List.map_map]
    refine (List.map_congr_left fun r _ => ?_).trans (List.map_id rows)
    simp [hexact]

end Corrector

end Coplanar
