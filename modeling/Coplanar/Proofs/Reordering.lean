import Mathlib.Algebra.BigOperators.Group.List.Basic
import Mathlib.Data.Fin.Rev
import Mathlib.Data.List.FinRange
import Coplanar.Proofs.Coherence
import Coplanar.Proofs.Recovery
import Coplanar.Proofs.Requests

/-! The order of rows.  A fit takes sums over the rows and a deviation their maximum, so that no
policy sees an order.  Of two runs on rows in different orders, the one comes to the planes of
the other and hands out its rows, in the order in which it was given them. -/
namespace Coplanar

section Rows

variable {β γ : Type} {n : Nat} {π : Equiv.Perm (Fin n)} {l l' : List β}

/-- The items of `l'` are those of `l`, with the one at place `π i` at place `i`. -/
def Rearranged (π : Equiv.Perm (Fin n)) (l l' : List β) : Prop :=
  ∃ item : Fin n → β, l = List.ofFn item ∧ l' = List.ofFn (item ∘ π)

def Reordered (l l' : List β) : Prop := ∃ (n : Nat) (π : Equiv.Perm (Fin n)), Rearranged π l l'

theorem Rearranged.map (h : Rearranged π l l') (f : β → γ) :
    Rearranged π (l.map f) (l'.map f) := by
  obtain ⟨item, rfl, rfl⟩ := h
  exact ⟨f ∘ item, List.map_ofFn .., List.map_ofFn ..⟩

theorem Reordered.perm (h : Reordered l l') : l.Perm l' := by
  obtain ⟨n, π, item, rfl, rfl⟩ := h
  exact (π.ofFn_comp_perm item).symm

theorem reordered_reverse (l : List β) : Reordered l l.reverse := by
  refine ⟨l.length, Fin.revPerm, l.get, (List.ofFn_get l).symm, ?_⟩
  refine List.ext_getElem (by simp) fun i _ _ => ?_
  rw [List.getElem_reverse, List.getElem_ofFn]
  simp only [Function.comp_apply, Fin.revPerm_apply, List.get_eq_getElem, Fin.val_rev]
  congr 1
  omega

end Rows

section Exact

variable {K : Type} [Field K] [LinearOrder K] [Circular K] {rows rows' : Chunk K}

theorem moments_of_perm (h : rows.Perm rows') : rows.moments = rows'.moments := by
  have htotal : ∀ f, rows.total f = rows'.total f := fun f => (h.map f).sum_eq
  rw [moments_eq, moments_eq]
  simp only [htotal]

theorem fit_of_perm (h : rows.Perm rows') : rows.fit = rows'.fit := by
  rw [Chunk.fit, Chunk.fit, h.length_eq, moments_of_perm h]

theorem maxDeviation_of_perm (h : rows.Perm rows') (p : Plane K) :
    p.maxDeviation rows = p.maxDeviation rows' := by
  rw [maxDeviation_eq, maxDeviation_eq]
  exact (h.map p.deviation).foldr_eq 0

theorem unnoticed_reordered : Unnoticed (Reordered : Chunk K → Chunk K → Prop) where
  equivalent h :=
    ⟨h.perm.length_eq, fit_of_perm h.perm, maxDeviation_of_perm h.perm⟩
  subtract h p := by
    obtain ⟨n, π, hrows⟩ := h
    exact ⟨n, π, hrows.map p.subtract⟩

end Exact

section Requests

variable {σ τ α : Type} {A : Chunk α → Chunk α → Prop} {R : σ → τ → Prop}

theorem Feed.Matched.recorded {left : Feed σ α} {right : Feed τ α} (h : Feed.Matched A R left right) :
    Feed.Matched A (fun s t => R s.1 t.1 ∧ s.2 = t.2) left.recorded right.recorded where
  rows d s t hst :=
    ⟨(h.rows d s.1 t.1 hst.1).1, (h.rows d s.1 t.1 hst.1).2, congrArg (d :: ·) hst.2⟩
  channels s t hst := h.channels s.1 t.1 hst.1

theorem Corrector.Matched.requests_eq {ι : Type} [Trig α] {c c' : Corrector ι α}
    (h : c.Matched A c') (hA : Unnoticed A) {left : ι → Feed σ α} {right : ι → Feed τ α}
    (hfeeds : ∀ i, Feed.Matched A R (left i) (right i)) {s : σ} {t : τ} (hst : R s t)
    (tangentPoint : Except (Fault α) (Direction α)) (identity : Nat) :
    c'.requests right tangentPoint identity t = c.requests left tangentPoint identity s := by
  have hrecorded := h.correctedRows hA (fun i => (hfeeds i).recorded) (s := (s, [])) (t := (t, []))
    ⟨hst, rfl⟩ tangentPoint identity
  exact congrArg List.reverse hrecorded.sources.2.symm

end Requests

theorem matched_of_getLast? {α : Type} {A : Chunk α → Chunk α → Prop}
    {log log' : List (Event α)} (h : List.Forall₂ (Event.Matched A) log log') {rows rows' : Chunk α}
    (hrows : log.getLast? = some (.renewed rows)) (hrows' : log'.getLast? = some (.renewed rows')) :
    A rows rows' := by
  have hlast := List.forall₂_reverse_iff.mpr h
  rw [← List.head?_reverse] at hrows hrows'
  generalize log.reverse = l at hlast hrows
  generalize log'.reverse = l' at hlast hrows'
  cases hlast with
  | nil => cases hrows
  | cons hevent _ =>
    cases hrows
    cases hrows'
    cases hevent with
    | renewed hA => exact hA

/-- Two runs of the same calls, on sources that at each request give the same rows in orders
of their own, with the same channels.  After every such run the correctors are the same but
for the rows at hand, and the next call asks both sources for the same, and fails alike or
returns rows that are ordered as the chunks renewed last are. -/
theorem run_ignores_order {ι σ τ K : Type} [Field K] [LinearOrder K] [Circular K]
    {left : ι → Feed σ K} {right : ι → Feed τ K} {R : σ → τ → Prop}
    (hfeeds : ∀ i, Feed.Matched Reordered R (left i) (right i)) (settings : Settings K)
    {moments : List (Moment ι σ K)} {moments' : List (Moment ι τ K)}
    (hmoments : List.Forall₂ (Moment.Matched R) moments moments') :
    let c := Corrector.run left (.create settings) moments
    let c' := Corrector.run right (.create settings) moments'
    (c'.plane = c.plane ∧ c'.epoch = c.epoch ∧ c'.phase = c.phase ∧ c'.isFresh = c.isFresh ∧
        c'.deviation = c.deviation ∧ c'.tolerance = c.tolerance ∧ c'.center = c.center ∧
        c'.source = c.source) ∧
      ∀ tangentPoint identity s t, R s t →
        let log := Corrector.events left (.create settings)
          (moments ++ [⟨.correct tangentPoint identity, s⟩])
        let log' := Corrector.events right (.create settings)
          (moments' ++ [⟨.correct tangentPoint identity, t⟩])
        c'.requests right tangentPoint identity t = c.requests left tangentPoint identity s ∧
          Matched (fun served served' => ∃ rows rows', log.getLast? = some (.renewed rows) ∧
              log'.getLast? = some (.renewed rows') ∧ Reordered rows rows' ∧
              ∀ n (π : Equiv.Perm (Fin n)), Rearranged π rows rows' →
                Rearranged π served.rows served'.rows)
            (c.correctedRows left tangentPoint identity s).result
            (c'.correctedRows right tangentPoint identity t).result := by
  intro c c'
  have hcreated : Corrector.Matched Reordered (.create settings : Corrector ι K) (.create settings) :=
    ⟨rfl, .none⟩
  have h : Corrector.Matched Reordered c c' :=
    hcreated.run unnoticed_reordered hfeeds hmoments
  refine ⟨?_, fun tangentPoint identity s t hst => ?_⟩
  · have hphase := h.phase_eq
    refine ⟨?_, ?_, hphase, ?_⟩ <;> rw [h.eq]
    simp
  · have hupTo : List.Forall₂ (Moment.Matched R)
        (moments ++ [⟨.correct tangentPoint identity, s⟩])
        (moments' ++ [⟨.correct tangentPoint identity, t⟩]) :=
      List.rel_append hmoments (.cons ⟨rfl, hst⟩ .nil)
    have hplane := congrArg Corrector.plane (hcreated.run unnoticed_reordered hfeeds hupTo).eq
    have hevents := hcreated.events unnoticed_reordered hfeeds hupTo
    have hresult := (h.correctedRows unnoticed_reordered hfeeds hst tangentPoint identity).result
    refine ⟨h.requests_eq unnoticed_reordered hfeeds hst tangentPoint identity, ?_⟩
    cases hleft : (c.correctedRows left tangentPoint identity s).result with
    | error fault =>
      rw [hleft] at hresult
      generalize (c'.correctedRows right tangentPoint identity t).result = result' at hresult ⊢
      cases hresult with
      | failed => exact .failed fault
    | ok served =>
      cases hright : (c'.correctedRows right tangentPoint identity t).result with
      | error fault =>
        rw [hleft, hright] at hresult
        cases hresult
      | ok served' =>
        -- Either result is the chunk of its last renewal less the plane, and the planes agree.
        obtain ⟨rows, hrows, hserved⟩ :=
          Corrector.exists_renewed_of_correctedRows settings left moments hleft
        obtain ⟨rows', hrows', hserved'⟩ :=
          Corrector.exists_renewed_of_correctedRows settings right moments' hright
        refine .given ⟨rows, rows', hrows, hrows', matched_of_getLast? hevents hrows hrows', ?_⟩
        intro n π hrearranged
        rw [hserved, hserved', hplane]
        exact hrearranged.map _

def reversed (d : Direction ℚ) : Chunk ℚ := (tilting d).reverse

theorem matched_reversed : Feed.Matched Reordered (fun _ _ => True)
    (Feed.ofChunks tilting [299792458] : Feed Unit ℚ)
    (Feed.ofChunks reversed [299792458] : Feed Unit ℚ) where
  rows d _ _ _ := ⟨.given (reordered_reverse (tilting d)), trivial⟩
  channels _ _ _ := rfl

def threeSteps : Settings ℚ := ⟨250, false, true, 1 / earthRotationRate, 3, 1, false⟩

theorem run_ignores_order_reversed :
    let associated : List (Moment Unit Unit ℚ) := [⟨.associate (some ()), ()⟩]
    let feeds : Unit → Feed Unit ℚ := fun _ => Feed.ofChunks reversed [299792458]
    Feed.Matched Reordered (fun _ _ => True) (Feed.ofChunks tilting [299792458] : Feed Unit ℚ)
        (feeds ()) ∧
      List.Forall₂ (Moment.Matched fun _ _ => True) associated associated ∧
      (Corrector.run feeds (.create threeSteps) associated).requests feeds (.ok ⟨-5, 0⟩) 0 () =
        [⟨-5, 0⟩, ⟨-6, 0⟩, ⟨-7, 0⟩, ⟨-8, 0⟩, ⟨-7, 0⟩] := by
  intro associated feeds
  have hmoments : List.Forall₂ (Moment.Matched fun _ _ => True) associated associated :=
    .cons ⟨rfl, trivial⟩ .nil
  obtain ⟨-, hnext⟩ := run_ignores_order (fun _ : Unit => matched_reversed) threeSteps hmoments
  refine ⟨matched_reversed, hmoments, ?_⟩
  rw [(hnext (.ok ⟨-5, 0⟩) 0 () () trivial).1]
  decide +kernel

end Coplanar
