import Coplanar.Proofs.Matching

/-! Correctors that cannot be told apart.  What comes of a call depends neither on which
array objects were handed out before nor on which of two sources answers, as long as both
answer the same. -/
namespace Coplanar

variable {ι σ τ α : Type}

structure Feed.Alike (R : σ → τ → Prop) (left : Feed σ α) (right : Feed τ α) : Prop where
  rows : ∀ d s t, R s t → (left.rows d s).1 = (right.rows d t).1 ∧
    R (left.rows d s).2 (right.rows d t).2
  channels : ∀ s t, R s t → left.channels s = right.channels t

theorem Feed.Alike.matched {R : σ → τ → Prop} {left : Feed σ α} {right : Feed τ α}
    (h : Feed.Alike R left right) : Feed.Matched Eq R left right where
  rows d s t hst := ⟨.of_eq (fun _ => rfl) (h.rows d s t hst).1, (h.rows d s t hst).2⟩
  channels := h.channels

theorem Served.eq_of_matched {served served' : Served α} (h : Served.Matched Eq served served') :
    served = served' := by
  obtain ⟨rows, identity, epoch⟩ := served
  obtain ⟨rfl, rfl, rfl⟩ := h
  rfl

def Served.anonymous (served : Served α) : Served α := { served with identity := 0 }

/-- The corrector, whichever array object its rows are. -/
def Corrector.anonymous (c : Corrector ι α) : Corrector ι α := c.duplicate 0

namespace Reply

def anonymous (r : Reply ι σ α) : Reply ι σ α where
  result := r.result.map Served.anonymous
  corrector := r.corrector.anonymous
  notes := r.notes
  sources := r.sources

structure Alike (R : σ → τ → Prop) (r : Reply ι σ α) (r' : Reply ι τ α) : Prop where
  result_eq : r.result = r'.result
  corrector_eq : r.corrector = r'.corrector
  notes_eq : r.notes = r'.notes
  sources : R r.sources r'.sources

end Reply

namespace Corrector

variable {c : Corrector ι α} {R : σ → τ → Prop}

theorem matched_self (c : Corrector ι α) : Matched Eq c c := by
  refine ⟨rfl, ?_⟩
  cases c.cache with
  | none => exact .none
  | some served => exact .some ⟨rfl, rfl, rfl⟩

theorem eq_of_matched {c' : Corrector ι α} (h : Matched Eq c c') : c = c' := by
  obtain ⟨heq, hcache⟩ := h
  rw [heq]
  generalize c'.cache = cache' at hcache
  obtain ⟨settings, plane, epoch, source, center, cache, deviation, tolerance, isFresh⟩ := c
  cases hcache with
  | none => rfl
  | some hserved => rw [Served.eq_of_matched hserved]

theorem anonymous_duplicate (c : Corrector ι α) (identity : Nat) :
    (c.duplicate identity).anonymous = c.anonymous := by
  simp only [anonymous, duplicate, Option.map_map]
  rfl

theorem current?_anonymous (c : Corrector ι α) :
    c.anonymous.current? = c.current?.map Served.anonymous := c.current?_duplicate 0

section Policy

variable [Scalar α]

theorem commit_anonymous (c : Corrector ι α) (tolerance : α) (v : Verdict α) :
    (c.commit tolerance v).anonymous = c.anonymous.commit tolerance v := by
  rw [commit_eq, commit_eq]
  rfl

theorem deliver_anonymous (c : Corrector ι α) (rows : Chunk α) (tolerance : α) (identity : Nat) :
    c.anonymous.deliver rows tolerance 0 =
      ((c.deliver rows tolerance identity).1.map Served.anonymous,
        (c.deliver rows tolerance identity).2.anonymous) := by
  cases hpasses : c.passes rows tolerance with
  | false =>
    rw [deliver_of_objection hpasses, deliver_of_objection (c := c.anonymous) hpasses]
    rfl
  | true =>
    rw [deliver_of_passes hpasses, deliver_of_passes (c := c.anonymous) hpasses]
    rfl

theorem process_anonymous (c : Corrector ι α) (feed : Feed σ α) (d : Direction α)
    (rows : Chunk α) (tolerance : α) (identity : Nat) (s : σ) :
    (c.process feed d rows tolerance identity s).anonymous =
      c.anonymous.process feed d rows tolerance 0 s := by
  have hjudge : judge { c.anonymous with center := some d } feed d rows tolerance s =
    judge { c with center := some d } feed d rows tolerance s := rfl
  simp only [process, hjudge]
  cases (judge { c with center := some d } feed d rows tolerance s).result with
  | error fault => rfl
  | ok v =>
    have hcommit : commit { c.anonymous with center := some d } tolerance v =
      (commit { c with center := some d } tolerance v).anonymous :=
        (commit_anonymous { c with center := some d } tolerance v).symm
    dsimp only
    rw [hcommit, deliver_anonymous _ rows tolerance identity]
    rfl

theorem recompute_anonymous (c : Corrector ι α) (feed : Feed σ α) (d : Direction α)
    (identity : Nat) (s : σ) :
    (c.recompute feed d identity s).anonymous = c.anonymous.recompute feed d 0 s := by
  unfold recompute
  rcases feed.rows d s with ⟨answer, next⟩
  cases answer with
  | error fault => rfl
  | ok rows =>
    have hsettings : c.anonymous.settings = c.settings := rfl
    dsimp only
    rw [hsettings]
    cases (feed.channels next).bind (toleranceInMetres c.settings.wTolerance) with
    | error fault => rfl
    | ok tolerance => exact c.process_anonymous feed d rows tolerance identity next

end Policy

variable [Trig α]

theorem correctedRows_alike (c : Corrector ι α) {left : ι → Feed σ α} {right : ι → Feed τ α}
    (h : ∀ i, Feed.Alike R (left i) (right i)) {s : σ} {t : τ} (hst : R s t)
    (tangentPoint : Except (Fault α) (Direction α)) (identity : Nat) :
    Reply.Alike R (c.correctedRows left tangentPoint identity s)
      (c.correctedRows right tangentPoint identity t) := by
  obtain ⟨hresult, hcorrector, hnotes, hsources⟩ := c.matched_self.correctedRows unnoticed_eq
    (fun i => (h i).matched) hst tangentPoint identity
  exact ⟨hresult.eq_of_forall fun _ _ => Served.eq_of_matched, eq_of_matched hcorrector, hnotes, hsources⟩

theorem correctedRows_sources (c : Corrector ι α) {feeds : ι → Feed σ α} {P : σ → Prop}
    (h : ∀ i d s, P s → P ((feeds i).rows d s).2) {s : σ} (hs : P s)
    (tangentPoint : Except (Fault α) (Direction α)) (identity : Nat) :
    P (c.correctedRows feeds tangentPoint identity s).sources := by
  have hfeeds : ∀ i, Feed.Alike (fun s t => P s ∧ s = t) (feeds i) (feeds i) := fun i =>
    { rows := fun d s t hst => ⟨by rw [hst.2], h i d s hst.1, by rw [hst.2]⟩
      channels := fun s t hst => by rw [hst.2] }
  exact (c.correctedRows_alike hfeeds ⟨hs, rfl⟩ tangentPoint identity).sources.1

theorem correctedRows_anonymous (c : Corrector ι α) (feeds : ι → Feed σ α)
    (tangentPoint : Except (Fault α) (Direction α)) (identity : Nat) (s : σ) :
    (c.correctedRows feeds tangentPoint identity s).anonymous =
      c.anonymous.correctedRows feeds tangentPoint 0 s := by
  cases tangentPoint with
  | error fault => rfl
  | ok d =>
    have haccepts : c.anonymous.accepts d = c.accepts d := rfl
    have hsource : c.anonymous.source = c.source := rfl
    dsimp only [correctedRows, rowsToward]
    rw [haccepts, current?_anonymous, hsource]
    cases c.accepts d with
    | false => rfl
    | true =>
      cases c.current? with
      | some served => rfl
      | none =>
        cases c.source with
        | none => rfl
        | some source => exact c.recompute_anonymous (feeds source) d identity s

end Corrector

end Coplanar
