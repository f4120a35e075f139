import Mathlib.Logic.Function.Basic
import Coplanar.Proofs.Rosters
import Coplanar.Proofs.Slots

/-! What a corrector answers depends on what was done to it, and on nothing else, as long as
the sources answer by the tangent point alone.  A duplicate has behind it what was done to
the original, and from then on each goes its own way. -/
namespace Coplanar

variable {α : Type}

def Response.anonymous : Response α → Response α
  | .rows served _ => .rows served.anonymous []
  | response => response

def Response.ofResult : Except (Fault α) (Served α) → Response α
  | .error fault => .refused fault
  | .ok served => .rows served []

/-- All there is to a slot but which array objects it has handed out. -/
def Slot.state (slot : Slot α) : Corrector String α × Value α :=
  (slot.corrector.anonymous, slot.parameters)

structure Account (α : Type) where
  response : Response α
  messages : List (Message α)
  requests : List (String × List (Direction α))
  state : Option (Corrector String α × Value α)

structure Lineage (α : Type) where
  /-- The slot it goes back to, unless it was created since. -/
  origin : Option String
  deeds : List (Deed α)

def Lineage.slot (l : Lineage α) : String := l.origin.getD ""

/-- The same deeds, on slots that are the same but for `x` and `y`. -/
structure Lineage.Same (x y : String) (l l' : Lineage α) : Prop where
  deeds_eq : l.deeds = l'.deeds
  origin : l.origin = l'.origin ∨ l.origin ∈ [some x, some y] ∧ l'.origin ∈ [some x, some y]

namespace World

def state? (w : World α) (n : String) : Option (Corrector String α × Value α) :=
  (w.slot? n).map Slot.state

theorem slots_of_state?_eq {w w' : World α} {n n' : String} (h : w.state? n = w'.state? n') :
    (w.slot? n = none ∧ w'.slot? n' = none) ∨
      ∃ slot slot', w.slot? n = some slot ∧ w'.slot? n' = some slot' ∧
        slot.state = slot'.state := by
  unfold state? at h
  cases hslot : w.slot? n with
  | none =>
    rw [hslot] at h
    exact .inl ⟨rfl, by simpa using h.symm⟩
  | some slot =>
    rw [hslot] at h
    obtain ⟨slot', hslot', hstate⟩ := Option.map_eq_some_iff.mp h.symm
    exact .inr ⟨slot, slot', rfl, hslot', hstate.symm⟩

/-- What a deed makes of the lineages.  A slot that is created has no past, and one that is
duplicated into has that of the original. -/
def inherit (w : World α) (l : String → Lineage α) (s : String) (d : Deed α) :
    String → Lineage α :=
  match d with
  | .create _ => Function.update l s ⟨none, [d]⟩
  | .duplicate target => if (w.slot? s).isSome then Function.update l target (l s) else l
  | d => Function.update l s ⟨(l s).origin, (l s).deeds ++ [d]⟩

variable [Quantity α] {w w' : World α} {n n' s : String} {scenes : Keyed (Scene α)}

def lineages (w : World α) (l : String → Lineage α) :
    List (String × Deed α) → String → Lineage α
  | [] => l
  | step :: rest => (w.act step.1 step.2).lineages (w.inherit l step.1 step.2) rest

def lineage (w : World α) (steps : List (String × Deed α)) (n : String) : Lineage α :=
  w.lineages (fun n => ⟨some n, []⟩) steps n

def account (w : World α) (n : String) (d : Deed α) : Account α where
  response := (w.step (d.on n)).2.response.anonymous
  messages := (w.step (d.on n)).2.messages
  requests := (w.step (d.on n)).2.requests
  state := (w.act n d).state? n

theorem knows_eq (h : w.sources.Shows scenes) (source : Option String) :
    w.knows source = source.all fun name => (scenes.get? name).isSome := by
  cases source with
  | none => rfl
  | some name => exact (Keyed.Related.isSome_get? h name).symm

theorem shows_act (h : w.sources.Shows scenes) (s : String) (d : Deed α) :
    (w.act s d).sources.Shows scenes := by
  obtain hsame | ⟨slot, p, hreply⟩ := (w.frame_act s d).sources
  · rwa [hsame]
  · rw [hreply]
    exact slot.corrector.correctedRows_sources (P := Roster.Shows scenes)
      (fun name d _ hr => hr.feed_rows name d) h.unasked (Direction.ofValue p) w.fresh

theorem shows_run (h : w.sources.Shows scenes) (steps : List (String × Deed α)) :
    (w.run steps).sources.Shows scenes := by
  induction steps generalizing w with
  | nil => exact h
  | cons step rest ih => exact ih (shows_act h step.1 step.2)

theorem state?_act_of_ne (d : Deed α) (h : d.target s ≠ n) :
    (w.act s d).state? n = w.state? n := by
  rw [state?, slot?_act_of_ne d h, state?]

theorem account_create (w w' : World α) (n n' : String) (parameters : Value α) :
    w.account n (.create parameters) = w'.account n' (.create parameters) := by
  simp only [account, act, Deed.on, step, create]
  cases (Settings.ofParameters parameters).result with
  | error fault => simp [state?]
  | ok settings => simp [state?]

section Alike

variable {slot slot' : Slot α}

theorem account_of_idle {d : Deed α} {answer : Answer α} (h : w.state? n = w'.state? n')
    (hstep : w.step (d.on n) = (w, answer)) (hstep' : w'.step (d.on n') = (w', answer)) :
    w.account n d = w'.account n' d := by
  simp only [account, act, hstep, hstep', h]

theorem account_of_update {d : Deed α} {f : Corrector String α → Corrector String α}
    (hf : ∀ c, (f c).anonymous = f c.anonymous) (h : w.state? n = w'.state? n')
    (hstep : w.step (d.on n) = w.update n f) (hstep' : w'.step (d.on n') = w'.update n' f) :
    w.account n d = w'.account n' d := by
  obtain ⟨hslot, hslot'⟩ | ⟨slot, slot', hslot, hslot', hstate⟩ := slots_of_state?_eq h
  · rw [update_of_none hslot] at hstep
    rw [update_of_none hslot'] at hstep'
    exact account_of_idle h hstep hstep'
  · obtain ⟨hcorrector, hparameters⟩ := Prod.mk.inj hstate
    simp only [account, act, hstep, hstep', update_of_some hslot, update_of_some hslot', state?,
      slot?_putSlot_self, Option.map_some, Slot.state, hf, hcorrector, hparameters]

theorem reply_alike (hw : w.sources.Shows scenes) (hw' : w'.sources.Shows scenes)
    (h : slot.corrector.anonymous = slot'.corrector.anonymous) (p : Value α) :
    Reply.Alike (Roster.Level scenes) (w.reply slot p).anonymous (w'.reply slot' p).anonymous := by
  rw [reply, reply, Corrector.correctedRows_anonymous, Corrector.correctedRows_anonymous, h]
  exact slot'.corrector.anonymous.correctedRows_alike (Roster.feed_alike scenes)
    (hw.level_unasked hw') (Direction.ofValue p) 0

theorem answer_response (w : World α) (slot : Slot α) (p : Value α) :
    (w.answer slot p).response.anonymous = .ofResult (w.reply slot p).anonymous.result := by
  simp only [answer, Reply.anonymous]
  cases (w.reply slot p).result <;> rfl

theorem account_correct (hw : w.sources.Shows scenes) (hw' : w'.sources.Shows scenes)
    (hslot : w.slot? n = some slot) (hslot' : w'.slot? n' = some slot')
    (hstate : slot.state = slot'.state) (p : Value α) :
    w.account n (.correct p) = w'.account n' (.correct p) := by
  obtain ⟨hcorrector, hparameters⟩ := Prod.mk.inj hstate
  have hsettings : slot.corrector.settings = slot'.corrector.settings :=
    show slot.corrector.anonymous.settings = slot'.corrector.anonymous.settings by rw [hcorrector]
  obtain ⟨hresult, hafter, hnotes, hsources⟩ := reply_alike hw hw' hcorrector p
  have hnotes : (w.reply slot p).notes = (w'.reply slot' p).notes := hnotes
  have hrequests : (w.reply slot p).sources.requests = (w'.reply slot' p).sources.requests := by
    rw [Roster.requests_eq, Roster.requests_eq]
    exact congrArg _ hsources.log_eq
  have hresponse := w.answer_response slot p
  rw [hresult, ← answer_response] at hresponse
  have hafter : (w.reply slot p).corrector.anonymous = (w'.reply slot' p).corrector.anonymous :=
    hafter
  simp only [account, act, Deed.on, step_correct hslot, step_correct hslot', hresponse]
  simp only [answer, state?, slot?_putSlot_self, Option.map_some, Slot.state, afterwards,
    hsettings, hnotes, hrequests, hafter, hparameters]

theorem account_duplicate (hslot : w.slot? n = some slot) (hslot' : w'.slot? n' = some slot')
    (hstate : slot.state = slot'.state) (target : String) :
    w.account n (.duplicate target) = w'.account n' (.duplicate target) := by
  have hkept : ∀ (v : World α) (m : String) (own : Slot α), v.slot? m = some own →
      (v.act m (.duplicate target)).state? m = some own.state := by
    intro v m own hown
    by_cases htarget : target = m
    · subst htarget
      rw [act, Deed.on, step, duplicate_of_some hown]
      simp [state?, slot?, putSlot, Slot.state, Corrector.anonymous_duplicate]
    · rw [state?_act_of_ne (.duplicate target) (s := m) htarget, state?, hown, Option.map_some]
  simp only [account, hkept w n slot hslot, hkept w' n' slot' hslot', hstate, Deed.on, step,
    duplicate_of_some hslot, duplicate_of_some hslot']

end Alike

theorem account_eq (hw : w.sources.Shows scenes) (hw' : w'.sources.Shows scenes)
    (h : w.state? n = w'.state? n') (d : Deed α) : w.account n d = w'.account n' d := by
  cases d with
  | create parameters => exact account_create w w' n n' parameters
  | associate source =>
    have hknows' : w'.knows source = w.knows source := by rw [knows_eq hw, knows_eq hw']
    cases hknows : w.knows source with
    | true =>
      exact account_of_update (f := (·.associate source)) (fun _ => rfl) h
        (associate_of_knows hknows) (associate_of_knows (hknows'.trans hknows))
    | false =>
      obtain ⟨hslot, hslot'⟩ | ⟨slot, slot', hslot, hslot', -⟩ := slots_of_state?_eq h
      · exact account_of_idle h (associate_of_none hslot source) (associate_of_none hslot' source)
      · exact account_of_idle h (associate_of_not_knows hknows hslot)
          (associate_of_not_knows (hknows'.trans hknows) hslot')
  | notify => exact account_of_update (f := Corrector.notify) (fun _ => rfl) h rfl rfl
  | correct p =>
    obtain ⟨hslot, hslot'⟩ | ⟨slot, slot', hslot, hslot', hstate⟩ := slots_of_state?_eq h
    · exact account_of_idle h (step_correct_of_none hslot p) (step_correct_of_none hslot' p)
    · exact account_correct hw hw' hslot hslot' hstate p
  | duplicate target =>
    obtain ⟨hslot, hslot'⟩ | ⟨slot, slot', hslot, hslot', hstate⟩ := slots_of_state?_eq h
    · exact account_of_idle h (duplicate_of_none hslot target) (duplicate_of_none hslot' target)
    · exact account_duplicate hslot hslot' hstate target

theorem state?_act (hw : w.sources.Shows scenes) (hw' : w'.sources.Shows scenes)
    (h : w.state? n = w'.state? n') (d : Deed α) :
    (w.act n d).state? n = (w'.act n' d).state? n' :=
  congrArg Account.state (account_eq hw hw' h d)

theorem state?_run (hw : w.sources.Shows scenes) (hw' : w'.sources.Shows scenes)
    (h : w.state? n = w'.state? n') (deeds : List (Deed α)) :
    (w.run (deeds.map fun d => (n, d))).state? n =
      (w'.run (deeds.map fun d => (n', d))).state? n' := by
  induction deeds generalizing w w' with
  | nil => exact h
  | cons d rest ih => exact ih (shows_act hw n d) (shows_act hw' n' d) (state?_act hw hw' h d)

theorem state?_duplicate {slot : Slot α} (h : w.slot? s = some slot) (target : String) :
    (w.act s (.duplicate target)).state? target = w.state? s := by
  rw [act, Deed.on, step, duplicate_of_some h, state?, state?, h]
  simp [slot?, putSlot, Slot.state, Corrector.anonymous_duplicate]

/-- The deeds of a lineage, done to its slot and to no other. -/
def replay (w : World α) (l : Lineage α) : World α := w.run (l.deeds.map fun d => (l.slot, d))

section Replay

variable {base : World α} {l : String → Lineage α}

theorem replay_append (base : World α) (l : Lineage α) (d : Deed α) :
    base.replay ⟨l.origin, l.deeds ++ [d]⟩ = (base.replay l).act l.slot d := by
  rw [replay, List.map_append, run_append]
  rfl

theorem state?_inherit (hw : w.sources.Shows scenes) (hbase : base.sources.Shows scenes)
    (h : ∀ n, w.state? n = (base.replay (l n)).state? (l n).slot) (s : String) (d : Deed α)
    (n : String) :
    (w.act s d).state? n =
      (base.replay (w.inherit l s d n)).state? (w.inherit l s d n).slot := by
  -- Of one slot the lineage is another one; the others are left alone.
  have hupdate : ∀ next : Lineage α, w.inherit l s d = Function.update l (d.target s) next →
      (w.act s d).state? (d.target s) = (base.replay next).state? next.slot →
      (w.act s d).state? n =
        (base.replay (w.inherit l s d n)).state? (w.inherit l s d n).slot := by
    intro next hinherit hnext
    rw [hinherit]
    by_cases htarget : d.target s = n
    · subst htarget
      rwa [Function.update_self]
    · rw [state?_act_of_ne d htarget, Function.update_of_ne (Ne.symm htarget), h]
  have hextended : (w.act s d).state? s =
      (base.replay ⟨(l s).origin, (l s).deeds ++ [d]⟩).state? (l s).slot := by
    rw [replay_append]
    exact state?_act hw (shows_run hbase _) (h s) d
  cases d with
  | create parameters =>
    exact hupdate ⟨none, [.create parameters]⟩ rfl
      (congrArg Account.state (account_create w base s "" parameters))
  | associate source => exact hupdate _ rfl hextended
  | notify => exact hupdate _ rfl hextended
  | correct p => exact hupdate _ rfl hextended
  | duplicate target =>
    cases hslot : w.slot? s with
    | none =>
      have hact : w.act s (.duplicate target) = w := by
        rw [act, Deed.on, step, duplicate_of_none hslot]
      rw [hact, inherit, hslot]
      exact h n
    | some slot =>
      refine hupdate (l s) (by simp [inherit, hslot, Deed.target]) ?_
      exact (state?_duplicate hslot target).trans (h s)

theorem state?_lineages (hw : w.sources.Shows scenes) (hbase : base.sources.Shows scenes)
    (h : ∀ n, w.state? n = (base.replay (l n)).state? (l n).slot)
    (steps : List (String × Deed α)) (n : String) :
    (w.run steps).state? n =
      (base.replay (w.lineages l steps n)).state? (w.lineages l steps n).slot := by
  induction steps generalizing w l with
  | nil => exact h n
  | cons step rest ih =>
    exact ih (shows_act hw step.1 step.2) (state?_inherit hw hbase h step.1 step.2)

end Replay

/-- A slot is in the state to which its lineage alone would have brought it. -/
theorem state?_run_eq_replay (hw : w.sources.Shows scenes) (steps : List (String × Deed α))
    (n : String) :
    (w.run steps).state? n = (w.replay (w.lineage steps n)).state? (w.lineage steps n).slot :=
  state?_lineages hw hw (fun _ => rfl) steps n

theorem state?_replay_of_same {x y : String} (hw : w.sources.Shows scenes)
    (hxy : w.state? x = w.state? y) {l l' : Lineage α} (h : l.Same x y l') :
    (w.replay l).state? l.slot = (w.replay l').state? l'.slot := by
  obtain ⟨origin, deeds⟩ := l
  obtain ⟨origin', deeds'⟩ := l'
  obtain ⟨hdeeds, horigin⟩ := h
  obtain rfl : deeds = deeds' := hdeeds
  refine state?_run hw hw ?_ deeds
  obtain rfl | ⟨hx, hy⟩ := horigin
  · rfl
  · simp only [List.mem_cons, List.not_mem_nil, or_false] at hx hy
    obtain rfl | rfl := hx <;> obtain rfl | rfl := hy
    · rfl
    · exact hxy
    · exact hxy.symm
    · rfl

theorem account_eq_of_same {x y : String} (hw : w.sources.Shows scenes)
    (hxy : w.state? x = w.state? y) {steps steps' : List (String × Deed α)}
    (h : (w.lineage steps n).Same x y (w.lineage steps' n')) (d : Deed α) :
    (w.run steps).account n d = (w.run steps').account n' d := by
  refine account_eq (shows_run hw steps) (shows_run hw steps') ?_ d
  rw [state?_run_eq_replay hw, state?_run_eq_replay hw]
  exact state?_replay_of_same hw hxy h

end World

end Coplanar
