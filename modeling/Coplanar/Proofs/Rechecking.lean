import Coplanar.Proofs.Filling
import Coplanar.Proofs.Ranges

/-! Parameters that are checked more than once.  What was given in place of an entry stays as
it was, unless everything passes and the entry is brought to its type; an absent entry gets
its default once its check is reached.  A dictionary that has been accepted is accepted as it
is from then on, unless its tolerance of directions was given in 32 bits: it is compared with
half a turn in 32 bits the first time, and in full the second. -/
namespace Coplanar

namespace Value

section Numeral

variable {α : Type} [Numeral α] {v w : Value α}

theorem exists_ofValue_of_less {t : CellType} {b : Bool}
    (hfrom : (v.isFromArray || w.isFromArray) = true) (hv : v.toGrid = .leaf v)
    (hw : w.toGrid = .leaf w) (ht : commonType v w = .ok t) (htext : t ≠ .text) (hany : t ≠ .any)
    (h : v.less w = .ok b) :
    (∃ x, Cell.ofValue t v = .ok x) ∧ ∃ y, Cell.ofValue t w = .ok y := by
  rw [less_eq_of_common hfrom hv hw ht htext hany] at h
  obtain ⟨x, hx, h⟩ := bind_eq_ok_iff.mp h
  obtain ⟨y, hy, -⟩ := map_eq_ok_iff.mp h
  exact ⟨⟨x, hx⟩, y, hy⟩

end Numeral

variable {v : Value Float}

theorem exists_ofInt_bit (b : Bool) : ∃ x : Float, ofInt (bit b) = .ok x := by
  cases b
  · exact ⟨0, by decide +kernel⟩
  · exact ⟨1, by decide +kernel⟩

theorem exists_toNumber_of_positive {below above : Bool} (hkind : v.isOneOf [.number] = true)
    (hlow : v.less (.double Numeral.tiny) = .ok below)
    (hhigh : (Value.real Numeral.infinity).less v = .ok above) : ∃ x, v.toNumber = .ok x := by
  cases v
  case truth b => exact exists_ofInt_bit b
  case integer | word =>
    obtain ⟨⟨_, hcell⟩, -⟩ := exists_ofValue_of_less (t := .double) rfl rfl rfl rfl (by decide)
      (by decide) hlow
    obtain ⟨x, hx, -⟩ := map_eq_ok_iff.mp hcell
    exact ⟨x, hx⟩
  case real x | double x | single x => exact ⟨x, rfl⟩
  -- Complex numbers are in no order with infinity.
  case complex => cases hhigh
  all_goals cases hkind

theorem exists_toNumber_of_inRange (hkind : v.isOneOf [.number] = true)
    (hlow : v.less (.integer 0) = .ok false)
    (hhigh : (Value.real Scalar.pi).less v = .ok false) : ∃ x, v.toNumber = .ok x := by
  cases v
  case truth b => exact exists_ofInt_bit b
  case integer n =>
    rw [less_integer rfl rfl] at hlow
    have hle : Numeral.compareInt (Scalar.pi : Float) n ≠ some .lt := by
      have hholds : (.ok (Relation.less.holds (Numeral.compareInt (Scalar.pi : Float) n)) :
          Except (Fault Float) Bool) = .ok false := hhigh
      simpa [Relation.holds] using hholds
    obtain ⟨x, hx, -⟩ := ofInt_inRange (by simpa using hlow) hle
    exact ⟨x, hx⟩
  case word n =>
    obtain ⟨-, _, hcell⟩ := exists_ofValue_of_less (t := .double) rfl rfl rfl rfl (by decide)
      (by decide) hhigh
    obtain ⟨x, hx, -⟩ := map_eq_ok_iff.mp hcell
    exact ⟨x, hx⟩
  case real x | double x | single x => exact ⟨x, rfl⟩
  case complex => cases hlow
  all_goals cases hkind

theorem exists_toInt (hkind : v.isOneOf [.whole] = true) : ∃ n, v.toInt = .ok n := by
  cases v
  case truth b => exact ⟨bit b, rfl⟩
  case integer n | word n => exact ⟨n, rfl⟩
  all_goals cases hkind

/-! ### Values of their own type -/

theorem real_less_real (x y : Float) :
    (Value.real x).less (.real y) = .ok (Scalar.less x y) := by
  have hless : (Value.real x).less (.real y) =
      .ok (Relation.less.holds (Amount.orderReals x y)) := rfl
  rw [hless, Amount.orderReals]
  cases Scalar.less x y with
  | true => rfl
  | false =>
    rw [if_neg Bool.false_ne_true]
    split_ifs <;> rfl

theorem infinity_less_real (x : Float) :
    (Value.real Numeral.infinity).less (.real x) = .ok false := by
  rw [real_less_real, Double.less_eq_false_iff.mpr (Double.not_infinity_lt x)]

theorem infinity_less_integer (n : Int) :
    (Value.real (Numeral.infinity : Float)).less (.integer n) = .ok false := by
  have hless : (Value.real (Numeral.infinity : Float)).less (.integer n) =
      .ok (Relation.less.holds ((Double.ofFloat Numeral.infinity).compareInt n)) := rfl
  rw [hless, Double.ofFloat_infinity]
  rfl

theorem real_less_zero {x : Float} (h : ¬ x < 0) :
    (Value.real x).less (.integer 0) = .ok false := by
  have hless : (Value.real x).less (.integer 0) =
      .ok (Relation.less.holds ((Double.ofFloat x).compareInt 0)) := rfl
  have hne := Double.compareInt_zero_of_not_lt h
  rw [hless, Except.ok.injEq]
  simpa [Relation.holds] using hne

end Value

/-! ### Rules of one value -/

namespace Rule

variable {α : Type} [Numeral α] {r : Rule α} {key : String} {v low high : Value α}

theorem valueObjection?_of_kind (hitems : r.ofItems = false) (hallowed : r.allowed = none)
    (hrange : r.range = none) (hkind : v.isOneOf r.kinds = true) :
    r.valueObjection? key v = .ok none := by
  simp only [valueObjection?, hitems, objection?, hkind, hallowed, hrange]
  rfl

theorem valueObjection?_of_range {above : Bool} (hitems : r.ofItems = false)
    (hallowed : r.allowed = none) (hrange : r.range = some (.list [low, high]))
    (hkind : v.isOneOf r.kinds = true) (hlow : v.less low = .ok false)
    (hhigh : high.less v = .ok above) :
    r.valueObjection? key v =
      .ok (if above then some (.notInRange key (.list [low, high])) else none) := by
  have houtside : isOutside (.list [low, high]) v = .ok above := by
    have hitem (i : Nat) (x : Value α) (hx : [low, high][i]? = some x) :
        (Value.list [low, high]).item i = .ok x := by simp [Value.item, Value.items?, hx]
    rw [isOutside, hitem 0 low rfl]
    simp only [bind, Except.bind, hlow, hitem 1 high rfl]
    exact hhigh
  simp only [valueObjection?, hitems, objection?, hkind, hallowed, hrange, houtside]
  cases above <;> rfl

end Rule

namespace Settings

variable {given accepted entries : Dict Float} {settings : Settings Float}

theorem nodup_rules : ((rules (α := Float)).map Prod.fst).Nodup := by decide

/-! ### The defaults -/

def defaults : Dict Float :=
  [(checkResidualKey, .truth true), (predictKey, .truth false), (intervalKey, .real 60.0),
   (maxStepsKey, .integer 1440), (tangentToleranceKey, .real 1e-6), (verboseKey, .truth false)]

theorem default?_eq (name : String) : Rule.default? rules name = Keyed.get? defaults name := by
  have hinterval : (Scalar.natural 60 : Float) = 60.0 := by decide +kernel
  have htolerance : (Scalar.natural 1 / Scalar.natural 1000000 : Float) = 1e-6 := by
    decide +kernel
  simp only [rules, Rule.default?, defaults, Keyed.get?_cons, Keyed.get?_nil, hinterval,
    htolerance, Option.none_or, ite_self, Option.some_or]

theorem default?_reached {reached rest : List (String × Rule Float)}
    (h : rules = reached ++ rest) (name : String) :
    Rule.default? reached name =
      if name ∈ reached.map Prod.fst then Keyed.get? defaults name else none := by
  split_ifs with hname
  · have hnodup := nodup_rules
    rw [h, List.map_append] at hnodup
    have hrest : name ∉ rest.map Prod.fst := fun hmem =>
      List.disjoint_of_nodup_append hnodup hname hmem
    rw [← default?_eq, h, Rule.default?_append, Rule.default?_eq_none hrest, Option.or_none]
  · exact Rule.default?_eq_none hname

/-! ### A dictionary that is accepted -/

theorem exists_passing {key : String} {r : Rule Float}
    (h : (Rule.checkAll rules (.dict given)).result = .ok true) (hmem : (key, r) ∈ rules) :
    ∃ v, Keyed.get? (Rule.fillAll rules given) key = some v ∧ r.passes key v = true := by
  have hverdict := (Rule.checkAll_of_ok nodup_rules h).2.mp rfl (key, r) hmem
  obtain ⟨v, hv⟩ : ∃ v, (Keyed.get? given key).or r.default = some v := by
    cases hget : Keyed.get? given key with
    | some v => exact ⟨v, rfl⟩
    | none =>
      cases hdefault : r.default with
      | some v => exact ⟨v, rfl⟩
      | none => simp [hget, Rule.verdict, hdefault] at hverdict
  refine ⟨v, ?_, passes_of_checked h hmem hv⟩
  rw [Rule.get?_fillAll, default?_rules hmem, hv]

theorem exists_asReal {v : Value Float} (h : ∃ x, v.toNumber = .ok x) : ∃ w, asReal v = .ok w := by
  obtain ⟨x, hx⟩ := h
  exact ⟨.real x, by rw [asReal, hx]; rfl⟩

theorem exists_convertAll_of_checked (h : (Rule.checkAll rules (.dict given)).result = .ok true) :
    ∃ converted, convertAll conversions (.dict (Rule.fillAll rules given)) =
      ⟨.ok (), [], .dict converted⟩ := by
  have hpositive {key : String} {r : Rule Float} (hmem : (key, r) ∈ rules)
      (hkinds : r.kinds = [.number]) (hrange : r.range = some positive) :
      ∃ v w, Keyed.get? (Rule.fillAll rules given) key = some v ∧ asReal v = .ok w := by
    obtain ⟨v, hget, hpasses⟩ := exists_passing h hmem
    obtain ⟨hitems, hallowed⟩ := plain_of_mem hmem
    obtain ⟨hlow, hhigh⟩ := Rule.not_less_of_passes hitems hallowed hrange hpasses
    have hkind := hkinds ▸ Rule.isOneOf_of_passes hitems hpasses
    obtain ⟨w, hw⟩ := exists_asReal (Value.exists_toNumber_of_positive hkind hlow hhigh)
    exact ⟨v, w, hget, hw⟩
  refine exists_convertAll (by decide) ?_
  simp only [conversions, List.forall_mem_cons, List.not_mem_nil, false_imp_iff, implies_true,
    and_true]
  refine ⟨hpositive (List.mem_of_getElem? (i := 0) rfl) rfl rfl,
    hpositive (List.mem_of_getElem? (i := 3) rfl) rfl rfl, ?_, ?_⟩
  · obtain ⟨v, hget, hpasses⟩ := exists_passing h (List.mem_of_getElem? (i := 4) rfl)
    obtain ⟨n, hn⟩ := Value.exists_toInt (Rule.isOneOf_of_passes rfl hpasses)
    exact ⟨v, .integer n, hget, by rw [asWhole, hn]; rfl⟩
  · obtain ⟨v, hget, hpasses⟩ := exists_passing h (List.mem_of_getElem? (i := 5) rfl)
    obtain ⟨hlow, hhigh⟩ := Rule.not_less_of_passes rfl rfl rfl hpasses
    obtain ⟨w, hw⟩ := exists_asReal
      (Value.exists_toNumber_of_inRange (Rule.isOneOf_of_passes rfl hpasses) hlow hhigh)
    exact ⟨v, w, hget, hw⟩

theorem check_dict_cases (given : Dict Float) :
    (∃ fault, (Rule.checkAll rules (.dict given)).result = .error fault ∧
      (check (.dict given)).result = .error fault ∧
      (check (.dict given)).parameters = (Rule.checkAll rules (.dict given)).parameters) ∨
    ((check (.dict given)).result = .ok false ∧
      (check (.dict given)).parameters = .dict (Rule.fillAll rules given)) ∨
    (check (.dict given)).result = .ok true := by
  cases hresult : (Rule.checkAll rules (.dict given)).result with
  | error fault => exact .inl ⟨fault, rfl, by rw [check, Checked.bind_of_error hresult]; simp⟩
  | ok passed =>
    have hfilled := (Rule.checkAll_of_ok nodup_rules hresult).1
    rw [check, Checked.bind_of_ok hresult, hfilled]
    cases passed with
    | false => exact .inr (.inl ⟨rfl, rfl⟩)
    | true =>
      obtain ⟨converted, hconverted⟩ := exists_convertAll_of_checked hresult
      rw [if_pos rfl, hconverted]
      exact .inr (.inr rfl)

structure Bounded (settings : Settings Float) : Prop where
  wTolerance : ¬ settings.wTolerance < Numeral.tiny
  interval : ¬ settings.interval < Numeral.tiny
  maxSteps : 1 ≤ settings.maxSteps
  tangentTolerance : ¬ settings.tangentTolerance < 0

theorem exists_not_lt_tiny {key : String} {r : Rule Float}
    (h : (check (.dict given)).result = .ok true)
    (haccepted : (check (.dict given)).parameters = .dict accepted) (hmem : (key, r) ∈ rules)
    (hkey : (key, asReal) ∈ conversions (α := Float)) (hkinds : r.kinds = [.number])
    (hrange : r.range = some positive) :
    ∃ x, Keyed.get? accepted key = some (.real x) ∧ ¬ x < Numeral.tiny := by
  obtain ⟨v, w, -, hw, hget, hkind, hlow, -⟩ := exists_converted h haccepted hmem hkey hrange
  obtain ⟨x, rfl, hx⟩ := asReal_eq_ok hw
  rw [Value.less_double (hkinds ▸ hkind) hx, Except.ok.injEq, Double.less_eq_false_iff] at hlow
  exact ⟨x, hget, hlow⟩

theorem exists_bounded (h : (check (.dict given)).result = .ok true)
    (haccepted : (check (.dict given)).parameters = .dict accepted)
    (hsingle : ∀ x, Keyed.get? given tangentToleranceKey = some (.single x) →
      Numeral.single x = x) :
    ∃ settings, Entered accepted settings ∧ Bounded settings ∧
      (¬ Scalar.pi < settings.tangentTolerance ↔
        ∀ x, Keyed.get? given tangentToleranceKey = some (.single x) → ¬ Scalar.pi < x) := by
  obtain ⟨wTolerance, hw, hwbound⟩ := exists_not_lt_tiny h haccepted
    (List.mem_of_getElem? (i := 0) rfl) (List.mem_of_getElem? (i := 0) rfl) rfl rfl
  obtain ⟨interval, hi, hibound⟩ := exists_not_lt_tiny h haccepted
    (List.mem_of_getElem? (i := 3) rfl) (List.mem_of_getElem? (i := 1) rfl) rfl rfl
  obtain ⟨maxSteps, hm, hone⟩ := exists_maxSteps h haccepted
  obtain ⟨checkResidual, hr⟩ := exists_truth h haccepted
    (List.mem_of_getElem? (i := 1) rfl) rfl rfl (by decide)
  obtain ⟨predict, hp⟩ := exists_truth h haccepted
    (List.mem_of_getElem? (i := 2) rfl) rfl rfl (by decide)
  obtain ⟨verbose, hv⟩ := exists_truth h haccepted
    (List.mem_of_getElem? (i := 6) rfl) rfl rfl (by decide)
  obtain ⟨v, w, hgiven, hasReal, ht, hkind, hlow, hhigh⟩ := exists_converted h haccepted
    (List.mem_of_getElem? (i := 5) rfl) (List.mem_of_getElem? (i := 3) rfl) rfl
  obtain ⟨tangentTolerance, rfl, hx⟩ := asReal_eq_ok hasReal
  have hiff (x : Float) := single_iff_given (x := x) hgiven
  obtain ⟨hnonneg, hle, -⟩ := Value.inRange_of_not_less hkind hx
    (fun x hsame => hsingle x ((hiff x).mp hsame)) hlow hhigh
  refine ⟨⟨wTolerance, checkResidual, predict, interval, maxSteps, tangentTolerance, verbose⟩,
    ⟨hw, hr, hp, hi, hm, ht, hv⟩, ⟨hwbound, hibound, hone, hnonneg⟩, ?_⟩
  -- A number of 32 bits is compared as it is, any other one as the double that it becomes.
  constructor
  · intro hinside x hgivenSingle
    obtain rfl := (hiff x).mpr hgivenSingle
    cases hx
    exact hinside
  · intro hall
    by_cases hnarrow : ∃ x, v = .single x
    · obtain ⟨x, rfl⟩ := hnarrow
      cases hx
      exact hall _ ((hiff _).mp rfl)
    · exact hle fun x hsame => hnarrow ⟨x, hsame⟩

/-! ### The second check -/

def beyondHalfTurn : Complaint Float :=
  .notInRange tangentToleranceKey (.list [.integer 0, .real Scalar.pi])

/-- Of settings that keep their bounds there is one thing that can still be wrong. -/
def doubt (settings : Settings Float) (rule : String × Rule Float) : Option (Complaint Float) :=
  if rule.1 = tangentToleranceKey ∧ Scalar.less Scalar.pi settings.tangentTolerance = true then
    some beyondHalfTurn
  else none

theorem verdict_of_entered (h : Entered entries settings) (hbounded : Bounded settings) :
    ∀ rule ∈ rules, rule.2.verdict rule.1 (Keyed.get? entries rule.1) =
      .ok (doubt settings rule) := by
  have hless {x : Float} (hx : ¬ x < Numeral.tiny) :
      (Value.real x).less (.double Numeral.tiny) = .ok false := by
    rw [Value.less_double rfl rfl, Double.less_eq_false_iff.mpr hx]
  have hsteps : (Value.integer (settings.maxSteps : Int)).less (.integer 1 : Value Float) =
      .ok false := by
    have hone := hbounded.maxSteps
    rw [Value.less_integer rfl rfl, Except.ok.injEq, decide_eq_false_iff_not]
    omega
  simp only [rules, List.forall_mem_cons, List.not_mem_nil, false_imp_iff, implies_true,
    and_true]
  rw [h.wTolerance, h.checkResidual, h.predict, h.interval, h.maxSteps, h.tangentTolerance,
    h.verbose]
  -- Only the tangent tolerance may still be objected to, for its upper bound.
  refine ⟨?_, ?_, ?_, ?_, ?_, ?_, ?_⟩
  · exact Rule.valueObjection?_of_range rfl rfl rfl rfl (hless hbounded.wTolerance)
      (Value.infinity_less_real _)
  · exact Rule.valueObjection?_of_kind rfl rfl rfl rfl
  · exact Rule.valueObjection?_of_kind rfl rfl rfl rfl
  · exact Rule.valueObjection?_of_range rfl rfl rfl rfl (hless hbounded.interval)
      (Value.infinity_less_real _)
  · exact Rule.valueObjection?_of_range rfl rfl rfl rfl hsteps (Value.infinity_less_integer _)
  · refine (Rule.valueObjection?_of_range rfl rfl rfl rfl
      (Value.real_less_zero hbounded.tangentTolerance) (Value.real_less_real _ _)).trans ?_
    simp only [doubt, true_and]
    rfl
  · exact Rule.valueObjection?_of_kind rfl rfl rfl rfl

theorem check_of_entered (h : Entered entries settings) (hbounded : Bounded settings) :
    check (.dict entries) =
      if Scalar.pi < settings.tangentTolerance then ⟨.ok false, [beyondHalfTurn], .dict entries⟩
      else ⟨.ok true, [], .dict entries⟩ := by
  have hpresent : ∀ rule ∈ rules (α := Float), ∃ v, Keyed.get? entries rule.1 = some v := by
    simp only [rules, List.forall_mem_cons, List.not_mem_nil, false_imp_iff, implies_true,
      and_true]
    exact ⟨⟨_, h.wTolerance⟩, ⟨_, h.checkResidual⟩, ⟨_, h.predict⟩, ⟨_, h.interval⟩,
      ⟨_, h.maxSteps⟩, ⟨_, h.tangentTolerance⟩, ⟨_, h.verbose⟩⟩
  have hchecked := Rule.checkAll_of_verdicts nodup_rules (verdict_of_entered h hbounded)
  rw [Rule.fillAll_of_present hpresent] at hchecked
  split_ifs with hbeyond
  · have hdoubt : doubt settings = fun rule =>
        if rule.1 = tangentToleranceKey then some beyondHalfTurn else none := by
      funext rule
      simp [doubt, Double.less_iff.mpr hbeyond]
    rw [hdoubt] at hchecked
    rw [check, hchecked]
    rfl
  · have hdoubt : doubt settings = fun _ => none := by
      funext rule
      simp [doubt, Double.less_eq_false_iff.mpr hbeyond]
    rw [hdoubt] at hchecked
    have hfixed : convertAll conversions (.dict entries) = ⟨.ok (), [], .dict entries⟩ := by
      refine convertAll_of_fixed ?_
      simp only [conversions, List.forall_mem_cons, List.not_mem_nil, false_imp_iff,
        implies_true, and_true]
      exact ⟨⟨_, h.wTolerance, rfl⟩, ⟨_, h.interval, rfl⟩, ⟨_, h.maxSteps, rfl⟩,
        ⟨_, h.tangentTolerance, rfl⟩⟩
    rw [check, hchecked]
    change Checked.bind (convertAll conversions (.dict entries)) _ = _
    rw [hfixed]
    rfl

/-! ### What becomes of what was given -/

/-- The accepted dictionary is the given one with the defaults it lacks, the entries that are
converted being what they were as numbers. -/
structure Completes (given accepted : Dict Float) : Prop where
  real : ∀ key ∈ [wToleranceKey, intervalKey, tangentToleranceKey],
    ∃ v x, (Keyed.get? given key).or (Keyed.get? defaults key) = some v ∧ v.toNumber = .ok x ∧
      Keyed.get? accepted key = some (.real x)
  whole : ∃ v n, (Keyed.get? given maxStepsKey).or (Keyed.get? defaults maxStepsKey) = some v ∧
    v.toInt = .ok n ∧ Keyed.get? accepted maxStepsKey = some (.integer n)
  kept : ∀ name, name ∉ [wToleranceKey, intervalKey, tangentToleranceKey, maxStepsKey] →
    Keyed.get? accepted name = (Keyed.get? given name).or (Keyed.get? defaults name)

theorem completes_of_accepted (h : (check (.dict given)).result = .ok true)
    (haccepted : (check (.dict given)).parameters = .dict accepted) :
    Completes given accepted := by
  obtain ⟨_, _, hdict, hconverted, hkept, hentries⟩ := check_eq_ok h
  cases hdict
  cases haccepted.symm.trans hconverted
  simp only [default?_eq] at hkept hentries
  have hreal {key : String} (hmem : (key, asReal) ∈ conversions (α := Float)) :
      ∃ v x, (Keyed.get? given key).or (Keyed.get? defaults key) = some v ∧
        v.toNumber = .ok x ∧ Keyed.get? accepted key = some (.real x) := by
    obtain ⟨v, w, hv, hw, hget⟩ := hentries key asReal hmem
    obtain ⟨x, rfl, hx⟩ := asReal_eq_ok hw
    exact ⟨v, x, hv, hx, hget⟩
  refine ⟨?_, ?_, fun name hname => hkept name ?_⟩
  · simp only [List.forall_mem_cons, List.not_mem_nil, false_imp_iff, implies_true, and_true]
    exact ⟨hreal (List.mem_of_getElem? (i := 0) rfl), hreal (List.mem_of_getElem? (i := 1) rfl),
      hreal (List.mem_of_getElem? (i := 3) rfl)⟩
  · obtain ⟨v, w, hv, hw, hget⟩ := hentries maxStepsKey asWhole (List.mem_of_getElem? (i := 2) rfl)
    obtain ⟨n, rfl, hn⟩ := asWhole_eq_ok hw
    exact ⟨v, n, hv, hn, hget⟩
  · simp only [conversions, List.map_cons, List.map_nil, List.mem_cons, List.not_mem_nil] at hname ⊢
    tauto

/-- A check spares what was given.  What is accepted has the entries that are converted brought
to their types, and is accepted as it is from then on, unless its tolerance of directions was
given in 32 bits and is beyond half a turn.  What is refused has all defaults that it lacked.
What makes a check fault has the defaults of those before it. -/
theorem check_spares_given (given : Dict Float)
    (hsingle : ∀ x, Keyed.get? given tangentToleranceKey = some (.single x) →
      Numeral.single x = x) :
    ∃ after, (check (.dict given)).parameters = .dict after ∧
      match (check (.dict given)).result with
      | .ok true => Completes given after ∧
          (check (.dict after) = ⟨.ok true, [], .dict after⟩ ↔
            ∀ x, Keyed.get? given tangentToleranceKey = some (.single x) → ¬ Scalar.pi < x)
      | .ok false => ∀ name,
          Keyed.get? after name = (Keyed.get? given name).or (Keyed.get? defaults name)
      | .error fault => ∃ reached key r rest v, rules = reached ++ (key, r) :: rest ∧
          Keyed.get? given key = some v ∧ r.valueObjection? key v = .error fault ∧
          ∀ name, Keyed.get? after name = (Keyed.get? given name).or
            (if name ∈ reached.map Prod.fst then Keyed.get? defaults name else none) := by
  obtain ⟨fault, hfault, hresult, hparameters⟩ | ⟨hresult, hparameters⟩ | hresult :=
    check_dict_cases given
  · obtain ⟨reached, key, r, rest, v, hrules, hget, hobjection, hfilled⟩ :=
      Rule.checkAll_of_error nodup_rules hfault
    rw [hresult]
    refine ⟨_, hparameters.trans hfilled, reached, key, r, rest, v, hrules, hget, hobjection, ?_⟩
    intro name
    rw [Rule.get?_fillAll, default?_reached hrules]
  · rw [hresult]
    refine ⟨_, hparameters, fun name => ?_⟩
    rw [Rule.get?_fillAll, default?_eq]
  · obtain ⟨_, after, hdict, haccepted, -⟩ := check_eq_ok hresult
    rw [hresult]
    obtain ⟨settings, hentered, hbounded, hinside⟩ := exists_bounded hresult haccepted hsingle
    refine ⟨after, haccepted, completes_of_accepted hresult haccepted, ?_⟩
    rw [← hinside, check_of_entered hentered hbounded]
    split_ifs with hbeyond <;> simp [hbeyond]

def brief : Dict Float := [(wToleranceKey, .integer 1), (tangentToleranceKey, .single 0.5)]

def untruth : Dict Float := [(tangentToleranceKey, .single 0.5), (wToleranceKey, .truth false)]

def unordered : Dict Float := (intervalKey, .complex 60 1) :: brief

theorem check_spares_given_brief :
    (∃ after, (check (.dict brief)).result = .ok true ∧
      (check (.dict brief)).parameters = .dict after ∧ Completes brief after ∧
      check (.dict after) = ⟨.ok true, [], .dict after⟩) ∧
    (∃ after, (check (.dict untruth)).result = .ok false ∧
      (check (.dict untruth)).parameters = .dict after ∧
      ∀ name, Keyed.get? after name = (Keyed.get? untruth name).or (Keyed.get? defaults name)) ∧
    ∃ after reached key r rest v, (check (.dict unordered)).result = .error .wrongType ∧
      (check (.dict unordered)).parameters = .dict after ∧ rules = reached ++ (key, r) :: rest ∧
      Keyed.get? unordered key = some v ∧ r.valueObjection? key v = .error .wrongType ∧
      ∀ name, Keyed.get? after name = (Keyed.get? unordered name).or
        (if name ∈ reached.map Prod.fst then Keyed.get? defaults name else none) := by
  have hhalf (x : Float) (hx : some (.single 0.5) = some (Value.single x)) :
      Numeral.single x = x ∧ ¬ Scalar.pi < x := by
    cases hx
    decide +kernel
  have hbrief : (check (.dict brief)).result = .ok true := by decide +kernel
  have huntruth : (check (.dict untruth)).result = .ok false := by decide +kernel
  have hunordered : (check (.dict unordered)).result = .error .wrongType := by decide +kernel
  have haccepted := check_spares_given brief fun x hx => (hhalf x hx).1
  have hrefused := check_spares_given untruth fun x hx => (hhalf x hx).1
  have hfaulty := check_spares_given unordered fun x hx => (hhalf x hx).1
  rw [hbrief] at haccepted
  rw [huntruth] at hrefused
  rw [hunordered] at hfaulty
  obtain ⟨after, hafter, hcompletes, hagain⟩ := haccepted
  obtain ⟨after', hafter', hfilled⟩ := hrefused
  obtain ⟨after'', hafter'', reached, key, r, rest, v, hreached⟩ := hfaulty
  exact ⟨⟨after, hbrief, hafter, hcompletes, hagain.mpr fun x hx => (hhalf x hx).2⟩,
    ⟨after', huntruth, hafter', hfilled⟩,
    ⟨after'', reached, key, r, rest, v, hunordered, hafter'', hreached⟩⟩

/-- Half a turn in 32 bits is accepted, and refused once it is a number of its own. -/
theorem accepted_refused_again :
    (check halfTurnTolerance).result = .ok true ∧
      (check (check halfTurnTolerance).parameters).result = .ok false ∧
      (check (check halfTurnTolerance).parameters).complaints.length = 1 := by
  decide +kernel

end Settings

end Coplanar
