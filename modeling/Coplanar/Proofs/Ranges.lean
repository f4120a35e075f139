import Coplanar.Proofs.Acceptance
import Coplanar.Proofs.Doubles

/-! What an accepted dictionary says of the settings.  An entry that passes is of a kind that
its rule names and is not outside of its range, in the format in which values of its kind
are compared.  What it is converted to keeps the bounds of the range, unless it is missing,
since a missing value is outside of no range, or was compared in the narrower format. -/
namespace Coplanar

/-! ### Comparisons of single values -/

namespace Value

section Numeral

variable {α : Type} [Numeral α] {v w : Value α} {x : α}

theorem less_eq_of_common {t : CellType} (hfrom : (v.isFromArray || w.isFromArray) = true)
    (hv : v.toGrid = .leaf v) (hw : w.toGrid = .leaf w) (ht : commonType v w = .ok t)
    (htext : t ≠ .text) (hany : t ≠ .any) :
    v.less w = (Cell.ofValue t v).bind fun a =>
      (Cell.ofValue t w).map fun b => Cell.holds .less a b := by
  have hgrid {u : Value α} (hu : u.toGrid = .leaf u) : u.grid = .ok (.leaf u) := by
    rw [grid, hu]
    rfl
  have hless : v.less w = oneAnswer .less v w := by cases v <;> simp_all [less, toGrid]
  -- Arrays without axes meet in one pair.
  have hpairs (a b : Cell α) : pairsOf (α := α) (.leaf a) (.leaf b) = .ok [(a, b)] := rfl
  rw [hless, oneAnswer, if_pos hfrom, arrayRelation, hgrid hv, hgrid hw, ht]
  cases ha : Cell.ofValue t v <;> cases hb : Cell.ofValue t w <;> cases t <;>
    simp_all [bind, Except.bind, Nested.convert, Except.map, pure, Except.pure, onlyAnswer]

theorem less_of_common {t : CellType} {a b : Cell α}
    (hfrom : (v.isFromArray || w.isFromArray) = true)
    (hv : v.toGrid = .leaf v) (hw : w.toGrid = .leaf w) (ht : commonType v w = .ok t)
    (ha : Cell.ofValue t v = .ok a) (hb : Cell.ofValue t w = .ok b)
    (htext : t ≠ .text) (hany : t ≠ .any) :
    v.less w = .ok (Cell.holds .less a b) := by
  rw [less_eq_of_common hfrom hv hw ht htext hany, ha, hb]
  rfl

theorem ofInt_eq_ok {n : Int} (h : ofInt n = .ok x) : Numeral.ofInt? n = some x := by
  unfold ofInt at h
  split at h
  · rename_i hsome
    rw [hsome, Except.ok.inj h]
  · cases h

theorem ofValue_double (hx : v.toNumber = .ok x) :
    Cell.ofValue .double v = .ok (.number x 0) := by
  cases v
  case complex => cases hx
  all_goals simp [Cell.ofValue, CellType.isWhole, CellType.isNarrow, hx, Except.map]

theorem ofValue_single (hx : v.toNumber = .ok x) :
    Cell.ofValue .single v = .ok (.number (Numeral.single x) 0) := by
  cases v
  case complex => cases hx
  all_goals simp [Cell.ofValue, CellType.isWhole, CellType.isNarrow, hx, Except.map]

theorem less_integer {m : Int} (hkind : v.isOneOf [.whole] = true) (hm : v.toInt = .ok m)
    (n : Int) : v.less (.integer n) = .ok (decide (m < n)) := by
  have hholds : Relation.less.holds (some (compare m n)) = decide (m < n) := by
    rw [Bool.eq_iff_iff, decide_eq_true_iff, ← Int.compare_eq_lt, Relation.holds, beq_iff_eq,
      Option.some_inj]
  cases v
  case truth | integer =>
    obtain rfl := Except.ok.inj hm
    exact congrArg _ hholds
  case word k =>
    obtain rfl := Except.ok.inj hm
    have htype : commonType (.word k) (.integer n : Value α) = .ok .word := rfl
    rw [less_of_common rfl rfl rfl htype rfl rfl (by decide) (by decide)]
    exact congrArg _ hholds
  all_goals cases hkind

end Numeral

variable {v w : Value Float} {x y : Float}

theorem holds_less_number (x y : Float) :
    Cell.holds .less (.number x Zero.zero) (.number y Zero.zero) = Scalar.less x y := by
  have hmissing : Scalar.isMissing (Zero.zero : Float) = false := by decide +kernel
  have hless : Scalar.less (Zero.zero : Float) Zero.zero = false := by decide +kernel
  rw [Cell.holds, hmissing, hless]
  simp

theorem less_doubles (hfrom : (v.isFromArray || w.isFromArray) = true)
    (hv : v.toGrid = .leaf v) (hw : w.toGrid = .leaf w) (ht : commonType v w = .ok .double)
    (hx : v.toNumber = .ok x) (hy : w.toNumber = .ok y) : v.less w = .ok (Scalar.less x y) :=
  (less_of_common hfrom hv hw ht (ofValue_double hx) (ofValue_double hy) (by decide)
    (by decide)).trans (congrArg _ (holds_less_number x y))

/-- Beside a number of 32 bits from an array both are narrowed, if the other is from none. -/
theorem less_singles (hfrom : (v.isFromArray || w.isFromArray) = true)
    (hv : v.toGrid = .leaf v) (hw : w.toGrid = .leaf w) (ht : commonType v w = .ok .single)
    (hx : v.toNumber = .ok x) (hy : w.toNumber = .ok y) :
    v.less w = .ok (Scalar.less (Numeral.single x) (Numeral.single y)) :=
  (less_of_common hfrom hv hw ht (ofValue_single hx) (ofValue_single hy) (by decide)
    (by decide)).trans (congrArg _ (holds_less_number _ _))

theorem less_double (hkind : v.isOneOf [.number] = true) (hx : v.toNumber = .ok x)
    (limit : Float) : v.less (.double limit) = .ok (Scalar.less x limit) := by
  cases v
  case truth | integer | word | real | double | single =>
    exact less_doubles (by simp [isFromArray]) rfl rfl rfl hx rfl
  case complex => cases hx
  all_goals cases hkind

theorem ofInt_inRange {n : Int} (hlow : 0 ≤ n)
    (hhigh : Numeral.compareInt (Scalar.pi : Float) n ≠ some .lt) :
    ∃ x : Float, ofInt n = .ok x ∧ ¬ x < 0 ∧ ¬ Scalar.pi < x := by
  have hpi : Double.ofFloat (Scalar.pi : Float) = .finite false 7074237752028440 (-51) := by
    decide +kernel
  have hle : n ≤ 3 := by
    by_contra hgt
    apply hhigh
    show (Double.ofFloat (Scalar.pi : Float)).compareInt n = _
    rw [hpi]
    show some (compare (7074237752028440 : Int) (n * 2251799813685248)) = _
    rw [Int.compare_eq_lt.mpr (by omega)]
  -- Half a turn is between three and four.
  obtain rfl | rfl | rfl | rfl : n = 0 ∨ n = 1 ∨ n = 2 ∨ n = 3 := by omega
  · exact ⟨0, by decide +kernel⟩
  · exact ⟨1, by decide +kernel⟩
  · exact ⟨2, by decide +kernel⟩
  · exact ⟨3, by decide +kernel⟩

/-- What is not outside of the range from zero to half a turn.  A number of 32 bits is compared
with half a turn narrowed to 32 bits, and all others with half a turn itself. -/
theorem inRange_of_not_less (hkind : v.isOneOf [.number] = true) (hx : v.toNumber = .ok x)
    (hsingle : ∀ y, v = .single y → Numeral.single y = y)
    (hlow : v.less (.integer 0) = .ok false) (hhigh : (Value.real Scalar.pi).less v = .ok false) :
    ¬ x < 0 ∧ ((∀ y, v ≠ .single y) → ¬ Scalar.pi < x) ∧
      ∀ y, v = .single y → ¬ Numeral.single Scalar.pi < y := by
  have hholds {o : Option Ordering}
      (h : (.ok (Relation.less.holds o) : Except (Fault Float) Bool) = .ok false) :
      o ≠ some .lt := by simpa [Relation.holds] using h
  cases v
  case truth | integer =>
    -- Both bounds are compared exactly.
    rw [less_integer rfl rfl] at hlow
    obtain ⟨_, hy, hnonneg, hle⟩ := ofInt_inRange (by simpa using hlow) (hholds hhigh)
    cases hx.symm.trans hy
    exact ⟨hnonneg, fun _ => hle, fun y hy => by cases hy⟩
  case word n =>
    -- Zero is a whole number like `n`, but beside half a turn `n` is a double.
    rw [less_integer rfl rfl] at hlow
    rw [less_doubles rfl rfl rfl rfl rfl hx, Except.ok.injEq, Double.less_eq_false_iff] at hhigh
    have hnonneg := Double.not_lt_zero_of_ofInt? (by simpa using hlow) (ofInt_eq_ok hx)
    exact ⟨hnonneg, fun _ => hhigh, fun y hy => by cases hy⟩
  case real =>
    -- The exact comparison with zero tells the sign.
    obtain rfl := Except.ok.inj hx
    have hnonneg := Double.not_lt_zero_of_compareInt (hholds hlow)
    refine ⟨hnonneg, fun _ hlt => ?_, fun y hy => by cases hy⟩
    exact hholds hhigh (if_pos (Double.less_iff.mpr hlt))
  case double =>
    obtain rfl := Except.ok.inj hx
    rw [less_doubles rfl rfl rfl rfl rfl rfl, Except.ok.injEq, Double.less_eq_false_iff]
      at hlow hhigh
    exact ⟨hlow, fun _ => hhigh, fun y hy => by cases hy⟩
  case single z =>
    obtain rfl := Except.ok.inj hx
    rw [less_singles rfl rfl rfl rfl rfl rfl, Except.ok.injEq, Double.less_eq_false_iff,
      hsingle _ rfl] at hlow hhigh
    -- Zero is a number of 32 bits, half a turn is not.
    refine ⟨hlow, fun hnone => absurd rfl (hnone z), fun y hy => ?_⟩
    cases hy
    exact hhigh
  case complex => cases hx
  all_goals cases hkind

theorem pos_iff_of_not_less (hkind : v.isOneOf [.number] = true) (hx : v.toNumber = .ok x)
    (hlow : v.less (.double Numeral.tiny) = .ok false) : 0 < x ↔ x.isNaN = false := by
  rw [less_double hkind hx, Except.ok.injEq, Double.less_eq_false_iff] at hlow
  constructor
  · intro hpos
    exact (Double.isNaN_of_lt hpos).2
  · intro hpresent
    exact Double.pos_of_not_lt hpresent (by decide +kernel) hlow

end Value

/-! ### Entries that pass -/

namespace Rule

section Numeral

variable {α : Type} [Numeral α] {r : Rule α} {key : String} {entries : Dict α}
  {v low high : Value α}

def passes (r : Rule α) (key : String) (v : Value α) : Bool :=
  match r.valueObjection? key v with
  | .ok none => true
  | _ => false

theorem passes_iff : r.passes key v = true ↔ r.valueObjection? key v = .ok none := by
  unfold passes
  split <;> simp_all

theorem not_less_of_isOutside (h : isOutside (.list [low, high]) v = .ok false) :
    v.less low = .ok false ∧ high.less v = .ok false := by
  unfold isOutside at h
  obtain ⟨_, hitem, h⟩ := bind_eq_ok_iff.mp h
  cases hitem
  obtain ⟨below, hbelow, h⟩ := bind_eq_ok_iff.mp h
  cases below with
  | true => cases h
  | false => exact ⟨hbelow, h⟩

theorem isOneOf_of_passes (hitems : r.ofItems = false) (h : r.passes key v = true) :
    v.isOneOf r.kinds = true := by
  simp only [passes_iff, valueObjection?, hitems, objection?] at h
  cases hkind : v.isOneOf r.kinds with
  | true => rfl
  | false =>
    rw [hkind] at h
    cases h

theorem not_less_of_passes (hitems : r.ofItems = false) (hallowed : r.allowed = none)
    (hrange : r.range = some (.list [low, high])) (h : r.passes key v = true) :
    v.less low = .ok false ∧ high.less v = .ok false := by
  have hkind := isOneOf_of_passes hitems h
  simp only [passes_iff, valueObjection?, hitems, objection?, hkind, hallowed, hrange] at h
  obtain ⟨outside, hout, h⟩ := bind_eq_ok_iff.mp h
  cases outside with
  | true => cases h
  | false => exact not_less_of_isOutside hout

theorem passes_of_check (hget : Keyed.get? entries key = some v)
    (h : (r.check key (.dict entries)).result = .ok true) :
    r.passes key v = true := by
  have hhas : (Value.dict entries).hasEntry key = .ok true := by
    rw [Value.hasEntry_dict, hget]
    rfl
  have hentry : (Value.dict entries).entry key = .ok v := by rw [Value.entry, hget]
  simp only [check, hhas, hentry, Except.bind] at h
  rw [passes_iff]
  cases hobjection : r.valueObjection? key v with
  | error fault => simp [hobjection] at h
  | ok found => cases found <;> simp_all

theorem passes_of_checkAll {rules : List (String × Rule α)} (hmem : (key, r) ∈ rules)
    (hget : Keyed.get? entries key = some v)
    (h : (checkAll rules (.dict entries)).result = .ok true) :
    r.passes key v = true := by
  induction rules generalizing entries with
  | nil => cases hmem
  | cons first rest ih =>
    obtain ⟨hfirst, hrest, -⟩ := checkAll_cons_passed h
    obtain rfl | htail := List.mem_cons.mp hmem
    · exact passes_of_check hget hfirst
    · -- What the first check fills in was not given.
      obtain ⟨_, filled, hdict, hfilled, hkept⟩ := check_passed hfirst
      cases hdict
      rw [hfilled] at hrest
      exact ih htail (by rw [hkept, hget, Option.some_or]) hrest

end Numeral

end Rule

namespace Settings

theorem default_passes {key : String} {r : Rule Float} {v : Value Float} (hmem : (key, r) ∈ rules)
    (hdefault : r.default = some v) : r.passes key v = true := by
  have hall : (rules (α := Float)).all (fun (key, r) => r.default.all (r.passes key)) = true := by
    decide +kernel
  simpa [hdefault] using List.all_eq_true.mp hall _ hmem

theorem passes_of_checked {entries : Dict Float} {key : String} {r : Rule Float} {v : Value Float}
    (h : (Rule.checkAll rules (.dict entries)).result = .ok true) (hmem : (key, r) ∈ rules)
    (hv : (Keyed.get? entries key).or r.default = some v) : r.passes key v = true := by
  cases hgiven : Keyed.get? entries key with
  | none =>
    rw [hgiven, Option.none_or] at hv
    exact default_passes hmem hv
  | some given =>
    rw [hgiven, Option.some_or] at hv
    cases hv
    exact Rule.passes_of_checkAll hmem hgiven h

theorem passes_of_accepted {entries : Dict Float} {key : String} {r : Rule Float}
    {v : Value Float} (h : (check (.dict entries)).result = .ok true) (hmem : (key, r) ∈ rules)
    (hv : (Keyed.get? entries key).or r.default = some v) : r.passes key v = true := by
  obtain ⟨passed, hchecked, hconverted, -⟩ := Checked.bind_eq_ok h
  cases passed with
  | false => cases hconverted
  | true => exact passes_of_checked hchecked hmem hv

structure Entered {α : Type} (entries : Dict α) (settings : Settings α) : Prop where
  wTolerance : Keyed.get? entries wToleranceKey = some (.real settings.wTolerance)
  checkResidual : Keyed.get? entries checkResidualKey = some (.truth settings.checkResidual)
  predict : Keyed.get? entries predictKey = some (.truth settings.predict)
  interval : Keyed.get? entries intervalKey = some (.real settings.interval)
  maxSteps : Keyed.get? entries maxStepsKey = some (.integer settings.maxSteps)
  tangentTolerance :
    Keyed.get? entries tangentToleranceKey = some (.real settings.tangentTolerance)
  verbose : Keyed.get? entries verboseKey = some (.truth settings.verbose)

theorem truth_of_isOneOf {α : Type} {v : Value α} (h : v.isOneOf [.truth] = true) :
    ∃ b, v = .truth b := by
  cases v
  case truth b => exact ⟨b, rfl⟩
  all_goals cases h

theorem default?_rules {α : Type} [Numeral α] {key : String} {r : Rule α}
    (hmem : (key, r) ∈ rules) : Rule.default? rules key = r.default := by
  simp only [rules, List.mem_cons, List.not_mem_nil, or_false, Prod.mk.injEq] at hmem
  rcases hmem with ⟨rfl, rfl⟩ | ⟨rfl, rfl⟩ | ⟨rfl, rfl⟩ | ⟨rfl, rfl⟩ | ⟨rfl, rfl⟩ | ⟨rfl, rfl⟩ |
    ⟨rfl, rfl⟩
  all_goals rfl

theorem plain_of_mem {α : Type} [Numeral α] {key : String} {r : Rule α}
    (hmem : (key, r) ∈ rules) : r.ofItems = false ∧ r.allowed = none := by
  simp only [rules, List.mem_cons, List.not_mem_nil, or_false, Prod.mk.injEq] at hmem
  rcases hmem with ⟨-, rfl⟩ | ⟨-, rfl⟩ | ⟨-, rfl⟩ | ⟨-, rfl⟩ | ⟨-, rfl⟩ | ⟨-, rfl⟩ | ⟨-, rfl⟩
  all_goals exact ⟨rfl, rfl⟩

section Entries

variable {given accepted : Dict Float} {key : String} {r : Rule Float} {low high : Value Float}

theorem exists_truth (h : (check (.dict given)).result = .ok true)
    (haccepted : (check (.dict given)).parameters = .dict accepted) (hmem : (key, r) ∈ rules)
    (hkinds : r.kinds = [.truth]) (hdefault : r.default.isSome = true)
    (hkey : key ∉ (conversions (α := Float)).map Prod.fst) :
    ∃ b, Keyed.get? accepted key = some (.truth b) := by
  obtain ⟨_, _, hdict, hconverted, hkept, -⟩ := check_eq_ok h
  cases hdict
  cases haccepted.symm.trans hconverted
  obtain ⟨d, hd⟩ := Option.isSome_iff_exists.mp hdefault
  obtain ⟨v, hv⟩ : ∃ v, (Keyed.get? given key).or r.default = some v := by
    cases Keyed.get? given key <;> simp [hd]
  have hkind := Rule.isOneOf_of_passes (plain_of_mem hmem).1 (passes_of_accepted h hmem hv)
  obtain ⟨b, rfl⟩ := truth_of_isOneOf (hkinds ▸ hkind)
  exact ⟨b, by rw [hkept key hkey, default?_rules hmem, hv]⟩

theorem exists_converted {convert : Value Float → Except (Fault Float) (Value Float)}
    (h : (check (.dict given)).result = .ok true)
    (haccepted : (check (.dict given)).parameters = .dict accepted) (hmem : (key, r) ∈ rules)
    (hkey : (key, convert) ∈ conversions) (hrange : r.range = some (.list [low, high])) :
    ∃ v w, (Keyed.get? given key).or r.default = some v ∧ convert v = .ok w ∧
      Keyed.get? accepted key = some w ∧ v.isOneOf r.kinds = true ∧
      v.less low = .ok false ∧ high.less v = .ok false := by
  obtain ⟨_, _, hdict, hconverted, -, hentries⟩ := check_eq_ok h
  cases hdict
  cases haccepted.symm.trans hconverted
  obtain ⟨v, w, hv, hw, hget⟩ := hentries key convert hkey
  rw [default?_rules hmem] at hv
  have hpasses := passes_of_accepted h hmem hv
  obtain ⟨hitems, hallowed⟩ := plain_of_mem hmem
  exact ⟨v, w, hv, hw, hget, Rule.isOneOf_of_passes hitems hpasses,
    Rule.not_less_of_passes hitems hallowed hrange hpasses⟩

theorem exists_positive (h : (check (.dict given)).result = .ok true)
    (haccepted : (check (.dict given)).parameters = .dict accepted) (hmem : (key, r) ∈ rules)
    (hkey : (key, asReal) ∈ conversions (α := Float)) (hkinds : r.kinds = [.number])
    (hrange : r.range = some positive) :
    ∃ x, Keyed.get? accepted key = some (.real x) ∧ (0 < x ↔ x.isNaN = false) := by
  obtain ⟨v, w, -, hw, hget, hkind, hlow, -⟩ :=
    exists_converted h haccepted hmem hkey hrange
  obtain ⟨x, rfl, hx⟩ := asReal_eq_ok hw
  exact ⟨x, hget, Value.pos_iff_of_not_less (hkinds ▸ hkind) hx hlow⟩

theorem toNumber_of_accepted {v : Value Float} {x : Float}
    (h : (check (.dict given)).result = .ok true)
    (haccepted : (check (.dict given)).parameters = .dict accepted)
    (hgiven : Keyed.get? given key = some v) (hx : Keyed.get? accepted key = some (.real x)) :
    v.toNumber = .ok x := by
  obtain ⟨_, _, hdict, hconverted, hkept, hentries⟩ := check_eq_ok h
  cases hdict
  cases haccepted.symm.trans hconverted
  by_cases hkey : key ∈ (conversions (α := Float)).map Prod.fst
  · obtain ⟨⟨_, convert⟩, hmem, rfl⟩ := List.mem_map.mp hkey
    obtain ⟨_, w, hv, hw, hget⟩ := hentries _ convert hmem
    rw [hgiven, Option.some_or] at hv
    cases hv
    cases hget.symm.trans hx
    have hconvert : convert = asReal ∨ convert = asWhole := by
      simp only [conversions, List.mem_cons, List.not_mem_nil, or_false, Prod.mk.injEq] at hmem
      tauto
    obtain rfl | rfl := hconvert
    · obtain ⟨_, hreal, hy⟩ := asReal_eq_ok hw
      cases hreal
      exact hy
    · obtain ⟨_, hwhole, -⟩ := asWhole_eq_ok hw
      cases hwhole
  · rw [hkept key hkey, hgiven, Option.some_or] at hx
    cases hx
    rfl

theorem exists_maxSteps (h : (check (.dict given)).result = .ok true)
    (haccepted : (check (.dict given)).parameters = .dict accepted) :
    ∃ n : Nat, Keyed.get? accepted maxStepsKey = some (.integer n) ∧ 1 ≤ n := by
  obtain ⟨v, w, -, hw, hget, hkind, hlow, -⟩ := exists_converted h haccepted
    (List.mem_of_getElem? (i := 4) rfl) (List.mem_of_getElem? (i := 2) rfl) rfl
  obtain ⟨n, rfl, hn⟩ := asWhole_eq_ok hw
  rw [Value.less_integer hkind hn] at hlow
  have hone : 1 ≤ n := by simpa using hlow
  exact ⟨n.toNat, by rw [hget, Int.toNat_of_nonneg (by omega)], by omega⟩

theorem single_iff_given {v : Value Float} {x y : Float}
    (hv : (Keyed.get? given key).or (some (.real y)) = some v) :
    v = .single x ↔ Keyed.get? given key = some (.single x) := by
  cases hentry : Keyed.get? given key with
  | none =>
    rw [hentry, Option.none_or] at hv
    cases hv
    simp
  | some entry =>
    rw [hentry, Option.some_or] at hv
    cases hv
    simp

theorem exists_tangentTolerance (h : (check (.dict given)).result = .ok true)
    (haccepted : (check (.dict given)).parameters = .dict accepted)
    (hsingle : ∀ x, Keyed.get? given tangentToleranceKey = some (.single x) →
      Numeral.single x = x) :
    ∃ t, Keyed.get? accepted tangentToleranceKey = some (.real t) ∧
      (0 ≤ t ∧ t ≤ Scalar.pi ↔ t.isNaN = false ∧
        ∀ x, Keyed.get? given tangentToleranceKey = some (.single x) → ¬ Scalar.pi < x) ∧
      ∀ x, Keyed.get? given tangentToleranceKey = some (.single x) →
        ¬ Numeral.single Scalar.pi < x := by
  obtain ⟨v, w, hv, hw, hget, hkind, hlow, hhigh⟩ := exists_converted h haccepted
    (List.mem_of_getElem? (i := 5) rfl) (List.mem_of_getElem? (i := 3) rfl) rfl
  obtain ⟨t, rfl, ht⟩ := asReal_eq_ok hw
  have hgiven (x : Float) := single_iff_given (x := x) hv
  obtain ⟨hnonneg, hle, hbeyond⟩ := Value.inRange_of_not_less hkind ht
    (fun y hy => hsingle y ((hgiven y).mp hy)) hlow hhigh
  have hpi : (Scalar.pi : Float).isNaN = false := by decide +kernel
  refine ⟨t, hget, ⟨?_, ?_⟩, fun x hx => hbeyond x ((hgiven x).mpr hx)⟩
  · rintro ⟨-, hinside⟩
    have hpresent := (Double.isNaN_of_le hinside).1
    refine ⟨hpresent, fun x hx => ?_⟩
    obtain rfl := (hgiven x).mpr hx
    obtain rfl := Except.ok.inj ht
    exact (Double.not_lt_iff hpi hpresent).mpr hinside
  · rintro ⟨hpresent, hnotBeyond⟩
    refine ⟨(Double.not_lt_iff hpresent rfl).mp hnonneg, (Double.not_lt_iff hpi hpresent).mp ?_⟩
    by_cases hkindOf : ∃ y, v = .single y
    · obtain ⟨y, rfl⟩ := hkindOf
      obtain rfl := Except.ok.inj ht
      exact hnotBeyond y ((hgiven y).mp rfl)
    · exact hle fun y hy => hkindOf ⟨y, hy⟩

end Entries

end Settings

open Settings

/-- An accepted dictionary has an entry for each setting, of its type, and the real ones among
them are what was given in their place converts to.  The number of steps is positive, and so
are the tolerance and the interval, unless they are missing.  The tolerance of directions is
from zero to half a turn, unless it is missing or was given in 32 bits and beyond half a turn,
but then not beyond half a turn in 32 bits. -/
theorem accepted_settings_in_range {parameters : Value Float}
    (haccepted : (Settings.check parameters).result = .ok true)
    (hsingle : ∀ given x, parameters = .dict given →
      Keyed.get? given tangentToleranceKey = some (.single x) → Numeral.single x = x) :
    ∃ given accepted settings, parameters = .dict given ∧
      (Settings.check parameters).parameters = .dict accepted ∧ Entered accepted settings ∧
      (∀ key v x, Keyed.get? given key = some v → Keyed.get? accepted key = some (.real x) →
        v.toNumber = .ok x) ∧
      1 ≤ settings.maxSteps ∧
      (0 < settings.wTolerance ↔ settings.wTolerance.isNaN = false) ∧
      (0 < settings.interval ↔ settings.interval.isNaN = false) ∧
      (0 ≤ settings.tangentTolerance ∧ settings.tangentTolerance ≤ Scalar.pi ↔
        settings.tangentTolerance.isNaN = false ∧
          ∀ x, Keyed.get? given tangentToleranceKey = some (.single x) → ¬ Scalar.pi < x) ∧
      ∀ x, Keyed.get? given tangentToleranceKey = some (.single x) →
        ¬ Numeral.single Scalar.pi < x := by
  obtain ⟨given, accepted, rfl, hparameters, -⟩ := check_eq_ok haccepted
  obtain ⟨wTolerance, hw, hwpos⟩ :=
    exists_positive haccepted hparameters (List.mem_of_getElem? (i := 0) rfl)
      (List.mem_of_getElem? (i := 0) rfl) rfl rfl
  obtain ⟨interval, hi, hipos⟩ := exists_positive haccepted hparameters
    (List.mem_of_getElem? (i := 3) rfl) (List.mem_of_getElem? (i := 1) rfl) rfl rfl
  obtain ⟨maxSteps, hm, hone⟩ := exists_maxSteps haccepted hparameters
  obtain ⟨tangentTolerance, ht, htrange, hbeyond⟩ :=
    exists_tangentTolerance haccepted hparameters fun x => hsingle given x rfl
  obtain ⟨checkResidual, hr⟩ := exists_truth haccepted hparameters
    (List.mem_of_getElem? (i := 1) rfl) rfl rfl (by decide)
  obtain ⟨predict, hp⟩ := exists_truth haccepted hparameters
    (List.mem_of_getElem? (i := 2) rfl) rfl rfl (by decide)
  obtain ⟨verbose, hv⟩ := exists_truth haccepted hparameters
    (List.mem_of_getElem? (i := 6) rfl) rfl rfl (by decide)
  exact ⟨given, accepted, ⟨wTolerance, checkResidual, predict, interval, maxSteps, tangentTolerance,
    verbose⟩, rfl, hparameters, ⟨hw, hr, hp, hi, hm, ht, hv⟩,
    fun _ _ _ => toNumber_of_accepted haccepted hparameters, hone, hwpos, hipos, htrange, hbeyond⟩

def narrowTolerance : Value Float :=
  .dict [(wToleranceKey, .integer 1), (tangentToleranceKey, .single 0.5)]

theorem accepted_settings_in_range_narrow :
    (Settings.check narrowTolerance).result = .ok true ∧
    ∃ given accepted settings, narrowTolerance = .dict given ∧
      (Settings.check narrowTolerance).parameters = .dict accepted ∧ Entered accepted settings ∧
      (∀ key v x, Keyed.get? given key = some v → Keyed.get? accepted key = some (.real x) →
        v.toNumber = .ok x) ∧
      1 ≤ settings.maxSteps ∧
      (0 < settings.wTolerance ↔ settings.wTolerance.isNaN = false) ∧
      (0 < settings.interval ↔ settings.interval.isNaN = false) ∧
      (0 ≤ settings.tangentTolerance ∧ settings.tangentTolerance ≤ Scalar.pi ↔
        settings.tangentTolerance.isNaN = false ∧
          ∀ x, Keyed.get? given tangentToleranceKey = some (.single x) → ¬ Scalar.pi < x) ∧
      ∀ x, Keyed.get? given tangentToleranceKey = some (.single x) →
        ¬ Numeral.single Scalar.pi < x := by
  have haccepted : (Settings.check narrowTolerance).result = .ok true := by decide +kernel
  refine ⟨haccepted, accepted_settings_in_range haccepted ?_⟩
  intro given x hgiven hx
  cases hgiven
  cases hx
  decide +kernel

def missingTolerance : Value Float := .dict [(wToleranceKey, .real Numeral.missing)]

def halfTurnTolerance : Value Float :=
  .dict [(wToleranceKey, .integer 1), (tangentToleranceKey, .single (Numeral.single Scalar.pi))]

theorem accepted_out_of_range :
    ((Settings.check missingTolerance).result = .ok true ∧
      ∃ accepted w, (Settings.check missingTolerance).parameters = .dict accepted ∧
        Keyed.get? accepted wToleranceKey = some (.real w) ∧ ¬ 0 < w) ∧
    (Settings.check halfTurnTolerance).result = .ok true ∧
      ∃ accepted t, (Settings.check halfTurnTolerance).parameters = .dict accepted ∧
        Keyed.get? accepted tangentToleranceKey = some (.real t) ∧ ¬ t ≤ Scalar.pi := by
  have hmissing : (Settings.check missingTolerance).result = .ok true := by decide +kernel
  have hbeyond : (Settings.check halfTurnTolerance).result = .ok true := by decide +kernel
  refine ⟨⟨hmissing, ?_⟩, hbeyond, ?_⟩
  · obtain ⟨_, accepted, hdict, hparameters, -, hentries⟩ := check_eq_ok hmissing
    cases hdict
    obtain ⟨v, w, hv, hw, hget⟩ := hentries wToleranceKey asReal
      (List.mem_of_getElem? (i := 0) rfl)
    obtain rfl := Option.some.inj hv
    obtain rfl := Except.ok.inj hw
    exact ⟨accepted, _, hparameters, hget, by decide +kernel⟩
  · obtain ⟨_, accepted, hdict, hparameters, -, hentries⟩ := check_eq_ok hbeyond
    cases hdict
    obtain ⟨v, w, hv, hw, hget⟩ := hentries tangentToleranceKey asReal
      (List.mem_of_getElem? (i := 3) rfl)
    obtain rfl := Option.some.inj hv
    obtain rfl := Except.ok.inj hw
    exact ⟨accepted, _, hparameters, hget, by decide +kernel⟩

end Coplanar
