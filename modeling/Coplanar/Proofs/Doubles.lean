import Mathlib
import Coplanar.Numeral

/-! Doubles in order.  One that is missing is in no order with any other, not even with
itself; of two others one is at least as large.  Taken apart into whole numbers a double
is what its bits say, so that its exact comparison with a whole number and that with the
same number as a double tell its sign alike. -/
namespace Coplanar.Double

open Float.Model

theorem compare_swap (a b : UnpackedFloat) : (a.compare b).map Ordering.swap = b.compare a := by
  have hmagnitudes (e f : Int) (m n : Nat) :
      ((compare e f).then (compare m n)).swap = (compare f e).then (compare n m) := by
    rw [Ordering.swap_then, ← Std.OrientedOrd.eq_swap, ← Std.OrientedOrd.eq_swap]
  rcases a with ⟨_ | _⟩ | _ | ⟨_ | _⟩ | ⟨_ | _, m, e, _⟩ <;>
    rcases b with ⟨_ | _⟩ | _ | ⟨_ | _⟩ | ⟨_ | _, n, f, _⟩
  case finite.negative.finite.negative => simp [UnpackedFloat.compare, hmagnitudes]
  case finite.positive.finite.positive => simp [UnpackedFloat.compare, hmagnitudes]
  all_goals rfl

theorem exists_compare_iff {a b : UnpackedFloat} :
    (∃ o, a.compare b = some o) ↔ a.isNaN = false ∧ b.isNaN = false := by
  rcases a with ⟨_ | _⟩ | _ | _ | ⟨_ | _, _⟩ <;> rcases b with ⟨_ | _⟩ | _ | _ | ⟨_ | _, _⟩
  all_goals simp [UnpackedFloat.compare, UnpackedFloat.isNaN]

section Order

variable {x y : Float}

theorem lt_iff : x < y ↔ x.toModel.unpack.compare y.toModel.unpack = some .lt := by
  show decide (x.toModel.lt y.toModel = true) = true ↔ _
  rw [decide_eq_true_iff]
  exact beq_iff_eq

theorem le_iff : x ≤ y ↔ (x.toModel.unpack.compare y.toModel.unpack).any (·.isLE) = true := by
  show decide (x.toModel.le y.toModel = true) = true ↔ _
  rw [decide_eq_true_iff]
  rfl

theorem less_iff : Scalar.less x y = true ↔ x < y := by
  show decide (x < y) = true ↔ _
  rw [decide_eq_true_iff]

theorem less_eq_false_iff : Scalar.less x y = false ↔ ¬ x < y := by
  rw [← less_iff, Bool.not_eq_true]

theorem not_lt_iff (hx : x.isNaN = false) (hy : y.isNaN = false) : ¬ x < y ↔ y ≤ x := by
  obtain ⟨o, ho⟩ := exists_compare_iff.mpr ⟨hx, hy⟩
  change x.toModel.unpack.compare y.toModel.unpack = some o at ho
  rw [lt_iff, le_iff, ← compare_swap x.toModel.unpack, ho]
  cases o <;> simp

theorem isNaN_of_lt (h : x < y) : x.isNaN = false ∧ y.isNaN = false :=
  exists_compare_iff.mp ⟨_, lt_iff.mp h⟩

theorem isNaN_of_le (h : x ≤ y) : x.isNaN = false ∧ y.isNaN = false := by
  rw [le_iff, Option.any_eq_true] at h
  obtain ⟨o, ho, -⟩ := h
  exact exists_compare_iff.mp ⟨o, ho⟩

theorem unpack_zero : (0 : Float).toModel.unpack = .zero .positive := rfl

theorem pos_of_not_lt (hx : x.isNaN = false) (hy : 0 < y) (h : ¬ x < y) : 0 < x := by
  change x.toModel.unpack.isNaN = false at hx
  rw [lt_iff] at h hy ⊢
  rw [unpack_zero] at hy ⊢
  generalize x.toModel.unpack = a at *
  generalize y.toModel.unpack = b at *
  rcases a with ⟨_ | _⟩ | _ | _ | ⟨_ | _, _⟩
  case infinity.positive | finite.positive => rfl
  case notANumber => cases hx
  -- All that is left would be below whatever is positive.
  all_goals
    rcases b with ⟨_ | _⟩ | _ | _ | ⟨_ | _, _⟩
    all_goals first | exact absurd rfl h | cases hy

end Order

/-! ### Taken apart -/

def ofUnpacked : UnpackedFloat → Double
  | .notANumber => .missing
  | .infinity s => .infinite (s == .negative)
  | .zero s => .finite (s == .negative) 0 (-1074)
  | .finite s m e _ => .finite (s == .negative) m e

theorem ofBits_toNat (b : BitVec 64) : ofBits b.toNat = ofUnpacked (.unpack .binary64 b) := by
  have hsign : b.toNat / Nat.pow 2 63 % 2 =
      (@UnpackedFloat.unpackSign .binary64 b).toNat := by
    simp [UnpackedFloat.unpackSign, Nat.shiftRight_eq_div_pow]
  have hexponent : b.toNat / Nat.pow 2 52 % 2048 =
      (@UnpackedFloat.unpackExponent .binary64 b).toNat := by
    simp [UnpackedFloat.unpackExponent, Nat.shiftRight_eq_div_pow]
  have hmantissa : b.toNat % Nat.pow 2 52 =
      (@UnpackedFloat.unpackMantissa .binary64 b).toNat := by
    simp [UnpackedFloat.unpackMantissa, Nat.shiftRight_eq_div_pow]
  have hbias : ((Format.binary64.exponentBias : Nat) : Int) = 1023 := by decide
  have hnegative (s : BitVec 1) :
      (UnpackedFloat.Sign.ofBitVec s == .negative) = (s.toNat == 1) := by
    revert s
    decide
  have hall (e : BitVec 11) : e = -1#11 ↔ e.toNat = 2047 := by simp [← BitVec.toNat_inj]
  have hzero {n : Nat} (e : BitVec n) : e = 0#n ↔ e.toNat = 0 := by simp [← BitVec.toNat_inj]
  have hhidden (m : BitVec 52) : (1#1 ++ m).toNat = Nat.pow 2 52 + m.toNat := by
    rw [BitVec.toNat_append, ← Nat.shiftLeft_add_eq_or_of_lt m.isLt]
    rfl
  unfold ofBits UnpackedFloat.unpack
  simp only [hsign, hexponent, hmantissa, hall, hzero]
  -- An infinity, no number, a zero, a subnormal number and a normal one.
  split_ifs with hinfinite hm hsubnormal hm
  · rw [ofUnpacked, hnegative]
  · rfl
  · rw [ofUnpacked, hnegative, hm]
  · rw [ofUnpacked, hnegative, hbias, hsubnormal]
    rfl
  · rw [ofUnpacked, hnegative, hbias, hhidden]
    rfl

theorem ofFloat_eq (x : Float) : ofFloat x = ofUnpacked x.toModel.unpack :=
  ofBits_toNat x.toBits.toBitVec

theorem not_lt_zero_of_compareInt {x : Float} (h : (ofFloat x).compareInt 0 ≠ some .lt) :
    ¬ x < 0 := by
  rw [ofFloat_eq] at h
  rw [lt_iff, unpack_zero]
  rcases hcase : x.toModel.unpack with ⟨_ | _⟩ | _ | _ | ⟨_ | _, m, e, hm⟩ <;> rw [hcase] at h
  case infinity.negative => exact absurd rfl h
  case finite.negative =>
    refine absurd ?_ h
    show some (compare (-((m * Nat.pow 2 e.toNat : Nat) : Int)) (0 * _)) = some .lt
    have hnum : 0 < m * Nat.pow 2 e.toNat := Nat.mul_pos hm (Nat.pow_pos (by decide))
    rw [Int.compare_eq_lt.mpr (by omega)]
  all_goals exact fun hless => by cases hless

theorem compareInt_zero_of_unsigned {negative : Bool} {m : Nat} {e : Int}
    (h : negative = false ∨ m = 0) : (finite negative m e).compareInt 0 ≠ some .lt := by
  have hnum : 0 ≤ (if negative then -((m * Nat.pow 2 e.toNat : Nat) : Int)
      else (m * Nat.pow 2 e.toNat : Nat)) := by
    obtain rfl | rfl := h <;> simp
  show some (compare _ (0 * _)) ≠ some .lt
  rw [ne_eq, Option.some_inj, Int.compare_eq_lt, Int.zero_mul, Int.not_lt]
  exact hnum

theorem compareInt_zero_of_not_lt {x : Float} (h : ¬ x < 0) :
    (ofFloat x).compareInt 0 ≠ some .lt := by
  rw [lt_iff, unpack_zero] at h
  rw [ofFloat_eq]
  rcases hcase : x.toModel.unpack with ⟨_ | _⟩ | _ | _ | ⟨_ | _, m, e, hm⟩ <;> rw [hcase] at h
  case infinity.negative | finite.negative => exact absurd rfl h
  case zero => exact compareInt_zero_of_unsigned (.inr rfl)
  case finite.positive => exact compareInt_zero_of_unsigned (.inl rfl)
  all_goals exact fun hless => by cases hless

theorem ofFloat_infinity : ofFloat (Numeral.infinity : Float) = .infinite false := by
  decide +kernel

theorem not_infinity_lt (x : Float) : ¬ Numeral.infinity < x := by
  have hunpack : (Numeral.infinity : Float).toModel.unpack = .infinity .positive := by
    have h := ofFloat_infinity
    rw [ofFloat_eq] at h
    generalize (Numeral.infinity : Float).toModel.unpack = a at h ⊢
    rcases a with ⟨_ | _⟩ | _ | _ | _
    case infinity.positive => rfl
    all_goals cases h
  rw [lt_iff, hunpack]
  rcases x.toModel.unpack with ⟨_ | _⟩ | _ | _ | ⟨_ | _, _⟩
  all_goals exact fun hless => by cases hless

/-! ### Without a sign -/

def isUnsigned : UnpackedFloat → Bool
  | .notANumber => true
  | .infinity s | .zero s | .finite s _ _ _ => s == .positive

theorem not_lt_zero_of_isUnsigned {x : Float} (h : isUnsigned x.toModel.unpack = true) :
    ¬ x < 0 := by
  rw [lt_iff, unpack_zero]
  rcases hcase : x.toModel.unpack with ⟨_ | _⟩ | _ | _ | ⟨_ | _, _⟩ <;> rw [hcase] at h
  case infinity.negative | finite.negative => cases h
  all_goals exact fun hless => by cases hless

section Format

variable {spec : Format}

theorem unpackSign_pack {a : UnpackedFloat} (h : isUnsigned a = true) :
    UnpackedFloat.unpackSign (a.pack spec) = 0#1 := by
  rcases a with ⟨_ | _⟩ | _ | ⟨_ | _⟩ | ⟨_ | _, m, e, _⟩
  case infinity.negative | zero.negative | finite.negative => cases h
  case finite.positive =>
    unfold UnpackedFloat.pack
    dsimp only
    split_ifs <;> exact UnpackedFloat.unpackSign_packComponents ..
  all_goals exact UnpackedFloat.unpackSign_packComponents ..

theorem isUnsigned_unpack {b : BitVec spec.numBits} (h : UnpackedFloat.unpackSign b = 0#1) :
    isUnsigned (.unpack spec b) = true := by
  unfold UnpackedFloat.unpack
  rw [h]
  dsimp only
  split_ifs <;> rfl

theorem isUnsigned_roundWithAccuracy (m : Nat) (e : Int) (accuracy) :
    isUnsigned (.roundWithAccuracy spec .positive m e accuracy) = true := by
  unfold UnpackedFloat.roundWithAccuracy
  dsimp only
  split_ifs <;> rfl

theorem isUnsigned_mul {a b : UnpackedFloat} (ha : isUnsigned a = true)
    (hb : isUnsigned b = true) : isUnsigned (a.mul spec b) = true := by
  rcases a with ⟨_ | _⟩ | _ | ⟨_ | _⟩ | ⟨_ | _, m, e, _⟩ <;>
    rcases b with ⟨_ | _⟩ | _ | ⟨_ | _⟩ | ⟨_ | _, n, f, _⟩
  case finite.positive.finite.positive => exact isUnsigned_roundWithAccuracy ..
  all_goals first | rfl | cases ha; done | cases hb

theorem isUnsigned_ofNat (n : Nat) : isUnsigned (.ofNat spec n) = true := by
  unfold UnpackedFloat.ofNat UnpackedFloat.ofInt UnpackedFloat.normalize
  split
  · rename_i h
    rw [Int.compare_eq_lt] at h
    omega
  · rfl
  · exact isUnsigned_roundWithAccuracy ..

theorem isUnsigned_ofScientific (n : Nat) {e : Int} (he : 0 ≤ e) :
    isUnsigned (.ofScientific spec n e) = true := by
  unfold UnpackedFloat.ofScientific
  split_ifs
  · rfl
  · rfl
  · rfl
  · exact isUnsigned_mul rfl rfl

end Format

theorem isUnsigned_pack {a : UnpackedFloat} (h : isUnsigned a = true) :
    isUnsigned (Float.Model.pack a).unpack = true :=
  isUnsigned_unpack (unpackSign_pack h)

theorem not_lt_zero_of_ofInt? {n : Int} {x : Float} (hn : 0 ≤ n) (h : Numeral.ofInt? n = some x) :
    ¬ x < 0 := by
  have hx : Decimal.toFloat (n < 0) n.natAbs 0 = x := by
    simp only [Numeral.ofInt?] at h
    split at h
    · cases h
    · exact Option.some.inj h
  apply not_lt_zero_of_isUnsigned
  rw [← hx, Decimal.toFloat, if_neg (by simpa using hn)]
  unfold Float.ofScientific
  split
  · have hone : isUnsigned Float.exactlyRepresentablePowersOfTen[0].toModel.unpack = true := by
      decide +kernel
    exact isUnsigned_pack (isUnsigned_mul (isUnsigned_pack (isUnsigned_ofNat _)) hone)
  · exact isUnsigned_pack (isUnsigned_ofScientific _ (by simp))

end Coplanar.Double
