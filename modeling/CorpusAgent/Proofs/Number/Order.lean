import CorpusAgent.Number.Binary
import Mathlib.Algebra.Order.Field.Power
import Mathlib.Algebra.Order.Field.Rat
import Mathlib.Order.Compare
import Mathlib.Order.WithBot

/-!
# The order of binary numbers

* `Binary.value`: the number that a binary number stands for, in the rational numbers with an
  infinity at each end.
* `Binary.compare?_eq`: numbers compare by value.
* `Binary.isBelow_iff`, `Binary.isAtLeast_iff`: what the two comparisons of scores mean.
-/

namespace CorpusAgent.Binary

/-- A rational number among the infinities. -/
def ofRat (q : ℚ) : WithBot (WithTop ℚ) := ((q : WithTop ℚ) : WithBot (WithTop ℚ))

theorem ofRat_lt_ofRat {p q : ℚ} : ofRat p < ofRat q ↔ p < q := by
  rw [ofRat, ofRat, WithBot.coe_lt_coe, WithTop.coe_lt_coe]

theorem ofRat_le_ofRat {p q : ℚ} : ofRat p ≤ ofRat q ↔ p ≤ q := by
  rw [← not_lt, ofRat_lt_ofRat, not_lt]

theorem bot_lt_ofRat (q : ℚ) : ⊥ < ofRat q := WithBot.bot_lt_coe _

theorem ofRat_lt_top (q : ℚ) : ofRat q < ⊤ := WithBot.coe_lt_coe.mpr (WithTop.coe_lt_top q)

variable {f : Format} {x y : Binary f}

/-- The number that is meant.  There is none for `nan`, which is given a place at the bottom. -/
def value : Binary f → WithBot (WithTop ℚ)
  | .nan => ⊥
  | .infinite negative => if negative then ⊥ else ⊤
  | .finite negative significand exponent => ofRat (signed negative significand * 2 ^ exponent)

theorem isFinite_iff : x.isFinite = true ↔ ∃ q : ℚ, x.value = ofRat q := by
  cases x with
  | nan => exact iff_of_false Bool.false_ne_true fun ⟨q, h⟩ => (bot_lt_ofRat q).ne h
  | infinite negative =>
    refine iff_of_false Bool.false_ne_true ?_
    rintro ⟨q, h⟩
    cases negative with
    | false => exact (ofRat_lt_top q).ne' h
    | true => exact (bot_lt_ofRat q).ne h
  | finite negative m e => exact iff_of_true rfl ⟨_, rfl⟩

theorem ne_nan_of_value {q : ℚ} (h : x.value = ofRat q) : x ≠ .nan := by
  rintro rfl
  exact (bot_lt_ofRat q).ne h

theorem exists_value_of_between {p q : ℚ} (hp : ofRat p ≤ x.value) (hq : x.value ≤ ofRat q) :
    ∃ r : ℚ, x.value = ofRat r := by
  cases x with
  | nan => exact absurd hp (bot_lt_ofRat p).not_ge
  | infinite negative =>
    cases negative with
    | false => exact absurd hq (ofRat_lt_top q).not_ge
    | true => exact absurd hp (bot_lt_ofRat p).not_ge
  | finite negative m e => exact ⟨_, rfl⟩

/-! ### Comparisons -/

theorem mul_twoTo_mul {low e : ℤ} (a : ℤ) (h : low ≤ e) :
    ((a * twoTo (e - low).toNat : ℤ) : ℚ) * 2 ^ low = a * 2 ^ e := by
  have hsum : e = ((e - low).toNat : ℤ) + low := by omega
  have hpower : (2 : ℚ) ^ e = 2 ^ (e - low).toNat * 2 ^ low := by
    conv_lhs => rw [hsum, zpow_add₀ two_ne_zero, zpow_natCast]
  rw [hpower, twoTo, Nat.pow_eq, ← mul_assoc]
  push_cast
  rfl

theorem compare_mul_zpow (a b low : ℤ) :
    compare a b = compare (ofRat (a * 2 ^ low)) (ofRat (b * 2 ^ low)) := by
  have hpos : (0 : ℚ) < 2 ^ low := zpow_pos two_pos _
  have hmono : StrictMono fun c : ℤ => ofRat (c * 2 ^ low) := by
    intro c d hlt
    have hcast : (c : ℚ) < d := Int.cast_lt.mpr hlt
    exact ofRat_lt_ofRat.mpr (mul_lt_mul_of_pos_right hcast hpos)
  rw [← cmp_eq_compare, ← cmp_eq_compare]
  exact (hmono.cmp_map_eq a b).symm

/-- Two finite numbers are compared at the lower one of their exponents. -/
theorem compare_finite (a b e k : ℤ) :
    compare (a * twoTo (e - min e k).toNat) (b * twoTo (k - min e k).toNat) =
      compare (ofRat (a * 2 ^ e)) (ofRat (b * 2 ^ k)) := by
  rw [compare_mul_zpow _ _ (min e k), mul_twoTo_mul a (min_le_left e k),
    mul_twoTo_mul b (min_le_right e k)]

theorem compare?_nan_left : compare? (.nan : Binary f) x = none := by
  cases x <;> rfl

theorem compare?_nan_right : compare? x (.nan : Binary f) = none := by
  cases x <;> rfl

/-- Numbers compare by value. -/
theorem compare?_eq (hx : x ≠ .nan) (hy : y ≠ .nan) :
    compare? x y = some (compare x.value y.value) := by
  cases x with
  | nan => exact absurd rfl hx
  | infinite s =>
    cases y with
    | nan => exact absurd rfl hy
    | infinite t =>
      cases s with
      | false =>
        cases t with
        | false => exact congrArg some (compare_eq_iff_eq.mpr rfl).symm
        | true => exact congrArg some (compare_gt_iff_gt.mpr bot_lt_top).symm
      | true =>
        cases t with
        | false => exact congrArg some (compare_lt_iff_lt.mpr bot_lt_top).symm
        | true => exact congrArg some (compare_eq_iff_eq.mpr rfl).symm
    | finite t n k =>
      cases s with
      | false => exact congrArg some (compare_gt_iff_gt.mpr (ofRat_lt_top _)).symm
      | true => exact congrArg some (compare_lt_iff_lt.mpr (bot_lt_ofRat _)).symm
  | finite s m e =>
    cases y with
    | nan => exact absurd rfl hy
    | infinite t =>
      cases t with
      | false => exact congrArg some (compare_lt_iff_lt.mpr (ofRat_lt_top _)).symm
      | true => exact congrArg some (compare_gt_iff_gt.mpr (bot_lt_ofRat _)).symm
    | finite t n k => exact congrArg some (compare_finite _ _ e k)

theorem isBelow_iff (hx : x ≠ .nan) (hy : y ≠ .nan) :
    x.isBelow y = true ↔ x.value < y.value := by
  rw [isBelow, compare?_eq hx hy, beq_iff_eq, Option.some_inj, compare_lt_iff_lt]

/-- A number is at least another one if both are numbers and its value is not below. -/
theorem isAtLeast_iff :
    x.isAtLeast y = true ↔ x ≠ .nan ∧ y ≠ .nan ∧ y.value ≤ x.value := by
  by_cases hx : x = .nan
  · rw [hx, isAtLeast, compare?_nan_left]
    exact iff_of_false Bool.false_ne_true fun h => h.1 rfl
  by_cases hy : y = .nan
  · rw [hy, isAtLeast, compare?_nan_right]
    exact iff_of_false Bool.false_ne_true fun h => h.2.1 rfl
  rw [isAtLeast, compare?_eq hx hy, ← not_lt, ← compare_lt_iff_lt]
  cases compare x.value y.value <;> simp [hx, hy]

end CorpusAgent.Binary
