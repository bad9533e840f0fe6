import CorpusAgent.Proofs.Number.Order
import Mathlib.Algebra.Order.Field.Basic
import Mathlib.Data.Rat.Floor
import Mathlib.Tactic.Linarith
import Mathlib.Tactic.Ring

/-!
# Rounding

Rounding goes to the nearest number of a format, and truncation to the next integer in the direction
of zero.

* `quotientLog2_bounds`: a quotient lies between two powers of two that follow one another.
* `roundQuotient_near`, `near_le`: it is rounded to an integer at most a half away, so that no other
  integer is nearer.
* `Fits`, `IsNearest`: a finite number of a format, and one that is as near as any of them.
* `near_grid`: the multiples of the last bit are near enough; what lies between them is too small.
* `round_nearest`, `toFormat_nearest`: what is rounded to a finite number is rounded to a nearest
  one.
* `truncate_eq`: truncation, in terms of the rational number that is meant.
-/

namespace CorpusAgent.Binary

/-! ### Powers of two -/

theorem cast_twoTo (n : ℕ) : (twoTo n : ℚ) = 2 ^ n := by
  rw [twoTo, Nat.pow_eq]
  push_cast
  rfl

theorem twoTo_pos (n : ℕ) : 0 < twoTo n := Nat.two_pow_pos n

theorem zpow_mul_twoTo (e : ℤ) : (2 : ℚ) ^ e * twoTo (-e).toNat = twoTo e.toNat := by
  have hsum : e + ((-e).toNat : ℤ) = (e.toNat : ℤ) := by omega
  rw [cast_twoTo, cast_twoTo, ← zpow_natCast, ← zpow_natCast, ← zpow_add₀ two_ne_zero, hsum]

theorem zpow_le_div_iff {num den : ℕ} (hden : 0 < den) (l : ℤ) :
    (2 : ℚ) ^ l ≤ num / den ↔ den * twoTo l.toNat ≤ num * twoTo (-l).toNat := by
  have hden' : (0 : ℚ) < den := Nat.cast_pos.mpr hden
  have hpos : (0 : ℚ) < twoTo (-l).toNat := Nat.cast_pos.mpr (twoTo_pos _)
  rw [le_div_iff₀ hden', ← mul_le_mul_iff_left₀ hpos, mul_right_comm, zpow_mul_twoTo,
    mul_comm (twoTo l.toNat : ℚ)]
  exact_mod_cast Iff.rfl

theorem zpow_log2_le {n : ℕ} (h : 0 < n) : (2 : ℚ) ^ (n.log2 : ℤ) ≤ n := by
  rw [zpow_natCast]
  exact_mod_cast Nat.log2_self_le h.ne'

theorem lt_zpow_log2 (n : ℕ) : (n : ℚ) < 2 ^ (n.log2 + 1 : ℤ) := by
  rw [← Nat.cast_succ, zpow_natCast]
  exact_mod_cast Nat.lt_log2_self

theorem quotientLog2_bounds {num den : ℕ} (hnum : 0 < num) (hden : 0 < den) :
    (2 : ℚ) ^ quotientLog2 num den ≤ num / den ∧
      (num / den : ℚ) < 2 ^ (quotientLog2 num den + 1) := by
  have hden' : (0 : ℚ) < den := Nat.cast_pos.mpr hden
  have hlower : (2 : ℚ) ^ (num.log2 - den.log2 - 1 : ℤ) ≤ num / den := by
    rw [le_div_iff₀ hden']
    calc (2 : ℚ) ^ (num.log2 - den.log2 - 1 : ℤ) * den
        ≤ 2 ^ (num.log2 - den.log2 - 1 : ℤ) * 2 ^ (den.log2 + 1 : ℤ) :=
          mul_le_mul_of_nonneg_left (lt_zpow_log2 den).le (zpow_pos two_pos _).le
      _ = 2 ^ (num.log2 : ℤ) := by
          rw [← zpow_add₀ two_ne_zero]
          congr 1
          omega
      _ ≤ num := zpow_log2_le hnum
  have hupper : (num / den : ℚ) < 2 ^ (num.log2 - den.log2 + 1 : ℤ) := by
    rw [div_lt_iff₀ hden']
    calc (num : ℚ) < 2 ^ (num.log2 + 1 : ℤ) := lt_zpow_log2 num
      _ = 2 ^ (num.log2 - den.log2 + 1 : ℤ) * 2 ^ (den.log2 : ℤ) := by
          rw [← zpow_add₀ two_ne_zero]
          congr 1
          omega
      _ ≤ 2 ^ (num.log2 - den.log2 + 1 : ℤ) * den :=
          mul_le_mul_of_nonneg_left (zpow_log2_le hden) (zpow_pos two_pos _).le
  rw [quotientLog2]
  split_ifs with h
  · exact ⟨(zpow_le_div_iff hden _).mpr h, hupper⟩
  · rw [Int.sub_add_cancel]
    exact ⟨hlower, lt_of_not_ge (mt (zpow_le_div_iff hden _).mp h)⟩

/-! ### Integers -/

/-- Without remainders: twice the difference is at most the divisor. -/
theorem roundQuotient_mul {num den : ℕ} (hden : 0 < den) :
    2 * num ≤ 2 * (roundQuotient num den * den) + den ∧
      2 * (roundQuotient num den * den) ≤ 2 * num + den := by
  have hsplit : num / den * den + num % den = num := Nat.div_add_mod' num den
  rw [roundQuotient]
  have hlt : num % den < den := Nat.mod_lt num hden
  split_ifs with hbelow hhalf heven
  · omega
  · omega
  · rw [Nat.add_mul, Nat.one_mul]
    omega
  · rw [Nat.add_mul, Nat.one_mul]
    omega

theorem roundQuotient_near {num den : ℕ} (hden : 0 < den) :
    |(num / den : ℚ) - roundQuotient num den| ≤ 1 / 2 := by
  have hden' : (0 : ℚ) < den := Nat.cast_pos.mpr hden
  obtain ⟨habove, hbelow⟩ := @roundQuotient_mul num den hden
  have habove' : 2 * (num : ℚ) ≤ 2 * (roundQuotient num den * den) + den := by exact_mod_cast habove
  have hbelow' : 2 * (roundQuotient num den * den : ℚ) ≤ 2 * num + den := by exact_mod_cast hbelow
  rw [abs_sub_le_iff, sub_le_iff_le_add, sub_le_iff_le_add, div_le_iff₀ hden', ← sub_le_iff_le_add',
    le_div_iff₀ hden']
  constructor <;> linarith

/-- No integer is nearer to a number than one that is at most a half away. -/
theorem near_le {x : ℚ} {m : ℤ} (h : |x - m| ≤ 1 / 2) (k : ℤ) : |x - m| ≤ |x - k| := by
  by_cases hk : k = m
  · rw [hk]
  · have hapart : (1 : ℚ) ≤ |(k : ℚ) - m| := by
      exact_mod_cast Int.one_le_abs (sub_ne_zero.mpr hk)
    have htriangle : |(k : ℚ) - m| ≤ |x - m| + |x - k| := by
      rw [abs_sub_comm x k, add_comm]
      exact abs_sub_le _ x _
    linarith

/-! ### Numbers of a format -/

variable {f : Format}

/-- A finite number of the format. -/
def Fits : Binary f → Prop
  | .finite _ m e => m < twoTo f.precision ∧ f.minExponent ≤ e ∧ e ≤ f.maxExponent
  | _ => False

theorem ofRat_inj {p q : ℚ} : ofRat p = ofRat q ↔ p = q :=
  (WithBot.coe_injective.comp WithTop.coe_injective).eq_iff

/-- No finite number of the format is nearer to the first number than the second one. -/
def IsNearest (f : Format) (q x : ℚ) : Prop :=
  ∀ (z : Binary f) (w : ℚ), z.Fits → z.value = ofRat w → |q - x| ≤ |q - w|

theorem scaled_div (num den : ℕ) (e : ℤ) :
    ((num * twoTo (-e).toNat : ℕ) / (den * twoTo e.toNat : ℕ) : ℚ) = num / den / 2 ^ e := by
  have hpos : (twoTo (-e).toNat : ℚ) ≠ 0 := Nat.cast_ne_zero.mpr (twoTo_pos _).ne'
  rw [Nat.cast_mul, Nat.cast_mul, ← zpow_mul_twoTo e, ← mul_assoc, mul_div_mul_right _ _ hpos,
    div_div]

/-- The nearest multiple of a power of two is nearer than any number of the format between the
multiples: where there are such numbers, a multiple lies above them. -/
theorem near_grid {x : ℚ} {m a e k : ℤ} {p : ℕ} (hnear : |x - m| ≤ 1 / 2)
    (hlarge : k < e → (2 : ℚ) ^ p ≤ x) (ha : a < 2 ^ (p + 1)) :
    |x - m| ≤ |x - a * 2 ^ (k - e)| := by
  rcases Int.lt_or_le k e with hlt | hle
  · have hsmall : (a : ℚ) * 2 ^ (k - e) ≤ 2 ^ p := by
      have ha' : (a : ℚ) ≤ 2 ^ (p + 1) := by exact_mod_cast ha.le
      have hhalf : (2 : ℚ) ^ (k - e) ≤ 2 ^ (-1 : ℤ) := zpow_le_zpow_right₀ one_le_two (by omega)
      calc (a : ℚ) * 2 ^ (k - e) ≤ 2 ^ (p + 1) * 2 ^ (-1 : ℤ) :=
            mul_le_mul ha' hhalf (zpow_pos two_pos _).le (pow_pos two_pos _).le
        _ = 2 ^ p := by rw [pow_succ, mul_assoc, zpow_neg_one, mul_inv_cancel₀ two_ne_zero, mul_one]
    have hmultiple : |x - m| ≤ x - 2 ^ p := by
      have h := near_le hnear (2 ^ p)
      push_cast at h
      rwa [abs_of_nonneg (sub_nonneg.mpr (hlarge hlt))] at h
    exact (hmultiple.trans (sub_le_sub_left hsmall x)).trans (le_abs_self _)
  · have hinteger : (a : ℚ) * 2 ^ (k - e) = (a * twoTo (k - e).toNat : ℤ) := by
      have hcast : ((k - e).toNat : ℤ) = k - e := by omega
      rw [Int.cast_mul, Int.cast_natCast, cast_twoTo, ← zpow_natCast, hcast]
    rw [hinteger]
    exact near_le hnear _

theorem IsNearest.neg {q x : ℚ} (h : IsNearest f q x) : IsNearest f (-q) (-x) := by
  intro z w hfits hvalue
  cases z with
  | finite negative n k =>
    have hw : (signed negative n : ℚ) * 2 ^ k = w := ofRat_inj.mp hvalue
    have hopposite : (signed (!negative) n : ℚ) * 2 ^ k = -w := by
      rw [← hw]
      cases negative <;> simp [signed]
    have hnearer := h (.finite (!negative) n k) (-w) hfits (congrArg ofRat hopposite)
    have hx : -q - -x = -(q - x) := by ring
    have hw' : -q - w = -(q - -w) := by ring
    rwa [hx, hw', abs_neg, abs_neg]
  | nan | infinite => exact hfits.elim

theorem carry_cases {p m : ℕ} (hp : 0 < p) (hm : m ≤ twoTo p) (e : ℤ) :
    ∃ m' e', (if m = twoTo p then (twoTo (p - 1), e + 1) else (m, e)) = (m', e') ∧
      m' < twoTo p ∧ e ≤ e' ∧ (m' : ℚ) * 2 ^ e' = m * 2 ^ e := by
  have hpower : twoTo p = 2 * twoTo (p - 1) := by
    rw [twoTo, twoTo, Nat.pow_eq, Nat.pow_eq, mul_comm, Nat.pow_pred_mul hp]
  by_cases h : m = twoTo p
  · refine ⟨twoTo (p - 1), e + 1, if_pos h, ?_, Int.le_add_one le_rfl, ?_⟩
    · have hpos := twoTo_pos (p - 1)
      omega
    · rw [h, hpower, zpow_add_one₀ two_ne_zero]
      push_cast
      ring
  · exact ⟨m, e, if_neg h, lt_of_le_of_ne hm h, le_rfl, rfl⟩

/-- The steps of rounding, with the exponent of the last bit and the rounded significand. -/
theorem round_of_pos {negative : Bool} {num den m m' : ℕ} {e e' : ℤ} (hnum : 0 < num)
    (he : max f.minExponent (quotientLog2 num den - (f.precision - 1 : ℕ)) = e)
    (hm : roundQuotient (num * twoTo (-e).toNat) (den * twoTo e.toNat) = m)
    (hcarry : (if m = twoTo f.precision then (twoTo (f.precision - 1), e + 1) else (m, e)) =
      (m', e')) :
    round f negative num den =
      if f.maxExponent < e' then .infinite negative else .finite negative m' e' := by
  rw [round, if_neg hnum.ne']
  simp only [he, hm, hcarry]

theorem significand_le {p m : ℕ} {x : ℚ} (hnear : |x - m| ≤ 1 / 2) (hx : x < 2 ^ p) :
    m ≤ twoTo p := by
  by_contra hlt
  have hle : (2 : ℚ) ^ p + 1 ≤ m := by
    rw [← cast_twoTo]
    exact_mod_cast Nat.not_le.mp hlt
  have hclose := (abs_sub_le_iff.mp hnear).2
  linarith

/-- What is rounded at an exponent to a nearest integer is rounded to a nearest number. -/
theorem isNearest_of_near {q : ℚ} {m p : ℕ} {e : ℤ} (hp : f.precision = p + 1)
    (hnear : |q / 2 ^ e - m| ≤ 1 / 2)
    (hlarge : f.minExponent < e → (2 : ℚ) ^ p ≤ q / 2 ^ e) : IsNearest f q (m * 2 ^ e) := by
  intro z w hfits hvalue
  cases z with
  | nan | infinite => exact hfits.elim
  | finite negative n k =>
    obtain ⟨hn, hk, -⟩ := hfits
    have hw : (signed negative n : ℚ) * 2 ^ k = w := ofRat_inj.mp hvalue
    have ha : signed negative n < 2 ^ (p + 1) := by
      have hn' : (n : ℤ) < 2 ^ (p + 1) := by
        rw [hp, twoTo, Nat.pow_eq] at hn
        exact_mod_cast hn
      cases negative with
      | false => exact hn'
      | true =>
        have hle : -(n : ℤ) ≤ 0 := Int.neg_nonpos_of_nonneg (Int.natCast_nonneg n)
        exact hle.trans_lt (by positivity)
    have hpos : (0 : ℚ) < 2 ^ e := zpow_pos two_pos _
    have hscale : ∀ y : ℚ, |q - y * 2 ^ e| = |q / 2 ^ e - y| * 2 ^ e := by
      intro y
      rw [← abs_of_pos hpos, ← abs_mul, abs_of_pos hpos, sub_mul, div_mul_cancel₀ _ hpos.ne']
    have hsplit : w = signed negative n * 2 ^ (k - e) * 2 ^ e := by
      rw [← hw, mul_assoc, ← zpow_add₀ two_ne_zero, Int.sub_add_cancel]
    rw [hsplit, hscale, hscale]
    refine mul_le_mul_of_nonneg_right ?_ hpos.le
    exact_mod_cast near_grid (m := m) hnear (fun hlt => hlarge (by omega)) ha

/-- **Rounding.**  What is rounded to a finite number is rounded to one of the format, and none is
nearer. -/
theorem round_nearest {negative : Bool} {num den : ℕ} (hprecision : 0 < f.precision)
    (hexponents : f.minExponent ≤ f.maxExponent) (hden : 0 < den)
    (hfinite : (round f negative num den).isFinite = true) :
    (round f negative num den).Fits ∧ ∃ x, (round f negative num den).value = ofRat x ∧
      IsNearest f (signed negative num / den) x := by
  rcases Nat.eq_zero_or_pos num with rfl | hnum
  · refine ⟨⟨twoTo_pos _, le_rfl, hexponents⟩, _, rfl, fun z w _ _ => ?_⟩
    cases negative <;> simp [signed]
  obtain ⟨hlog, hlog'⟩ := quotientLog2_bounds hnum hden
  obtain ⟨e, he⟩ : ∃ e, max f.minExponent (quotientLog2 num den - (f.precision - 1 : ℕ)) = e :=
    ⟨_, rfl⟩
  have hpos : (0 : ℚ) < 2 ^ e := zpow_pos two_pos _
  have hnear := @roundQuotient_near (num * twoTo (-e).toNat) (den * twoTo e.toNat)
    (Nat.mul_pos hden (twoTo_pos _))
  rw [scaled_div] at hnear
  have hsmall : (num / den / 2 ^ e : ℚ) < 2 ^ f.precision := by
    rw [div_lt_iff₀ hpos, ← zpow_natCast, ← zpow_add₀ two_ne_zero]
    exact hlog'.trans_le (zpow_le_zpow_right₀ one_le_two (by omega))
  have hlarge : f.minExponent < e → (2 : ℚ) ^ (f.precision - 1) ≤ num / den / 2 ^ e := by
    intro hlt
    rw [le_div_iff₀ hpos, ← zpow_natCast, ← zpow_add₀ two_ne_zero]
    exact (zpow_le_zpow_right₀ one_le_two (by omega)).trans hlog
  have hnearest := isNearest_of_near (Nat.sub_add_cancel hprecision).symm hnear hlarge
  obtain ⟨m', e', hcarry, hm', he', hvalue⟩ :=
    carry_cases hprecision (significand_le hnear hsmall) e
  rw [← hvalue] at hnearest
  rw [round_of_pos hnum he rfl hcarry] at hfinite ⊢
  split_ifs at hfinite ⊢ with hoverflow
  · cases hfinite
  · refine ⟨⟨hm', by omega, Int.not_lt.mp hoverflow⟩, _, rfl, ?_⟩
    cases negative with
    | false => simpa [signed] using hnearest
    | true => simpa [signed, neg_div] using hnearest.neg

/-! ### Conversions -/

theorem div_twoTo (m : ℕ) (e : ℤ) :
    ((m * twoTo e.toNat : ℕ) / (twoTo (-e).toNat : ℕ) : ℚ) = m * 2 ^ e := by
  have hpos : (twoTo (-e).toNat : ℚ) ≠ 0 := Nat.cast_ne_zero.mpr (twoTo_pos _).ne'
  rw [Nat.cast_mul, ← zpow_mul_twoTo, ← mul_assoc, mul_div_cancel_right₀ _ hpos]

theorem signed_div (negative : Bool) (m : ℕ) (e : ℤ) :
    (signed negative (m * twoTo e.toNat) / (twoTo (-e).toNat : ℕ) : ℚ) =
      signed negative m * 2 ^ e := by
  have h := div_twoTo m e
  cases negative with
  | false => exact h
  | true => simpa [signed, neg_div] using h

theorem toFormat_nearest {g : Format} {x : Binary f} {q : ℚ} (hprecision : 0 < g.precision)
    (hexponents : g.minExponent ≤ g.maxExponent) (hvalue : x.value = ofRat q)
    (hfinite : (x.toFormat g).isFinite = true) :
    (x.toFormat g).Fits ∧ ∃ y, (x.toFormat g).value = ofRat y ∧ IsNearest g q y := by
  cases x with
  | nan | infinite => cases hfinite
  | finite negative m e =>
    have hq : (signed negative m : ℚ) * 2 ^ e = q := ofRat_inj.mp hvalue
    rw [← hq, ← signed_div]
    exact round_nearest hprecision hexponents (twoTo_pos _) hfinite

/-- The integer next to a number in the direction of zero. -/
def towardZero (q : ℚ) : ℤ := if 0 ≤ q then ⌊q⌋ else ⌈q⌉

theorem towardZero_neg (q : ℚ) : towardZero (-q) = -towardZero q := by
  unfold towardZero
  rcases lt_trichotomy q 0 with hlt | rfl | hgt
  · rw [if_pos (neg_nonneg.mpr hlt.le), if_neg hlt.not_ge, Int.floor_neg]
  · simp
  · rw [if_neg (neg_neg_of_pos hgt).not_ge, if_pos hgt.le, Int.ceil_neg]

theorem towardZero_div (num den : ℕ) : towardZero (num / den) = (num / den : ℕ) := by
  rw [towardZero, if_pos (by positivity), Rat.floor_natCast_div_natCast]
  rfl

/-- Truncation cuts off what follows the point and keeps the rest between the bounds. -/
theorem truncate_eq {low high : ℤ} {x : Binary f} {q : ℚ} (hvalue : x.value = ofRat q) :
    truncate low high x = max low (min high (towardZero q)) := by
  cases x with
  | nan => exact absurd hvalue (bot_lt_ofRat q).ne
  | infinite negative =>
    cases negative with
    | false => exact absurd hvalue (ofRat_lt_top q).ne'
    | true => exact absurd hvalue (bot_lt_ofRat q).ne
  | finite negative m e =>
    have hq : (signed negative m : ℚ) * 2 ^ e = q := ofRat_inj.mp hvalue
    have hcut : signed negative (m * twoTo e.toNat / twoTo (-e).toNat) = towardZero q := by
      rw [← hq, ← signed_div]
      cases negative with
      | false => exact (towardZero_div _ _).symm
      | true =>
        have hneg : ((signed true (m * twoTo e.toNat) : ℤ) / (twoTo (-e).toNat : ℕ) : ℚ) =
            -((m * twoTo e.toNat : ℕ) / (twoTo (-e).toNat : ℕ)) := by
          simp [signed, neg_div]
        rw [hneg, towardZero_neg, towardZero_div]
        rfl
    rw [truncate, hcut]

end CorpusAgent.Binary
