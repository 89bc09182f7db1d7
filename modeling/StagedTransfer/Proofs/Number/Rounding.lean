import Mathlib.Algebra.Order.Field.Power
import Mathlib.Tactic.FieldSimp
import Mathlib.Tactic.Linarith
import Mathlib.Tactic.NormNum
import Mathlib.Tactic.Positivity
import Mathlib.Tactic.Ring
import StagedTransfer.Number.Binary64

/-!
# Rounding keeps the order

A greater number is never rounded to a lesser one. What is computed from numbers that are not
negative by addition, multiplication or division is the exact result rounded once, so that it does
not become less either if the numbers become greater.
-/

namespace StagedTransfer.Binary64

/-! ### Rounding to a natural number -/

section

variable {n d n' d' c : Nat}

lemma le_roundDiv (n d : Nat) : n / d ≤ roundDiv n d := by
  simp only [roundDiv]
  split_ifs <;> omega

lemma roundDiv_le (n d : Nat) : roundDiv n d ≤ n / d + 1 := by
  simp only [roundDiv]
  split_ifs <;> omega

lemma roundDiv_one (c : Nat) : roundDiv c 1 = c := by
  simp [roundDiv, Nat.mod_one]

/-- Of two quotients with the same whole part that with the greater rest is not rounded to less. -/
lemma roundDiv_le_of_div_eq (hd : 0 < d) (hd' : 0 < d') (whole : n / d = n' / d')
    (rest : n % d * d' ≤ n' % d' * d) : roundDiv n d ≤ roundDiv n' d' := by
  have reaches (half : d ≤ 2 * (n % d)) : d' ≤ 2 * (n' % d') := by
    refine Nat.le_of_mul_le_mul_right ?_ hd
    calc d' * d = d * d' := Nat.mul_comm d' d
      _ ≤ 2 * (n % d) * d' := Nat.mul_le_mul_right d' half
      _ ≤ 2 * (n' % d') * d := by linarith
  have exceeds (half : d < 2 * (n % d)) : d' < 2 * (n' % d') := by
    refine Nat.lt_of_mul_lt_mul_right (a := d) ?_
    calc d' * d = d * d' := Nat.mul_comm d' d
      _ < 2 * (n % d) * d' := Nat.mul_lt_mul_of_pos_right half hd'
      _ ≤ 2 * (n' % d') * d := by linarith
  simp only [roundDiv, whole]
  split_ifs <;> omega

lemma roundDiv_mono (hd : 0 < d) (hd' : 0 < d') (h : n * d' ≤ n' * d) :
    roundDiv n d ≤ roundDiv n' d' := by
  have whole : n / d ≤ n' / d' := by
    rw [Nat.le_div_iff_mul_le hd']
    refine Nat.le_of_mul_le_mul_right ?_ hd
    calc n / d * d' * d = n / d * d * d' := by ring
      _ ≤ n * d' := Nat.mul_le_mul_right d' (Nat.div_mul_le_self n d)
      _ ≤ n' * d := h
  rcases Nat.lt_or_eq_of_le whole with less | same
  · exact (roundDiv_le n d).trans (Nat.le_trans less (le_roundDiv n' d'))
  · refine roundDiv_le_of_div_eq hd hd' same ?_
    have left : n / d * d * d' + n % d * d' = n * d' := by rw [← Nat.add_mul, Nat.div_add_mod']
    have right : n / d * d' * d + n' % d' * d = n' * d := by
      rw [← Nat.add_mul, same, Nat.div_add_mod']
    linarith

end

/-! ### The exponent of a quotient -/

section

variable {num den : Nat} {e : Int}

/-- What a mantissa and an exponent stand for. -/
def scaled (m : Nat) (e : Int) : ℚ :=
  m * 2 ^ e

lemma scaled_nonneg (m : Nat) (e : Int) : 0 ≤ scaled m e := by
  unfold scaled
  positivity

lemma pow_toNat (he : 0 ≤ e) : ((Nat.pow 2 e.toNat : Nat) : ℚ) = 2 ^ e := by
  rw [Nat.pow_eq, Nat.cast_pow, Nat.cast_ofNat, ← zpow_natCast, Int.toNat_of_nonneg he]

lemma inUnits_pos (hd : 0 < den) : 0 < (inUnits num den e).2 := by
  unfold inUnits
  split
  · exact Nat.mul_pos hd (Nat.pow_pos Nat.two_pos)
  · exact hd

/-- In units of a power of two a quotient is divided by it. -/
lemma inUnits_eq (num den : Nat) (e : Int) :
    ((inUnits num den e).1 : ℚ) / (inUnits num den e).2 = num / den / 2 ^ e := by
  unfold inUnits
  split_ifs with he
  · rw [Nat.cast_mul, pow_toNat he, div_div]
  · have opposite : 0 ≤ -e := by omega
    rw [Nat.cast_mul, pow_toNat opposite, zpow_neg]
    field_simp

lemma inUnits_lt_iff (hd : 0 < den) (c : Nat) :
    (inUnits num den e).1 < (inUnits num den e).2 * c ↔ (num / den : ℚ) < scaled c e := by
  have pos : (0 : ℚ) < (inUnits num den e).2 := Nat.cast_pos.2 (inUnits_pos hd)
  have unit : (0 : ℚ) < 2 ^ e := by positivity
  rw [scaled, ← div_lt_iff₀ unit, ← inUnits_eq, div_lt_iff₀ pos, mul_comm (c : ℚ)]
  exact_mod_cast Iff.rfl

/-- The logarithms tell a quotient up to a factor of two. -/
lemma log2_bounds (hn : 0 < num) (hd : 0 < den) :
    scaled (2 ^ 52) ((num.log2 : Int) - den.log2 - 53) ≤ num / den ∧
      (num / den : ℚ) < scaled (2 ^ 53) ((num.log2 : Int) - den.log2 - 52) := by
  have pos : (0 : ℚ) < den := Nat.cast_pos.2 hd
  have power (k : Nat) (j : Int) : scaled (2 ^ k) j = 2 ^ (k + j : Int) := by
    rw [scaled, Nat.cast_pow, Nat.cast_ofNat, ← zpow_natCast, ← zpow_add₀ two_ne_zero]
  have lower (n : Nat) (hn : 0 < n) : (2 : ℚ) ^ (n.log2 : Int) ≤ n := by
    exact_mod_cast Nat.log2_self_le hn.ne'
  have upper (n : Nat) : (n : ℚ) < 2 ^ (n.log2 + 1 : Int) := by
    exact_mod_cast Nat.lt_log2_self (n := n)
  rw [power, power, le_div_iff₀ pos, div_lt_iff₀ pos]
  constructor
  · calc (2 : ℚ) ^ ((52 : Nat) + ((num.log2 : Int) - den.log2 - 53)) * den
        ≤ 2 ^ ((52 : Nat) + ((num.log2 : Int) - den.log2 - 53)) * 2 ^ (den.log2 + 1 : Int) :=
          mul_le_mul_of_nonneg_left (upper den).le (by positivity)
      _ = 2 ^ (num.log2 : Int) := by
          rw [← zpow_add₀ two_ne_zero]
          congr 1
          push_cast
          ring
      _ ≤ num := lower num hn
  · calc (num : ℚ) < 2 ^ (num.log2 + 1 : Int) := upper num
      _ = 2 ^ ((53 : Nat) + ((num.log2 : Int) - den.log2 - 52)) * 2 ^ (den.log2 : Int) := by
          rw [← zpow_add₀ two_ne_zero]
          congr 1
          push_cast
          ring
      _ ≤ _ := mul_le_mul_of_nonneg_left (lower den hd) (by positivity)

lemma scaled_succ (m : Nat) (e : Int) : scaled (2 * m) e = scaled m (e + 1) := by
  rw [scaled, scaled, zpow_add_one₀ two_ne_zero]
  push_cast
  ring

lemma scaled_le_of_le (m : Nat) {e f : Int} (h : e ≤ f) : scaled m e ≤ scaled m f :=
  mul_le_mul_of_nonneg_left (zpow_le_zpow_right₀ one_le_two h) m.cast_nonneg

/-- A power of two lies between numbers of different exponents. -/
lemma scaled_le_of_lt {e f : Int} (h : e < f) : scaled (2 ^ 53) e ≤ scaled (2 ^ 52) f :=
  calc scaled (2 ^ 53) e = scaled (2 ^ 52) (e + 1) := scaled_succ (2 ^ 52) e
    _ ≤ scaled (2 ^ 52) f := scaled_le_of_le _ h

/-- With its exponent a quotient has fifty-three bits, or fewer if it is too small. -/
lemma exponentOf_bounds (hn : 0 < num) (hd : 0 < den) :
    leastExponent ≤ exponentOf num den ∧ (num / den : ℚ) < scaled (2 ^ 53) (exponentOf num den) ∧
      (leastExponent < exponentOf num den →
        scaled (2 ^ 52) (exponentOf num den) ≤ num / den) := by
  obtain ⟨lower, upper⟩ := log2_bounds hn hd
  simp only [exponentOf]
  generalize hg : (num.log2 : Int) - den.log2 - 52 = guess at *
  have below : (inUnits num den guess).1 < (inUnits num den guess).2 * 2 ^ 52 ↔
      (num / den : ℚ) < scaled (2 ^ 52) guess := inUnits_lt_iff hd _
  obtain ⟨own, eq, fits, full⟩ : ∃ own : Int,
      (if (inUnits num den guess).1 < (inUnits num den guess).2 * Nat.pow 2 52 then guess - 1
        else guess) = own ∧ (num / den : ℚ) < scaled (2 ^ 53) own ∧
      scaled (2 ^ 52) own ≤ num / den := by
    by_cases few : (inUnits num den guess).1 < (inUnits num den guess).2 * 2 ^ 52
    · refine ⟨guess - 1, if_pos few, ?_, ?_⟩
      · have double := scaled_succ (2 ^ 52) (guess - 1)
        rw [Int.sub_add_cancel] at double
        exact double.trans_gt (below.1 few)
      · rwa [show (guess - 1 : Int) = (num.log2 : Int) - den.log2 - 53 by omega]
    · exact ⟨guess, if_neg few, upper, not_lt.1 (mt below.2 few)⟩
  rw [eq]
  refine ⟨le_max_left .., fits.trans_le (scaled_le_of_le _ (le_max_right ..)), fun above => ?_⟩
  rwa [max_eq_right (by omega)]

/-- The exact value of a quotient rounded to its bits. -/
def rounded (num den : Nat) : ℚ :=
  let e := exponentOf num den
  scaled (roundDiv (inUnits num den e).1 (inUnits num den e).2) e

lemma scaled_mono {m m' : Nat} (h : m ≤ m') (e : Int) : scaled m e ≤ scaled m' e :=
  mul_le_mul_of_nonneg_right (Nat.cast_le.2 h) (by positivity)

/-- Rounded to its bits a quotient has fifty-three of them still, or one more and is a power of
two. -/
lemma roundDiv_inUnits (hn : 0 < num) (hd : 0 < den) :
    roundDiv (inUnits num den (exponentOf num den)).1 (inUnits num den (exponentOf num den)).2 ≤
        2 ^ 53 ∧
      (leastExponent < exponentOf num den →
        2 ^ 52 ≤ roundDiv (inUnits num den (exponentOf num den)).1
          (inUnits num den (exponentOf num den)).2) := by
  obtain ⟨-, fits, full⟩ := exponentOf_bounds hn hd
  generalize exponentOf num den = e at *
  have pos : 0 < (inUnits num den e).2 := inUnits_pos hd
  constructor
  · have few := (inUnits_lt_iff hd (2 ^ 53)).2 fits
    calc roundDiv (inUnits num den e).1 (inUnits num den e).2
        ≤ roundDiv (2 ^ 53) 1 := by
          refine roundDiv_mono pos Nat.one_pos ?_
          rw [Nat.mul_one, Nat.mul_comm]
          exact few.le
      _ = 2 ^ 53 := roundDiv_one _
  · intro above
    have many := mt (inUnits_lt_iff hd (2 ^ 52)).1 (not_lt.2 (full above))
    refine ((Nat.le_div_iff_mul_le pos).2 ?_).trans (le_roundDiv ..)
    rw [Nat.mul_comm]
    exact not_lt.1 many

variable {num' den' : Nat}

lemma exponentOf_mono (hn : 0 < num) (hd : 0 < den) (hn' : 0 < num') (hd' : 0 < den')
    (h : (num / den : ℚ) ≤ num' / den') : exponentOf num den ≤ exponentOf num' den' := by
  obtain ⟨-, -, full⟩ := exponentOf_bounds hn hd
  obtain ⟨least, fits, -⟩ := exponentOf_bounds hn' hd'
  by_contra less
  rw [not_le] at less
  have lower := full (least.trans_lt less)
  exact (lower.trans h).not_gt (fits.trans_le (scaled_le_of_lt less))

lemma rounded_mono (hn : 0 < num) (hd : 0 < den) (hn' : 0 < num') (hd' : 0 < den')
    (h : (num / den : ℚ) ≤ num' / den') : rounded num den ≤ rounded num' den' := by
  obtain ⟨fits, -⟩ := roundDiv_inUnits hn hd
  obtain ⟨-, full⟩ := roundDiv_inUnits hn' hd'
  obtain ⟨least, -, -⟩ := exponentOf_bounds hn hd
  rcases (exponentOf_mono hn hd hn' hd' h).eq_or_lt with same | less
  · rw [rounded, rounded, ← same]
    generalize exponentOf num den = e
    refine scaled_mono (roundDiv_mono (inUnits_pos hd) (inUnits_pos hd') ?_) e
    have units : ((inUnits num den e).1 : ℚ) / (inUnits num den e).2 ≤
        (inUnits num' den' e).1 / (inUnits num' den' e).2 := by
      rw [inUnits_eq, inUnits_eq]
      exact div_le_div_of_nonneg_right h (by positivity)
    rw [div_le_div_iff₀ (Nat.cast_pos.2 (inUnits_pos hd)) (Nat.cast_pos.2 (inUnits_pos hd'))]
      at units
    exact_mod_cast units
  · calc rounded num den ≤ scaled (2 ^ 53) (exponentOf num den) := scaled_mono fits _
      _ ≤ scaled (2 ^ 52) (exponentOf num' den') := scaled_le_of_lt less
      _ ≤ rounded num' den' := scaled_mono (full (least.trans_lt less)) _

end

/-! ### Rounded quotients -/

/-- A mantissa has fifty-three bits, or fewer with the least exponent. -/
structure Canonical (m : Nat) (e : Int) : Prop where
  fits  : m < 2 ^ 53
  least : leastExponent ≤ e
  full  : leastExponent < e → 2 ^ 52 ≤ m

lemma Canonical.exponent_mono {m m' : Nat} {e e' : Int} (h : Canonical m e) (h' : Canonical m' e')
    (le : scaled m e ≤ scaled m' e') : e ≤ e' := by
  by_contra less
  rw [not_le] at less
  have unit : (0 : ℚ) < 2 ^ e' := by positivity
  have lower : scaled (2 ^ 53) e' ≤ scaled m e :=
    calc scaled (2 ^ 53) e' ≤ scaled (2 ^ 52) e := scaled_le_of_lt less
      _ ≤ scaled m e := scaled_mono (h.full (h'.least.trans_lt less)) e
  have upper : scaled m' e' < scaled (2 ^ 53) e' :=
    mul_lt_mul_of_pos_right (Nat.cast_lt.2 h'.fits) unit
  exact (lower.trans le).not_gt upper

variable {num den num' den' : Nat}

/-- A mantissa with one bit more is a power of two, and gives it to the exponent. -/
lemma ofRatio_of_eq (negative : Bool) {m : Nat} {e : Int} (hn : 0 < num) (hd : 0 < den)
    (he : exponentOf num den = e)
    (hm : roundDiv (inUnits num den e).1 (inUnits num den e).2 = m) :
    ofRatio negative num den =
      if m = 2 ^ 53 then
        if greatestExponent < e + 1 then .infinite negative else .finite negative (2 ^ 52) (e + 1)
      else if greatestExponent < e then .infinite negative else .finite negative m e := by
  have nonzero : ¬(num = 0 || den = 0) = true := by simp [hn.ne', hd.ne']
  rw [ofRatio, if_neg nonzero, he, Nat.pow_eq, Nat.pow_eq]
  -- What is computed is named step by step, since the limits are too great to be unfolded.
  extract_lets e'
  have he' : e' = e := rfl
  clear_value e'
  subst he'
  split
  next n d units =>
    extract_lets m'
    have hm' : m' = m := by rw [← hm, units]
    clear_value m'
    subst hm'
    by_cases carry : m' = 2 ^ 53
    · rw [if_pos carry, if_pos carry]
    · rw [if_neg carry, if_neg carry]

lemma rounded_zero (den : Nat) : rounded 0 den = 0 := by
  have none' (e : Int) : roundDiv (inUnits 0 den e).1 (inUnits 0 den e).2 = 0 := by
    have few : (inUnits 0 den e).1 = 0 := by
      unfold inUnits
      split <;> simp
    rw [few, roundDiv, Nat.zero_div, Nat.zero_mod]
    split_ifs <;> omega
  rw [rounded, none', scaled, Nat.cast_zero, zero_mul]

/-- Rounded to its bits a quotient is a number if its exponent is not too great. -/
lemma ofRatio_eq (negative : Bool) (num : Nat) (hd : 0 < den) :
    ∃ m e, Canonical m e ∧ scaled m e = rounded num den ∧ ofRatio negative num den =
      if greatestExponent < e then .infinite negative else .finite negative m e := by
  rcases num.eq_zero_or_pos with rfl | hn
  · refine ⟨0, leastExponent, ⟨Nat.pow_pos Nat.two_pos, le_rfl, fun h => absurd h (lt_irrefl _)⟩,
      ?_, ?_⟩
    · rw [rounded_zero, scaled, Nat.cast_zero, zero_mul]
    · rw [ofRatio, if_pos (by simp)]
      rfl
  obtain ⟨fits, full⟩ := roundDiv_inUnits hn hd
  obtain ⟨least, -, -⟩ := exponentOf_bounds hn hd
  have computed := ofRatio_of_eq negative hn hd rfl rfl
  rw [rounded]
  generalize exponentOf num den = e at *
  generalize roundDiv (inUnits num den e).1 (inUnits num den e).2 = m at *
  by_cases carry : m = 2 ^ 53
  · rw [if_pos carry] at computed
    refine ⟨2 ^ 52, e + 1, ⟨Nat.pow_lt_pow_right Nat.one_lt_two (Nat.lt_succ_self 52),
      by omega, fun _ => le_rfl⟩, ?_, computed⟩
    rw [carry]
    exact (scaled_succ (2 ^ 52) e).symm
  · rw [if_neg carry] at computed
    exact ⟨m, e, ⟨lt_of_le_of_ne fits carry, least, full⟩, rfl, computed⟩

/-! ### The order of numbers that are not negative -/

lemma toUnits_mul (m : Nat) {e f : Int} (h : f ≤ e) :
    (toUnits false m e f : ℚ) * 2 ^ f = scaled m e := by
  have power : (2 : ℚ) ^ (e - f).toNat = 2 ^ (e - f) := by
    rw [← zpow_natCast, Int.toNat_of_nonneg (by omega)]
  have value : toUnits false m e f = m * 2 ^ (e - f).toNat := rfl
  rw [value]
  push_cast
  rw [power, scaled, mul_assoc, ← zpow_add₀ two_ne_zero, Int.sub_add_cancel]

lemma finite_le_finite {m m' : Nat} {e e' : Int} :
    (finite false m e).le (finite false m' e') = true ↔ scaled m e ≤ scaled m' e' := by
  have unit : (0 : ℚ) < 2 ^ min e e' := by positivity
  rw [← toUnits_mul m (min_le_left e e'), ← toUnits_mul m' (min_le_right e e'),
    mul_le_mul_iff_of_pos_right unit]
  simp only [le, decide_eq_true_eq]
  exact_mod_cast Iff.rfl

/-- A greater quotient is not rounded to a lesser number. -/
theorem ofRatio_mono (hd : 0 < den) (hd' : 0 < den') (h : (num / den : ℚ) ≤ num' / den') :
    (ofRatio false num den).le (ofRatio false num' den') = true := by
  obtain ⟨m, e, canonical, value, eq⟩ := ofRatio_eq false num hd
  obtain ⟨m', e', canonical', value', eq'⟩ := ofRatio_eq false num' hd'
  have ordered : scaled m e ≤ scaled m' e' := by
    rw [value, value']
    rcases num.eq_zero_or_pos with rfl | hn
    · rw [rounded_zero]
      exact scaled_nonneg _ _
    · have hn' : 0 < num' := by
        by_contra none'
        obtain rfl : num' = 0 := by omega
        have positive : (0 : ℚ) < num / den := by positivity
        simp only [Nat.cast_zero, zero_div] at h
        exact h.not_gt positive
      exact rounded_mono hn hd hn' hd' h
  rw [eq, eq']
  by_cases overflow' : greatestExponent < e'
  · rw [if_pos overflow']
    split <;> rfl
  · have small := canonical.exponent_mono canonical' ordered
    rw [if_neg overflow', if_neg (by omega)]
    exact finite_le_finite.2 ordered

/-! ### Arithmetic -/

/-- A number is what a quotient that is not negative is rounded to. -/
def Rounds (x : Binary64) (q : ℚ) : Prop :=
  ∃ num den : Nat, 0 < den ∧ (num / den : ℚ) = q ∧ x = ofRatio false num den

variable {x x' : Binary64} {q q' : ℚ}

lemma Rounds.mono (h : Rounds x q) (h' : Rounds x' q') (le : q ≤ q') : x.le x' = true := by
  obtain ⟨num, den, hd, rfl, rfl⟩ := h
  obtain ⟨num', den', hd', rfl, rfl⟩ := h'
  exact ofRatio_mono hd hd' le

/-- A number that is not negative, infinite or not. -/
def Unsigned (x : Binary64) : Prop :=
  x = .infinite false ∨ ∃ m e, x = .finite false m e

lemma Rounds.unsigned (h : Rounds x q) : x.Unsigned := by
  obtain ⟨num, den, hd, -, rfl⟩ := h
  obtain ⟨m, e, -, -, eq⟩ := ofRatio_eq false num hd
  rw [eq]
  split
  · exact .inl rfl
  · exact .inr ⟨m, e, rfl⟩

/-- A number that is neither negative nor infinite nor above a bound. -/
def AtMost (x : Binary64) (q : ℚ) : Prop :=
  ∃ m e, x = .finite false m e ∧ scaled m e ≤ q

/-- What is rounded from a lesser quotient than a finite number is finite as well. -/
lemma Rounds.atMost {m : Nat} {e : Int} (h : Rounds x q) (h' : Rounds (.finite false m e) q')
    (le : q ≤ q') : x.AtMost (scaled m e) := by
  have ordered := h.mono h' le
  rcases h.unsigned with rfl | ⟨m', e', rfl⟩
  · cases ordered
  · exact ⟨m', e', rfl, finite_le_finite.1 ordered⟩

lemma rounds_ofNat (n : Nat) : Rounds (ofNat n) n :=
  ⟨n, 1, Nat.one_pos, by simp, rfl⟩

lemma rounds_ofScaled (m : Nat) (e : Int) : Rounds (ofScaled false m e) (scaled m e) := by
  unfold ofScaled
  split_ifs with he
  · refine ⟨_, 1, Nat.one_pos, ?_, rfl⟩
    rw [Nat.cast_mul, pow_toNat he, Nat.cast_one, div_one, scaled]
  · have opposite : 0 ≤ -e := by omega
    refine ⟨m, Nat.pow 2 (-e).toNat, Nat.pow_pos Nat.two_pos, ?_, rfl⟩
    rw [pow_toNat opposite, zpow_neg, div_inv_eq_mul, scaled]

lemma rounds_mul (m n : Nat) (e f : Int) :
    Rounds ((finite false m e).mul (finite false n f)) (scaled m e * scaled n f) := by
  have exact' : scaled m e * scaled n f = scaled (m * n) (e + f) := by
    rw [scaled, scaled, scaled, zpow_add₀ two_ne_zero]
    push_cast
    ring
  rw [exact']
  exact rounds_ofScaled (m * n) (e + f)

lemma toUnits_nonneg (m : Nat) (e f : Int) : 0 ≤ toUnits false m e f :=
  Int.mul_nonneg (Int.natCast_nonneg m) (Int.pow_nonneg (by decide))

lemma rounds_add (m n : Nat) (e f : Int) :
    Rounds ((finite false m e).add (finite false n f)) (scaled m e + scaled n f) := by
  have exact' : scaled m e + scaled n f =
      (toUnits false m e (min e f) + toUnits false n f (min e f) : Int) * 2 ^ min e f := by
    rw [Int.cast_add, add_mul, toUnits_mul m (min_le_left e f), toUnits_mul n (min_le_right e f)]
  have positive := Int.add_nonneg (toUnits_nonneg m e (min e f)) (toUnits_nonneg n f (min e f))
  simp only [add]
  generalize toUnits false m e (min e f) + toUnits false n f (min e f) = sum at *
  rw [exact']
  obtain ⟨k, rfl⟩ := Int.eq_ofNat_of_zero_le positive
  split_ifs with none'
  · obtain rfl : k = 0 := by omega
    exact ⟨0, 1, Nat.one_pos, by simp, rfl⟩
  · have sign : decide ((k : Int) < 0) = false := by simp
    rw [sign]
    exact rounds_ofScaled k (min e f)

lemma rounds_div (m : Nat) {n : Nat} (hn : 0 < n) (e f : Int) :
    Rounds ((finite false m e).div (finite false n f)) (scaled m e / scaled n f) := by
  have hn' : (n : ℚ) ≠ 0 := Nat.cast_ne_zero.2 hn.ne'
  simp only [div, hn.ne', if_false]
  split_ifs with hd
  · refine ⟨_, n, hn, ?_, rfl⟩
    rw [Nat.cast_mul, pow_toNat hd, scaled, scaled, zpow_sub₀ two_ne_zero]
    field_simp
  · have opposite : 0 ≤ -(e - f) := by omega
    refine ⟨m, n * Nat.pow 2 (-(e - f)).toNat, Nat.mul_pos hn (Nat.pow_pos Nat.two_pos), ?_, rfl⟩
    rw [Nat.cast_mul, pow_toNat opposite, scaled, scaled, neg_sub, zpow_sub₀ two_ne_zero]
    field_simp

lemma Unsigned.add (hx : x.Unsigned) (hx' : x'.Unsigned) : (x.add x').Unsigned := by
  rcases hx with rfl | ⟨m, e, rfl⟩ <;> rcases hx' with rfl | ⟨n, f, rfl⟩
  · exact .inl rfl
  · exact .inl rfl
  · exact .inl rfl
  · exact (rounds_add m n e f).unsigned

/-- The product of nothing and an infinite number is no number. -/
lemma Unsigned.mul (hx : x.Unsigned) (hx' : x'.Unsigned) :
    (∃ s, x.mul x' = .nan s) ∨ (x.mul x').Unsigned := by
  rcases hx with rfl | ⟨m, e, rfl⟩ <;> rcases hx' with rfl | ⟨n, f, rfl⟩
  · exact .inr (.inl rfl)
  · rw [Binary64.mul]
    split
    · exact .inl ⟨_, rfl⟩
    · exact .inr (.inl rfl)
  · rw [Binary64.mul]
    split
    · exact .inl ⟨_, rfl⟩
    · exact .inr (.inl rfl)
  · exact .inr (rounds_mul m n e f).unsigned

/-- A number that is not in order with one, or is above it, has no sign if it is a number. -/
lemma unsigned_of_not_le_one (h : x.le .one = false) : (∃ s, x = .nan s) ∨ x.Unsigned := by
  cases x with
  | nan s => exact .inl ⟨s, rfl⟩
  | infinite s =>
    cases s with
    | false => exact .inr (.inl rfl)
    | true => cases h
  | finite s m e =>
    cases s with
    | false => exact .inr (.inr ⟨m, e, rfl⟩)
    | true =>
      have negative (g : Int) : toUnits true m e g = -toUnits false m e g := rfl
      simp only [one, le, decide_eq_false_iff_not, not_le, negative] at h
      have left := toUnits_nonneg m e (min e (-52))
      have right := toUnits_nonneg (Nat.pow 2 52) (-52) (min e (-52))
      omega

/-- The product with a factor that is no number or infinite is no number or infinite. -/
lemma mul_ne_finite (grows : x.le .one = false) (odd : ∀ m e, x ≠ .finite false m e)
    (hx' : x'.Unsigned) (m : Nat) (e : Int) : x.mul x' ≠ .finite false m e := by
  intro product
  rcases unsigned_of_not_le_one grows with ⟨s, rfl⟩ | rfl | ⟨m', e', rfl⟩
  · cases product
  · rcases hx' with rfl | ⟨n, f, rfl⟩
    · cases product
    · rw [Binary64.mul] at product
      split at product <;> cases product
  · exact odd m' e' rfl

end StagedTransfer.Binary64
