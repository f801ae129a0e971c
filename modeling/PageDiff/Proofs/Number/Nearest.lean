import Mathlib.Algebra.Order.Field.Power
import Mathlib.Data.Rat.Floor
import Mathlib.Tactic.FieldSimp
import Mathlib.Tactic.Linarith
import Mathlib.Tactic.NormNum
import Mathlib.Tactic.Positivity
import Mathlib.Tactic.Ring
import PageDiff.Number.Double

/-!
# Rounding keeps the order

A quotient is rounded to 53 bits, or to fewer if its exponent would become too small.  The exponent
is that of the quotient itself (`exponentOf_spec`), and what a quotient is rounded to (`rounded`) is
never larger than what a larger one is rounded to (`rounded_mono`).
-/

namespace PageDiff.Number

variable {num den num' den' m : ℕ}

/-! ### To the nearest integer -/

theorem roundQuotient_le (num : ℕ) (h : 0 < den) :
    (roundQuotient num den : ℚ) ≤ num / den + 1 / 2 := by
  have hnear := (roundQuotient_near num h).2
  have hq : (2 * roundQuotient num den * den : ℚ) ≤ 2 * num + den := by exact_mod_cast hnear
  have hpos : (0 : ℚ) < den := by exact_mod_cast h
  rw [div_add_div _ _ hpos.ne' two_ne_zero, le_div_iff₀ (by positivity)]
  linarith

theorem le_roundQuotient (num : ℕ) (h : 0 < den) :
    (num / den : ℚ) ≤ roundQuotient num den + 1 / 2 := by
  have hnear := (roundQuotient_near num h).1
  have hq : (2 * num : ℚ) ≤ (2 * roundQuotient num den + 1) * den := by exact_mod_cast hnear
  have hpos : (0 : ℚ) < den := by exact_mod_cast h
  rw [div_le_iff₀ hpos]
  linarith

/-- A quotient in the middle between two integers goes to the even one. -/
theorem roundQuotient_even_of_tie {k : ℕ} (h : 0 < den) (htie : (num / den : ℚ) = k + 1 / 2) :
    roundQuotient num den = k + k % 2 := by
  have hpos : (0 : ℚ) < den := by exact_mod_cast h
  rw [div_eq_iff hpos.ne'] at htie
  have hnat : 2 * num = 2 * (k * den) + den := by
    have hq : (2 * num : ℚ) = 2 * (k * den) + den := by rw [htie]; ring
    exact_mod_cast hq
  have hdiv : num / den = k := by
    rw [Nat.div_eq_iff h]
    constructor <;> grind
  have hmod : 2 * (num % den) = den := by
    have hd := Nat.div_add_mod num den
    rw [hdiv, Nat.mul_comm den k] at hd
    omega
  unfold roundQuotient
  simp only [hdiv, hmod, lt_self_iff_false, if_false]

theorem roundQuotient_mono (h : 0 < den) (h' : 0 < den')
    (hle : (num / den : ℚ) ≤ num' / den') : roundQuotient num den ≤ roundQuotient num' den' := by
  by_contra hlt
  set k := roundQuotient num' den' with hk
  have hk1 : (k : ℚ) + 1 ≤ roundQuotient num den := by exact_mod_cast not_le.mp hlt
  have hup := roundQuotient_le num h
  have hdown := le_roundQuotient num' h'
  rw [← hk] at hdown
  -- so both lie in the middle between `k` and `k + 1`, and go to the same integer
  have htie : (num / den : ℚ) = k + 1 / 2 := by linarith
  have htie' : (num' / den' : ℚ) = k + 1 / 2 := by linarith
  have heven := roundQuotient_even_of_tie h htie
  have heven' := roundQuotient_even_of_tie h' htie'
  omega

/-! ### Powers -/

/-- A power as a quotient of two powers, one of which is `1`. -/
theorem pow_toNat_div (b : ℚ) (e : ℤ) : b ^ e.toNat / b ^ (-e).toNat = b ^ e := by
  rcases le_total 0 e with h | h
  · lift e to ℕ using h
    simp
  · obtain ⟨n, rfl⟩ : ∃ n : ℕ, e = -n := ⟨(-e).toNat, by omega⟩
    simp

theorem inUnits_snd_pos (num : ℕ) (h : 0 < den) (e : ℤ) : 0 < (Double.inUnits num den e).2 := by
  simp only [Double.inUnits, Nat.pow_eq]
  positivity

/-- A quotient in units of a power of two. -/
theorem inUnits_div (num den : ℕ) (e : ℤ) :
    ((Double.inUnits num den e).1 / (Double.inUnits num den e).2 : ℚ) = num / den / 2 ^ e := by
  simp only [Double.inUnits, Nat.pow_eq, Nat.cast_mul, Nat.cast_pow, Nat.cast_ofNat]
  rw [← pow_toNat_div 2 e]
  field_simp

theorem quotient_snd_pos (m : ℕ) (e : ℤ) : 0 < (Double.quotient m e).2 := by
  simp only [Double.quotient, Nat.pow_eq]
  positivity

theorem quotient_div (m : ℕ) (e : ℤ) :
    ((Double.quotient m e).1 / (Double.quotient m e).2 : ℚ) = m * 2 ^ e := by
  simp only [Double.quotient, Nat.pow_eq, Nat.cast_mul, Nat.cast_pow, Nat.cast_ofNat]
  rw [← pow_toNat_div 2 e, mul_div_assoc]

/-! ### The exponent -/

/-- The size of a quotient: as a multiple of `2 ^ e` it has 53 bits in front of the point. -/
def HasExponent (r : ℚ) (e : ℤ) : Prop := 2 ^ 52 * 2 ^ e ≤ r ∧ r < 2 ^ 53 * 2 ^ e

theorem HasExponent.mono {r r' : ℚ} {e e' : ℤ} (h : HasExponent r e) (h' : HasExponent r' e')
    (hle : r ≤ r') : e ≤ e' := by
  by_contra hlt
  have hstep : (2 : ℚ) ^ (e' + 1) ≤ 2 ^ e := zpow_le_zpow_right₀ one_le_two (by omega)
  rw [zpow_add_one₀ two_ne_zero] at hstep
  have hlow := h.1
  have hhigh := h'.2
  linarith

theorem log2_bounds (h : 0 < m) :
    (2 : ℚ) ^ (m.log2 : ℤ) ≤ m ∧ (m : ℚ) < 2 ^ ((m.log2 : ℤ) + 1) := by
  have hlow : 2 ^ m.log2 ≤ m := Nat.log2_self_le h.ne'
  have hhigh : m < 2 ^ (m.log2 + 1) := Nat.lt_log2_self
  exact ⟨by exact_mod_cast hlow, by exact_mod_cast hhigh⟩

/-- The logarithms of its two parts leave two candidates for the exponent of a quotient. -/
theorem div_bounds (hnum : 0 < num) (hden : 0 < den) {e : ℤ}
    (he : e = (num.log2 : ℤ) - (den.log2 : ℤ) - 53) :
    (2 : ℚ) ^ 52 * 2 ^ e ≤ num / den ∧ (num / den : ℚ) < 2 ^ 54 * 2 ^ e := by
  obtain ⟨hnumLow, hnumHigh⟩ := log2_bounds hnum
  obtain ⟨hdenLow, hdenHigh⟩ := log2_bounds hden
  have hpos : (0 : ℚ) < den := by exact_mod_cast hden
  have hsplit (k : ℕ) (a b : ℤ) (h : a = k + e + b) :
      (2 : ℚ) ^ a = 2 ^ k * 2 ^ e * 2 ^ b := by
    rw [h, zpow_add₀ two_ne_zero, zpow_add₀ two_ne_zero, zpow_natCast]
  constructor
  · rw [le_div_iff₀ hpos]
    calc (2 : ℚ) ^ 52 * 2 ^ e * den ≤ 2 ^ 52 * 2 ^ e * 2 ^ ((den.log2 : ℤ) + 1) := by gcongr
      _ = 2 ^ (num.log2 : ℤ) := (hsplit 52 _ _ (by omega)).symm
      _ ≤ num := hnumLow
  · rw [div_lt_iff₀ hpos]
    calc (num : ℚ) < 2 ^ ((num.log2 : ℤ) + 1) := hnumHigh
      _ = 2 ^ 54 * 2 ^ e * 2 ^ (den.log2 : ℤ) := hsplit 54 _ _ (by omega)
      _ ≤ 2 ^ 54 * 2 ^ e * den := by gcongr

/-- Whether a quotient has no more than some bits in units of a power of two can be seen of its
whole part. -/
theorem inUnits_lt_iff (num : ℕ) (hden : 0 < den) (e : ℤ) (k : ℕ) :
    (Double.inUnits num den e).1 / (Double.inUnits num den e).2 < Nat.pow 2 k ↔
      (num / den : ℚ) < 2 ^ k * 2 ^ e := by
  have hunits : (0 : ℚ) < (Double.inUnits num den e).2 := by
    exact_mod_cast inUnits_snd_pos num hden e
  rw [Nat.div_lt_iff_lt_mul (inUnits_snd_pos num hden e), Nat.pow_eq,
    ← div_lt_iff₀ (by positivity : (0 : ℚ) < 2 ^ e), ← inUnits_div, div_lt_iff₀ hunits]
  norm_cast

/-- The exponent that is used is that of the quotient, or the smallest one. -/
theorem exponentOf_spec (hnum : 0 < num) (hden : 0 < den) :
    ∃ e, HasExponent (num / den) e ∧
      Double.exponentOf num den = max Double.minExponent e := by
  set e : ℤ := (num.log2 : ℤ) - (den.log2 : ℤ) - 53 with he
  obtain ⟨hlow, hhigh⟩ := div_bounds hnum hden he
  have htest := inUnits_lt_iff num hden e 53
  by_cases hsmall : (num / den : ℚ) < 2 ^ 53 * 2 ^ e
  · refine ⟨e, ⟨hlow, hsmall⟩, ?_⟩
    rw [Double.exponentOf]
    simp only [← he, if_pos (htest.mpr hsmall)]
  · refine ⟨e + 1, ⟨?_, ?_⟩, ?_⟩
    · rw [zpow_add_one₀ two_ne_zero]
      linarith
    · rw [zpow_add_one₀ two_ne_zero]
      linarith
    · rw [Double.exponentOf]
      simp only [← he, if_neg (mt htest.mp hsmall)]

/-! ### What a quotient is rounded to -/

/-- A quotient as an integer in units of a power of two. -/
def unitsOf (num den : ℕ) (e : ℤ) : ℕ :=
  roundQuotient (Double.inUnits num den e).1 (Double.inUnits num den e).2

theorem unitsOf_zero (den : ℕ) (e : ℤ) : unitsOf 0 den e = 0 := by
  simp [unitsOf, Double.inUnits, roundQuotient]

theorem unitsOf_mono (hden : 0 < den) (hden' : 0 < den') (hle : (num / den : ℚ) ≤ num' / den')
    (e : ℤ) : unitsOf num den e ≤ unitsOf num' den' e := by
  apply roundQuotient_mono (inUnits_snd_pos num hden e) (inUnits_snd_pos num' hden' e)
  rw [inUnits_div, inUnits_div]
  gcongr

/-- In units that are not smaller than its own, a quotient has at most 53 bits. -/
theorem unitsOf_le (hden : 0 < den) {e f : ℤ} (he : HasExponent (num / den) e) (hf : e ≤ f) :
    unitsOf num den f ≤ 2 ^ 53 := by
  have hunit : (num / den / 2 ^ f : ℚ) < 2 ^ 53 := by
    rw [div_lt_iff₀ (by positivity)]
    refine he.2.trans_le ?_
    gcongr
    exact one_le_two
  have hnear := roundQuotient_le (Double.inUnits num den f).1 (inUnits_snd_pos num hden f)
  rw [inUnits_div] at hnear
  have hlt : (unitsOf num den f : ℚ) < 2 ^ 53 + 1 := by
    rw [unitsOf]
    linarith
  have hnat : unitsOf num den f < 2 ^ 53 + 1 := by exact_mod_cast hlt
  omega

/-- In units of its own, a quotient has 53 bits. -/
theorem le_unitsOf (hden : 0 < den) {e : ℤ} (he : HasExponent (num / den) e) :
    2 ^ 52 ≤ unitsOf num den e := by
  have hunit : (2 : ℚ) ^ 52 ≤ num / den / 2 ^ e := by
    rw [le_div_iff₀ (by positivity)]
    exact he.1
  have hnear := le_roundQuotient (Double.inUnits num den e).1 (inUnits_snd_pos num hden e)
  rw [inUnits_div] at hnear
  have hlt : (2 : ℚ) ^ 52 < unitsOf num den e + 1 := by
    rw [unitsOf]
    linarith
  have hnat : 2 ^ 52 < unitsOf num den e + 1 := by exact_mod_cast hlt
  omega

/-- What a quotient is rounded to if its exponent is not too large. -/
def rounded (num den : ℕ) : ℚ :=
  unitsOf num den (Double.exponentOf num den) * 2 ^ Double.exponentOf num den

theorem rounded_nonneg (num den : ℕ) : 0 ≤ rounded num den := by
  unfold rounded
  positivity

theorem rounded_zero (den : ℕ) : rounded 0 den = 0 := by
  simp [rounded, unitsOf_zero]

/-- A quotient is rounded to less than another one of larger exponent. -/
theorem rounded_le_of_lt (hden : 0 < den) (hden' : 0 < den') {e f f' : ℤ}
    (he : HasExponent (num / den) e) (he' : HasExponent (num' / den') f') (hef : e ≤ f)
    (hlt : f < f') : (unitsOf num den f * 2 ^ f : ℚ) ≤ unitsOf num' den' f' * 2 ^ f' := by
  have hmost : (unitsOf num den f : ℚ) ≤ 2 ^ 53 := by exact_mod_cast unitsOf_le hden he hef
  have hleast : (2 : ℚ) ^ 52 ≤ unitsOf num' den' f' := by exact_mod_cast le_unitsOf hden' he'
  have hstep : (2 : ℚ) ^ (f + 1) ≤ 2 ^ f' := zpow_le_zpow_right₀ one_le_two (by omega)
  rw [zpow_add_one₀ two_ne_zero] at hstep
  calc (unitsOf num den f * 2 ^ f : ℚ) ≤ 2 ^ 53 * 2 ^ f := by gcongr
    _ = 2 ^ 52 * (2 ^ f * 2) := by ring
    _ ≤ 2 ^ 52 * 2 ^ f' := by gcongr
    _ ≤ unitsOf num' den' f' * 2 ^ f' := by gcongr

/-- **Rounding keeps the order.** -/
theorem rounded_mono (hden : 0 < den) (hden' : 0 < den') (hle : (num / den : ℚ) ≤ num' / den') :
    rounded num den ≤ rounded num' den' := by
  rcases Nat.eq_zero_or_pos num with rfl | hnum
  · rw [rounded_zero]
    exact rounded_nonneg num' den'
  have hpos : (0 : ℚ) < num / den := by positivity
  have hnum' : 0 < num' := by
    rcases Nat.eq_zero_or_pos num' with rfl | h
    · simp only [Nat.cast_zero, zero_div] at hle
      exact absurd hle (not_le.mpr hpos)
    · exact h
  obtain ⟨e, he, heq⟩ := exponentOf_spec hnum hden
  obtain ⟨e', he', heq'⟩ := exponentOf_spec hnum' hden'
  have hexp : e ≤ e' := he.mono he' hle
  unfold rounded
  rw [heq, heq']
  rcases lt_or_ge (max Double.minExponent e) (max Double.minExponent e') with hlt | hge
  · -- the exponent of the larger one is its own
    have hown : max Double.minExponent e' = e' := by omega
    rw [hown] at hlt ⊢
    exact rounded_le_of_lt hden hden' he he' (le_max_right _ _) hlt
  · have hsame : max Double.minExponent e' = max Double.minExponent e := by omega
    have hunits := unitsOf_mono hden hden' hle (max Double.minExponent e)
    rw [hsame]
    gcongr

end PageDiff.Number
