import PageDiff.Number.Numeric
import PageDiff.Proofs.Number.Nearest

/-!
# The exact values of numbers

A finite double stands for a rational number.  Doubles are compared and cut off by these numbers,
and a quotient that is not too large is turned into a double with the number that it is rounded to.
-/

namespace PageDiff.Number

variable {num den m n : ℕ} {s t : Bool} {e f : ℤ}

namespace Double

/-- The exact value of a finite double. -/
def value (negative : Bool) (m : ℕ) (e : ℤ) : ℚ := if negative then -(m * 2 ^ e) else m * 2 ^ e

/-! ### Order -/

theorem signedUnits_mul {unit : ℤ} (h : unit ≤ e) :
    (signedUnits s m e unit : ℚ) * 2 ^ unit = value s m e := by
  have hpow : (2 : ℚ) ^ (e - unit).toNat * 2 ^ unit = 2 ^ e := by
    rw [← zpow_natCast, ← zpow_add₀ two_ne_zero]
    congr 1
    omega
  cases s with
  | false =>
    simp only [signedUnits, value, Nat.pow_eq, Bool.false_eq_true, if_false]
    push_cast
    rw [mul_assoc, hpow]
  | true =>
    simp only [signedUnits, value, Nat.pow_eq, if_true]
    push_cast
    rw [neg_mul, mul_assoc, hpow]

theorem le_finite_iff :
    (finite s m e).le (finite t n f) = true ↔ value s m e ≤ value t n f := by
  have hpos : (0 : ℚ) < 2 ^ min e f := by positivity
  rw [le, decide_eq_true_eq, ← signedUnits_mul (s := s) (m := m) (min_le_left e f),
    ← signedUnits_mul (s := t) (m := n) (min_le_right e f), mul_le_mul_iff_left₀ hpos, Int.cast_le]

/-! ### The whole part -/

theorem truncate_eq_floor (m : ℕ) (e : ℤ) : truncate false m e = ⌊(m * 2 ^ e : ℚ)⌋ := by
  rw [← quotient_div, Rat.floor_natCast_div_natCast]
  rfl

theorem truncate_zero (negative : Bool) (e : ℤ) : truncate negative 0 e = 0 := by
  cases negative with
  | false => simp [truncate, quotient]
  | true => simp [truncate, quotient]

/-! ### Quotients -/

theorem ofQuotient_zero (negative : Bool) (den : ℕ) :
    ofQuotient negative 0 den = zero negative := by
  simp [ofQuotient]

theorem ofQuotient_of_exponentOf_lt (negative : Bool) (hnum : 0 < num)
    (h : exponentOf num den < maxExponent) : ∃ m e,
      ofQuotient negative num den = finite negative m e ∧ (m * 2 ^ e : ℚ) = rounded num den := by
  rw [ofQuotient, if_neg hnum.ne']
  simp only [rounded, unitsOf]
  set e := exponentOf num den with he
  by_cases hfull : roundQuotient (inUnits num den e).1 (inUnits num den e).2 = Nat.pow 2 53
  · -- one bit too many: it is taken into the exponent
    simp only [hfull, if_true]
    refine ⟨Nat.pow 2 52, e + 1, if_neg (by omega), ?_⟩
    rw [zpow_add_one₀ two_ne_zero]
    simp only [Nat.pow_eq]
    push_cast
    ring
  · simp only [hfull, if_false]
    exact ⟨_, e, if_neg (by omega), rfl⟩

/-- A quotient below `2 ^ 53` is turned into a finite double. -/
theorem ofQuotient_of_lt (negative : Bool) (hnum : 0 < num) (hden : 0 < den)
    (h : (num / den : ℚ) < 2 ^ 53) : ∃ m e,
      ofQuotient negative num den = finite negative m e ∧ (m * 2 ^ e : ℚ) = rounded num den := by
  apply ofQuotient_of_exponentOf_lt negative hnum
  obtain ⟨e, he, heq⟩ := exponentOf_spec hnum hden
  have hone : HasExponent (2 ^ 53 : ℚ) 1 := by
    constructor <;> norm_num
  have hle : e ≤ 1 := he.mono hone h.le
  rw [heq, minExponent, maxExponent]
  omega

end Double

/-! ### Numbers of two kinds -/

/-- The exact value of a number that is finite. -/
def Numeric.value : Numeric → ℚ
  | .int n => n
  | .double (.finite s m e) => Double.value s m e
  | .double _ => 0

end PageDiff.Number
