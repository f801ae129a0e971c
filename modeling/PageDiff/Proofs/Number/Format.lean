import PageDiff.Number.Decimal
import PageDiff.Proofs.Number.Value

/-!
# The numbers of the format

Not every mantissa and exponent is a double: a mantissa has 53 bits, or fewer at the smallest
exponent (`Double.InFormat`).  A number of the format is the double next to its own value
(`ofQuotient_of_inFormat`), and which double is next to a quotient or a decimal is a matter of its
value alone (`ofQuotient_congr`, `ofDecimal_congr`).  So a decimal reads back as the double that it
was made of if only its value is right, and the shortest one does (`ofDecimal_shortest`).
-/

namespace PageDiff.Number

variable {num den num' den' m : ℕ} {s : Bool} {e : ℤ}

namespace Double

/-- Whether a double is one of the format. -/
def InFormat : Double → Prop
  | .nan | .infinity _ => True
  | .finite _ m e =>
    (m < 2 ^ 52 ∧ e = minExponent) ∨
      (2 ^ 52 ≤ m ∧ m < 2 ^ 53 ∧ minExponent ≤ e ∧ e ≤ maxExponent)

theorem inFormat_zero (s : Bool) : InFormat (zero s) := .inl ⟨by positivity, rfl⟩

/-- The double that a rounded quotient is turned into. -/
theorem ofQuotient_eq (s : Bool) (hnum : 0 < num) {f : ℤ} (hf : exponentOf num den = f) :
    ofQuotient s num den =
      if unitsOf num den f = 2 ^ 53 then
        if f + 1 > maxExponent then .infinity s else .finite s (2 ^ 52) (f + 1)
      else if f > maxExponent then .infinity s else .finite s (unitsOf num den f) f := by
  have hpow : Nat.pow 2 53 = 2 ^ 53 := rfl
  rw [ofQuotient, if_neg hnum.ne', hf]
  by_cases h : unitsOf num den f = 2 ^ 53
  · rw [if_pos h]
    rw [unitsOf] at h
    simp only [h, hpow, if_true]
    rfl
  · rw [if_neg h]
    rw [unitsOf] at h
    simp only [h, hpow, if_false]
    rfl

/-- What is made of a quotient is of the format. -/
theorem inFormat_ofQuotient (s : Bool) (num : ℕ) (hden : 0 < den) :
    InFormat (ofQuotient s num den) := by
  rcases Nat.eq_zero_or_pos num with rfl | hnum
  · rw [ofQuotient_zero]
    exact inFormat_zero s
  obtain ⟨e, he, hexp⟩ := exponentOf_spec hnum hden
  have hmost := unitsOf_le hden he (le_max_right minExponent e)
  have hleast (h : minExponent < max minExponent e) :
      2 ^ 52 ≤ unitsOf num den (max minExponent e) := by
    rw [max_eq_right (by omega)]
    exact le_unitsOf hden he
  rw [ofQuotient_eq s hnum hexp]
  set f := max minExponent e with hf
  have hmin : minExponent ≤ f := le_max_left _ _
  split
  · split
    · trivial
    · exact .inr ⟨le_rfl, by norm_num, by omega, by omega⟩
  · split
    · trivial
    · rcases hmin.eq_or_lt with heq | hlt
      · by_cases hsmall : unitsOf num den f < 2 ^ 52
        · exact .inl ⟨hsmall, heq.symm⟩
        · exact .inr ⟨by omega, by omega, hmin, by omega⟩
      · exact .inr ⟨hleast hlt, by omega, hmin, by omega⟩

/-! ### Values alone count -/

/-- There is only one exponent that a size can have. -/
theorem exponentOf_congr (hnum : 0 < num) (hnum' : 0 < num') (hden : 0 < den) (hden' : 0 < den')
    (h : (num / den : ℚ) = num' / den') : exponentOf num den = exponentOf num' den' := by
  obtain ⟨e, he, heq⟩ := exponentOf_spec hnum hden
  obtain ⟨e', he', heq'⟩ := exponentOf_spec hnum' hden'
  have hsame : e = e' := le_antisymm (he.mono he' h.le) (he'.mono he h.ge)
  rw [heq, heq', hsame]

theorem unitsOf_congr (hden : 0 < den) (hden' : 0 < den') (h : (num / den : ℚ) = num' / den')
    (f : ℤ) : unitsOf num den f = unitsOf num' den' f :=
  le_antisymm (unitsOf_mono hden hden' h.le f) (unitsOf_mono hden' hden h.ge f)

/-- Which double is next to a quotient is a matter of its value. -/
theorem ofQuotient_congr (s : Bool) (hnum : 0 < num) (hnum' : 0 < num') (hden : 0 < den)
    (hden' : 0 < den') (h : (num / den : ℚ) = num' / den') :
    ofQuotient s num den = ofQuotient s num' den' := by
  rw [ofQuotient_eq s hnum (exponentOf_congr hnum hnum' hden hden' h), ofQuotient_eq s hnum' rfl,
    unitsOf_congr hden hden' h]

/-- The sign has no part in the rounding. -/
theorem ofQuotient_signed {negative : Bool} (h : ofQuotient false num den = .finite false m e) :
    ofQuotient negative num den = .finite negative m e := by
  rcases Nat.eq_zero_or_pos num with rfl | hnum
  · rw [ofQuotient_zero] at h ⊢
    cases h
    rfl
  · rw [ofQuotient_eq _ hnum rfl] at h ⊢
    revert h
    split
    · split <;> grind
    · split <;> grind

/-! ### A number of the format is next to itself -/

/-- The exponent of a number of the format is the one that is found for its value. -/
theorem exponentOf_of_inFormat (hm : 0 < m) (hden : 0 < den) (hfmt : InFormat (.finite s m e))
    (h : (num / den : ℚ) = m * 2 ^ e) : 0 < num ∧ exponentOf num den = e := by
  have hvalue : (0 : ℚ) < num / den := by
    rw [h]
    positivity
  have hnum : 0 < num := by
    rcases Nat.eq_zero_or_pos num with rfl | hpos
    · simp at hvalue
    · exact hpos
  obtain ⟨f, hf, heq⟩ := exponentOf_spec hnum hden
  refine ⟨hnum, ?_⟩
  rw [heq]
  rcases hfmt with ⟨hsmall, rfl⟩ | ⟨hlow, hhigh, hmin, -⟩
  · -- with fewer bits the exponent of the value is smaller than all exponents
    have hm' : (m : ℚ) ≤ 2 ^ 52 := by exact_mod_cast hsmall.le
    have htop : HasExponent (2 ^ 52 * 2 ^ minExponent) minExponent :=
      ⟨le_rfl, by gcongr <;> norm_num⟩
    have hle : f ≤ minExponent := hf.mono htop (by rw [h]; gcongr)
    exact max_eq_left hle
  · have hown : HasExponent (m * 2 ^ e) e := by
      have hlow' : (2 : ℚ) ^ 52 ≤ m := by exact_mod_cast hlow
      have hhigh' : (m : ℚ) < 2 ^ 53 := by exact_mod_cast hhigh
      exact ⟨by gcongr, by gcongr⟩
    have hsame : f = e := le_antisymm (hf.mono hown h.le) (hown.mono hf h.ge)
    rw [hsame]
    exact max_eq_right hmin

/-- **A number of the format is the double next to its value.** -/
theorem ofQuotient_of_inFormat (hm : 0 < m) (hden : 0 < den) (hfmt : InFormat (.finite s m e))
    (h : (num / den : ℚ) = m * 2 ^ e) : ofQuotient s num den = .finite s m e := by
  obtain ⟨hnum, hexp⟩ := exponentOf_of_inFormat hm hden hfmt h
  have hunits : unitsOf num den e = m := by
    have hpos := inUnits_snd_pos num hden e
    have hq : (0 : ℚ) < (inUnits num den e).2 := by exact_mod_cast hpos
    have hdiv := inUnits_div num den e
    rw [h, mul_div_assoc, div_self (by positivity), mul_one, div_eq_iff hq.ne'] at hdiv
    have hexact : (inUnits num den e).1 = m * (inUnits num den e).2 := by exact_mod_cast hdiv
    rw [unitsOf, hexact, roundQuotient_mul m hpos]
  have hm53 : m < 2 ^ 53 := by
    rcases hfmt with ⟨hlt, -⟩ | ⟨-, hlt, -⟩
    · exact hlt.trans (by norm_num)
    · exact hlt
  have hmax : e ≤ maxExponent := by
    rcases hfmt with ⟨-, rfl⟩ | ⟨-, -, -, hle⟩
    · decide
    · exact hle
  rw [ofQuotient_eq s hnum hexp, hunits, if_neg hm53.ne, if_neg (by omega)]

/-! ### Decimals -/

/-- Powers of two lie at the bottom of the range of their exponent. -/
theorem hasExponent_two_zpow (e : ℤ) : HasExponent (2 ^ (52 + e)) e := by
  constructor
  · rw [zpow_add₀ two_ne_zero]
    rfl
  · rw [zpow_add₀ two_ne_zero]
    gcongr
    norm_num

theorem ofQuotient_of_large (s : Bool) (hnum : 0 < num) (hden : 0 < den)
    (h : (2 : ℚ) ^ (1024 : ℤ) ≤ num / den) : ofQuotient s num den = .infinity s := by
  obtain ⟨e, he, hexp⟩ := exponentOf_spec hnum hden
  have hle : 972 ≤ e := (hasExponent_two_zpow 972).mono he h
  have hmax : maxExponent < max minExponent e := by
    rw [maxExponent, minExponent]
    omega
  rw [ofQuotient_eq s hnum hexp, if_pos hmax, if_pos (hmax.trans (lt_add_one _)), ite_self]

theorem ofQuotient_of_small (s : Bool) (hnum : 0 < num) (hden : 0 < den)
    (h : (num / den : ℚ) < 2 ^ (-1075 : ℤ)) : ofQuotient s num den = zero s := by
  obtain ⟨e, he, hexp⟩ := exponentOf_spec hnum hden
  have hle : e ≤ -1127 := he.mono (hasExponent_two_zpow (-1127)) h.le
  rw [max_eq_left (by rw [minExponent]; omega)] at hexp
  have hunits : unitsOf num den minExponent = 0 := by
    have hnear := roundQuotient_le (inUnits num den minExponent).1
      (inUnits_snd_pos num hden minExponent)
    rw [inUnits_div] at hnear
    have hhalf : (num / den / 2 ^ minExponent : ℚ) < 1 / 2 := by
      rw [div_lt_iff₀ (by positivity)]
      calc (num / den : ℚ) < 2 ^ (-1075 : ℤ) := h
        _ = 1 / 2 * 2 ^ minExponent := by
          rw [minExponent, show (-1075 : ℤ) = -1 + -1074 by norm_num, zpow_add₀ two_ne_zero]
          norm_num
    have hlt : (unitsOf num den minExponent : ℚ) < 1 := by
      rw [unitsOf]
      linarith
    have hnat : unitsOf num den minExponent < 1 := by exact_mod_cast hlt
    omega
  rw [ofQuotient_eq s hnum hexp, hunits, if_neg (by norm_num), if_neg (by decide)]
  rfl

/-- A decimal as a quotient. -/
theorem decimal_div (digits : ℕ) (exponent : ℤ) :
    ((digits * Nat.pow 10 exponent.toNat : ℕ) / (Nat.pow 10 (-exponent).toNat : ℕ) : ℚ) =
      digits * 10 ^ exponent := by
  simp only [Nat.pow_eq, Nat.cast_mul, Nat.cast_pow, Nat.cast_ofNat]
  rw [← pow_toNat_div 10 exponent, mul_div_assoc]

theorem toDigits_bounds {digits : ℕ} (h : 0 < digits) :
    (10 : ℚ) ^ ((Nat.toDigits 10 digits).length - 1 : ℤ) ≤ digits ∧
      (digits : ℚ) < 10 ^ ((Nat.toDigits 10 digits).length : ℤ) := by
  set n := (Nat.toDigits 10 digits).length with hn
  have hpos : 0 < n := List.length_pos_iff.mpr Nat.toDigits_ne_nil
  constructor
  · have hlow : 10 ^ (n - 1) ≤ digits := by
      rcases Nat.eq_zero_or_pos (n - 1) with h0 | h1
      · rwa [h0, pow_zero]
      · have hiff := Nat.length_toDigits_le_iff (n := digits) (b := 10) (by norm_num) h1
        omega
    have hcast : (10 : ℚ) ^ (n - 1) ≤ digits := by exact_mod_cast hlow
    rwa [show ((n : ℤ) - 1) = ((n - 1 : ℕ) : ℤ) by omega, zpow_natCast]
  · have hhigh : digits < 10 ^ n :=
      (Nat.length_toDigits_le_iff (by norm_num) hpos).mp (le_of_eq hn.symm)
    rw [zpow_natCast]
    exact_mod_cast hhigh

theorem two_pow_le_ten_pow : (2 : ℚ) ^ (1024 : ℤ) ≤ 10 ^ (310 : ℤ) := by
  have hnat : 2 ^ 1024 ≤ 10 ^ 310 := by decide +kernel
  exact_mod_cast hnat

theorem ten_pow_lt_two_pow : (10 : ℚ) ^ (-331 : ℤ) < 2 ^ (-1075 : ℤ) := by
  have hnat : 2 ^ 1075 < 10 ^ 331 := by decide +kernel
  rw [zpow_neg, zpow_neg, inv_lt_inv₀ (by positivity) (by positivity)]
  exact_mod_cast hnat

/-- The sizes from which on a decimal is taken as zero or as infinite change nothing: it would be
rounded to them. -/
theorem ofDecimal_eq_ofQuotient (s : Bool) {digits : ℕ} (h : 0 < digits) (exponent : ℤ) :
    ofDecimal s digits exponent =
      ofQuotient s (digits * Nat.pow 10 exponent.toNat) (Nat.pow 10 (-exponent).toNat) := by
  have hnum : 0 < digits * Nat.pow 10 exponent.toNat := by
    simp only [Nat.pow_eq]
    positivity
  have hden : 0 < Nat.pow 10 (-exponent).toNat := by
    simp only [Nat.pow_eq]
    positivity
  have hvalue := decimal_div digits exponent
  obtain ⟨hlow, hhigh⟩ := toDigits_bounds h
  have hten : (0 : ℚ) < 10 ^ exponent := by positivity
  rw [ofDecimal]
  simp only [h.ne', false_or]
  split
  · next hsmall =>
    symm
    refine ofQuotient_of_small s hnum hden ?_
    rw [hvalue]
    calc (digits : ℚ) * 10 ^ exponent
        < 10 ^ ((Nat.toDigits 10 digits).length : ℤ) * 10 ^ exponent := by gcongr
      _ = 10 ^ ((Nat.toDigits 10 digits).length + exponent : ℤ) :=
        (zpow_add₀ (by norm_num) _ _).symm
      _ ≤ 10 ^ (-331 : ℤ) := zpow_le_zpow_right₀ (by norm_num) (by omega)
      _ < 2 ^ (-1075 : ℤ) := ten_pow_lt_two_pow
  · split
    · next hlarge =>
      symm
      refine ofQuotient_of_large s hnum hden ?_
      rw [hvalue]
      calc (2 : ℚ) ^ (1024 : ℤ) ≤ 10 ^ (310 : ℤ) := two_pow_le_ten_pow
        _ ≤ 10 ^ ((Nat.toDigits 10 digits).length - 1 + exponent : ℤ) :=
          zpow_le_zpow_right₀ (by norm_num) (by omega)
        _ = 10 ^ ((Nat.toDigits 10 digits).length - 1 : ℤ) * 10 ^ exponent :=
          zpow_add₀ (by norm_num) _ _
        _ ≤ digits * 10 ^ exponent := by gcongr
    · rfl

theorem ofDecimal_zero (s : Bool) (exponent : ℤ) : ofDecimal s 0 exponent = zero s := by
  simp [ofDecimal]

theorem inFormat_ofDecimal (s : Bool) (digits : ℕ) (exponent : ℤ) :
    InFormat (ofDecimal s digits exponent) := by
  rcases Nat.eq_zero_or_pos digits with rfl | h
  · rw [ofDecimal_zero]
    exact inFormat_zero s
  · rw [ofDecimal_eq_ofQuotient s h]
    refine inFormat_ofQuotient s _ ?_
    simp only [Nat.pow_eq]
    positivity

/-- Which double is next to a decimal is a matter of its value: zeros may be taken from the digits
into the exponent. -/
theorem ofDecimal_mul_pow (s : Bool) {digits k : ℕ} {exponent : ℤ} :
    ofDecimal s (digits * 10 ^ k) (exponent - k) = ofDecimal s digits exponent := by
  rcases Nat.eq_zero_or_pos digits with rfl | h
  · simp [ofDecimal_zero]
  · have hmul : 0 < digits * 10 ^ k := by positivity
    rw [ofDecimal_eq_ofQuotient s hmul, ofDecimal_eq_ofQuotient s h]
    apply ofQuotient_congr s
    · simp only [Nat.pow_eq]
      positivity
    · simp only [Nat.pow_eq]
      positivity
    · simp only [Nat.pow_eq]
      positivity
    · simp only [Nat.pow_eq]
      positivity
    · rw [decimal_div, decimal_div, zpow_sub₀ (by norm_num), zpow_natCast]
      push_cast
      field_simp

theorem ofDecimal_signed {digits : ℕ} {exponent : ℤ} {negative : Bool}
    (h : ofDecimal false digits exponent = .finite false m e) :
    ofDecimal negative digits exponent = .finite negative m e := by
  rcases Nat.eq_zero_or_pos digits with rfl | hpos
  · rw [ofDecimal_zero] at h ⊢
    cases h
    rfl
  · rw [ofDecimal_eq_ofQuotient _ hpos] at h ⊢
    exact ofQuotient_signed h

end Double

/-! ### The shortest decimal -/

namespace Decimal

/-- The digits without the zeros at their end have the same value. -/
theorem value_normalized (digits : ℕ) (exponent : ℤ) :
    ((normalized digits exponent).digits : ℚ) * 10 ^ (normalized digits exponent).exponent =
      digits * 10 ^ exponent := by
  induction digits using Nat.strong_induction_on generalizing exponent with
  | _ digits ih =>
    rw [normalized]
    split
    · next h =>
      have hten : (digits : ℚ) = (digits / 10 : ℕ) * 10 := by
        have hnat : digits = digits / 10 * 10 := by omega
        exact_mod_cast hnat
      rw [ih (digits / 10) (by omega), zpow_add_one₀ (by norm_num), hten]
      ring
    · rfl

end Decimal

namespace Double

theorem value_exact (m : ℕ) (e : ℤ) :
    ((exact m e).digits : ℚ) * 10 ^ (exact m e).exponent = m * 2 ^ e := by
  rw [exact, Decimal.value_normalized]
  simp only [Nat.pow_eq, Nat.cast_mul, Nat.cast_pow, Nat.cast_ofNat]
  rw [← pow_toNat_div 2 e, zpow_neg, zpow_natCast,
    show (10 : ℚ) = 2 * 5 by norm_num, mul_pow]
  field_simp

/-- The exact decimal reads back. -/
theorem ofDecimal_exact (hm : 0 < m) (hfmt : InFormat (.finite false m e)) :
    ofDecimal false (exact m e).digits (exact m e).exponent = .finite false m e := by
  have hvalue := value_exact m e
  have hdigits : 0 < (exact m e).digits := by
    rcases Nat.eq_zero_or_pos (exact m e).digits with h0 | h
    · have hpos : (0 : ℚ) < m * 2 ^ e := by positivity
      rw [h0] at hvalue
      simp only [Nat.cast_zero, zero_mul] at hvalue
      exact absurd hvalue hpos.ne
    · exact h
  rw [ofDecimal_eq_ofQuotient false hdigits]
  refine ofQuotient_of_inFormat hm ?_ hfmt ?_
  · simp only [Nat.pow_eq]
    positivity
  · rw [decimal_div, hvalue]

/-- **The shortest decimal reads back.** -/
theorem ofDecimal_shortest (hm : 0 < m) (hfmt : InFormat (.finite false m e)) :
    ofDecimal false (shortest m e).digits (shortest m e).exponent = .finite false m e := by
  simp only [shortest]
  cases hfind : List.find? (readsBack m e)
      ((List.range 17).flatMap fun n => neighbours (n + 1) m e) with
  | none => exact ofDecimal_exact hm hfmt
  | some d =>
    have hback := List.find?_some hfind
    simpa [readsBack] using hback

theorem shortest_digits_pos (hm : 0 < m) (hfmt : InFormat (.finite false m e)) :
    0 < (shortest m e).digits := by
  rcases Nat.eq_zero_or_pos (shortest m e).digits with h0 | h
  · have hback := ofDecimal_shortest hm hfmt
    rw [h0, ofDecimal_zero] at hback
    cases hback
    exact absurd hm (lt_irrefl 0)
  · exact h

end Double

end PageDiff.Number
