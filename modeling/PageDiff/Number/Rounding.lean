/-!
# Rounding a quotient

`roundQuotient num den` is the integer next to `num / den`; a tie goes to the even one.
-/

namespace PageDiff.Number

/-- The integer next to a quotient, the even one of two that are equally near. -/
def roundQuotient (num den : Nat) : Nat :=
  let q := num / den
  let r := num % den
  if 2 * r < den then q
  else if den < 2 * r then q + 1
  else q + q % 2

/-- A quotient is never further than half a unit from what it is rounded to. -/
theorem roundQuotient_near (num : Nat) {den : Nat} (h : 0 < den) :
    2 * num ≤ (2 * roundQuotient num den + 1) * den ∧
      2 * roundQuotient num den * den ≤ 2 * num + den := by
  have hd := Nat.div_add_mod num den
  have hr := Nat.mod_lt num h
  have hc : num / den * den = den * (num / den) := Nat.mul_comm _ _
  unfold roundQuotient
  simp only
  split
  · constructor <;> grind
  · split
    · constructor <;> grind
    · have hp : num / den % 2 = 0 ∨ num / den % 2 = 1 := Nat.mod_two_eq_zero_or_one _
      rcases hp with hp | hp <;> rw [hp] <;> constructor <;> grind

/-- A quotient that is an integer stays as it is. -/
theorem roundQuotient_mul (n : Nat) {den : Nat} (h : 0 < den) :
    roundQuotient (n * den) den = n := by
  simp [roundQuotient, Nat.mul_div_cancel n h, h]

end PageDiff.Number
