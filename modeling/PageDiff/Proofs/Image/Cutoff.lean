import PageDiff.Config
import PageDiff.Image.Compare
import PageDiff.Proofs.Number.Value

/-!
# Thresholds and cutoffs

A threshold between 0 and 1 is multiplied by the range of a channel, the product is rounded to a
double, and its fraction is dropped.  The cutoff that comes of it always exists and is a distance
of two channels (`exists_cutoff`), and a larger threshold has no smaller cutoff (`cutoff_mono`).
-/

namespace PageDiff.Image

open PageDiff.Number PageDiff.Schema

variable {t t' : Numeric}

/-- A threshold that settings may have: a number between 0 and 1. -/
def IsFraction : Numeric → Prop
  | .int n => 0 ≤ n ∧ n ≤ 1
  | .double x => Double.zero.le x = true ∧ x.le (.ofInt 1) = true

theorem isFraction_of_checkThreshold {v : Json.Value} {x : Double}
    (h : Config.checkThreshold v = .ok x) : IsFraction (.double x) := by
  unfold Config.checkThreshold at h
  cases hd : checkDouble v with
  | bad issues =>
    rw [hd] at h
    cases h
  | ok y =>
    rw [hd] at h
    simp only [Checked.andThen] at h
    split at h
    · next hin =>
      cases h
      exact Bool.and_eq_true_iff.mp hin
    · cases h

theorem isFraction_double_iff {x : Double} : IsFraction (.double x) ↔
    ∃ s m e, x = .finite s m e ∧ 0 ≤ Double.value s m e ∧ Double.value s m e ≤ 1 := by
  have hone : Double.ofInt 1 = .finite false (Nat.pow 2 52) (-52) := by decide +kernel
  have hvalue : Double.value false (Nat.pow 2 52) (-52) = 1 := by
    norm_num [Double.value, Nat.pow_eq]
  have hzero (e : ℤ) : Double.value false 0 e = 0 := by simp [Double.value]
  cases x with
  | nan => simp [IsFraction, Double.le]
  | infinity s => cases s <;> simp [IsFraction, Double.le, Double.zero, hone]
  | finite s m e =>
    simp only [IsFraction, Double.zero, hone, Double.le_finite_iff, hvalue, hzero,
      Double.finite.injEq]
    constructor
    · exact fun h => ⟨s, m, e, ⟨rfl, rfl, rfl⟩, h⟩
    · rintro ⟨_, _, _, ⟨rfl, rfl, rfl⟩, h⟩
      exact h

theorem value_le_one (ht : IsFraction t) : t.value ≤ 1 := by
  cases t with
  | int n =>
    have h : (n : ℚ) ≤ 1 := by exact_mod_cast ht.2
    exact h
  | double x =>
    obtain ⟨s, m, e, rfl, -, hhigh⟩ := isFraction_double_iff.mp ht
    exact hhigh

/-- The product of a finite double and the range of a channel. -/
theorem mul_range (s : Bool) (m : ℕ) (e : ℤ) : ∃ num den : ℕ, 0 < den ∧
    (num / den : ℚ) = 255 * (m * 2 ^ e) ∧ (m = 0 → num = 0) ∧
      (Double.finite s m e).mul (.ofInt 255) = .ofQuotient s num den := by
  have hrange : Double.ofInt 255 = .finite false (255 * Nat.pow 2 45) (-45) := by decide +kernel
  refine ⟨(Double.quotient (m * (255 * Nat.pow 2 45)) (e + -45)).1,
    (Double.quotient (m * (255 * Nat.pow 2 45)) (e + -45)).2, quotient_snd_pos _ _, ?_, ?_, ?_⟩
  · rw [quotient_div, zpow_add₀ two_ne_zero]
    simp only [Nat.pow_eq]
    push_cast
    ring
  · rintro rfl
    simp [Double.quotient]
  · rw [hrange]
    simp [Double.mul]

/-- The cutoff of a product that is finite once it has been rounded. -/
theorem cutoff_of_ofQuotient {x : Double} {s negative : Bool} {num den m : ℕ} {e : ℤ}
    (hmul : x.mul (.ofInt 255) = .ofQuotient s num den)
    (hof : Double.ofQuotient s num den = .finite negative m e) :
    cutoff (.double x) = .ok (Double.truncate negative m e) := by
  have hscale : (Numeric.double x).scale 255 = .double (.finite negative m e) :=
    congrArg Numeric.double (hmul.trans hof)
  rw [cutoff, hscale]

/-- The whole range of a channel is left as it is. -/
theorem rounded_range : rounded 255 1 = 255 := by
  have hexp : Double.exponentOf 255 1 = -45 := by decide +kernel
  have hunits : unitsOf 255 1 (-45) = 255 * Nat.pow 2 45 := by
    rw [unitsOf, ← roundQuotient_mul (255 * Nat.pow 2 45) one_pos]
    rfl
  rw [rounded, hexp, hunits, Nat.pow_eq]
  norm_num

/-- The cutoff is the whole part of what the product is rounded to. -/
theorem cutoff_eq_floor (ht : IsFraction t) : ∃ num den : ℕ, 0 < den ∧
    (num / den : ℚ) = 255 * t.value ∧ cutoff t = .ok ⌊rounded num den⌋ := by
  cases t with
  | int n =>
    obtain rfl | rfl : n = 0 ∨ n = 1 := by
      have h : 0 ≤ n ∧ n ≤ 1 := ht
      omega
    · exact ⟨0, 1, one_pos, by simp [Numeric.value], by simp [cutoff, Numeric.scale, rounded_zero]⟩
    · refine ⟨255, 1, one_pos, by simp [Numeric.value], ?_⟩
      rw [rounded_range]
      simp [cutoff, Numeric.scale]
  | double x =>
    obtain ⟨s, m, e, rfl, hlow, hhigh⟩ := isFraction_double_iff.mp ht
    obtain ⟨num, den, hden, hproduct, hzero, hmul⟩ := mul_range s m e
    have hvalue : (Numeric.double (.finite s m e)).value = Double.value s m e := rfl
    rw [hvalue]
    rcases Nat.eq_zero_or_pos m with rfl | hm
    · obtain rfl := hzero rfl
      refine ⟨0, 1, one_pos, by simp [Double.value], ?_⟩
      rw [cutoff_of_ofQuotient hmul (Double.ofQuotient_zero s den), Double.truncate_zero,
        rounded_zero, Int.floor_zero]
    · have hsize : (0 : ℚ) < m * 2 ^ e := by positivity
      have hsign : s = false := by
        by_contra hs
        rw [Double.value, if_pos (by simpa using hs)] at hlow
        linarith
      subst hsign
      have hplain : Double.value false m e = m * 2 ^ e := by simp [Double.value]
      rw [hplain] at hhigh ⊢
      have hnum : 0 < num := by
        rcases Nat.eq_zero_or_pos num with rfl | h
        · simp only [Nat.cast_zero, zero_div] at hproduct
          linarith
        · exact h
      obtain ⟨m', e', hof, hrounded⟩ := Double.ofQuotient_of_lt false hnum hden (by linarith)
      refine ⟨num, den, hden, hproduct, ?_⟩
      rw [cutoff_of_ofQuotient hmul hof, Double.truncate_eq_floor, hrounded]

/-- The cutoff of a fraction is a distance of two channels. -/
theorem exists_cutoff (ht : IsFraction t) : ∃ c, cutoff t = .ok c ∧ 0 ≤ c ∧ c ≤ 255 := by
  obtain ⟨num, den, hden, hproduct, hcutoff⟩ := cutoff_eq_floor ht
  refine ⟨_, hcutoff, Int.floor_nonneg.mpr (rounded_nonneg num den), ?_⟩
  have hvalue : t.value ≤ 1 := value_le_one ht
  have hrange : rounded num den ≤ 255 := by
    rw [← rounded_range]
    apply rounded_mono hden one_pos
    rw [hproduct]
    push_cast
    linarith
  have hfloor : (⌊rounded num den⌋ : ℚ) ≤ 255 := (Int.floor_le _).trans hrange
  exact_mod_cast hfloor

/-- A larger threshold has no smaller cutoff. -/
theorem cutoff_mono (ht : IsFraction t) (ht' : IsFraction t') (hle : t.value ≤ t'.value) {c c' : ℤ}
    (hc : cutoff t = .ok c) (hc' : cutoff t' = .ok c') : c ≤ c' := by
  obtain ⟨num, den, hden, hproduct, hcutoff⟩ := cutoff_eq_floor ht
  obtain ⟨num', den', hden', hproduct', hcutoff'⟩ := cutoff_eq_floor ht'
  rw [hc] at hcutoff
  rw [hc'] at hcutoff'
  rw [Except.ok.inj hcutoff, Except.ok.inj hcutoff']
  apply Int.floor_le_floor
  apply rounded_mono hden hden'
  rw [hproduct, hproduct']
  linarith

end PageDiff.Image
