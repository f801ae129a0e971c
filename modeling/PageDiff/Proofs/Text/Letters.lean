import Mathlib.Data.List.Forall2
import PageDiff.Proofs.Text.Pieces
import PageDiff.Text.Capitals

/-!
# Letters in either case

Texts that differ in the case of ASCII letters only.  They have the same capitals, and since no
letter is blank, they lose as much where blank characters are dropped.
-/

namespace PageDiff.Text

/-- The same character, or the same ASCII letter in the other case. -/
def SameLetter (c d : Char) : Prop := c.toLower = d.toLower

/-- Two texts that differ in the case of ASCII letters only. -/
def SameLetters : List Char → List Char → Prop := List.Forall₂ SameLetter

instance : DecidableRel SameLetter := fun c d => inferInstanceAs (Decidable (c.toLower = d.toLower))

instance : DecidableRel SameLetters :=
  fun a b => inferInstanceAs (Decidable (List.Forall₂ SameLetter a b))

/-- An ASCII letter. -/
def IsLetter (c : Char) : Prop :=
  (65 ≤ c.toNat ∧ c.toNat ≤ 90) ∨ (97 ≤ c.toNat ∧ c.toNat ≤ 122)

variable {c d : Char} {a b : List Char}

/-! ### One letter -/

theorem toNat_toLower (c : Char) :
    c.toLower.toNat = if 65 ≤ c.toNat ∧ c.toNat ≤ 90 then c.toNat + 32 else c.toNat := by
  unfold Char.toLower
  have hcapital : (c.val ≥ 'A'.val ∧ c.val ≤ 'Z'.val) ↔ (65 ≤ c.toNat ∧ c.toNat ≤ 90) := by
    simp [UInt32.le_iff_toNat_le]
  by_cases h : 65 ≤ c.toNat ∧ c.toNat ≤ 90
  · rw [dif_pos (hcapital.mpr h), if_pos h]
    show (c.val + ('a'.val - 'A'.val)).toNat = c.val.toNat + 32
    have hstep : ('a'.val - 'A'.val).toNat = 32 := by decide
    have hval : c.val.toNat ≤ 90 := h.2
    rw [UInt32.toNat_add, hstep]
    omega
  · rw [dif_neg (mt hcapital.mp h), if_neg h]

theorem toNat_toUpper (c : Char) :
    c.toUpper.toNat = if 97 ≤ c.toNat ∧ c.toNat ≤ 122 then c.toNat - 32 else c.toNat := by
  unfold Char.toUpper
  have hsmall : ('a'.val ≤ c.val ∧ c.val ≤ 'z'.val) ↔ (97 ≤ c.toNat ∧ c.toNat ≤ 122) := by
    simp [UInt32.le_iff_toNat_le]
  by_cases h : 97 ≤ c.toNat ∧ c.toNat ≤ 122
  · rw [dif_pos (hsmall.mpr h), if_pos h]
    show (c.val + ('A'.val - 'a'.val)).toNat = c.val.toNat - 32
    have hstep : ('A'.val - 'a'.val).toNat = 2 ^ 32 - 32 := by decide
    have hval : 97 ≤ c.val.toNat ∧ c.val.toNat ≤ 122 := h
    rw [UInt32.toNat_add, hstep]
    omega
  · rw [dif_neg (mt hsmall.mp h), if_neg h]

theorem SameLetter.eq_or_isLetter (h : SameLetter c d) :
    c = d ∨ (IsLetter c ∧ IsLetter d ∧ c.toUpper = d.toUpper) := by
  have hlower : c.toLower.toNat = d.toLower.toNat := congrArg Char.toNat h
  rw [toNat_toLower, toNat_toLower] at hlower
  by_cases hne : c.toNat = d.toNat
  · exact .inl (Char.toNat_inj.mp hne)
  · have hletters : IsLetter c ∧ IsLetter d := by
      unfold IsLetter
      split_ifs at hlower <;> omega
    refine .inr ⟨hletters.1, hletters.2, Char.toNat_inj.mp ?_⟩
    rw [toNat_toUpper, toNat_toUpper]
    split_ifs at hlower ⊢ <;> omega

theorem not_isBlank_of_isLetter (h : IsLetter c) : isBlank c = false := by
  have hranges : ∀ r ∈ blankRanges, r.2 < 65 ∨ 122 < r.1 := by decide
  rw [isBlank, inRanges, List.any_eq_false]
  intro r hr
  have hoff := hranges r hr
  unfold IsLetter at h
  simp only [Bool.and_eq_true, decide_eq_true_eq]
  omega

/-- What no letter is, both characters are or neither. -/
theorem SameLetter.congr {p : Char → Bool} (hp : ∀ c, IsLetter c → p c = false)
    (h : SameLetter c d) : p c = p d := by
  rcases h.eq_or_isLetter with rfl | ⟨hc, hd, -⟩
  · rfl
  · rw [hp c hc, hp d hd]

theorem SameLetter.isBlank_eq (h : SameLetter c d) : isBlank c = isBlank d :=
  h.congr fun _ => not_isBlank_of_isLetter

/-- The letters outside ASCII are no ASCII letters. -/
theorem foreignCapitals_of_isLetter (h : IsLetter c) : foreignCapitals.lookup c.toNat = none := by
  have hforeign : ∀ e ∈ foreignCapitals, 122 < e.1 := by decide
  rw [List.lookup_eq_none_iff]
  intro e he
  have hgreat := hforeign e he
  unfold IsLetter at h
  rw [bne_iff_ne]
  omega

theorem SameLetter.capital_eq (h : SameLetter c d) : capital c = capital d := by
  rcases h.eq_or_isLetter with rfl | ⟨hc, hd, hupper⟩
  · rfl
  · rw [capital, capital, foreignCapitals_of_isLetter hc, foreignCapitals_of_isLetter hd, hupper]

/-! ### Texts -/

namespace SameLetters

theorem symm (h : SameLetters a b) : SameLetters b a := List.Forall₂.flip (h.imp fun _ _ => Eq.symm)

theorem capitals_eq (h : SameLetters a b) : capitals a = capitals b := by
  induction h with
  | nil => rfl
  | cons hc _ ih =>
    show capital _ ++ capitals _ = capital _ ++ capitals _
    rw [hc.capital_eq, ih]

theorem dropWhile {p : Char → Bool} (hp : ∀ c, IsLetter c → p c = false) (h : SameLetters a b) :
    SameLetters (a.dropWhile p) (b.dropWhile p) := by
  induction h with
  | nil => exact .nil
  | @cons c d a b hc h ih =>
    rw [List.dropWhile_cons, List.dropWhile_cons, SameLetter.congr hp hc]
    by_cases hd : p d = true
    · rw [if_pos hd, if_pos hd]
      exact ih
    · rw [if_neg hd, if_neg hd]
      exact .cons hc h

theorem rdropWhile {p : Char → Bool} (hp : ∀ c, IsLetter c → p c = false) (h : SameLetters a b) :
    SameLetters (a.rdropWhile p) (b.rdropWhile p) :=
  List.rel_reverse (dropWhile hp (List.rel_reverse h))

theorem forall_eq {p : Char → Bool} (hp : ∀ c, IsLetter c → p c = false) (h : SameLetters a b)
    {value : Bool} (ha : ∀ c ∈ a, p c = value) : ∀ d ∈ b, p d = value := by
  induction h with
  | nil => exact ha
  | @cons c d a b hc h ih =>
    intro x hx
    rcases List.mem_cons.mp hx with rfl | hx
    · rw [← SameLetter.congr hp hc]
      exact ha c List.mem_cons_self
    · exact ih (fun y hy => ha y (List.mem_cons_of_mem c hy)) x hx

end SameLetters

end PageDiff.Text
