import PageDiff.Proofs.Number.ReadBack

/-!
# What is read can be written

A number that is read is one that is read back when it is written (`Numeric.Readable`): an integer
has no more digits than its numeral, and every double is put together from a decimal in the end,
unless it is named.
-/

namespace PageDiff.Number

open PageDiff.Text

variable {cs rest : List Char} {x : Double} {n : Numeric}

/-- Whether a number is read back: a double of the format, or an integer without too many digits. -/
def Numeric.Readable : Numeric → Prop
  | .int n => (Nat.toDigits 10 n.natAbs).length ≤ digitLimit
  | .double x => x.InFormat

/-! ### Doubles -/

theorem inFormat_ofParts (negative : Bool) (whole fraction : List Char) (exponent : ℤ) :
    (ofParts negative whole fraction exponent).InFormat :=
  Double.inFormat_ofDecimal _ _ _

theorem inFormat_of_readDigits {negative : Bool} (h : readDigits negative cs = some x) :
    x.InFormat := by
  unfold readDigits at h
  grind [inFormat_ofParts]

theorem inFormat_of_readPlainDouble (h : readPlainDouble cs = some x) : x.InFormat := by
  unfold readPlainDouble at h
  grind [inFormat_of_readDigits, Double.InFormat]

theorem inFormat_of_readDouble (h : readDouble cs = some x) : x.InFormat := by
  unfold readDouble at h
  split at h
  · next hplain =>
    cases h
    exact inFormat_of_readPlainDouble hplain
  · obtain ⟨ds, -, hplain⟩ := Option.bind_eq_some_iff.mp h
    exact inFormat_of_readPlainDouble hplain

/-! ### Integers -/

theorem digitsValue_lt (h : IsDigits cs) : digitsValue cs < 10 ^ cs.length := by
  induction cs with
  | nil => decide
  | cons c cs ih =>
    have hc : c.toNat - '0'.toNat < 10 := by
      have hrange := Char.isDigit_iff_toNat.mp (h c List.mem_cons_self)
      have hnine : '9'.toNat = '0'.toNat + 9 := rfl
      omega
    have hcs := ih fun c hc => h c (List.mem_cons_of_mem _ hc)
    rw [digitsValue_eq] at hcs ⊢
    rw [Nat.ofDigitChars_cons, Nat.ofDigitChars_eq_ofDigitChars_zero, List.length_cons, pow_succ,
      mul_zero, zero_add]
    nlinarith

/-- A numeral has at least as many digits as its value. -/
theorem length_toDigits_digitsValue_le (h : IsDigits cs) (hne : cs ≠ []) :
    (Nat.toDigits 10 (digitsValue cs)).length ≤ cs.length :=
  (Nat.length_toDigits_le_iff (by norm_num) (List.length_pos_iff.mpr hne)).mpr (digitsValue_lt h)

theorem isDigits_scanWhole (cs : List Char) : IsDigits (scanWhole cs).1 := by
  unfold scanWhole
  split
  · exact isDigits_zeros 1
  · exact fun c hc => List.all_eq_true.mp List.all_takeWhile c hc

theorem readable_of_scanNumber (h : scanNumber cs = .ok (n, rest)) : n.Readable := by
  cases n with
  | double x =>
    unfold scanNumber at h
    grind [inFormat_ofParts, Numeric.Readable]
  | int n =>
    have hwhole : ∃ cs, (scanWhole cs).1 ≠ [] ∧ (scanWhole cs).1.length ≤ digitLimit ∧
        n.natAbs = digitsValue (scanWhole cs).1 := by
      unfold scanNumber readNumeral at h
      grind
    obtain ⟨cs, hne, hsize, hn⟩ := hwhole
    rw [Numeric.Readable, hn]
    exact (length_toDigits_digitsValue_le (isDigits_scanWhole cs) hne).trans hsize

theorem readable_of_readPlainInteger {n : ℤ} (h : readPlainInteger cs = some n) :
    (Numeric.int n).Readable := by
  have hdigits : ∃ ds, isNumeral ds = true ∧ ds.length ≤ digitLimit ∧
      n.natAbs = digitsValue ds := by
    unfold readPlainInteger readNumeral at h
    grind
  obtain ⟨ds, hds, hsize, hn⟩ := hdigits
  simp only [isNumeral, Bool.and_eq_true, List.all_eq_true, Bool.not_eq_true',
    List.isEmpty_eq_false_iff] at hds
  rw [Numeric.Readable, hn]
  exact (length_toDigits_digitsValue_le hds.2 hds.1).trans hsize

/-- An integer that a text means is read in its shortest form in the end. -/
theorem readable_of_readInteger {n : ℤ} (h : readInteger cs = some n) :
    (Numeric.int n).Readable := by
  have hshort (sign digits : List Char) (h : (do
      let rest ← dropZeros digits
      readPlainInteger (← dropUnderscores (dropZeroFraction (sign ++ rest)))) = some n) :
      ∃ ds, readPlainInteger ds = some n := by
    obtain ⟨rest, -, h⟩ := Option.bind_eq_some_iff.mp h
    obtain ⟨ds, -, hds⟩ := Option.bind_eq_some_iff.mp h
    exact ⟨ds, hds⟩
  have hplain : ∃ ds, readPlainInteger ds = some n := by
    unfold readInteger at h
    split at h
    · exact hshort _ _ h
    · exact hshort _ _ h
    · exact hshort _ _ h
  obtain ⟨ds, hds⟩ := hplain
  exact readable_of_readPlainInteger hds

end PageDiff.Number
