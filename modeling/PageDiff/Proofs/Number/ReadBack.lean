import PageDiff.Number.Reading
import PageDiff.Proofs.Number.Format

/-!
# Numbers are read back

A number that is written into a document is read from it as the same number, of the same kind, and
what stands behind it is left (`scanNumber_numeral`, `scanNumber_text`).  The readers take as many
digits as there are, so what stands behind must not continue the number (`Ends`).  A double is
written in several forms.  In each of them the digits in front of the point and behind it are those
of its shortest decimal with some zeros, and the exponent makes up for them (`Spells`).
-/

namespace PageDiff.Number

open PageDiff.Text

variable {cs ds rest : List Char}

/-! ### Digits -/

/-- Whether a text is made of digits. -/
def IsDigits (cs : List Char) : Prop := ∀ c ∈ cs, c.isDigit = true

theorem IsDigits.append (h : IsDigits cs) (h' : IsDigits ds) : IsDigits (cs ++ ds) := by
  intro c hc
  rcases List.mem_append.mp hc with hc | hc
  · exact h c hc
  · exact h' c hc

theorem isDigits_toDigits (n : ℕ) : IsDigits (Nat.toDigits 10 n) := fun _ hc =>
  Nat.isDigit_of_mem_toDigits (by decide) (by decide) hc

theorem isDigits_zeros (n : ℕ) : IsDigits (List.replicate n '0') := by
  intro c hc
  rw [List.eq_of_mem_replicate hc]
  rfl

theorem IsDigits.take (h : IsDigits cs) (n : ℕ) : IsDigits (cs.take n) := fun c hc =>
  h c (List.mem_of_mem_take hc)

theorem IsDigits.drop (h : IsDigits cs) (n : ℕ) : IsDigits (cs.drop n) := fun c hc =>
  h c (List.mem_of_mem_drop hc)

theorem IsDigits.not_mem (h : IsDigits cs) {c : Char} (hc : c.isDigit = false) : c ∉ cs := by
  intro hmem
  rw [h c hmem] at hc
  cases hc

theorem digitsValue_eq (cs : List Char) : digitsValue cs = Nat.ofDigitChars 10 cs 0 := by
  simp only [digitsValue, Nat.ofDigitChars, Nat.mul_comm]

@[simp] theorem digitsValue_toDigits (n : ℕ) : digitsValue (Nat.toDigits 10 n) = n := by
  rw [digitsValue_eq, Nat.ofDigitChars_ten_toDigits]

/-- Zeros in front of digits change nothing. -/
theorem digitsValue_zeros_append (n : ℕ) (cs : List Char) :
    digitsValue (List.replicate n '0' ++ cs) = digitsValue cs := by
  rw [digitsValue_eq, digitsValue_eq, Nat.ofDigitChars_append, Nat.ofDigitChars_replicate_zero,
    mul_zero]

/-- Zeros behind digits are powers of ten. -/
theorem digitsValue_append_zeros (cs : List Char) (n : ℕ) :
    digitsValue (cs ++ List.replicate n '0') = digitsValue cs * 10 ^ n := by
  rw [digitsValue_eq, digitsValue_eq, Nat.ofDigitChars_append, Nat.ofDigitChars_replicate_zero,
    mul_comm]

/-- The first digit of a number is no zero, unless the number is zero. -/
theorem head?_toDigits {n : ℕ} (h : 0 < n) : (Nat.toDigits 10 n).head? ≠ some '0' := by
  induction n using Nat.strong_induction_on with
  | _ n ih =>
    rw [Nat.toDigits_eq_if (by decide)]
    split
    · next hlt =>
      have hdigit : ∀ k < 10, 0 < k → k.digitChar ≠ '0' := by decide
      simpa using hdigit n hlt h
    · next hge =>
      have hne : Nat.toDigits 10 (n / 10) ≠ [] := Nat.toDigits_ne_nil
      rw [List.head?_append_of_ne_nil _ hne]
      exact ih (n / 10) (by omega) (by omega)

/-! ### What stands behind a number -/

/-- Whether nothing is left, or a character of a kind is next. -/
def NextIs (kind : Char → Prop) (rest : List Char) : Prop := ∀ c ∈ rest.head?, kind c

theorem nextIs_nil (kind : Char → Prop) : NextIs kind [] := nofun

theorem nextIs_cons {kind : Char → Prop} {c : Char} (h : kind c) : NextIs kind (c :: rest) := by
  intro c' hc'
  cases hc'
  exact h

/-- Whether nothing is left that could continue a number. -/
def Ends : List Char → Prop :=
  NextIs fun c => c.isDigit = false ∧ c ≠ '.' ∧ c ≠ 'e' ∧ c ≠ 'E'

/-- Whether no digit is next. -/
def NoDigit : List Char → Prop := NextIs fun c => c.isDigit = false

theorem Ends.noDigit (h : Ends rest) : NoDigit rest := fun c hc => (h c hc).1

theorem takeWhile_digits (h : IsDigits cs) (hrest : NoDigit rest) :
    (cs ++ rest).takeWhile Char.isDigit = cs := by
  rw [List.takeWhile_append_of_pos h]
  cases rest with
  | nil => simp
  | cons c rest => simp [hrest c rfl]

theorem dropWhile_digits (h : IsDigits cs) (hrest : NoDigit rest) :
    (cs ++ rest).dropWhile Char.isDigit = rest := by
  rw [List.dropWhile_append_of_pos h]
  cases rest with
  | nil => simp
  | cons c rest => simp [hrest c rfl]

/-! ### The parts of a number -/

/-- Whether digits may stand in front of the point. -/
def IsWhole (cs : List Char) : Prop :=
  cs = ['0'] ∨ (IsDigits cs ∧ cs ≠ [] ∧ cs.head? ≠ some '0')

theorem IsWhole.ne_nil (h : IsWhole cs) : cs ≠ [] := by
  rcases h with rfl | ⟨-, hne, -⟩
  · exact List.cons_ne_nil _ _
  · exact hne

theorem IsWhole.isDigits (h : IsWhole cs) : IsDigits cs := by
  rcases h with rfl | ⟨hdigits, -⟩
  · exact isDigits_zeros 1
  · exact hdigits

theorem isWhole_toDigits (n : ℕ) : IsWhole (Nat.toDigits 10 n) := by
  rcases Nat.eq_zero_or_pos n with rfl | h
  · exact .inl rfl
  · exact .inr ⟨isDigits_toDigits n, Nat.toDigits_ne_nil, head?_toDigits h⟩

/-- Digits that start like a number other than zero. -/
theorem isWhole_of_head {n : ℕ} (h : 0 < n) (hcs : IsDigits cs) (hne : cs ≠ [])
    (hhead : cs.head? = (Nat.toDigits 10 n).head?) : IsWhole cs :=
  .inr ⟨hcs, hne, hhead ▸ head?_toDigits h⟩

theorem scanWhole_append (h : IsWhole cs) (hrest : NoDigit rest) :
    scanWhole (cs ++ rest) = (cs, rest) := by
  rcases h with rfl | ⟨hdigits, hne, hzero⟩
  · rfl
  · obtain ⟨c, cs, rfl⟩ := List.exists_cons_of_ne_nil hne
    have hc : c ≠ '0' := by simpa using hzero
    unfold scanWhole
    split
    · next heq => exact absurd (List.cons.inj heq).1 hc
    · rw [takeWhile_digits hdigits hrest, dropWhile_digits hdigits hrest]

/-- A fraction with the point in front of it, or nothing. -/
def pointed (fraction : List Char) : List Char := if fraction = [] then [] else '.' :: fraction

theorem scanFraction_pointed (h : IsDigits cs) (hrest : NoDigit rest)
    (hpoint : rest.head? ≠ some '.') :
    scanFraction (pointed cs ++ rest) = (if cs = [] then none else some cs, rest) := by
  unfold pointed
  split
  · unfold scanFraction
    cases rest with
    | nil => rfl
    | cons c rest =>
      have hc : c ≠ '.' := by simpa using hpoint
      simp [hc]
  · next hne =>
    simp only [List.cons_append, scanFraction, takeWhile_digits h hrest, dropWhile_digits h hrest,
      hne, if_false]

/-- The exponent of ten behind the digits of a number. -/
inductive Power
  | none
  | some (exponent : ℤ)

/-- How the exponent is written, with two digits at least. -/
def Power.text : Power → List Char
  | .none => []
  | .some exponent =>
    'e' :: (if exponent < 0 then '-' else '+') ::
      (List.replicate (2 - (Nat.toDigits 10 exponent.natAbs).length) '0' ++
        Nat.toDigits 10 exponent.natAbs)

def Power.value? : Power → Option ℤ
  | .none => Option.none
  | .some exponent => Option.some exponent

theorem Power.noDigit_text (p : Power) (hrest : Ends rest) : NoDigit (p.text ++ rest) := by
  cases p with
  | none => exact hrest.noDigit
  | some exponent => exact nextIs_cons (by decide)

theorem Power.head?_text (p : Power) (hrest : Ends rest) :
    (p.text ++ rest).head? ≠ Option.some '.' := by
  cases p with
  | none => exact fun hc => (hrest _ hc).2.1 rfl
  | some exponent => exact fun hc => absurd (Option.some.inj hc) (by decide)

theorem scanExponent_power (p : Power) (hrest : Ends rest) :
    scanExponent (p.text ++ rest) = (p.value?, rest) := by
  cases p with
  | none =>
    cases rest with
    | nil => rfl
    | cons c rest =>
      obtain ⟨-, -, he, hE⟩ := hrest c rfl
      simp [scanExponent, Power.text, Power.value?, he, hE]
  | some exponent =>
    set digits := List.replicate (2 - (Nat.toDigits 10 exponent.natAbs).length) '0' ++
      Nat.toDigits 10 exponent.natAbs with hdigits
    have hall : IsDigits digits := (isDigits_zeros _).append (isDigits_toDigits _)
    have hne : digits ≠ [] := by simp [hdigits, Nat.toDigits_ne_nil]
    have hvalue : digitsValue digits = exponent.natAbs := by
      rw [hdigits, digitsValue_zeros_append, digitsValue_toDigits]
    simp only [Power.text, ← hdigits, List.cons_append, scanExponent, true_or, if_true]
    by_cases hneg : exponent < 0
    · simp only [hneg, if_true, scanSign, takeWhile_digits hall hrest.noDigit,
        dropWhile_digits hall hrest.noDigit, hne, if_false, hvalue, Power.value?]
      rw [show -(exponent.natAbs : ℤ) = exponent by omega]
    · simp only [hneg, if_false, scanSign, takeWhile_digits hall hrest.noDigit,
        dropWhile_digits hall hrest.noDigit, hne, hvalue, Power.value?, Bool.false_eq_true]
      rw [show (exponent.natAbs : ℤ) = exponent by omega]

/-! ### The number -/

/-- A text with a hyphen in front of it, or without. -/
def hyphened (negative : Bool) (cs : List Char) : List Char := if negative then '-' :: cs else cs

theorem IsWhole.exists_cons (h : IsWhole cs) : ∃ c ds, cs = c :: ds ∧ c ≠ '-' := by
  obtain ⟨c, ds, rfl⟩ := List.exists_cons_of_ne_nil h.ne_nil
  refine ⟨c, ds, rfl, ?_⟩
  rintro rfl
  exact absurd (h.isDigits '-' List.mem_cons_self) (by decide)

/-- Digits alone are an integer. -/
theorem scanNumber_whole (negative : Bool) (hwhole : IsWhole cs) (hsize : cs.length ≤ digitLimit)
    (hrest : Ends rest) :
    scanNumber (hyphened negative (cs ++ rest)) =
      .ok (.int (if negative then -(digitsValue cs : ℤ) else digitsValue cs), rest) := by
  have hscan := scanWhole_append hwhole hrest.noDigit
  have hfraction : scanFraction rest = (none, rest) :=
    scanFraction_pointed (by simp [IsDigits] : IsDigits []) hrest.noDigit
      (fun h => (hrest '.' h).2.1 rfl)
  have hexponent : scanExponent rest = (none, rest) := scanExponent_power .none hrest
  have hnumeral : readNumeral cs = .ok (digitsValue cs) := if_neg (by omega)
  cases negative with
  | true => simp [scanNumber, hyphened, hscan, hwhole.ne_nil, hfraction, hexponent, hnumeral]
  | false =>
    obtain ⟨c, ds, rfl, hc⟩ := hwhole.exists_cons
    rw [List.cons_append] at hscan ⊢
    simp [scanNumber, hyphened, hc, hscan, hfraction, hexponent, hnumeral]

/-- With a fraction or an exponent the parts are a double. -/
theorem scanNumber_of_isSome (negative : Bool) {after afterFraction : List Char}
    {fraction : Option (List Char)} {exponent : Option ℤ} (hwhole : IsWhole cs)
    (hscan : scanWhole (cs ++ after) = (cs, after))
    (hfraction : scanFraction after = (fraction, afterFraction))
    (hexponent : scanExponent afterFraction = (exponent, rest))
    (hdouble : fraction.isSome ∨ exponent.isSome) :
    scanNumber (hyphened negative (cs ++ after)) =
      .ok (.double (ofParts negative cs (fraction.getD []) (exponent.getD 0)), rest) := by
  have hsome : ¬ (fraction = none ∧ exponent = none) := by
    rintro ⟨rfl, rfl⟩
    simp at hdouble
  cases negative with
  | true =>
    simp only [scanNumber, hyphened, if_true, hscan, hwhole.ne_nil, if_false, hfraction, hexponent]
    split
    · exact absurd ⟨rfl, rfl⟩ hsome
    · rfl
  | false =>
    obtain ⟨c, ds, rfl, hc⟩ := hwhole.exists_cons
    rw [List.cons_append] at hscan ⊢
    simp only [scanNumber, hyphened, Bool.false_eq_true, if_false]
    split
    · next heq => exact absurd (List.cons.inj heq).1 hc
    · simp only [hscan, hwhole.ne_nil, if_false, hfraction, hexponent]
      split
      · exact absurd ⟨rfl, rfl⟩ hsome
      · rfl

/-- Digits with a fraction or with an exponent are a double. -/
theorem scanNumber_parts (negative : Bool) (hwhole : IsWhole cs) (hfraction : IsDigits ds)
    (p : Power) (hdouble : ds ≠ [] ∨ p.value?.isSome) (hrest : Ends rest) :
    scanNumber (hyphened negative (cs ++ (pointed ds ++ (p.text ++ rest)))) =
      .ok (.double (ofParts negative cs ds (p.value?.getD 0)), rest) := by
  have hpower := p.noDigit_text hrest
  have hafter : NoDigit (pointed ds ++ (p.text ++ rest)) := by
    unfold pointed
    split
    · exact hpower
    · exact nextIs_cons (by decide)
  have hscan := scanNumber_of_isSome negative hwhole (scanWhole_append hwhole hafter)
    (scanFraction_pointed hfraction hpower (p.head?_text hrest)) (scanExponent_power p hrest)
    (hdouble.imp_left fun hds => by simp [hds])
  rw [hscan]
  split
  · next hds => rw [hds, Option.getD_none]
  · rw [Option.getD_some]

/-! ### The spellings of a decimal -/

/-- Whether a text spells a decimal, with a point or an exponent: its digits are those of the
decimal, perhaps with zeros around them. -/
def Spells (text : List Char) (d : Decimal) : Prop :=
  ∃ (whole fraction : List Char) (p : Power),
    text = whole ++ (pointed fraction ++ p.text) ∧ IsWhole whole ∧ IsDigits fraction ∧
      (fraction ≠ [] ∨ p.value?.isSome) ∧
      ∃ k : ℕ, digitsValue (whole ++ fraction) = d.digits * 10 ^ k ∧
        p.value?.getD 0 - fraction.length = d.exponent - k

/-- What spells a decimal is read as the double next to it. -/
theorem Spells.scanNumber {text : List Char} {d : Decimal} (h : Spells text d) (negative : Bool)
    (hrest : Ends rest) :
    scanNumber (hyphened negative text ++ rest) =
      .ok (.double (.ofDecimal negative d.digits d.exponent), rest) := by
  obtain ⟨whole, fraction, p, rfl, hwhole, hfraction, hdouble, k, hdigits, hexponent⟩ := h
  have hscan := scanNumber_parts negative hwhole hfraction p hdouble hrest
  rw [ofParts, hdigits, hexponent, Double.ofDecimal_mul_pow] at hscan
  rw [← hscan]
  cases negative <;> simp [hyphened]

/-- A decimal is spelled with digits, a point, and the letter and the sign of an exponent. -/
theorem Spells.not_mem {text : List Char} {d : Decimal} (h : Spells text d) {c : Char}
    (hdigit : c.isDigit = false) (hc : c ∉ ['.', 'e', '-', '+']) : c ∉ text := by
  obtain ⟨whole, fraction, p, rfl, hwhole, hfraction, -⟩ := h
  simp only [List.mem_cons, List.not_mem_nil, or_false, not_or] at hc
  obtain ⟨hpoint, hletter, hminus, hplus⟩ := hc
  have hpointed : c ∉ pointed fraction := by
    unfold pointed
    split
    · exact List.not_mem_nil
    · simpa [hpoint] using hfraction.not_mem hdigit
  have hpower : c ∉ p.text := by
    cases p with
    | none => exact List.not_mem_nil
    | some exponent =>
      have hzeros := ((isDigits_zeros (2 - (Nat.toDigits 10 exponent.natAbs).length)).append
        (isDigits_toDigits exponent.natAbs)).not_mem hdigit
      simp only [Power.text, List.mem_cons, not_or]
      refine ⟨hletter, ?_, hzeros⟩
      split_ifs
      · exact hminus
      · exact hplus
  simp only [List.mem_append, not_or]
  exact ⟨hwhole.isDigits.not_mem hdigit, hpointed, hpower⟩

theorem spells_zero : Spells ['0', '.', '0'] ⟨0, 0⟩ :=
  ⟨['0'], ['0'], .none, rfl, .inl rfl, isDigits_zeros 1, .inl (List.cons_ne_nil _ _), 1, rfl, rfl⟩

variable {d : Decimal}

theorem Decimal.text_length_pos (d : Decimal) : 0 < d.text.length :=
  List.length_pos_iff.mpr Nat.toDigits_ne_nil

/-- The first digits of a decimal may stand in front of the point. -/
theorem isWhole_take_append (h : 0 < d.digits) {n : ℕ} (hn : 0 < n) (zeros : ℕ) :
    IsWhole (d.text.take n ++ List.replicate zeros '0') := by
  have hpos := d.text_length_pos
  obtain ⟨c, cs, htext⟩ := List.exists_cons_of_ne_nil (List.length_pos_iff.mp hpos)
  obtain ⟨k, rfl⟩ := Nat.exists_eq_succ_of_ne_zero hn.ne'
  refine isWhole_of_head h (((isDigits_toDigits _).take _).append (isDigits_zeros _)) ?_ ?_
  · simp [htext]
  · rw [← Decimal.text, htext]
    rfl

theorem isDigits_text (d : Decimal) : IsDigits d.text := isDigits_toDigits _

theorem digitsValue_text (d : Decimal) : digitsValue d.text = d.digits := digitsValue_toDigits _

/-- All digits stand behind the point. -/
theorem spells_behind (h : d.pointPosition ≤ 0) : Spells (positional d.text d.pointPosition) d := by
  have hpos := d.text_length_pos
  have hpoint : d.pointPosition = d.text.length + d.exponent := rfl
  set zeros := List.replicate (-d.pointPosition).toNat '0' with hzeros
  have hne : zeros ++ d.text ≠ [] :=
    List.append_ne_nil_of_right_ne_nil _ (List.length_pos_iff.mp hpos)
  refine ⟨['0'], zeros ++ d.text, .none, ?_, .inl rfl, (isDigits_zeros _).append (isDigits_text d),
    .inl hne, 0, ?_, ?_⟩
  · rw [positional, if_pos h, pointed, if_neg hne]
    simp [Power.text, hzeros]
  · rw [← List.append_assoc, hzeros, show ['0'] = List.replicate 1 '0' from rfl,
      List.replicate_append_replicate, digitsValue_zeros_append, digitsValue_text, pow_zero,
      mul_one]
  · simp only [Power.value?, Option.getD_none, hzeros, List.length_append, List.length_replicate]
    omega

/-- The point stands among the digits. -/
theorem spells_within (h : 0 < d.digits) (hn : 0 < d.pointPosition)
    (hlt : d.pointPosition.toNat < d.text.length) :
    Spells (positional d.text d.pointPosition) d := by
  have hpoint : d.pointPosition = d.text.length + d.exponent := rfl
  have hne : d.text.drop d.pointPosition.toNat ≠ [] := by simpa using hlt
  have hwhole := isWhole_take_append h (n := d.pointPosition.toNat) (by omega) 0
  rw [List.replicate_zero, List.append_nil] at hwhole
  refine ⟨d.text.take d.pointPosition.toNat, d.text.drop d.pointPosition.toNat, .none, ?_, hwhole,
    (isDigits_text d).drop _, .inl hne, 0, ?_, ?_⟩
  · rw [positional, if_neg (by omega), Nat.sub_eq_zero_of_le hlt.le, List.replicate_zero]
    simp [Power.text, pointed]
  · rw [List.take_append_drop, digitsValue_text, pow_zero, mul_one]
  · simp only [Power.value?, Option.getD_none, List.length_drop]
    omega

/-- All digits stand in front of the point. -/
theorem spells_front (h : 0 < d.digits) (hn : 0 < d.pointPosition)
    (hle : d.text.length ≤ d.pointPosition.toNat) :
    Spells (positional d.text d.pointPosition ++ ['.', '0']) d := by
  have hpoint : d.pointPosition = d.text.length + d.exponent := rfl
  set zeros := List.replicate (d.pointPosition.toNat - d.text.length) '0' with hzeros
  have hwhole := isWhole_take_append h (n := d.pointPosition.toNat) (by omega)
    (d.pointPosition.toNat - d.text.length)
  rw [List.take_of_length_le hle, ← hzeros] at hwhole
  -- the zeros up to the point and the one behind it are as many powers of ten
  refine ⟨d.text ++ zeros, ['0'], .none, ?_, hwhole, isDigits_zeros 1,
    .inl (List.cons_ne_nil _ _), d.pointPosition.toNat - d.text.length + 1, ?_, ?_⟩
  · rw [positional, if_neg (by omega), List.take_of_length_le hle, List.drop_of_length_le hle]
    simp [Power.text, pointed, hzeros]
  · rw [List.append_assoc, hzeros, show ['0'] = List.replicate 1 '0' from rfl,
      List.replicate_append_replicate, digitsValue_append_zeros, digitsValue_text]
  · simp only [Power.value?, Option.getD_none, List.length_singleton]
    omega

theorem spells_scientific (h : 0 < d.digits) :
    Spells (scientific d.text (d.pointPosition - 1)) d := by
  have hpos := d.text_length_pos
  have hpoint : d.pointPosition = d.text.length + d.exponent := rfl
  have hwhole := isWhole_take_append h one_pos 0
  rw [List.replicate_zero, List.append_nil] at hwhole
  refine ⟨d.text.take 1, d.text.drop 1, .some (d.pointPosition - 1), ?_, hwhole,
    (isDigits_text d).drop _, .inr rfl, 0, ?_, ?_⟩
  · simp [scientific, pointed, Power.text]
  · rw [List.take_append_drop, digitsValue_text, pow_zero, mul_one]
  · simp only [Power.value?, Option.getD_some, List.length_drop]
    omega

theorem point_mem_positional {n : ℤ} (h : n ≤ 0 ∨ n.toNat < cs.length) :
    '.' ∈ positional cs n := by
  unfold positional
  split
  · simp
  · have hne : cs.drop n.toNat ≠ [] := by
      simp only [ne_eq, List.drop_eq_nil_iff]
      omega
    simp [hne]

theorem point_not_mem_positional {n : ℤ} (hcs : IsDigits cs) (hn : 0 < n)
    (hle : cs.length ≤ n.toNat) : '.' ∉ positional cs n := by
  rw [positional, if_neg (by omega), List.take_of_length_le hle, List.drop_of_length_le hle]
  simpa using hcs.not_mem (c := '.') (by decide)

/-- A double that is written without an exponent always has a point. -/
theorem spells_positional (h : 0 < d.digits) :
    Spells
      (if (positional d.text d.pointPosition).contains '.' then positional d.text d.pointPosition
        else positional d.text d.pointPosition ++ ['.', '0']) d := by
  rcases le_or_gt d.pointPosition 0 with hn | hn
  · rw [if_pos (by simpa using point_mem_positional (.inl hn))]
    exact spells_behind hn
  · rcases lt_or_ge d.pointPosition.toNat d.text.length with hlt | hle
    · rw [if_pos (by simpa using point_mem_positional (.inr hlt))]
      exact spells_within h hn hlt
    · rw [if_neg (by simpa using point_not_mem_positional (isDigits_text d) hn hle)]
      exact spells_front h hn hle

/-! ### Numbers of a document -/

theorem toList_signed (negative : Bool) (cs : List Char) :
    (Double.signed negative cs).toList = hyphened negative cs := by
  simp [Double.signed, hyphened]

/-- A finite double is written as a decimal that it is next to. -/
theorem exists_spells {s : Bool} {m : ℕ} {e : ℤ} (h : Double.InFormat (.finite s m e)) :
    ∃ text d, ((Double.finite s m e).text documentSpelling).toList = hyphened s text ∧
      Spells text d ∧ Double.ofDecimal s d.digits d.exponent = .finite s m e := by
  rcases Nat.eq_zero_or_pos m with rfl | hm
  · refine ⟨_, _, toList_signed s _, spells_zero, ?_⟩
    rw [Double.ofDecimal_zero]
    rcases h with ⟨-, rfl⟩ | ⟨hlow, -⟩
    · rfl
    · norm_num at hlow
  · have hfmt : Double.InFormat (.finite false m e) := h
    have hdigits := Double.shortest_digits_pos hm hfmt
    have hback : Double.ofDecimal s (Double.shortest m e).digits (Double.shortest m e).exponent =
        .finite s m e :=
      Double.ofDecimal_signed (Double.ofDecimal_shortest hm hfmt)
    rw [Double.text, if_neg hm.ne']
    dsimp only
    split
    · exact ⟨_, _, toList_signed s _, spells_positional hdigits, hback⟩
    · exact ⟨_, _, toList_signed s _, spells_scientific hdigits, hback⟩

/-- **A finite double is read back from a document.** -/
theorem scanNumber_text {s : Bool} {m : ℕ} {e : ℤ} (h : Double.InFormat (.finite s m e))
    (hrest : Ends rest) :
    scanNumber (((Double.finite s m e).text documentSpelling).toList ++ rest) =
      .ok (.double (.finite s m e), rest) := by
  obtain ⟨text, d, htext, hspells, hback⟩ := exists_spells h
  rw [htext, hspells.scanNumber s hrest, hback]

theorem toList_toString (n : ℤ) :
    (toString n).toList = hyphened (decide (n < 0)) (Nat.toDigits 10 n.natAbs) := by
  cases n with
  | ofNat n =>
    have hsign : ¬ (Int.ofNat n < 0) := by simp
    simp only [hsign, decide_false, hyphened, Bool.false_eq_true, if_false]
    exact Nat.toList_repr
  | negSucc n =>
    have hsign : Int.negSucc n < 0 := Int.negSucc_lt_zero n
    simp only [hsign, decide_true, hyphened, if_true]
    exact (String.toList_append ..).trans (congrArg ('-' :: ·) Nat.toList_repr)

/-- **An integer is read back from a document**, if it does not have too many digits. -/
theorem scanNumber_toString {n : ℤ} (h : (Nat.toDigits 10 n.natAbs).length ≤ digitLimit)
    (hrest : Ends rest) :
    scanNumber ((toString n).toList ++ rest) = .ok (.int n, rest) := by
  have hscan := scanNumber_whole (decide (n < 0)) (isWhole_toDigits n.natAbs) h hrest
  have hvalue : (if decide (n < 0) then -(n.natAbs : ℤ) else n.natAbs) = n := by
    by_cases hneg : n < 0
    · simp only [hneg, decide_true, if_true]
      omega
    · simp only [hneg, decide_false, Bool.false_eq_true, if_false]
      omega
  rw [digitsValue_toDigits, hvalue] at hscan
  rw [toList_toString, ← hscan]
  cases decide (n < 0) <;> rfl

/-! ### How a number starts -/

/-- Whether a text starts like a number: with a digit, perhaps behind a hyphen. -/
def StartsNumber (cs : List Char) : Prop :=
  ∃ negative c ds, cs = hyphened negative (c :: ds) ∧ c.isDigit = true

theorem IsWhole.startsNumber (h : IsWhole cs) (negative : Bool) (ds : List Char) :
    StartsNumber (hyphened negative (cs ++ ds)) := by
  obtain ⟨c, cs, rfl⟩ := List.exists_cons_of_ne_nil h.ne_nil
  exact ⟨negative, c, cs ++ ds, rfl, h.isDigits c List.mem_cons_self⟩

theorem startsNumber_text {s : Bool} {m : ℕ} {e : ℤ} (h : Double.InFormat (.finite s m e)) :
    StartsNumber ((Double.finite s m e).text documentSpelling).toList := by
  obtain ⟨text, d, htext, ⟨whole, fraction, p, rfl, hwhole, -⟩, -⟩ := exists_spells h
  rw [htext]
  exact hwhole.startsNumber s _

theorem startsNumber_toString (n : ℤ) : StartsNumber (toString n).toList := by
  have hstarts := (isWhole_toDigits n.natAbs).startsNumber (decide (n < 0)) []
  rwa [List.append_nil, ← toList_toString] at hstarts

end PageDiff.Number
