import Mathlib.Algebra.Order.Ring.Nat
import PageDiff.Text.Hex
import PageDiff.Text.Utf16

/-!
# Units and their spellings

The code points of a row of units have these units (`units_ofUnits`), but the units of a text do not
always have its code points: a first half of a pair that stands directly before a second one is read
as the character of the pair.  Main statement (`joined_eq_self_iff`): a text is read back from its
units exactly if it splits no pair.  The hexadecimal digits of a number spell that number
(`hexValue_hexFixed`).
-/

namespace PageDiff.Text

/-! ### Units -/

/-- The code point of a character is read back from it. -/
theorem toNat_charOfNat {n : Nat} (h : n.isValidChar) : (Char.ofNat n).toNat = n := by
  unfold Char.ofNat
  rw [dif_pos h]
  rfl

namespace Utf16

theorem isHigh_iff {u : UInt16} : isHigh u = true ↔ 0xD800 ≤ u.toNat ∧ u.toNat ≤ 0xDBFF := by
  simp [isHigh]

theorem isLow_iff {u : UInt16} : isLow u = true ↔ 0xDC00 ≤ u.toNat ∧ u.toNat ≤ 0xDFFF := by
  simp [isLow]

theorem encodeChar_of_lt {n : Nat} (hvalid : n.isValidChar) (h : n < 0x10000) :
    encodeChar (Char.ofNat n) = [.ofNat n] := by
  rw [encodeChar, toNat_charOfNat hvalid, if_pos h]

/-- The halves of a pair are the units of its character. -/
theorem encodeChar_joined {u v : UInt16} (hu : isHigh u = true) (hv : isLow v = true) :
    encodeChar (joined u v) = [u, v] := by
  obtain ⟨hulo, huhi⟩ := isHigh_iff.mp hu
  obtain ⟨hvlo, hvhi⟩ := isLow_iff.mp hv
  have hvalid : (0x10000 + (u.toNat - 0xD800) * 0x400 + (v.toNat - 0xDC00)).isValidChar :=
    .inr ⟨by omega, by omega⟩
  rw [joined, encodeChar, toNat_charOfNat hvalid, if_neg (by omega)]
  simp only [List.cons.injEq, ← UInt16.toNat_inj, and_true]
  constructor
  · rw [toNat_ofNat (by omega)]
    omega
  · rw [toNat_ofNat (by omega)]
    omega

theorem units_ofUnit (u : UInt16) : (CodePoint.ofUnit u).units = [u] := by
  unfold CodePoint.ofUnit
  split
  · rfl
  · next h =>
    have hlt := u.toNat_lt
    have hvalid : u.toNat.isValidChar := by
      simp only [Bool.or_eq_true, isHigh_iff, isLow_iff, not_or, not_and] at h
      by_cases hlow : u.toNat < 0xD800
      · exact .inl hlow
      · exact .inr ⟨by omega, by omega⟩
    rw [CodePoint.units, encodeChar_of_lt hvalid hlt, UInt16.ofNat_toNat]

/-- What a row of units stands for has these units. -/
theorem flatMap_units_codePoints (us : List UInt16) :
    (codePoints us).flatMap CodePoint.units = us := by
  fun_induction codePoints us with
  | case1 => rfl
  | case2 u => simp [units_ofUnit]
  | case3 u v us h ih =>
    obtain ⟨hu, hv⟩ := (Bool.and_eq_true _ _).mp h
    simp [CodePoint.units, encodeChar_joined hu hv, ih]
  | case4 u v us h ih => simp [units_ofUnit, ih]

/-- No character starts with the second half of a pair. -/
theorem encodeChar_eq_cons (c : Char) : ∃ u us, encodeChar c = u :: us ∧ isLow u = false := by
  have hvalid : c.toNat < 0xD800 ∨ 0xDFFF < c.toNat ∧ c.toNat < 0x110000 := c.valid
  unfold encodeChar
  split
  · next hsmall =>
    refine ⟨_, _, rfl, ?_⟩
    rw [← Bool.not_eq_true, isLow_iff, toNat_ofNat hsmall]
    omega
  · refine ⟨_, _, rfl, ?_⟩
    rw [← Bool.not_eq_true, isLow_iff, toNat_ofNat (by omega)]
    omega

end Utf16

/-! ### Texts that are read back -/

open Utf16

namespace CodePoint

/-- Whether a code point is the first half of a pair. -/
def isHighHalf : CodePoint → Bool
  | .char _ => false
  | .half h => isHigh h.unit

/-- Whether a code point is the second half of a pair. -/
def isLowHalf : CodePoint → Bool
  | .char _ => false
  | .half h => isLow h.unit

theorem isLow_of_head? {ps : List CodePoint} {u : UInt16}
    (h : u ∈ (ps.flatMap CodePoint.units).head?) :
    ∃ p ∈ ps.head?, isLow u = p.isLowHalf := by
  cases ps with
  | nil => cases h
  | cons p ps =>
    refine ⟨p, rfl, ?_⟩
    cases p with
    | char c =>
      obtain ⟨v, vs, hc, hlow⟩ := encodeChar_eq_cons c
      rw [List.flatMap_cons, units, hc] at h
      obtain rfl : v = u := Option.some.inj h
      exact hlow
    | half low =>
      obtain rfl : low.unit = u := Option.some.inj h
      rfl

/-- A half is read as itself, unless it is a first one and a second one follows. -/
theorem codePoints_half_cons {h : Half} {us : List UInt16}
    (hus : isHigh h.unit = true → ∀ u ∈ us.head?, isLow u = false) :
    codePoints (h.unit :: us) = .half h :: codePoints us := by
  have hunit : CodePoint.ofUnit h.unit = .half h := by rw [ofUnit, dif_pos h.surrogate]
  cases us with
  | nil =>
    show [CodePoint.ofUnit h.unit] = [.half h]
    rw [hunit]
  | cons u us =>
    have hpair : ¬ (isHigh h.unit && isLow u) = true := by
      rw [Bool.and_eq_true]
      rintro ⟨hhigh, hlow⟩
      rw [hus hhigh u rfl] at hlow
      cases hlow
    rw [codePoints, if_neg hpair, hunit]

/-- A first half and a second one behind it are read as the character of the pair. -/
theorem codePoints_pair_cons {high low : Half} (hhigh : isHigh high.unit = true)
    (hlow : isLow low.unit = true) (us : List UInt16) :
    codePoints (high.unit :: low.unit :: us) =
      .char (joined high.unit low.unit) :: codePoints us := by
  rw [codePoints, if_pos ((Bool.and_eq_true _ _).mpr ⟨hhigh, hlow⟩)]

end CodePoint

namespace Loose

/-- Somewhere in a text the first half of a pair stands directly before a second one. -/
def SplitsPair (t : Loose) : Prop :=
  ∃ before after high low, t.points = before ++ .half high :: .half low :: after ∧
    isHigh high.unit = true ∧ isLow low.unit = true

/-- The text that is read from the units of a text. -/
def joined (t : Loose) : Loose := .ofUnits t.units

theorem not_splitsPair_nil : ¬ SplitsPair ⟨[]⟩ := by
  rintro ⟨before, after, high, low, h, -⟩
  cases before with
  | nil => cases h
  | cons p before => cases h

/-- A text splits a pair at its start or behind its first code point. -/
theorem splitsPair_cons {p : CodePoint} {ps : List CodePoint} : SplitsPair ⟨p :: ps⟩ ↔
    (p.isHighHalf = true ∧ ∃ q ∈ ps.head?, q.isLowHalf = true) ∨ SplitsPair ⟨ps⟩ := by
  constructor
  · rintro ⟨before, after, high, low, h, hhigh, hlow⟩
    cases before with
    | nil =>
      obtain ⟨rfl, rfl⟩ := List.cons.inj h
      exact .inl ⟨hhigh, _, rfl, hlow⟩
    | cons q before =>
      obtain ⟨rfl, htail⟩ := List.cons.inj h
      exact .inr ⟨before, after, high, low, htail, hhigh, hlow⟩
  · rintro (⟨hhigh, q, hq, hlow⟩ | ⟨before, after, high, low, h, hhigh, hlow⟩)
    · obtain ⟨after, rfl⟩ := List.head?_eq_some_iff.mp hq
      cases p with
      | char c => cases hhigh
      | half high =>
        cases q with
        | char c => cases hlow
        | half low => exact ⟨[], after, high, low, rfl, hhigh, hlow⟩
    · exact ⟨p :: before, after, high, low, congrArg (p :: ·) h, hhigh, hlow⟩

theorem codePoints_units_eq_iff (ps : List CodePoint) :
    codePoints (ps.flatMap CodePoint.units) = ps ↔ ¬ SplitsPair ⟨ps⟩ := by
  induction ps with
  | nil => exact ⟨fun _ => not_splitsPair_nil, fun _ => rfl⟩
  | cons p ps ih =>
    rw [splitsPair_cons, not_or, ← ih, List.flatMap_cons]
    cases p with
    | char c =>
      rw [CodePoint.units, codePoints_encodeChar_append, List.cons.injEq]
      simp [CodePoint.isHighHalf]
    | half h =>
      by_cases hsplit : isHigh h.unit = true ∧ ∃ q ∈ ps.head?, q.isLowHalf = true
      · -- the two halves are read as one character, which is none of them
        obtain ⟨hhigh, q, hq, hlow⟩ := hsplit
        obtain ⟨rest, rfl⟩ := List.head?_eq_some_iff.mp hq
        cases q with
        | char c => cases hlow
        | half low =>
          show codePoints (h.unit :: low.unit :: rest.flatMap CodePoint.units) = _ ↔ _
          rw [CodePoint.codePoints_pair_cons hhigh hlow]
          constructor
          · intro heq
            cases (List.cons.inj heq).1
          · rintro ⟨hnot, -⟩
            exact absurd ⟨hhigh, .half low, rfl, hlow⟩ hnot
      · have hread : codePoints (h.unit :: ps.flatMap CodePoint.units) =
            .half h :: codePoints (ps.flatMap CodePoint.units) := by
          refine CodePoint.codePoints_half_cons fun hhigh u hu => ?_
          obtain ⟨q, hq, hlow⟩ := CodePoint.isLow_of_head? hu
          rw [hlow, ← Bool.not_eq_true]
          intro hq'
          exact hsplit ⟨hhigh, q, hq, hq'⟩
        show codePoints (h.unit :: ps.flatMap CodePoint.units) = _ ↔ _
        rw [hread, List.cons.injEq]
        exact ⟨fun heq => ⟨hsplit, heq.2⟩, fun heq => ⟨rfl, heq.2⟩⟩

/-- The text that is read from units has these units. -/
@[simp] theorem units_ofUnits (us : List UInt16) : (ofUnits us).units = us :=
  flatMap_units_codePoints us

@[simp] theorem units_joined (t : Loose) : t.joined.units = t.units := units_ofUnits t.units

/-- **A text is read back** from its units exactly if it splits no pair. -/
theorem joined_eq_self_iff {t : Loose} : t.joined = t ↔ ¬ t.SplitsPair := by
  rw [← codePoints_units_eq_iff]
  constructor
  · intro h
    exact congrArg points h
  · intro h
    exact congrArg Loose.mk h

@[simp] theorem joined_ofUnits (us : List UInt16) : (ofUnits us).joined = ofUnits us := by
  rw [joined, units_ofUnits]

theorem not_splitsPair_joined (t : Loose) : ¬ t.joined.SplitsPair :=
  joined_eq_self_iff.mp (joined_ofUnits t.units)

/-- Texts are all read back exactly if none of them splits a pair. -/
theorem map_joined_eq_self_iff {ts : List Loose} :
    ts.map joined = ts ↔ ∀ t ∈ ts, ¬ t.SplitsPair := by
  calc ts.map joined = ts
    _ ↔ ts.map joined = ts.map id := by rw [List.map_id]
    _ ↔ ∀ t ∈ ts, t.joined = id t := List.map_inj_left
    _ ↔ ∀ t ∈ ts, ¬ t.SplitsPair := forall₂_congr fun _ _ => joined_eq_self_iff

/-- Characters alone split no pair. -/
theorem not_splitsPair_ofString (s : String) : ¬ (ofString s).SplitsPair := by
  rw [← joined_eq_self_iff, joined, units_ofString, ofUnits_encode]
  rfl

theorem map_char_of_mapM {ps : List CodePoint} {cs : List Char}
    (h : ps.mapM CodePoint.char? = some cs) : cs.map .char = ps := by
  induction ps generalizing cs with
  | nil =>
    cases h
    rfl
  | cons p ps ih =>
    rw [List.mapM_cons] at h
    obtain ⟨c, hc, h⟩ := Option.bind_eq_some_iff.mp h
    obtain ⟨more, hmore, hcs⟩ := Option.bind_eq_some_iff.mp h
    obtain rfl : c :: more = cs := Option.some.inj hcs
    rw [List.map_cons, ih hmore]
    cases p with
    | char x =>
      obtain rfl : x = c := Option.some.inj hc
      rfl
    | half h => cases hc

/-- A text that is one of characters alone is that text. -/
theorem ofString_of_toString? {t : Loose} {s : String} (h : t.toString? = some s) :
    ofString s = t := by
  obtain ⟨cs, hcs, rfl⟩ := Option.map_eq_some_iff.mp h
  rw [ofString, String.toList_ofList, map_char_of_mapM hcs]

end Loose

/-! ### Hexadecimal digits -/

theorem isHexDigit_digitChar : ∀ k < 16, isHexDigit k.digitChar = true := by decide

theorem hexDigitValue_digitChar : ∀ k < 16, hexDigitValue k.digitChar = k := by decide

theorem isHexDigit_of_mem_hexFixed {c : Char} {width n : Nat} (h : c ∈ hexFixed width n) :
    isHexDigit c = true := by
  induction width generalizing n with
  | zero => cases h
  | succ width ih =>
    rw [hexFixed, List.mem_append, List.mem_singleton] at h
    rcases h with h | rfl
    · exact ih h
    · exact isHexDigit_digitChar _ (Nat.mod_lt n (by decide))

/-- The hexadecimal digits of a number spell it, if there are enough of them. -/
theorem hexValue_hexFixed {width n : Nat} (h : n < 16 ^ width) :
    hexValue (hexFixed width n) = n := by
  induction width generalizing n with
  | zero =>
    have hzero : n = 0 := by simpa using h
    rw [hzero]
    rfl
  | succ width ih =>
    have hdiv : n / 16 < 16 ^ width := by
      rw [Nat.pow_succ] at h
      omega
    have hmod := Nat.mod_lt n (show 16 > 0 by decide)
    have hfront : hexValue (hexFixed width (n / 16)) = n / 16 := ih hdiv
    rw [hexValue] at hfront
    rw [hexFixed, hexValue, List.foldl_append, hfront]
    simp only [List.foldl_cons, List.foldl_nil, hexDigitValue_digitChar _ hmod]
    omega

end PageDiff.Text
