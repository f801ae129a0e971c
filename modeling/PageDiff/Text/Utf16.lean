/-!
# Code points and UTF-16

A text is a row of code points.  Most of them are characters, and the others are halves of surrogate
pairs that stand alone.  Documents spell texts by units of 16 bits: a character has one unit or two,
the halves of a surrogate pair, and half of a pair has one.  So a reader of units can not tell a
first half before a second one from the character of the pair, and takes both for the character.
The main statement is that characters are read back from their units.
-/

namespace PageDiff.Text

namespace Utf16

/-! ### Units of characters -/

def encodeChar (c : Char) : List UInt16 :=
  if c.toNat < 0x10000 then [.ofNat c.toNat]
  else
    [.ofNat (0xD800 + (c.toNat - 0x10000) / 0x400), .ofNat (0xDC00 + (c.toNat - 0x10000) % 0x400)]

def encode (cs : List Char) : List UInt16 := cs.flatMap encodeChar

/-! ### Halves of pairs -/

/-- Whether a unit is the first half of a surrogate pair. -/
def isHigh (u : UInt16) : Bool := decide (0xD800 ≤ u.toNat) && decide (u.toNat ≤ 0xDBFF)

/-- Whether a unit is the second half of a surrogate pair. -/
def isLow (u : UInt16) : Bool := decide (0xDC00 ≤ u.toNat) && decide (u.toNat ≤ 0xDFFF)

/-- The character of a surrogate pair. -/
def joined (high low : UInt16) : Char :=
  Char.ofNat (0x10000 + (high.toNat - 0xD800) * 0x400 + (low.toNat - 0xDC00))

end Utf16

open Utf16

/-! ### Code points -/

/-- Half of a surrogate pair. -/
structure Half where
  unit : UInt16
  surrogate : (isHigh unit || isLow unit) = true
  deriving DecidableEq, Repr

/-- What one or two units stand for. -/
inductive CodePoint
  | char (c : Char)
  /-- Half of a surrogate pair that stands alone. -/
  | half (h : Half)
  deriving DecidableEq, Repr

namespace CodePoint

/-- What a unit stands for that is not half of a whole pair. -/
def ofUnit (u : UInt16) : CodePoint :=
  if h : (isHigh u || isLow u) = true then .half ⟨u, h⟩ else .char (Char.ofNat u.toNat)

/-- The units that spell a code point. -/
def units : CodePoint → List UInt16
  | .char c => encodeChar c
  | .half h => [h.unit]

/-- The character of a code point, if it is one. -/
def char? : CodePoint → Option Char
  | .char c => some c
  | .half _ => none

/-- The character that is shown for a code point, the replacement character for half of a pair. -/
def shown : CodePoint → Char
  | .char c => c
  | .half _ => '\ufffd'

end CodePoint

namespace Utf16

/-- What a row of units stands for. -/
def codePoints : List UInt16 → List CodePoint
  | [] => []
  | [u] => [.ofUnit u]
  | u :: v :: us =>
    if isHigh u && isLow v then .char (joined u v) :: codePoints us
    else .ofUnit u :: codePoints (v :: us)

/-! ### Reading back -/

theorem codePoints_cons_of_not_isHigh {u : UInt16} (h : isHigh u = false) (us : List UInt16) :
    codePoints (u :: us) = .ofUnit u :: codePoints us := by
  cases us <;> simp [codePoints, h]

/-- A number of at most 16 bits is read back from its unit. -/
theorem toNat_ofNat {n : Nat} (h : n < 0x10000) : (UInt16.ofNat n).toNat = n :=
  UInt16.toNat_ofNat_of_lt' h

/-- The units of a character stand for it, whatever follows. -/
theorem codePoints_encodeChar_append (c : Char) (us : List UInt16) :
    codePoints (encodeChar c ++ us) = .char c :: codePoints us := by
  have hv : c.toNat < 0xD800 ∨ 0xDFFF < c.toNat ∧ c.toNat < 0x110000 := c.valid
  unfold encodeChar
  split
  · rename_i hs
    have hu := toNat_ofNat hs
    have hh : isHigh (.ofNat c.toNat) = false := by
      simp only [isHigh, hu, Bool.and_eq_false_iff, decide_eq_false_iff_not]; omega
    have hl : isLow (.ofNat c.toNat) = false := by
      simp only [isLow, hu, Bool.and_eq_false_iff, decide_eq_false_iff_not]; omega
    simp [codePoints_cons_of_not_isHigh hh, CodePoint.ofUnit, hh, hl, hu]
  · rename_i hs
    have hq := toNat_ofNat (n := 0xD800 + (c.toNat - 0x10000) / 0x400) (by omega)
    have hr := toNat_ofNat (n := 0xDC00 + (c.toNat - 0x10000) % 0x400) (by omega)
    have hh : isHigh (.ofNat (0xD800 + (c.toNat - 0x10000) / 0x400)) = true := by
      simp only [isHigh, hq, Bool.and_eq_true, decide_eq_true_eq]; omega
    have hl : isLow (.ofNat (0xDC00 + (c.toNat - 0x10000) % 0x400)) = true := by
      simp only [isLow, hr, Bool.and_eq_true, decide_eq_true_eq]; omega
    have hn : 0x10000 + (c.toNat - 0x10000) / 0x400 * 0x400 + (c.toNat - 0x10000) % 0x400 =
        c.toNat := by omega
    simp only [List.cons_append, List.nil_append, codePoints, hh, hl, Bool.and_self, if_true,
      joined, hq, hr, Nat.add_sub_cancel_left, hn, Char.ofNat_toNat]

/-- The units of characters stand for them. -/
theorem codePoints_encode (cs : List Char) : codePoints (encode cs) = cs.map .char := by
  induction cs with
  | nil => rfl
  | cons c cs ih => simpa [encode, codePoints_encodeChar_append] using ih

end Utf16

/-! ### Texts -/

/-- A text as a row of code points, among which there may be halves of surrogate pairs. -/
structure Loose where
  points : List CodePoint
  deriving DecidableEq, Repr

namespace Loose

/-- A text of characters alone. -/
def ofString (s : String) : Loose := ⟨s.toList.map .char⟩

/-- The text that is read from units. -/
def ofUnits (units : List UInt16) : Loose := ⟨codePoints units⟩

/-- The units that spell the text. -/
def units (t : Loose) : List UInt16 := t.points.flatMap CodePoint.units

/-- The text, if it holds characters alone. -/
def toString? (t : Loose) : Option String := (t.points.mapM CodePoint.char?).map String.ofList

/-- The text as it is shown, with the replacement character for each half of a pair. -/
def shown (t : Loose) : String := String.ofList (t.points.map CodePoint.shown)

/-- Characters are spelled by their units. -/
@[simp] theorem units_ofString (s : String) : (ofString s).units = encode s.toList := by
  simp [ofString, units, encode, List.flatMap_map, CodePoint.units]

/-- Characters are read back from their units. -/
@[simp] theorem ofUnits_encode (cs : List Char) : ofUnits (encode cs) = ⟨cs.map .char⟩ := by
  rw [ofUnits, codePoints_encode]

theorem mapM_char?_map (cs : List Char) :
    (cs.map CodePoint.char).mapM CodePoint.char? = some cs := by
  induction cs with
  | nil => rfl
  | cons c cs ih => simp [CodePoint.char?, ih]

@[simp] theorem toString?_ofString (s : String) : (ofString s).toString? = some s := by
  rw [toString?, ofString, mapM_char?_map, Option.map_some, String.ofList_toList]

@[simp] theorem shown_ofString (s : String) : (ofString s).shown = s := by
  simp [ofString, shown, Function.comp_def, CodePoint.shown]

end Loose

end PageDiff.Text
