import Mathlib.Tactic.SplitIfs
import PageDiff.Json.Printer
import PageDiff.Json.Reader
import PageDiff.Proofs.Text.Units

/-!
# Texts of documents are read back

A text between quotes is read back unit by unit (`readUnits_escaped`), whatever its units stand for:
quotes, controls and everything that is not ASCII are escaped, and no unit is spelled by less than
one character or by more than one escape (`readText_escapeUnit`).
-/

namespace PageDiff.Json

open PageDiff.Text

variable {start cs rest left : List Char} {u : UInt16} {units more : List UInt16} {fuel n : Nat}

/-! ### Escapes -/

/-- Four digits are read back, if something follows them. -/
theorem hexQuad_hexFixed (h : n < 0x10000) (hcs : cs ≠ []) :
    hexQuad (hexFixed 4 n ++ cs) = some (n, cs) := by
  obtain ⟨e, cs, rfl⟩ := List.exists_cons_of_ne_nil hcs
  have hvalue : hexValue (hexFixed 4 n) = n := hexValue_hexFixed h
  have hall : (hexFixed 4 n).all isHexDigit = true := by
    rw [List.all_eq_true]
    exact fun c hc => isHexDigit_of_mem_hexFixed hc
  obtain ⟨a, b, c, d, hdigits⟩ : ∃ a b c d, hexFixed 4 n = [a, b, c, d] := ⟨_, _, _, _, rfl⟩
  rw [hdigits] at hvalue hall ⊢
  simp only [List.cons_append, List.nil_append, hexQuad, hall, if_true, hvalue]

/-- A unit with an escape of one letter is read back. -/
theorem readText_escaped {e x : Char} (hx : escapes.lookup e = some x) (he : e ≠ 'u')
    (hcs : readText start fuel cs = .ok (more, left)) :
    readText start (fuel + 1) ('\\' :: e :: cs) = .ok (Utf16.encodeChar x ++ more, left) := by
  simp [readText, he, hx, hcs]

theorem readText_escapeCode (hne : cs ≠ []) (hcs : readText start fuel cs = .ok (more, left)) :
    readText start (fuel + 1) (escapeCode u.toNat ++ cs) = .ok (u :: more, left) := by
  have hquad := hexQuad_hexFixed u.toNat_lt hne
  simp [escapeCode, readText, unicodeEscape, hquad, hcs]

/-- A printable character that is neither a quote nor a backslash stands for itself. -/
theorem readText_plain (hquote : u ≠ 0x22) (hslash : u ≠ 0x5C) (hprint : 0x20 ≤ u ∧ u < 0x7F)
    (hcs : readText start fuel cs = .ok (more, left)) :
    readText start (fuel + 1) (Char.ofNat u.toNat :: cs) = .ok (u :: more, left) := by
  obtain ⟨hlo, hhi⟩ := hprint
  rw [UInt16.le_iff_toNat_le] at hlo
  rw [UInt16.lt_iff_toNat_lt] at hhi
  have hlo' : 0x20 ≤ u.toNat := hlo
  have hhi' : u.toNat < 0x7F := hhi
  have hvalid : u.toNat.isValidChar := .inl (by omega)
  have hnat : (Char.ofNat u.toNat).toNat = u.toNat := toNat_charOfNat hvalid
  have hunits : Utf16.encodeChar (Char.ofNat u.toNat) = [u] := by
    rw [Utf16.encodeChar_of_lt hvalid (by omega), UInt16.ofNat_toNat]
  have hne {k : UInt16} (hk : u ≠ k) {c : Char} (hc : c.toNat = k.toNat) :
      Char.ofNat u.toNat ≠ c := by
    rintro heq
    rw [heq, hc] at hnat
    exact hk (UInt16.toNat_inj.mp hnat.symm)
  have hquote' : Char.ofNat u.toNat ≠ '"' := hne hquote rfl
  have hslash' : Char.ofNat u.toNat ≠ '\\' := hne hslash rfl
  simp only [readText, hquote', hslash', if_false, hnat, Nat.not_lt.mpr hlo', hcs, hunits]
  rfl

/-- Every unit is read back. -/
theorem readText_escapeUnit (hne : cs ≠ []) (hcs : readText start fuel cs = .ok (more, left)) :
    readText start (fuel + 1) (escapeUnit u ++ cs) = .ok (u :: more, left) := by
  unfold escapeUnit
  split_ifs with hquote hslash hback hform hfeed hreturn htab hprint
  · subst hquote
    exact readText_escaped (x := '"') rfl (by decide) hcs
  · subst hslash
    exact readText_escaped (x := '\\') rfl (by decide) hcs
  · subst hback
    exact readText_escaped (x := '\x08') rfl (by decide) hcs
  · subst hform
    exact readText_escaped (x := '\x0c') rfl (by decide) hcs
  · subst hfeed
    exact readText_escaped (x := '\n') rfl (by decide) hcs
  · subst hreturn
    exact readText_escaped (x := '\r') rfl (by decide) hcs
  · subst htab
    exact readText_escaped (x := '\t') rfl (by decide) hcs
  · exact readText_plain hquote hslash hprint hcs
  · exact readText_escapeCode hne hcs

/-! ### Texts -/

theorem readText_flatMap (h : units.length < fuel) :
    readText start fuel (units.flatMap escapeUnit ++ '"' :: rest) = .ok (units, rest) := by
  induction units generalizing fuel with
  | nil =>
    obtain ⟨fuel, rfl⟩ := Nat.exists_eq_succ_of_ne_zero (Nat.ne_of_gt h)
    rfl
  | cons u units ih =>
    obtain ⟨fuel, rfl⟩ := Nat.exists_eq_succ_of_ne_zero (Nat.ne_of_gt (Nat.zero_lt_of_lt h))
    rw [List.flatMap_cons, List.append_assoc]
    exact readText_escapeUnit (by simp) (ih (Nat.lt_of_succ_lt_succ h))

theorem length_escapeUnit_pos (u : UInt16) : 0 < (escapeUnit u).length := by
  unfold escapeUnit
  split_ifs <;> simp [escapeCode]

theorem length_le_flatMap_escapeUnit (units : List UInt16) :
    units.length ≤ (units.flatMap escapeUnit).length := by
  induction units with
  | nil => exact Nat.le_refl _
  | cons u units ih =>
    have hpos := length_escapeUnit_pos u
    rw [List.flatMap_cons, List.length_append, List.length_cons]
    omega

/-- **Units between quotes are read back.** -/
theorem readUnits_escaped (start : List Char) (units : List UInt16) (rest : List Char) :
    readUnits start (units.flatMap escapeUnit ++ '"' :: rest) = .ok (units, rest) := by
  refine readText_flatMap ?_
  have hlen := length_le_flatMap_escapeUnit units
  rw [List.length_append]
  omega

end PageDiff.Json
