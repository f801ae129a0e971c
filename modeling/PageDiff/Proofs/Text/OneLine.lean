import PageDiff.Number.Text
import PageDiff.Proofs.Text.Pieces
import PageDiff.Proofs.Text.Returns
import PageDiff.Text.Quoted

/-!
# Texts of one line

A text without a line feed is one line, and so is what is quoted and how a number is written.  Texts
that are put together with line feeds between them make the lines that each of them has.
-/

namespace PageDiff.Text

open PageDiff.Number

/-! ### Lines of joined texts -/

theorem lines_append_feed (front back : List Char) :
    lines (front ++ '\n' :: back) = lines front ++ lines back :=
  List.splitOnP_append_cons front back (by decide)

/-- Texts that are put together keep their lines. -/
theorem lines_joinLines_flatMap {rows : List (List Char)} (h : rows ≠ []) :
    lines (joinLines rows) = rows.flatMap lines := by
  induction rows with
  | nil => exact absurd rfl h
  | cons row rows ih =>
    cases rows with
    | nil => simp [joinLines, List.intercalate]
    | cons next rows =>
      have hjoin : joinLines (row :: next :: rows) = row ++ '\n' :: joinLines (next :: rows) := by
        simp [joinLines, List.intercalate]
      rw [hjoin, lines_append_feed, ih (List.cons_ne_nil _ _)]
      rfl

/-! ### One line -/

/-- A text without a line feed. -/
def IsLine (s : String) : Prop := '\n' ∉ s.toList

instance (s : String) : Decidable (IsLine s) := inferInstanceAs (Decidable (_ ∉ _))

variable {s t : String} {cs : List Char}

theorem lines_eq_singleton_iff : lines s.toList = [s.toList] ↔ IsLine s := by
  constructor
  · intro h
    have hmem : s.toList ∈ lines s.toList := by simp [h]
    exact not_mem_of_mem_splitOn _ hmem
  · exact fun h => List.splitOn_eq_singleton h

theorem count_feed_eq_zero_iff : s.toList.count '\n' = 0 ↔ IsLine s := List.count_eq_zero

theorem isLine_append : IsLine (s ++ t) ↔ IsLine s ∧ IsLine t := by
  simp only [IsLine, String.toList_append, List.mem_append, not_or]

theorem isLine_ofList : IsLine (String.ofList cs) ↔ '\n' ∉ cs := by
  rw [IsLine, String.toList_ofList]

/-! ### Quoted texts -/

theorem feed_not_mem_hexFixed (width n : Nat) : '\n' ∉ hexFixed width n := by
  induction width generalizing n with
  | zero => simp [hexFixed]
  | succ width ih =>
    have hdigit : ∀ k < 16, '\n' ≠ Nat.digitChar k := by decide
    simp only [hexFixed, List.mem_append, List.mem_singleton, not_or]
    exact ⟨ih _, hdigit _ (Nat.mod_lt _ (by decide))⟩

theorem feed_not_mem_escapeWithin {mark c : Char} (h : mark ≠ '\n') :
    '\n' ∉ escapeWithin mark c := by
  unfold escapeWithin
  split_ifs with hmark hfeed _ _ hprint
  · rcases hmark with rfl | rfl
    · decide
    · simpa using h.symm
  · decide
  · decide
  · decide
  · simpa using Ne.symm hfeed
  · simpa using feed_not_mem_hexFixed _ _
  · simpa using feed_not_mem_hexFixed _ _
  · simpa using feed_not_mem_hexFixed _ _

/-- Whatever is quoted stays on its line. -/
theorem isLine_quoted (s : String) : IsLine (quoted s) := by
  have hmark : quoteMark s.toList ≠ '\n' := by
    unfold quoteMark
    split_ifs <;> decide
  rw [quoted, isLine_ofList, quotedChars]
  simp only [List.cons_append, List.mem_cons, List.mem_append, List.mem_flatMap, List.not_mem_nil,
    or_false, not_or, not_exists, not_and]
  exact ⟨hmark.symm, fun _ _ => feed_not_mem_escapeWithin hmark, hmark.symm⟩

/-! ### Numbers -/

theorem feed_not_mem_toDigits (n : Nat) : '\n' ∉ Nat.toDigits 10 n := by
  intro h
  exact absurd (Nat.isDigit_of_mem_toDigits (by decide) (by decide) h) (by decide)

theorem isLine_toString (n : Nat) : IsLine (toString n) :=
  isLine_ofList.mpr (feed_not_mem_toDigits n)

theorem feed_not_mem_fraction (h : '\n' ∉ cs) : '\n' ∉ if cs = [] then [] else '.' :: cs := by
  split_ifs
  · exact List.not_mem_nil
  · simpa using h

theorem feed_not_mem_positional (h : '\n' ∉ cs) (n : Int) : '\n' ∉ positional cs n := by
  have htake : '\n' ∉ cs.take n.toNat := fun hm => h (List.mem_of_mem_take hm)
  have hdrop : '\n' ∉ cs.drop n.toNat := fun hm => h (List.mem_of_mem_drop hm)
  unfold positional
  split
  · simp [h, List.mem_replicate]
  · simp only [List.mem_append, not_or]
    exact ⟨⟨htake, by simp [List.mem_replicate]⟩, feed_not_mem_fraction hdrop⟩

theorem feed_not_mem_scientific (h : '\n' ∉ cs) (e : Int) : '\n' ∉ scientific cs e := by
  have htake : '\n' ∉ cs.take 1 := fun hm => h (List.mem_of_mem_take hm)
  have hdrop : '\n' ∉ cs.drop 1 := fun hm => h (List.mem_of_mem_drop hm)
  have hsign : '\n' ∉ ['e', if e < 0 then '-' else '+'] := by split_ifs <;> decide
  simp only [scientific, List.mem_append, not_or]
  exact ⟨⟨⟨⟨htake, feed_not_mem_fraction hdrop⟩, hsign⟩, by simp [List.mem_replicate]⟩,
    feed_not_mem_toDigits _⟩

theorem isLine_signed (h : '\n' ∉ cs) (negative : Bool) : IsLine (Double.signed negative cs) := by
  rw [Double.signed, isLine_ofList]
  cases negative with
  | true => simpa using h
  | false => simpa using h

theorem isLine_generalText (x : Double) : IsLine x.generalText := by
  unfold Double.generalText
  split
  · decide
  · split <;> decide
  · split
    · exact isLine_signed (by decide) _
    · have hdigits := feed_not_mem_toDigits (Double.significant 6 ‹_› ‹_›).digits
      dsimp only
      split
      · exact isLine_signed (feed_not_mem_positional hdigits _) _
      · exact isLine_signed (feed_not_mem_scientific hdigits _) _

end PageDiff.Text
