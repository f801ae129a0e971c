import PageDiff.Proofs.Text.Pieces

/-!
# Ends of lines

A text in memory ends its lines with line feeds, perhaps with a return in front of them
(`shownLines`); in a file a return ends a line as well (`unixNewlines`).  Both give the same lines
exactly if a line feed follows every return (`lines_unixNewlines_eq_iff`), and all but the same if
the only other return is the last character (`lines_unixNewlines`).
-/

namespace PageDiff.Text

/-! ### Returns -/

/-- A return that no line feed follows. -/
def HasStrayReturn (cs : List Char) : Prop := ∃ a b, cs = a ++ '\r' :: b ∧ b.head? ≠ some '\n'

/-- A line feed follows every return, or nothing does. -/
def ReturnsEndLines (cs : List Char) : Prop :=
  ∀ a b, cs = a ++ '\r' :: b → b = [] ∨ b.head? = some '\n'

theorem hasStrayReturn_cons {c : Char} {cs : List Char} : HasStrayReturn (c :: cs) ↔
    (c = '\r' ∧ cs.head? ≠ some '\n') ∨ HasStrayReturn cs := by
  constructor
  · rintro ⟨a, b, h, hb⟩
    cases a with
    | nil =>
      cases h
      exact .inl ⟨rfl, hb⟩
    | cons x a =>
      cases h
      exact .inr ⟨a, b, rfl, hb⟩
  · rintro (⟨rfl, hb⟩ | ⟨a, b, rfl, hb⟩)
    · exact ⟨[], cs, rfl, hb⟩
    · exact ⟨c :: a, b, rfl, hb⟩

theorem ReturnsEndLines.of_cons {c : Char} {cs : List Char} (h : ReturnsEndLines (c :: cs)) :
    ReturnsEndLines cs := fun a b hcs => h (c :: a) b (by rw [hcs]; rfl)

theorem returnsEndLines_of_not_stray {cs : List Char} (h : ¬ HasStrayReturn cs) :
    ReturnsEndLines cs := fun a b hcs => .inr (not_not.mp fun hb => h ⟨a, b, hcs, hb⟩)

/-! ### Lines -/

theorem lines_cons_feed (cs : List Char) : lines ('\n' :: cs) = [] :: lines cs := by
  rw [lines, List.splitOn_cons_eq_if_modifyHead, if_pos (by decide)]
  rfl

theorem lines_cons {c : Char} (hc : c ≠ '\n') (cs : List Char) :
    lines (c :: cs) = (lines cs).modifyHead (c :: ·) := by
  rw [lines, List.splitOn_cons_eq_if_modifyHead, if_neg (by simpa using hc)]
  rfl

theorem lines_ne_nil (cs : List Char) : lines cs ≠ [] := List.splitOn_ne_nil '\n' cs

theorem dropReturn_cons {c : Char} (hc : c ≠ '\r') (cs : List Char) :
    dropReturn (c :: cs) = c :: dropReturn cs := by
  cases cs with
  | nil => simp [dropReturn, hc]
  | cons d ds =>
    unfold dropReturn
    rw [List.getLast?_cons_cons]
    split
    · rw [List.dropLast_cons_cons]
    · rfl

/-- The lines that a script in memory shows. -/
def shownLines (cs : List Char) : List (List Char) := (lines cs).map dropReturn

theorem shownLines_cons {c : Char} (hn : c ≠ '\n') (hr : c ≠ '\r') (cs : List Char) :
    shownLines (c :: cs) = (shownLines cs).modifyHead (c :: ·) := by
  unfold shownLines
  rw [lines_cons hn]
  cases hl : lines cs with
  | nil => exact absurd hl (lines_ne_nil cs)
  | cons l ls => simp [dropReturn_cons hr]

theorem shownLines_cons_feed (cs : List Char) : shownLines ('\n' :: cs) = [] :: shownLines cs := by
  rw [shownLines, lines_cons_feed]
  rfl

theorem shownLines_ne_nil (cs : List Char) : shownLines cs ≠ [] := by
  simpa [shownLines] using lines_ne_nil cs

theorem getLast?_cons_eq_return {c : Char} (hc : c ≠ '\r') (cs : List Char) :
    (c :: cs).getLast? = some '\r' ↔ cs.getLast? = some '\r' := by
  cases cs with
  | nil => simp [hc]
  | cons d ds => rw [List.getLast?_cons_cons]

/-- Where returns only end lines, both ways of ending a line come to the same, but for one return at
the very end. -/
theorem lines_unixNewlines {cs : List Char} (h : ReturnsEndLines cs) :
    lines (unixNewlines cs) =
      shownLines cs ++ if cs.getLast? = some '\r' then [[]] else [] := by
  fun_induction unixNewlines cs with
  | case1 => rfl
  | case2 rest ih =>
    have hshown : shownLines ('\r' :: '\n' :: rest) = [] :: shownLines rest := by
      rw [shownLines, lines_cons (by decide), lines_cons_feed]
      rfl
    rw [lines_cons_feed, ih h.of_cons.of_cons, hshown, List.getLast?_cons_cons]
    simp only [getLast?_cons_eq_return (c := '\n') (by decide), List.cons_append]
  | case3 rest hrest ih =>
    -- no line feed follows this return, so nothing does
    obtain rfl : rest = [] := by
      refine (h [] rest rfl).resolve_right fun hhead => ?_
      obtain ⟨rest', rfl⟩ := List.head?_eq_some_iff.mp hhead
      exact hrest rest' rfl
    rfl
  | case4 c rest hrest hc ih =>
    have hr : c ≠ '\r' := hc
    simp only [getLast?_cons_eq_return hr]
    by_cases hn : c = '\n'
    · rw [hn, lines_cons_feed, shownLines_cons_feed, ih h.of_cons, List.cons_append]
    · rw [lines_cons hn, shownLines_cons hn hr, ih h.of_cons]
      cases hl : shownLines rest with
      | nil => exact absurd hl (shownLines_ne_nil rest)
      | cons l ls => rfl

/-- A script has one line more than it has line feeds. -/
theorem length_lines (cs : List Char) : (lines cs).length = cs.count '\n' + 1 := by
  induction cs with
  | nil => rfl
  | cons c cs ih =>
    by_cases hn : c = '\n'
    · rw [hn, lines_cons_feed, List.length_cons, ih, List.count_cons_self]
    · rw [lines_cons hn, List.length_modifyHead, ih, List.count_cons_of_ne hn]

theorem not_hasStrayReturn_nil : ¬ HasStrayReturn [] := by
  rintro ⟨a, b, h, -⟩
  simp at h

/-- No line feed is lost, and a return that stands alone makes one more. -/
theorem count_unixNewlines (cs : List Char) :
    cs.count '\n' ≤ (unixNewlines cs).count '\n' ∧
      (HasStrayReturn cs → cs.count '\n' < (unixNewlines cs).count '\n') := by
  fun_induction unixNewlines cs with
  | case1 => exact ⟨Nat.le_refl _, fun h => absurd h not_hasStrayReturn_nil⟩
  | case2 rest ih =>
    simpa [hasStrayReturn_cons] using ih
  | case3 rest hrest ih =>
    rw [List.count_cons_of_ne (by decide), List.count_cons_self]
    omega
  | case4 c rest hrest hc ih =>
    have hr : c ≠ '\r' := hc
    simp only [hasStrayReturn_cons, hr, false_and, false_or]
    rw [List.count_cons, List.count_cons]
    refine ⟨by omega, fun h => ?_⟩
    have := ih.2 h
    omega

/-- The same lines are shown exactly if no return stands alone. -/
theorem lines_unixNewlines_eq_iff {cs : List Char} :
    lines (unixNewlines cs) = shownLines cs ↔ ¬ HasStrayReturn cs := by
  constructor
  · intro h hstray
    have hlen := congrArg List.length h
    rw [shownLines, List.length_map, length_lines, length_lines] at hlen
    have := (count_unixNewlines cs).2 hstray
    omega
  · intro h
    rw [lines_unixNewlines (returnsEndLines_of_not_stray h), if_neg, List.append_nil]
    intro hlast
    obtain ⟨a, rfl⟩ := List.getLast?_eq_some_iff.mp hlast
    exact h ⟨a, [], rfl, by simp⟩

/-- Without returns the ends of lines are left as they are. -/
theorem unixNewlines_of_not_mem {cs : List Char} (h : '\r' ∉ cs) : unixNewlines cs = cs := by
  fun_induction unixNewlines cs with
  | case1 => rfl
  | case2 rest ih => simp at h
  | case3 rest hfeed ih => simp at h
  | case4 c rest hfeed hreturn ih => rw [ih fun hmem => h (List.mem_cons_of_mem c hmem)]

end PageDiff.Text
