import Mathlib.Data.List.DropRight
import PageDiff.Text.Blank
import PageDiff.Text.Lines

/-!
# Pieces of texts

What is left of a text when it is cut at a character, and when its blank ends are dropped.  Lines
that are put together again make the text that has just these lines.
-/

namespace PageDiff.Text

/-- No piece holds the character that the text is cut at. -/
theorem not_mem_of_mem_splitOn {c : Char} {text : List Char} :
    ∀ l ∈ text.splitOn c, c ∉ l := by
  induction text with
  | nil => simp
  | cons x xs ih =>
    rw [List.splitOn_cons_eq_if_modifyHead]
    by_cases hx : x = c
    · rw [if_pos (by simpa using hx)]
      simpa using ih
    · rw [if_neg (by simpa using hx)]
      cases hs : xs.splitOn c with
      | nil => simp
      | cons l ls =>
        rw [hs] at ih
        simpa [Ne.symm hx] using ih

/-- A piece holds nothing but what the text holds. -/
theorem mem_of_mem_splitOn {a c : Char} {text : List Char} :
    ∀ l ∈ text.splitOn c, a ∈ l → a ∈ text := by
  induction text with
  | nil => simp
  | cons x xs ih =>
    rw [List.splitOn_cons_eq_if_modifyHead]
    split
    · intro l hl ha
      rcases List.mem_cons.mp hl with rfl | hl
      · cases ha
      · exact List.mem_cons_of_mem _ (ih l hl ha)
    · cases hs : xs.splitOn c with
      | nil => simp
      | cons first rest =>
        rw [hs] at ih
        intro l hl ha
        rcases List.mem_cons.mp hl with rfl | hl
        · rcases List.mem_cons.mp ha with rfl | ha
          · exact List.mem_cons_self
          · exact List.mem_cons_of_mem _ (ih first List.mem_cons_self ha)
        · exact List.mem_cons_of_mem _ (ih l (List.mem_cons_of_mem _ hl) ha)

/-- Lines put together to a text, with a line feed between every two of them. -/
def joinLines (rows : List (List Char)) : List Char := ['\n'].intercalate rows

theorem lines_joinLines {rows : List (List Char)} (hne : rows ≠ [])
    (h : ∀ row ∈ rows, '\n' ∉ row) : lines (joinLines rows) = rows :=
  List.splitOn_intercalate '\n' h hne

/-- The first `k` lines of a text. -/
def firstLines (k : Nat) (text : List Char) : List Char := joinLines ((lines text).take k)

/-- Pieces that are put together hold nothing new but what stands between them. -/
theorem mem_intercalate {a : Char} {between : List Char} {pieces : List (List Char)}
    (h : a ∈ between.intercalate pieces) : a ∈ between ∨ ∃ l ∈ pieces, a ∈ l := by
  induction pieces with
  | nil => cases h
  | cons first rest ih =>
    cases rest with
    | nil => exact .inr ⟨first, List.mem_cons_self, by simpa [List.intercalate] using h⟩
    | cons next rest =>
      rw [List.intercalate, List.intersperse_cons_cons, List.flatten_cons, List.flatten_cons] at h
      rcases List.mem_append.mp h with h | h
      · exact .inr ⟨first, List.mem_cons_self, h⟩
      · rcases List.mem_append.mp h with h | h
        · exact .inl h
        · rcases ih h with h | ⟨l, hl, h⟩
          · exact .inl h
          · exact .inr ⟨l, List.mem_cons_of_mem _ hl, h⟩

theorem trimBy_concat {p : Char → Bool} {c : Char} (hc : p c = true) (cs : List Char) :
    trimBy p (cs ++ [c]) = trimBy p cs := by
  show ((cs ++ [c]).dropWhile p).rdropWhile p = (cs.dropWhile p).rdropWhile p
  by_cases h : (cs.dropWhile p).isEmpty
  · rw [List.dropWhile_append, if_pos h, List.isEmpty_iff.mp h, List.dropWhile_cons_of_pos hc]
    rfl
  · rw [List.dropWhile_append, if_neg h, List.rdropWhile_concat_pos _ _ _ hc]

theorem strip_dropReturn (raw : List Char) : strip (dropReturn raw) = strip raw := by
  unfold dropReturn
  split
  · next h =>
    conv_rhs => rw [← List.dropLast_append_getLast? _ h]
    rw [strip, strip, trimBy_concat (by decide)]
  · rfl

/-! ### Blank ends -/

section Ends

variable {p : Char → Bool} {front back : List Char}

theorem rdropWhile_append_of_all (h : ∀ c ∈ back, p c = true) :
    (front ++ back).rdropWhile p = front.rdropWhile p := by
  have hback : ∀ c ∈ back.reverse, p c = true := fun c hc => h c (List.mem_reverse.mp hc)
  rw [List.rdropWhile, List.reverse_append, List.dropWhile_append_of_pos hback]
  rfl

theorem rdropWhile_append_of_not_all (h : ¬ ∀ c ∈ back, p c = true) :
    (front ++ back).rdropWhile p = front ++ back.rdropWhile p := by
  have hback : ¬ (back.reverse.dropWhile p).isEmpty := by
    rw [List.isEmpty_iff, List.dropWhile_eq_nil_iff]
    exact fun hall => h fun c hc => hall c (List.mem_reverse.mpr hc)
  rw [List.rdropWhile, List.reverse_append, List.dropWhile_append, if_neg hback,
    List.reverse_append, List.reverse_reverse]
  rfl

theorem strip_eq_rdropWhile (h : ∀ c ∈ front, isBlank c = true)
    (hback : ∀ c ∈ back.head?, isBlank c = false) :
    strip (front ++ back) = back.rdropWhile isBlank := by
  have hdrop : back.dropWhile isBlank = back := by
    cases back with
    | nil => rfl
    | cons c cs => exact List.dropWhile_cons_of_neg (by simpa using hback c rfl)
  show ((front ++ back).dropWhile isBlank).rdropWhile isBlank = _
  rw [List.dropWhile_append_of_pos h, hdrop]

/-- Blank characters at the ends of a line are dropped with the ones that are there. -/
theorem strip_padded {left right : List Char} (hleft : ∀ c ∈ left, isBlank c = true)
    (hright : ∀ c ∈ right, isBlank c = true) (raw : List Char) :
    strip (left ++ raw ++ right) = strip raw := by
  show ((left ++ raw ++ right).dropWhile isBlank).rdropWhile isBlank =
    (raw.dropWhile isBlank).rdropWhile isBlank
  rw [List.append_assoc, List.dropWhile_append_of_pos hleft, List.dropWhile_append]
  by_cases hraw : (raw.dropWhile isBlank).isEmpty
  · rw [if_pos hraw, List.isEmpty_iff.mp hraw, List.dropWhile_eq_nil_iff.mpr hright]
  · rw [if_neg hraw, rdropWhile_append_of_all hright]

end Ends

theorem head?_strip {raw : List Char} {c : Char} (h : (strip raw).head? = some c) :
    isBlank c = false := by
  have hpre : strip raw <+: raw.dropWhile isBlank := List.rdropWhile_prefix isBlank _
  obtain ⟨rest, hrest⟩ := hpre
  have hhead := List.head?_dropWhile_not isBlank raw
  rw [← hrest, List.head?_append, h] at hhead
  simpa using hhead

theorem getLast?_strip {raw : List Char} {c : Char} (h : (strip raw).getLast? = some c) :
    isBlank c = false := by
  have hne : strip raw ≠ [] := fun hnil => by simp [hnil] at h
  have hlast : ¬ isBlank ((strip raw).getLast hne) :=
    List.rdropWhile_last_not isBlank (raw.dropWhile isBlank) hne
  rw [List.getLast?_eq_some_getLast hne] at h
  rw [← Option.some.inj h]
  simpa using hlast

/-- A line with visible ends has no blank ends to drop. -/
theorem strip_of_visible {first last : Char} (hfirst : isBlank first = false)
    (hlast : isBlank last = false) (mid : List Char) :
    strip (first :: (mid ++ [last])) = first :: (mid ++ [last]) := by
  show ((first :: (mid ++ [last])).dropWhile isBlank).rdropWhile isBlank = _
  rw [List.dropWhile_cons_of_neg (by simp [hfirst]), ← List.cons_append,
    List.rdropWhile_concat_neg _ _ _ (by simp [hlast])]

end PageDiff.Text
