import PageDiff.Proofs.Script.Step

/-!
# The beginnings of a script

Every beginning of a script is judged on its own: what its lines come to is known before the next
line is read, and no later line changes it.  Main statement (`judged_line_by_line`): the first lines
of a script that compiles make the first of its test cases, one for each of their captures, and a
script that is refused is refused on one of its lines, for a reason that lies in this line and in
the lines before it.
-/

namespace PageDiff.Script

open PageDiff.Text

variable {s t : State} {n m : Nat} {problem : Problem} {cases : List TestCase}
  {before after : List (List Char)}

/-! ### Beginnings that are accepted -/

/-- Of accepted lines the first ones are accepted, and the others are accepted behind them. -/
theorem State.run_append_eq_ok : s.run n (before ++ after) = .ok (t, cases) ↔
    ∃ mid earlier later, s.run n before = .ok (mid, earlier) ∧
      mid.run (n + before.length) after = .ok (t, later) ∧ cases = earlier ++ later := by
  rw [run_append]
  constructor
  · intro h
    cases hb : s.run n before with
    | error e =>
      rw [hb] at h
      cases h
    | ok r =>
      obtain ⟨mid, earlier⟩ := r
      rw [hb] at h
      simp only at h
      cases ha : mid.run (n + before.length) after with
      | error e =>
        rw [ha] at h
        cases h
      | ok r =>
        obtain ⟨last, later⟩ := r
        rw [ha] at h
        cases h
        exact ⟨mid, earlier, later, rfl, ha, rfl⟩
  · rintro ⟨mid, earlier, later, hb, ha, rfl⟩
    rw [hb]
    simp only
    rw [ha]

/-- Lines that are accepted have made one test case for each capture among them. -/
theorem length_cases_of_run {raws : List (List Char)}
    (h : State.run {} n raws = .ok (s, cases)) :
    cases.length = (arguments .capture raws).length := by
  refine State.run_induction
    (P := fun raws _ cases => cases.length = (arguments .capture raws).length) rfl ?_ h
  intro raws raw s t cases made hlength he
  have hmade : made.toList.length = (argument? .capture raw).toList.length := by
    cases hc : argument? .capture raw with
    | none =>
      rw [he.made_eq_none hc]
      rfl
    | some args =>
      rw [argument?_eq_some.mp hc] at he
      cases he
      rfl
  rw [arguments_concat, List.length_append, List.length_append, hlength, hmade]

theorem compile_firstLines_of_ok {text : List Char} {script : Option String}
    (h : compile text script = .ok cases) (k : Nat) :
    ∃ earlier, compile (firstLines k text) script = .ok earlier ∧ earlier <+: cases ∧
      earlier.length = (arguments .capture ((lines text).take k)).length := by
  obtain ⟨t, hrun⟩ := compile_eq_ok.mp h
  rw [← List.take_append_drop k (lines text)] at hrun
  obtain ⟨mid, earlier, later, hfirst, -, rfl⟩ := State.run_append_eq_ok.mp hrun
  refine ⟨earlier, ?_, List.prefix_append earlier later, length_cases_of_run hfirst⟩
  rw [compile_firstLines, hfirst]
  rfl

/-! ### Beginnings that are refused -/

/-- Where lines are refused, all lines that begin in the same way up to there are refused too. -/
theorem State.run_eq_error_of_take {raws others : List (List Char)}
    (h : s.run n raws = .error (n + m, problem))
    (hsame : others.take (m + 1) = raws.take (m + 1)) :
    s.run n others = .error (n + m, problem) := by
  obtain ⟨before, raw, after, mid, made, rfl, hlength, hrun, hobey⟩ := run_eq_error.mp h
  have hm : m = before.length := by omega
  -- the lines up to the refused one are the beginning of the others as well
  have htake : (before ++ raw :: after).take (m + 1) = before ++ [raw] := by
    rw [hm, List.append_cons, List.take_left' (by simp)]
  have hothers : others = before ++ raw :: others.drop (m + 1) := by
    conv_lhs => rw [← List.take_append_drop (m + 1) others, hsame, htake]
    rw [List.append_assoc]
    rfl
  exact run_eq_error.mpr ⟨before, raw, _, mid, made, hothers, by rw [hm], hrun, hobey⟩

theorem compile_of_error {text : List Char} {script : Option String} {e : CompileError}
    (h : compile text script = .error e) :
    e.script = script ∧ ∃ m < (lines text).length, e.line = some ((m + 1 : Nat) : Int) ∧
      (∃ cases, compile (firstLines m text) script = .ok cases) ∧
      ∀ other, (lines other).take (m + 1) = (lines text).take (m + 1) →
        compile other script = .error e := by
  obtain ⟨number, problem, hrun, rfl⟩ := compile_eq_error.mp h
  obtain ⟨before, raw, after, mid, made, htext, rfl, hbefore, -⟩ := State.run_eq_error.mp hrun
  have hfront : (lines text).take before.length = before := by
    rw [htext, List.take_left' rfl]
  refine ⟨rfl, before.length, ?_, ?_, ⟨made, ?_⟩, ?_⟩
  · rw [htext, List.length_append, List.length_cons]
    omega
  · rw [Nat.add_comm]
  · rw [compile_firstLines, hfront, hbefore]
    rfl
  · intro other hsame
    exact compile_eq_error.mpr ⟨_, problem, State.run_eq_error_of_take hrun hsame, rfl⟩

/-! ### Line by line -/

/-- **A script is judged line by line.**  The first lines of a script that compiles make the first
of its test cases, as many as they have captures.  A refusal names the script and one of its lines;
the lines before this one compile, and every script that begins with the lines up to this one is
refused in the same words, whatever follows. -/
theorem judged_line_by_line (text : List Char) (script : Option String) :
    (∀ cases, compile text script = .ok cases → ∀ k, ∃ earlier,
      compile (firstLines k text) script = .ok earlier ∧ earlier <+: cases ∧
      earlier.length = (arguments .capture ((lines text).take k)).length) ∧
    (∀ e, compile text script = .error e → e.script = script ∧
      ∃ n : Nat, e.line = some (n : Int) ∧ 1 ≤ n ∧ n ≤ (lines text).length ∧
        (∃ cases, compile (firstLines (n - 1) text) script = .ok cases) ∧
        ∀ other, (lines other).take n = (lines text).take n → compile other script = .error e) := by
  constructor
  · intro cases h k
    exact compile_firstLines_of_ok h k
  · intro e h
    obtain ⟨hscript, m, hm, hline, hfront, hother⟩ := compile_of_error h
    exact ⟨hscript, m + 1, hline, by omega, hm, hfront, hother⟩

/-- A script whose page is captured twice under one name, and its first four lines with something
else behind them. -/
def capturedTwice : List Char :=
  "compare http://a http://b\npathname /x\ncapture\ncapture\n\npathname /y".toList

def capturedTwiceOther : List Char :=
  "compare http://a http://b\npathname /x\ncapture\ncapture\nnonsense\ncapture 1x1".toList

/-- A script with a capture in front of its third line and one behind it. -/
def capturedApart : List Char :=
  "compare http://a http://b\npathname /x\ncapture\n\npathname /y\ncapture fullscreen".toList

def capturedApartCases : List TestCase :=
  [⟨"/x", "/x", "http://a", "http://b", [], 0, 0, .viewport⟩,
    ⟨"/y", "/y", "http://a", "http://b", [], 0, 0, .fullPage⟩]

theorem judged_line_by_line_captured :
    (compile capturedApart (some "s") = .ok capturedApartCases ∧
      ∃ earlier, compile (firstLines 4 capturedApart) (some "s") = .ok earlier ∧
        earlier <+: capturedApartCases ∧
        earlier.length = (arguments .capture ((lines capturedApart).take 4)).length) ∧
    compile capturedTwice (some "s") = .error ⟨.duplicateTest "/x", some 4, some "s"⟩ ∧
    (lines capturedTwiceOther).take 4 = (lines capturedTwice).take 4 ∧
    compile capturedTwiceOther (some "s") = .error ⟨.duplicateTest "/x", some 4, some "s"⟩ := by
  have hok : compile capturedApart (some "s") = .ok capturedApartCases := by decide +kernel
  have herr : compile capturedTwice (some "s") =
      .error ⟨.duplicateTest "/x", some 4, some "s"⟩ := by decide +kernel
  have hsame : (lines capturedTwiceOther).take 4 = (lines capturedTwice).take 4 := by
    decide +kernel
  obtain ⟨-, n, hn, -, -, -, hother⟩ :=
    (judged_line_by_line capturedTwice (some "s")).2 _ herr
  obtain rfl : n = 4 := by
    have hline : (4 : Int) = (n : Int) := Option.some.inj hn
    omega
  exact ⟨⟨hok, (judged_line_by_line capturedApart (some "s")).1 _ hok 4⟩, herr, hsame,
    hother _ hsame⟩

end PageDiff.Script
