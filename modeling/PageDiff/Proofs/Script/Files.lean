import PageDiff.Proofs.Script.Step
import PageDiff.Proofs.Text.Encoding
import PageDiff.Proofs.Text.Returns
import PageDiff.Script.File

/-!
# Scripts in files and in memory

A script in a file is decoded, and then every end of a line in it becomes one line feed, also a
carriage return that stands alone; a script in memory has line feeds for the ends of its lines and
nothing else.  Main statement (`compileFile_of_encoded`): the two show the compiler the same lines
exactly if no return stands alone, and then they come to the same.  One return at the very end of a
script does no harm, since it only makes one more blank line.
-/

namespace PageDiff.Script

open PageDiff.Text

/-! ### Scripts -/

theorem run_map_dropReturn (s : State) (n : Nat) (raws : List (List Char)) :
    s.run n (raws.map dropReturn) = s.run n raws := by
  induction raws generalizing s n with
  | nil => rfl
  | cons raw raws ih => simp only [List.map_cons, State.run, State.step, read_dropReturn, ih]

/-- A blank line at the end of a script makes no difference. -/
theorem compile_of_lines {text text' : List Char} {script : Option String}
    (h : lines text' = shownLines text ∨ lines text' = shownLines text ++ [[]]) :
    compile text' script = compile text script := by
  unfold compile
  rcases h with h | h
  · rw [h, shownLines, run_map_dropReturn]
  · rw [h, State.run_append, shownLines, run_map_dropReturn]
    cases State.run {} 1 (lines text) with
    | error e => rfl
    | ok r =>
      obtain ⟨s, cases⟩ := r
      have hblank (n : Nat) : s.run n [[]] = .ok (s.forgetBlock, []) := rfl
      simp only [hblank, List.append_nil]

/-- A script in a file is its text with every end of a line made a line feed. -/
theorem compileFile_eq {d : Disk} {p : Path} {content : Content} {text : List Char}
    (hread : d.read p = .ok content) (hdata : content.data = Utf8.encode text) :
    compileFile d p = (compile (unixNewlines text) (some p.text)).mapError .compile := by
  have htext : readText d p = .ok (unixNewlines text) := by
    simp only [readText, hread, hdata, Utf8.decode_encode]
  rw [compileFile, htext]
  simp only
  cases compile (unixNewlines text) (some p.text) <;> rfl

/-- **Scripts in files.**  A file with the bytes of a text is compiled like the text with every end
of a line made a line feed.  Its lines are those of the text itself exactly if no return stands
alone.  If returns stand at most before line feeds and at the very end, the file comes to what the
text comes to in memory: the same test cases, or the same refusal on the same line. -/
theorem compileFile_of_encoded {d : Disk} {p : Path} {content : Content} {text : List Char}
    (hread : d.read p = .ok content) (hdata : content.data = Utf8.encode text) :
    compileFile d p = (compile (unixNewlines text) (some p.text)).mapError .compile ∧
    (lines (unixNewlines text) = shownLines text ↔ ¬ HasStrayReturn text) ∧
    (ReturnsEndLines text →
      compileFile d p = (compile text (some p.text)).mapError .compile) := by
  refine ⟨compileFile_eq hread hdata, lines_unixNewlines_eq_iff, fun h => ?_⟩
  rw [compileFile_eq hread hdata, compile_of_lines]
  rw [lines_unixNewlines h]
  split
  · exact .inr rfl
  · exact .inl (List.append_nil _)

/-- A disk with one file. -/
def diskOfScript (text : List Char) : Disk where
  entries := [(["s.txt"], .file (.bytes (Utf8.encode text)))]

def scriptPath : Path := ⟨.relative, ["s.txt"]⟩

theorem read_diskOfScript (text : List Char) :
    (diskOfScript text).read scriptPath = .ok (.bytes (Utf8.encode text)) := rfl

/-- A script whose lines end with a return and a line feed. -/
def returnedLines : List Char :=
  "compare http://a http://b\r\npathname /x\r\nclick #m\r\ncapture".toList

def returnedCase : TestCase := ⟨"/x", "/x", "http://a", "http://b", [.click "#m"], 0, 0, .viewport⟩

theorem compileFile_of_encoded_returnedLines :
    (diskOfScript returnedLines).read scriptPath = .ok (.bytes (Utf8.encode returnedLines)) ∧
    ReturnsEndLines returnedLines ∧ compile returnedLines (some "s.txt") = .ok [returnedCase] ∧
    compileFile (diskOfScript returnedLines) scriptPath = .ok [returnedCase] := by
  have hread := read_diskOfScript returnedLines
  have hends : ReturnsEndLines returnedLines :=
    returnsEndLines_of_not_stray (lines_unixNewlines_eq_iff.mp (by decide +kernel))
  have hcompile : compile returnedLines (some "s.txt") = .ok [returnedCase] := by decide +kernel
  have hfile := (compileFile_of_encoded hread rfl).2.2 hends
  rw [show scriptPath.text = "s.txt" from rfl, hcompile] at hfile
  exact ⟨hread, hends, hcompile, hfile⟩

/-- A script with a return in the middle of a line. -/
def strayReturn : List Char :=
  "compare http://a http://b\npathname /x\nclick a\rb\ncapture".toList

theorem compileFile_strayReturn :
    (diskOfScript strayReturn).read scriptPath = .ok (.bytes (Utf8.encode strayReturn)) ∧
    compile strayReturn (some scriptPath.text) =
      .ok [⟨"/x", "/x", "http://a", "http://b", [.click "a\rb"], 0, 0, .viewport⟩] ∧
    compileFile (diskOfScript strayReturn) scriptPath =
      .error (.compile ⟨.unknownDirective "b", some 4, some scriptPath.text⟩) := by
  have hread := read_diskOfScript strayReturn
  have hunix : compile (unixNewlines strayReturn) (some scriptPath.text) =
      .error ⟨.unknownDirective "b", some 4, some scriptPath.text⟩ := by
    decide +kernel
  refine ⟨hread, by decide +kernel, ?_⟩
  rw [compileFile_eq hread rfl, hunix]
  rfl

end PageDiff.Script
