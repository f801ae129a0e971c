import PageDiff.Text.Blank
import PageDiff.Text.Lines

/-!
# Asking for a yes or a no

A question is asked until a line answers it.  A dialogue keeps what is shown meanwhile: the
question, each line as it is typed, and a remark after a line that is no answer.
-/

namespace PageDiff.Command

open PageDiff.Text

/-- What a line answers.  An empty line means no. -/
def answer? (line : List Char) : Option Bool :=
  let word := strip (line.map Char.toLower)
  [([], false), ("n".toList, false), ("no".toList, false), ("y".toList, true),
    ("yes".toList, true)].lookup word

/-- A question with the choice that an empty line makes. -/
def questionText (question : String) : String := s!"{question} [y/N]: "

/-- What has been shown, and the answer unless the lines have run out. -/
structure Dialogue where
  shown : String
  answer : Option Bool
  deriving DecidableEq, Repr

/-- Asks a question until a line answers it. -/
def Dialogue.ask (question : String) : List (List Char) → Dialogue
  | [] => ⟨"", none⟩
  | line :: lines =>
    let typed := s!"{questionText question}{String.ofList line}\n"
    match answer? line with
    | some b => ⟨typed, some b⟩
    | none =>
      let rest := ask question lines
      { rest with shown := s!"{typed}Error: invalid input\n{rest.shown}" }

def typedLines (typed : String) : List (List Char) :=
  let all := lines (unixNewlines typed.toList)
  if all.getLast? = some [] then all.dropLast else all

end PageDiff.Command
