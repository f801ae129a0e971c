/-!
# Style tags in printed text

Printed lines carry style tags in square brackets.  `escape` makes a text print as it stands: it
puts a backslash in front of everything that would be read as a tag, and doubles the backslashes
that already stand there.
-/

namespace PageDiff.Command.Markup

/-- The characters that a tag may start with. -/
def startsName (c : Char) : Bool :=
  (decide ('a' ≤ c) && decide (c ≤ 'z')) || c == '#' || c == '/' || c == '@'

/-- Whether a text starts with a tag: a bracket, the start of a name, and a closing bracket with no
opening one in front of it. -/
def startsTag : List Char → Bool
  | '[' :: c :: cs =>
    startsName c && (cs.dropWhile fun c => c != '[' && c != ']').head? == some ']'
  | _ => false

/-- Whether backslashes at the start of a text, perhaps none, are followed by a tag. -/
def guardsTag (cs : List Char) : Bool := startsTag (cs.dropWhile (· == '\\'))

/-- Every tag gets a backslash in front, and backslashes that stand in front of a tag are
doubled. -/
def escapeTags : List Char → List Char
  | [] => []
  | c :: cs =>
    if (c == '\\' || c == '[') && guardsTag (c :: cs) then '\\' :: c :: escapeTags cs
    else c :: escapeTags cs

/-- Whether a text ends with exactly one backslash, which would guard what is printed after it. -/
def endsOpen (cs : List Char) : Bool :=
  cs.getLast? == some '\\' && cs.dropLast.getLast? != some '\\'

/-- A text that prints as it stands. -/
def escape (s : String) : String :=
  let cs := escapeTags s.toList
  String.ofList (if endsOpen cs then cs ++ ['\\'] else cs)

/-- A text between two tags of a style. -/
def styled (style text : String) : String := s!"[{style}]{text}[/{style}]"

/-- Text without brackets and backslashes is left alone. -/
theorem escapeTags_of_plain {cs : List Char} (h : ∀ c ∈ cs, c ≠ '\\' ∧ c ≠ '[') :
    escapeTags cs = cs := by
  induction cs with
  | nil => rfl
  | cons c cs ih =>
    have hc := h c (by simp)
    simp [escapeTags, hc.1, hc.2, ih fun d hd => h d (by simp [hd])]

end PageDiff.Command.Markup
