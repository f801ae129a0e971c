/-!
# Patterns of paths

In a pattern of one name a star stands for any text, a question mark for any character and brackets
for one of a set.  A name that is just two stars stands for any number of directories, and a name
that starts with a dot is found only by a pattern that does.
-/

namespace PageDiff.Path.Pattern

/-! ### Patterns of one name -/

/-- A part of a pattern of one name. -/
inductive Piece
  | literal (c : Char)
  | anyChar
  | anyText
  /-- One character from some ranges, or from none of them. -/
  | oneOf (negated : Bool) (ranges : List (Char × Char))
  deriving DecidableEq, Repr

/-- What stands between the brackets of a set: the text up to the closing bracket, which may be the
first character of the set, and what follows it.  `none` if nothing closes the set. -/
def setBody (cs : List Char) : Option (List Char × List Char) :=
  let (front, rest) :=
    match cs with
    | '!' :: ']' :: rest => (['!', ']'], rest)
    | '!' :: rest => (['!'], rest)
    | ']' :: rest => ([']'], rest)
    | _ => ([], cs)
  match rest.dropWhile (· != ']') with
  | [] => none
  | _ :: after => some (front ++ rest.takeWhile (· != ']'), after)

/-- The texts between the hyphens of a set that stand between two characters.  Behind a hyphen the
next one stands third at the earliest, and one at the end is an ordinary character. -/
def chunksFrom (skipped : Nat) (cs : List Char) : List (List Char) :=
  match h : (cs.drop skipped).dropWhile (· != '-') with
  | [] => [cs]
  | _ :: rest =>
    have : rest.length < cs.length := by
      have := (List.dropWhile_suffix (l := cs.drop skipped) (· != '-')).length_le
      rw [h, List.length_cons, List.length_drop] at this
      omega
    let chunk := cs.take skipped ++ (cs.drop skipped).takeWhile (· != '-')
    if rest = [] then [chunk ++ ['-']] else chunk :: chunksFrom 2 rest
  termination_by cs.length

/-- The texts between the hyphens of a set, the first of which perhaps starts with a negation. -/
def setChunks (cs : List Char) : List (List Char) :=
  chunksFrom (if cs.head? = some '!' then 2 else 1) cs

/-- Takes away ranges that hold nothing, together with their ends, and joins what stands around
them.  The last range goes first. -/
def dropEmptyRanges : List (List Char) → List (List Char)
  | [] => []
  | chunk :: chunks =>
    match dropEmptyRanges chunks with
    | [] => [chunk]
    | next :: rest =>
      match chunk.getLast?, next.head? with
      | some a, some b =>
        if b < a then (chunk.dropLast ++ next.tail) :: rest else chunk :: next :: rest
      | _, _ => chunk :: next :: rest

/-- The ranges across the hyphens between chunks.  A hyphen with nothing in front of it stands for
itself. -/
def hyphenRanges : List (List Char) → List (Char × Char)
  | chunk :: next :: rest =>
    (match chunk.getLast?, next.head? with
      | some a, some b => (a, b)
      | _, _ => ('-', '-')) :: hyphenRanges (next :: rest)
  | _ => []

/-- The ranges of a set that is given by its chunks. -/
def setRanges (chunks : List (List Char)) : List (Char × Char) :=
  chunks.flatten.map (fun c => (c, c)) ++ hyphenRanges chunks

/-- The piece between brackets.  An exclamation mark that stands first, once the empty ranges are
gone, turns the set around. -/
def setPiece (body : List Char) : Piece :=
  match dropEmptyRanges (setChunks body) with
  | ('!' :: chunk) :: chunks => .oneOf true (setRanges (chunk :: chunks))
  | chunks => .oneOf false (setRanges chunks)

theorem setBody_length {cs body rest : List Char} (h : setBody cs = some (body, rest)) :
    rest.length < cs.length := by
  have key : ∀ (l : List Char) {x : Char} {after : List Char},
      l.dropWhile (· != ']') = x :: after → after.length < l.length := by
    intro l x after hl
    have := (List.dropWhile_sublist (l := l) (· != ']')).length_le
    rw [hl, List.length_cons] at this
    omega
  unfold setBody at h
  split at h
  rename_i front tail hf
  have hlen : tail.length ≤ cs.length := by
    split at hf <;> grind
  split at h
  · simp at h
  · rename_i x after hd
    simp only [Option.some.injEq, Prod.mk.injEq] at h
    obtain ⟨-, rfl⟩ := h
    exact Nat.lt_of_lt_of_le (key tail hd) hlen

/-- The pieces of a pattern of one name.  A bracket that nothing closes stands for itself. -/
def pieces : List Char → List Piece
  | [] => []
  | c :: cs =>
    if c = '*' then .anyText :: pieces cs
    else if c = '?' then .anyChar :: pieces cs
    else if c = '[' then
      match h : setBody cs with
      | none => .literal c :: pieces cs
      | some (body, rest) =>
        have := setBody_length h
        setPiece body :: pieces rest
    else .literal c :: pieces cs
  termination_by cs => cs.length
  decreasing_by all_goals simp only [List.length_cons]; omega

def inSet (ranges : List (Char × Char)) (c : Char) : Bool :=
  ranges.any fun r => decide (r.1 ≤ c) && decide (c ≤ r.2)

/-- Whether a piece stands for a character. -/
def Piece.stands : Piece → Char → Bool
  | .literal p, c => p == c
  | .anyChar, _ | .anyText, _ => true
  | .oneOf negated ranges, c => inSet ranges c != negated

/-- The answers for pieces behind a star, from the answers for the pieces: whether one of them is
true from there on. -/
def anyTextRow (row : List Bool) : List Bool :=
  row.foldr (fun here later => (here || later.headD false) :: later) []

/-- For a text and for what is left of it behind each of its characters, whether pieces match it. -/
def matchSuffixes : List Piece → List Char → List Bool
  | [], cs => cs.map (fun _ => false) ++ [true]
  | .anyText :: ps, cs => anyTextRow (matchSuffixes ps cs)
  | p :: ps, cs =>
    List.zipWith (fun c later => p.stands c && later) cs (matchSuffixes ps cs).tail ++ [false]

def matchPieces (ps : List Piece) (cs : List Char) : Bool := (matchSuffixes ps cs).headD false

def matchName (pattern name : String) : Bool := matchPieces (pieces pattern.toList) name.toList

/-! ### Patterns of paths -/

/-- Whether a character does not stand for itself, or might not. -/
def isMagic (c : Char) : Bool := c == '*' || c == '?' || c == '['

/-- Whether a text holds anything that does not stand for itself. -/
def hasMagic (cs : List Char) : Bool := cs.any isMagic

/-- What stands in front of the first name of a pattern that does not stand for itself, nothing if
there is no such name. -/
def firstListed (pattern : List Char) : List Char :=
  if hasMagic pattern then
    ((pattern.takeWhile (!isMagic ·)).reverse.dropWhile (· != '/')).reverse
  else []

/-- Whether a name is left out unless it is asked for. -/
def isHidden (name : String) : Bool := name.toList.head? == some '.'

/-- Whether a pattern of one name stands for any number of directories. -/
def isDeep (pattern : String) : Bool := pattern == "**"

/-- The text up to the last slash, without the slashes at its end unless it has nothing else, and
the text after it. -/
def cut (pattern : List Char) : List Char × List Char :=
  let base := (pattern.reverse.takeWhile (· != '/')).reverse
  let front := pattern.take (pattern.length - base.length)
  if front.all (· == '/') then (front, base)
  else ((front.reverse.dropWhile (· == '/')).reverse, base)

/-- What `cut` keeps in front is the start of the pattern. -/
theorem cut_front_isPrefix (pattern : List Char) : (cut pattern).1 <+: pattern := by
  have trimmed (l : List Char) : (l.reverse.dropWhile (· == '/')).reverse <+: l := by
    have := List.dropWhile_suffix (l := l.reverse) (· == '/')
    simpa using List.reverse_prefix.mpr this
  unfold cut
  simp only
  split
  · exact List.take_prefix _ _
  · exact (trimmed _).trans (List.take_prefix _ _)

theorem cut_length {pattern front base : List Char} (h : cut pattern = (front, base))
    (hb : front ≠ pattern) : front.length < pattern.length := by
  have hp : front <+: pattern := by simpa [h] using cut_front_isPrefix pattern
  exact Nat.lt_of_le_of_ne hp.length_le fun hl => hb (hp.eq_of_length hl)

/-- A path with one more name, both as text. -/
def join (directory name : String) : String :=
  if directory = "" ∨ name.toList.head? = some '/' then name
  else if directory.toList.getLast? = some '/' then directory ++ name
  else directory ++ "/" ++ name

end PageDiff.Path.Pattern
