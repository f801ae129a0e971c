import PageDiff.Json.Value
import PageDiff.Number.Reading
import PageDiff.Text.Hex

/-!
# Reading documents

`parse` reads a JSON document.  Besides the standard's numbers it takes `NaN`, `Infinity` and
`-Infinity`.  Inside, every reader takes the text from where it stands and gives back what is left
of it, and an error carries what was left where it was found; `parse` turns that into a position.
-/

namespace PageDiff.Json

open PageDiff.Number PageDiff.Text

/-- What is wrong with a document. -/
inductive Flaw
  | noValue
  | noKey
  | noColon
  | noComma
  | extraData
  | controlCharacter
  | badEscape
  | badUnicodeEscape
  | unterminated
  | byteOrderMark
  deriving DecidableEq, Repr

def Flaw.message : Flaw → String
  | .noValue => "Expecting value"
  | .noKey => "Expecting property name enclosed in double quotes"
  | .noColon => "Expecting ':' delimiter"
  | .noComma => "Expecting ',' delimiter"
  | .extraData => "Extra data"
  | .controlCharacter => "Invalid control character at"
  | .badEscape => "Invalid \\escape"
  | .badUnicodeEscape => "Invalid \\uXXXX escape"
  | .unterminated => "Unterminated string starting at"
  | .byteOrderMark => "Unexpected UTF-8 BOM (decode using utf-8-sig)"

/-- A value that holds others. -/
inductive Container
  | array
  | object
  deriving DecidableEq, Repr

def Container.name : Container → String
  | .array => "array"
  | .object => "object"

/-- A failure of a reader: a flaw with what was left of the text, a numeral that is too long, or a
container that stands too deep in others. -/
inductive Stop
  | flaw (flaw : Flaw) (left : List Char)
  | tooLong (e : TooManyDigits)
  | tooDeep (container : Container)
  deriving DecidableEq, Repr

/-- A reader gives what it read and what is left. -/
abbrev Result (α : Type) := Except Stop (α × List Char)

/-- Whether a character may stand between the parts of a document. -/
def isSpace (c : Char) : Bool := c == ' ' || c == '\t' || c == '\n' || c == '\r'

def skipSpace (cs : List Char) : List Char := cs.dropWhile isSpace

/-- What is left after a given beginning. -/
def stripPrefix? : List Char → List Char → Option (List Char)
  | [], cs => some cs
  | _ :: _, [] => none
  | p :: ps, c :: cs => if p = c then stripPrefix? ps cs else none

/-! ### Texts -/

/-- The characters that a one-letter escape stands for. -/
def escapes : List (Char × Char) :=
  [('"', '"'), ('\\', '\\'), ('/', '/'), ('b', '\x08'), ('f', '\x0c'), ('n', '\n'), ('r', '\r'),
    ('t', '\t')]

/-- Four hexadecimal digits, which must not end the document. -/
def hexQuad : List Char → Option (Nat × List Char)
  | a :: b :: c :: d :: e :: cs =>
    if [a, b, c, d].all isHexDigit then some (hexValue [a, b, c, d], e :: cs) else none
  | _ => none

/-- The unit behind `\u`.  `left` starts at the `u`. -/
def unicodeEscape (left : List Char) : Result UInt16 :=
  match hexQuad (left.drop 1) with
  | none => .error (.flaw .badUnicodeEscape left)
  | some (code, rest) => .ok (.ofNat code, rest)

/-- The rest of a text.  `start` is what was left at its opening quote. -/
def readText (start : List Char) : Nat → List Char → Result (List UInt16)
  | 0, _ => .error (.flaw .unterminated start)
  | _ + 1, [] => .error (.flaw .unterminated start)
  | fuel + 1, c :: cs =>
    if c = '"' then .ok ([], cs)
    else if c = '\\' then
      match cs with
      | [] => .error (.flaw .unterminated start)
      | e :: rest =>
        let escaped : Result (List UInt16) :=
          if e = 'u' then
            match unicodeEscape cs with
            | .error stop => .error stop
            | .ok (unit, left) => .ok ([unit], left)
          else
            match escapes.lookup e with
            | some x => .ok (Utf16.encodeChar x, rest)
            | none => .error (.flaw .badEscape (c :: cs))
        match escaped with
        | .error stop => .error stop
        | .ok (units, left) =>
          match readText start fuel left with
          | .error stop => .error stop
          | .ok (more, left) => .ok (units ++ more, left)
    else if c.toNat < 0x20 then .error (.flaw .controlCharacter (c :: cs))
    else
      match readText start fuel cs with
      | .error stop => .error stop
      | .ok (more, left) => .ok (Utf16.encodeChar c ++ more, left)

/-- The units of the text behind an opening quote. -/
def readUnits (start cs : List Char) : Result (List UInt16) := readText start (cs.length + 1) cs

/-! ### Values -/

/-- The values with a fixed spelling. -/
def constants : List (List Char × Value) :=
  [("null".toList, .null), ("true".toList, .bool true), ("false".toList, .bool false),
    ("NaN".toList, .double .nan), ("Infinity".toList, .double (.infinity false)),
    ("-Infinity".toList, .double (.infinity true))]

def readConstant (cs : List Char) : Option (Value × List Char) :=
  constants.findSome? fun (spelling, v) => (stripPrefix? spelling cs).map ((v, ·))

def readScalar (cs : List Char) : Result Value :=
  match readConstant cs with
  | some r => .ok r
  | none =>
    match scanNumber cs with
    | .ok (n, rest) => .ok (.number n, rest)
    | .error .noNumber => .error (.flaw .noValue cs)
    | .error (.tooLong e) => .error (.tooLong e)

/-- How deep arrays and objects may stand in each other. -/
def depthLimit : Nat := 987

mutual

/-- The value at the start of a text, in which arrays and objects may stand in each other only as
deep as there is `room`.  Every call uses up one unit of fuel, and there are at most two calls for a
character, so twice the length of the text is fuel enough. -/
def readValue : Nat → Nat → List Char → Result Value
  | 0, _, cs => .error (.flaw .noValue cs)
  | fuel + 1, room, cs =>
    match cs with
    | '"' :: rest =>
      match readUnits cs rest with
      | .error stop => .error stop
      | .ok (units, left) => .ok (.ofUnits units, left)
    | '[' :: rest =>
      match room with
      | 0 => .error (.tooDeep .array)
      | room + 1 =>
        match skipSpace rest with
        | ']' :: left => .ok (.array [], left)
        | left =>
          match readItems fuel room left with
          | .error stop => .error stop
          | .ok (items, left) => .ok (.array items, left)
    | '{' :: rest =>
      match room with
      | 0 => .error (.tooDeep .object)
      | room + 1 =>
        match skipSpace rest with
        | '}' :: left => .ok (.object [], left)
        | left =>
          match readMembers fuel room left with
          | .error stop => .error stop
          | .ok (members, left) => .ok (.object members, left)
    | _ => readScalar cs

/-- The items of an array, up to its closing bracket. -/
def readItems : Nat → Nat → List Char → Result (List Value)
  | 0, _, cs => .error (.flaw .noValue cs)
  | fuel + 1, room, cs =>
    match readValue fuel room cs with
    | .error stop => .error stop
    | .ok (v, left) =>
      match skipSpace left with
      | ']' :: left => .ok ([v], left)
      | ',' :: left =>
        match readItems fuel room (skipSpace left) with
        | .error stop => .error stop
        | .ok (vs, left) => .ok (v :: vs, left)
      | left => .error (.flaw .noComma left)

/-- The members of an object, up to its closing brace.  A key is taken as it is shown. -/
def readMembers : Nat → Nat → List Char → Result (List (String × Value))
  | 0, _, cs => .error (.flaw .noKey cs)
  | fuel + 1, room, cs =>
    match cs with
    | '"' :: rest =>
      match readUnits cs rest with
      | .error stop => .error stop
      | .ok (units, left) =>
        match skipSpace left with
        | ':' :: left =>
          match readValue fuel room (skipSpace left) with
          | .error stop => .error stop
          | .ok (v, left) =>
            let key := (Loose.ofUnits units).shown
            match skipSpace left with
            | '}' :: left => .ok ([(key, v)], left)
            | ',' :: left =>
              match readMembers fuel room (skipSpace left) with
              | .error stop => .error stop
              | .ok (members, left) => .ok ((key, v) :: members, left)
            | left => .error (.flaw .noComma left)
        | left => .error (.flaw .noColon left)
    | _ => .error (.flaw .noKey cs)

end

/-! ### Documents -/

/-- Why a document can not be read: a flaw at a position, a numeral that is too long, or a container
that stands too deep in others. -/
inductive Error
  | flaw (flaw : Flaw) (text : List Char) (position : Nat)
  | tooLong (e : TooManyDigits)
  | tooDeep (container : Container)
  deriving DecidableEq, Repr

/-- A flaw at a place: its line and its column, counted from one, and the position in the text. -/
def placed (flaw : Flaw) (text : List Char) (position : Nat) : String :=
  let front := text.take position
  let line := front.count '\n' + 1
  let column := (front.reverse.takeWhile (· != '\n')).length + 1
  s!"{flaw.message}: line {line} column {column} (char {position})"

def Error.message : Error → String
  | .flaw what text position => placed what text position
  | .tooLong e => e.message
  | .tooDeep container =>
    s!"maximum recursion depth exceeded while decoding a JSON {container.name} " ++
      "from a unicode string"

def parse (text : List Char) : Except Error Value :=
  let fail (flaw : Flaw) (left : List Char) : Except Error Value :=
    .error (.flaw flaw text (text.length - left.length))
  if text.head? = some '\ufeff' then fail .byteOrderMark text
  else
    match readValue (2 * text.length + 2) depthLimit (skipSpace text) with
    | .error (Stop.flaw flaw left) => fail flaw left
    | .error (Stop.tooLong e) => .error (.tooLong e)
    | .error (Stop.tooDeep container) => .error (.tooDeep container)
    | .ok (v, left) =>
      match skipSpace left with
      | [] => .ok v
      | left => fail .extraData left

end PageDiff.Json
