import PageDiff.Json.Value
import PageDiff.Text.Hex

/-!
# Writing documents

`render` writes a value with every item and member on a line of its own, two blanks deeper than
what it belongs to.  Only printable ASCII characters are written; all others are escaped, unit by
unit.
-/

namespace PageDiff.Json

open PageDiff.Number PageDiff.Text

/-- A four-digit escape. -/
def escapeCode (n : Nat) : List Char := '\\' :: 'u' :: hexFixed 4 n

/-- A unit inside quotes. -/
def escapeUnit (u : UInt16) : List Char :=
  if u = 0x22 then ['\\', '"']
  else if u = 0x5C then ['\\', '\\']
  else if u = 0x08 then ['\\', 'b']
  else if u = 0x0C then ['\\', 'f']
  else if u = 0x0A then ['\\', 'n']
  else if u = 0x0D then ['\\', 'r']
  else if u = 0x09 then ['\\', 't']
  else if 0x20 ≤ u ∧ u < 0x7F then [Char.ofNat u.toNat]
  else escapeCode u.toNat

/-- Units between quotes. -/
def renderUnits (units : List UInt16) : List Char := '"' :: units.flatMap escapeUnit ++ ['"']

def renderString (s : String) : List Char := renderUnits (Utf16.encode s.toList)

/-- The end of a line, and the blanks in front of what stands at a depth. -/
def newline (depth : Nat) : List Char := '\n' :: List.replicate (2 * depth) ' '

mutual

/-- A value whose first line stands at a depth. -/
def renderAt (depth : Nat) : Value → List Char
  | .null => "null".toList
  | .bool true => "true".toList
  | .bool false => "false".toList
  | .number n => n.text.toList
  | .string s => renderString s
  | .torn t => renderUnits t.units
  | .array [] => ['[', ']']
  | .array (v :: vs) =>
    '[' :: newline (depth + 1) ++ renderAt (depth + 1) v ++ renderItems (depth + 1) vs
      ++ newline depth ++ [']']
  | .object [] => ['{', '}']
  | .object ((key, v) :: members) =>
    '{' :: newline (depth + 1) ++ renderString key ++ ':' :: ' ' :: renderAt (depth + 1) v
      ++ renderMembers (depth + 1) members ++ newline depth ++ ['}']

/-- The items of an array after its first. -/
def renderItems (depth : Nat) : List Value → List Char
  | [] => []
  | v :: vs => ',' :: newline depth ++ renderAt depth v ++ renderItems depth vs

/-- The members of an object after its first. -/
def renderMembers (depth : Nat) : List (String × Value) → List Char
  | [] => []
  | (key, v) :: members =>
    ',' :: newline depth ++ renderString key ++ ':' :: ' ' :: renderAt depth v
      ++ renderMembers depth members

end

def render (v : Value) : String := String.ofList (renderAt 0 v)

end PageDiff.Json
