import PageDiff.Url.Split

/-!
# Addresses that a script may name

`check` accepts the addresses of pages and `checkOrigin` the origins that pages are served from.
Both only accept or refuse: an accepted text is used as it stands.
-/

namespace PageDiff.Url

open PageDiff.Text

/-- A control character or the space, none of which an address may hold. -/
def isControlOrSpace (c : Char) : Bool := decide (c.toNat ≤ 0x20) || c.toNat == 0x7F

/-- Whether two hexadecimal digits follow every percent sign. -/
def escapesOk : List Char → Bool
  | [] => true
  | '%' :: a :: b :: cs => isHexDigit a && isHexDigit b && escapesOk (a :: b :: cs)
  | '%' :: _ => false
  | _ :: cs => escapesOk cs

/-- Accepts the characters of an address of a page. -/
def checkChars (cs : List Char) : Except Error Parts := do
  match cs.find? isControlOrSpace with
  | some c => throw (.badCharacter c)
  | none => pure ()
  unless escapesOk cs do throw (.badEscape (String.ofList cs))
  let parts ← split cs
  let _ ← port? parts.netloc
  return parts

/-- Accepts an address of a page. -/
def check (url : String) : Except Error Unit := (checkChars url.toList).map fun _ => ()

/-- Accepts an origin: an address with a scheme and a network location. -/
def checkOrigin (origin : String) : Except Error Unit := do
  let parts ← checkChars origin.toList
  if parts.scheme = [] ∨ parts.netloc = [] then throw (.notAbsolute origin)

end PageDiff.Url
