import PageDiff.Url.Error
import PageDiff.Url.Host

/-!
# The parts of an address

`split` cuts an address into its scheme, its network location and the rest, and refuses a network
location whose brackets, numeric host or letters are not in order.  `port?` reads the port of a
network location.
-/

namespace PageDiff.Url

open PageDiff.Text

/-- An address in parts.  `tail` is what follows the network location. -/
structure Parts where
  scheme : List Char
  netloc : List Char
  tail : List Char
  deriving DecidableEq, Repr

/-! ### Cutting at a character -/

/-- The text in front of the first `c`, the whole text if there is none. -/
def before (c : Char) (cs : List Char) : List Char := cs.takeWhile (· != c)

/-- The text after the first `c`, empty if there is none. -/
def after (c : Char) (cs : List Char) : List Char := (cs.dropWhile (· != c)).drop 1

/-- The text after the last `c`, the whole text if there is none. -/
def afterLast (c : Char) (cs : List Char) : List Char := (cs.reverse.takeWhile (· != c)).reverse

/-! ### Scheme and network location -/

/-- Whether a character may stand in a scheme. -/
def isSchemeChar (c : Char) : Bool := c.isAlpha || c.isDigit || c == '+' || c == '.' || c == '-'

/-- Whether a text can be a scheme: it starts with a letter. -/
def isScheme : List Char → Bool
  | [] => false
  | c :: cs => c.isAlpha && cs.all isSchemeChar

/-- The scheme in lower case, and what follows its colon.  Without a scheme the whole text
follows. -/
def splitScheme (cs : List Char) : List Char × List Char :=
  if cs.contains ':' && isScheme (before ':' cs) then
    ((before ':' cs).map Char.toLower, after ':' cs)
  else ([], cs)

/-- Whether a network location ends in front of a character. -/
def endsNetloc (c : Char) : Bool := c == '/' || c == '?' || c == '#'

/-- The network location behind two slashes, and what follows it. -/
def splitNetloc : List Char → List Char × List Char
  | '/' :: '/' :: cs => (cs.takeWhile (!endsNetloc ·), cs.dropWhile (!endsNetloc ·))
  | cs => ([], cs)

/-! ### What a network location must satisfy -/

/-- The host inside the brackets of a network location, which nothing but a port may follow. -/
def bracketedHost (netloc : List Char) : Except Error (List Char) :=
  let place := afterLast '@' netloc
  if place.contains '[' then
    if before '[' place ≠ [] then .error .brackets
    else
      let inside := after '[' place
      match after ']' inside with
      | [] => .ok (before ']' inside)
      | c :: _ => if c = ':' then .ok (before ']' inside) else .error .brackets
  else .ok (before ':' place)

/-- A host in brackets is an address of version 6, or of a format still to come. -/
def checkBracketedHost (host : List Char) : Except Error Unit :=
  if host.head? = some 'v' then
    if isFutureHost host then .ok () else .error .futureFormat
  else if isIPv4 host then .error .bracketedV4
  else if isIPv6 host then .ok ()
  else .error (.notAddress (String.ofList host))

/-- Brackets come in both kinds or not at all, and then around a numeric host. -/
def checkBrackets (netloc : List Char) : Except Error Unit :=
  match netloc.contains '[', netloc.contains ']' with
  | true, true => bracketedHost netloc >>= checkBracketedHost
  | false, false => .ok ()
  | _, _ => .error .brackets

/-- The characters outside ASCII whose compatibility form holds one of `/?#@:`. -/
def hiddenDelimiters : List Nat :=
  [0x2047, 0x2048, 0x2049, 0x2100, 0x2101, 0x2105, 0x2106, 0x2A74, 0xFE13, 0xFE16, 0xFE55, 0xFE56,
    0xFE5F, 0xFE6B, 0xFF03, 0xFF0F, 0xFF1A, 0xFF1F, 0xFF20]

/-- No character of a network location stands for a delimiter. -/
def checkDelimiters (netloc : List Char) : Except Error Unit :=
  if netloc.any fun c => hiddenDelimiters.contains c.toNat then
    .error (.hiddenDelimiter (String.ofList netloc))
  else .ok ()

/-! ### Splitting -/

/-- An address as it is split: no controls or spaces in front, no tabs or line ends anywhere. -/
def cleaned (cs : List Char) : List Char :=
  (cs.dropWhile fun c => decide (c.toNat ≤ 0x20)).filter fun c =>
    c != '\t' && c != '\r' && c != '\n'

/-- The parts of a cleaned address, before they are checked. -/
def partsOf (cs : List Char) : Parts :=
  let s := splitScheme cs
  let n := splitNetloc s.2
  ⟨s.1, n.1, n.2⟩

def split (cs : List Char) : Except Error Parts := do
  let parts := partsOf (cleaned cs)
  checkBrackets parts.netloc
  checkDelimiters parts.netloc
  return parts

/-! ### Host and port -/

/-- The text of the port, empty if there is none. -/
def portText (netloc : List Char) : List Char :=
  let place := afterLast '@' netloc
  if place.contains '[' then after ':' (after ']' (after '[' place)) else after ':' place

/-- The host: what is left of a network location without the user in front and the port behind. -/
def host (netloc : List Char) : List Char :=
  let place := afterLast '@' netloc
  if place.contains '[' then before ']' (after '[' place) else before ':' place

/-- The port, `none` if it is not given.  It is a numeral up to 65535. -/
def port? (netloc : List Char) : Except Error (Option Nat) :=
  let text := portText netloc
  if text = [] then .ok none
  else if !text.all Char.isDigit then .error (.portText (String.ofList text))
  else
    match readNumeral text with
    | .error e => .error (.portDigits e)
    | .ok n => if n ≤ 65535 then .ok (some n) else .error .portRange

end PageDiff.Url
