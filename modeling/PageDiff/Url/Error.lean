import PageDiff.Text.Numeral
import PageDiff.Text.Quoted

/-!
# What can be wrong with an address

The causes for which an address of a page, or an origin, is refused, and their wording.
-/

namespace PageDiff.Url

open PageDiff.Text

/-- Why an address is refused. -/
inductive Error
  /-- A control character or a space. -/
  | badCharacter (c : Char)
  /-- A percent sign that two hexadecimal digits do not follow. -/
  | badEscape (url : String)
  /-- Square brackets that do not enclose the whole host. -/
  | brackets
  /-- A host in brackets that starts like a future address format and is none. -/
  | futureFormat
  /-- A host in brackets that is no address. -/
  | notAddress (host : String)
  /-- An address of version 4 in brackets. -/
  | bracketedV4
  /-- A character of the host that stands for a delimiter. -/
  | hiddenDelimiter (netloc : String)
  /-- A port that is not a numeral. -/
  | portText (port : String)
  /-- A port whose numeral is too long. -/
  | portDigits (e : TooManyDigits)
  /-- A port above 65535. -/
  | portRange
  /-- An origin without a scheme or without a host. -/
  | notAbsolute (origin : String)
  deriving DecidableEq, Repr

def Error.message : Error → String
  | .badCharacter c => s!"invalid character {quoted (String.singleton c)} in URL"
  | .badEscape url => s!"invalid percent escape in {quoted url}"
  | .brackets => "Invalid IPv6 URL"
  | .futureFormat => "IPvFuture address is invalid"
  | .notAddress host => s!"{quoted host} does not appear to be an IPv4 or IPv6 address"
  | .bracketedV4 => "An IPv4 address cannot be in brackets"
  | .hiddenDelimiter netloc =>
    s!"netloc '{netloc}' contains invalid characters under NFKC normalization"
  | .portText port => s!"Port could not be cast to integer value as {quoted port}"
  | .portDigits e => e.message
  | .portRange => "Port out of range 0-65535"
  | .notAbsolute origin => s!"origin {quoted origin} must include a scheme and host"

end PageDiff.Url
