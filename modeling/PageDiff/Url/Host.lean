import PageDiff.Text.Hex

/-!
# Numeric hosts

Which texts are numeric addresses of version 4 and of version 6.  Only whether a text is one
matters here, not which address it is.
-/

namespace PageDiff.Url

open PageDiff.Text

/-- One of the four numbers of an address of version 4: at most 255, no zero in front. -/
def isOctet (cs : List Char) : Bool :=
  !cs.isEmpty && cs.all Char.isDigit && decide (cs.length ≤ 3)
    && (cs == ['0'] || cs.head? != some '0')
    && decide (cs.foldl (fun n c => n * 10 + (c.toNat - '0'.toNat)) 0 ≤ 255)

/-- Four numbers with dots between them. -/
def isIPv4 (cs : List Char) : Bool :=
  let octets := cs.splitOn '.'
  octets.length == 4 && octets.all isOctet

/-- One of the groups of an address of version 6. -/
def isHextet (cs : List Char) : Bool :=
  !cs.isEmpty && cs.all isHexDigit && decide (cs.length ≤ 4)

/-- The groups of an address of version 6, its last 32 bits perhaps written as an address of
version 4 and then counted as two groups.  `none` if that part is not an address of version 4. -/
def hextets (cs : List Char) : Option (List (List Char)) :=
  let groups := cs.splitOn ':'
  match groups.getLast? with
  | some last =>
    if last.contains '.' then
      if isIPv4 last then some (groups.dropLast ++ [['0'], ['0']]) else none
    else some groups
  | none => some groups

/-- Groups around one gap, which stands for at least one group of zeros.  Each side of the gap may
be empty, and then nothing at all stands on that side. -/
def isGapped (high low : List (List Char)) : Bool :=
  let high := if high = [[]] then [] else high
  let low := if low = [[]] then [] else low
  high.all isHextet && low.all isHextet && decide (high.length + low.length < 8)

/-- The text of an address of version 6 without a zone: eight groups, or fewer around one gap. -/
def isIPv6Plain (cs : List Char) : Bool :=
  if (cs.splitOn ':').length < 3 then false
  else
    match hextets cs with
    | none => false
    | some groups =>
      let inner := groups.tail.dropLast
      match inner.idxOf? [] with
      | none => groups.length == 8 && groups.all isHextet
      | some k =>
        decide (groups.length ≤ 9) && isGapped (groups.take (k + 1)) (groups.drop (k + 2))

/-- An address of version 6, with or without a zone after a percent sign. -/
def isIPv6 (cs : List Char) : Bool :=
  let address := cs.takeWhile (· != '%')
  match cs.dropWhile (· != '%') with
  | [] => isIPv6Plain address
  | _ :: zone => !zone.isEmpty && !zone.contains '%' && isIPv6Plain address

/-- A host in an address format still to come: a `v`, hexadecimal digits, a dot and something. -/
def isFutureHost : List Char → Bool
  | 'v' :: cs =>
    let version := cs.takeWhile isHexDigit
    match cs.dropWhile isHexDigit with
    | '.' :: rest => !version.isEmpty && !rest.isEmpty
    | _ => false
  | _ => false

end PageDiff.Url
