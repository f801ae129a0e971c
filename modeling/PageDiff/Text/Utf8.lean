import PageDiff.Text.Hex

/-!
# UTF-8

`decode` reads bytes as characters and refuses every sequence that the standard calls ill-formed:
overlong forms, surrogates and code points above `10FFFF`.  A refusal names the longest valid
beginning of the bad sequence, as positions in the whole text.
-/

namespace PageDiff.Text.Utf8

inductive Reason
  | start
  | continuation
  | endOfData
  deriving DecidableEq, Repr

/-- The words for a reason. -/
def Reason.message : Reason → String
  | .start => "invalid start byte"
  | .continuation => "invalid continuation byte"
  | .endOfData => "unexpected end of data"

/-- An ill-formed sequence: where it starts, its bytes, and what is wrong with it. -/
structure Malformed where
  position : Nat
  bytes : List UInt8
  reason : Reason
  deriving DecidableEq, Repr

def Malformed.message (e : Malformed) : String :=
  let what :=
    match e.bytes with
    | [b] =>
      let code := String.ofList (hexFixed 2 b.toNat)
      s!"byte 0x{code} in position {e.position}"
    | bs =>
      let last := e.position + bs.length - 1
      s!"bytes in position {e.position}-{last}"
  s!"'utf-8' codec can't decode {what}: {e.reason.message}"

def encodeChar (c : Char) : List UInt8 := String.utf8EncodeChar c

def encode (cs : List Char) : List UInt8 := cs.flatMap encodeChar

/-- What a lead byte promises: its payload and, for each byte that follows, the range it must lie
in. -/
def lead (b : UInt8) : Option (Nat × List (UInt8 × UInt8)) :=
  if b < 0x80 then some (b.toNat, [])
  else if b < 0xC2 then none
  else if b < 0xE0 then some (b.toNat - 0xC0, [(0x80, 0xBF)])
  else if b = 0xE0 then some (0, [(0xA0, 0xBF), (0x80, 0xBF)])
  else if b = 0xED then some (0xD, [(0x80, 0x9F), (0x80, 0xBF)])
  else if b < 0xF0 then some (b.toNat - 0xE0, [(0x80, 0xBF), (0x80, 0xBF)])
  else if b = 0xF0 then some (0, [(0x90, 0xBF), (0x80, 0xBF), (0x80, 0xBF)])
  else if b < 0xF4 then some (b.toNat - 0xF0, [(0x80, 0xBF), (0x80, 0xBF), (0x80, 0xBF)])
  else if b = 0xF4 then some (4, [(0x80, 0x8F), (0x80, 0xBF), (0x80, 0xBF)])
  else none

/-- Adds the bytes that a lead byte promises to the code point `n`.  An error carries the valid
bytes it has read. -/
def continued : List (UInt8 × UInt8) → Nat → List UInt8 →
    Except (List UInt8 × Reason) (Nat × List UInt8)
  | [], n, bs => .ok (n, bs)
  | _ :: _, _, [] => .error ([], .endOfData)
  | (lo, hi) :: ranges, n, b :: bs =>
    if lo ≤ b ∧ b ≤ hi then
      match continued ranges (n * 64 + (b.toNat - 0x80)) bs with
      | .ok r => .ok r
      | .error (seen, reason) => .error (b :: seen, reason)
    else .error ([], .continuation)

theorem length_of_continued {ranges : List (UInt8 × UInt8)} {n : Nat} {bs : List UInt8}
    {r : Nat × List UInt8} (h : continued ranges n bs = .ok r) : r.2.length ≤ bs.length := by
  induction ranges generalizing n bs with
  | nil =>
    simp only [continued, Except.ok.injEq] at h
    subst h
    exact Nat.le_refl _
  | cons range ranges ih =>
    cases bs with
    | nil => simp [continued] at h
    | cons b bs =>
      simp only [continued] at h
      split at h
      · split at h
        · rename_i s hs
          cases h
          exact Nat.le_succ_of_le (ih hs)
        · simp at h
      · simp at h

/-- The first character of a text in bytes, and the bytes after it. -/
def decodeFirst (b : UInt8) (bs : List UInt8) :
    Except (List UInt8 × Reason) (Char × { r : List UInt8 // r.length ≤ bs.length }) :=
  match lead b with
  | none => .error ([b], .start)
  | some (n, ranges) =>
    match h : continued ranges n bs with
    | .ok (point, rest) => .ok (Char.ofNat point, ⟨rest, length_of_continued h⟩)
    | .error (seen, reason) => .error (b :: seen, reason)

/-- Reads bytes as characters, `position` bytes into the text. -/
def decodeFrom (position : Nat) : List UInt8 → Except Malformed (List Char)
  | [] => .ok []
  | b :: bs =>
    match decodeFirst b bs with
    | .error (bytes, reason) => .error ⟨position, bytes, reason⟩
    | .ok (c, rest) =>
      have : rest.val.length < (b :: bs).length := Nat.lt_succ_of_le rest.property
      match decodeFrom (position + (1 + bs.length - rest.val.length)) rest.val with
      | .error e => .error e
      | .ok cs => .ok (c :: cs)
  termination_by bs => bs.length
  decreasing_by exact this

def decode (bs : List UInt8) : Except Malformed (List Char) := decodeFrom 0 bs

end PageDiff.Text.Utf8
