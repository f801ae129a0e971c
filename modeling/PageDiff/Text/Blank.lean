/-!
# Blank characters

Which characters are blank at the two ends of a line, and `strip`, which takes them away there and
nowhere else.
-/

namespace PageDiff.Text

def inRanges (ranges : List (Nat × Nat)) (n : Nat) : Bool :=
  ranges.any fun r => decide (r.1 ≤ n) && decide (n ≤ r.2)

/-- The code points of the blank characters: the separators and the controls that move the
cursor. -/
def blankRanges : List (Nat × Nat) :=
  [(0x09, 0x0D), (0x1C, 0x20), (0x85, 0x85), (0xA0, 0xA0), (0x1680, 0x1680), (0x2000, 0x200A),
    (0x2028, 0x2029), (0x202F, 0x202F), (0x205F, 0x205F), (0x3000, 0x3000)]

/-- A blank character is dropped at the ends of a line. -/
def isBlank (c : Char) : Bool := inRanges blankRanges c.toNat

/-- Drops the characters with `p` at both ends. -/
def trimBy (p : Char → Bool) (cs : List Char) : List Char :=
  ((cs.dropWhile p).reverse.dropWhile p).reverse

/-- Drops the blank characters at both ends. -/
def strip (cs : List Char) : List Char := trimBy isBlank cs

end PageDiff.Text
