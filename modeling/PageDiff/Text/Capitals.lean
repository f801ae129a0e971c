/-!
# Capitals

Keywords are compared in capitals.  A keyword is ASCII, so the only letters whose capital form
matters are the ASCII ones and the few others that are written with ASCII capitals; every other
character may stand for itself.
-/

namespace PageDiff.Text

/-- The letters outside ASCII whose capital form is ASCII. -/
def foreignCapitals : List (Nat × List Char) :=
  [(0xDF, ['S', 'S']), (0x131, ['I']), (0x17F, ['S']), (0xFB00, ['F', 'F']), (0xFB01, ['F', 'I']),
    (0xFB02, ['F', 'L']), (0xFB03, ['F', 'F', 'I']), (0xFB04, ['F', 'F', 'L']), (0xFB05, ['S', 'T']),
    (0xFB06, ['S', 'T'])]

/-- The capital form of a character. -/
def capital (c : Char) : List Char := (foreignCapitals.lookup c.toNat).getD [c.toUpper]

def capitals (cs : List Char) : List Char := cs.flatMap capital

@[simp] theorem capitals_nil : capitals [] = [] := rfl

@[simp] theorem capitals_append (a b : List Char) :
    capitals (a ++ b) = capitals a ++ capitals b := by
  simp [capitals]

end PageDiff.Text
