import ObserverPattern.Text.Ranges

/-!
# Blank characters

* `isBlank`: white space of every script, line breaks included;
* `trimEnds` drops the characters of a class at both ends of a text, `trim` the blank ones.
-/

namespace ObserverPattern.Text

/-- The code points with the property White_Space. -/
def blankRanges : List (Nat × Nat) :=
  [(0x0009, 0x000D), (0x0020, 0x0020), (0x0085, 0x0085), (0x00A0, 0x00A0), (0x1680, 0x1680), (0x2000, 0x200A),
   (0x2028, 0x2029), (0x202F, 0x202F), (0x205F, 0x205F), (0x3000, 0x3000)]

def isBlank (c : Char) : Bool := inRanges c.toNat blankRanges

def trimEnds (drop : Char → Bool) (s : List Char) : List Char :=
  ((s.dropWhile drop).reverse.dropWhile drop).reverse

def trim (s : List Char) : List Char := trimEnds isBlank s

end ObserverPattern.Text
