/-!
# Ranges of characters

A character class is an ascending list of closed ranges of code points: `inRanges` looks a code point up
and stops at the first range that does not end below it.
-/

namespace ObserverPattern.Text

def inRanges (n : Nat) : List (Nat × Nat) → Bool
  | [] => false
  | (lo, hi) :: rest => if n ≤ hi then decide (lo ≤ n) else inRanges n rest

end ObserverPattern.Text
