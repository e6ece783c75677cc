/-!
# Prefixes and occurrences

* `afterPrefix?` gives what follows a prefix: `afterPrefix?_eq_some_iff`;
* `occurs` tells whether a text stands somewhere in another: `occurs_iff`;
* `occursIn` and `startsWith` are the same questions about strings.
-/

namespace ObserverPattern.Text

/-- What follows the prefix `p` of a text, if the text has that prefix. -/
def afterPrefix? : List Char → List Char → Option (List Char)
  | [], s => some s
  | _ :: _, [] => none
  | p :: ps, c :: cs => if p = c then afterPrefix? ps cs else none

def occurs (t : List Char) : List Char → Bool
  | [] => t.isEmpty
  | c :: cs => t.isPrefixOf (c :: cs) || occurs t cs

def occursIn (t s : String) : Bool := occurs t.toList s.toList

def startsWith (s t : String) : Bool := t.toList.isPrefixOf s.toList

theorem afterPrefix?_eq_some_iff {p s r : List Char} : afterPrefix? p s = some r ↔ s = p ++ r := by
  induction p generalizing s with
  | nil => simp [afterPrefix?, eq_comm]
  | cons x p ih =>
    cases s with
    | nil => simp [afterPrefix?]
    | cons c s =>
      by_cases h : x = c
      · simp [afterPrefix?, h, ih]
      · simp [afterPrefix?, h, Ne.symm h]

theorem occurs_iff {t s : List Char} : occurs t s = true ↔ t <:+: s := by
  induction s with
  | nil => simp [occurs]
  | cons c s ih => simp [occurs, ih, List.infix_cons_iff]

end ObserverPattern.Text
