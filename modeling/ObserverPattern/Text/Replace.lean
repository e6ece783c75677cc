/-!
# Replacing matches

A matcher tells how many characters match at the start of a text, given the character before it.

* `replaceMatches` replaces every match of a matcher, leftmost first and without overlaps;
* `hasMatch` tells whether there is one; without any, nothing changes (`replaceMatches_eq_self`).
-/

namespace ObserverPattern.Text

/-- How many characters match at the start of a text that stands behind the given character, if any
do. An answer of zero is a match of the empty text. -/
abbrev Matcher := Option Char → List Char → Option Nat

/-- Replaces the matches of a text behind `before`, after passing over `skip` characters of the last
match. An empty match keeps the character that follows it. -/
def replaceFrom (find : Matcher) (new : List Char) : Nat → Option Char → List Char → List Char
  | 0, before, [] => if (find before []).isSome then new else []
  | _ + 1, _, [] => []
  | skip + 1, _, c :: cs => replaceFrom find new skip (some c) cs
  | 0, before, c :: cs =>
    match find before (c :: cs) with
    | none => c :: replaceFrom find new 0 (some c) cs
    | some 0 => new ++ c :: replaceFrom find new 0 (some c) cs
    | some (n + 1) => new ++ replaceFrom find new n (some c) cs

def replaceMatches (find : Matcher) (new s : List Char) : List Char := replaceFrom find new 0 none s

def hasMatchFrom (find : Matcher) : Option Char → List Char → Bool
  | before, [] => (find before []).isSome
  | before, c :: cs => (find before (c :: cs)).isSome || hasMatchFrom find (some c) cs

def hasMatch (find : Matcher) (s : List Char) : Bool := hasMatchFrom find none s

private theorem replaceFrom_eq_self {find : Matcher} {new : List Char} {before : Option Char} {s : List Char}
    (h : hasMatchFrom find before s = false) : replaceFrom find new 0 before s = s := by
  induction s generalizing before with
  | nil => simp_all [hasMatchFrom, replaceFrom]
  | cons c cs ih =>
    simp only [hasMatchFrom, Bool.or_eq_false_iff, Option.isSome_eq_false_iff, Option.isNone_iff_eq_none] at h
    simp [replaceFrom, h.1, ih h.2]

/-- A text without a match is left as it is. -/
theorem replaceMatches_eq_self {find : Matcher} {new s : List Char} (h : hasMatch find s = false) :
    replaceMatches find new s = s := replaceFrom_eq_self h

end ObserverPattern.Text
