import ObserverPattern.Text.Word
import ObserverPattern.Text.Substring
import ObserverPattern.Text.Replace

/-!
# Whole words

A name stands in a text as a whole word when a word boundary lies at both of its ends: one of the
two neighbours there is a word character and the other is none.

* `wordMatcher` is the matcher of a name as a whole word;
* `hasWord` and `replaceWord` look for it and replace it. The name is read literally.
-/

namespace ObserverPattern.Text

/-- Whether a word boundary lies between two neighbours; `none` is an end of the text. -/
def isBoundary (before after : Option Char) : Bool := before.any isWord != after.any isWord

/-- Matches a name between two word boundaries. -/
def wordMatcher (name : List Char) : Matcher := fun before s =>
  match afterPrefix? name s with
  | none => none
  | some rest =>
    if isBoundary before s.head? && isBoundary (name.getLast?.or before) rest.head? then some name.length
    else none

def hasWord (name s : String) : Bool := hasMatch (wordMatcher name.toList) s.toList

def replaceWord (name : String) (new : List Char) (s : String) : String :=
  String.ofList (replaceMatches (wordMatcher name.toList) new s.toList)

end ObserverPattern.Text
