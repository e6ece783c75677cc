import ObserverPattern.Text.WholeWord

/-!
# Group references

In a replacement text a dollar sign refers to a group of the match: `$name` with the longest name of
ASCII letters, digits and underscores, or a name in braces that may hold anything but a closing
brace. Two dollar signs stand for one. The matches here have no groups, so only the group numbered
zero, the whole match, has a text and every other name stands for nothing. A dollar sign that starts
none of these forms stands for itself.

* `expand` writes a replacement text out; without a dollar sign it
  is the text itself (`expand_eq_self`).
* `renameWord` replaces a name, wherever it is a whole word, by an expanded replacement.
-/

namespace ObserverPattern.Text

def isGroupChar (c : Char) : Bool := c.isAlphanum || c == '_'

/-- Whether a group name is a number of value zero, which may carry a plus sign. -/
def isZero (name : List Char) : Bool :=
  let digits := match name with
    | '+' :: rest => rest
    | _ => name
  !digits.isEmpty && digits.all (· == '0')

def groupText (whole name : List Char) : List Char := if isZero name then whole else []

/-- The text of a reference and the number of characters that spell it behind the dollar sign. -/
def reference? (whole : List Char) : List Char → Option (List Char × Nat)
  | '$' :: _ => some (['$'], 1)
  | '\x7b' :: rest =>
    if rest.contains '\x7d' then
      let name := rest.takeWhile (· != '\x7d')
      some (groupText whole name, name.length + 2)
    else none
  | s =>
    let name := s.takeWhile isGroupChar
    if name.isEmpty then none else some (groupText whole name, name.length)

/-- Expands a replacement text, after passing over `skip` characters of the last reference. -/
def expandFrom (whole : List Char) : Nat → List Char → List Char
  | _, [] => []
  | skip + 1, _ :: cs => expandFrom whole skip cs
  | 0, c :: cs =>
    if c = '$' then
      match reference? whole cs with
      | some (text, length) => text ++ expandFrom whole length cs
      | none => '$' :: expandFrom whole 0 cs
    else c :: expandFrom whole 0 cs

def expand (whole new : List Char) : List Char := expandFrom whole 0 new

/-- A text without a dollar sign expands to itself. -/
theorem expand_eq_self {whole new : List Char} (h : '$' ∉ new) : expand whole new = new := by
  unfold expand
  induction new with
  | nil => rfl
  | cons c cs ih =>
    simp only [List.mem_cons, not_or] at h
    simp [expandFrom, Ne.symm h.1, ih h.2]

/-- Replaces a name, wherever it stands as a whole word, by a
replacement text with its references expanded. -/
def renameWord (name new s : String) : String := replaceWord name (expand name.toList new.toList) s

end ObserverPattern.Text
