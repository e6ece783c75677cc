import ObserverPattern.Json.Basic

/-!
# Writing JSON

* `Json.compact` writes a value without blanks;
* `Json.pretty` writes each item and member on a line of its own, two
  blanks deeper than the brackets around it.

In a string the quote, the backslash and the control characters are escaped, and nothing else. A
string without a text is written as the replacement character.
-/

namespace ObserverPattern.Json

def hexDigit (n : Nat) : Char := Nat.digitChar n

def escape (c : Char) : List Char :=
  if c = '"' then ['\\', '"']
  else if c = '\\' then ['\\', '\\']
  else if c = '\x08' then ['\\', 'b']
  else if c = '\x0c' then ['\\', 'f']
  else if c = '\n' then ['\\', 'n']
  else if c = '\r' then ['\\', 'r']
  else if c = '\t' then ['\\', 't']
  else if c.toNat < 0x20 then ['\\', 'u', '0', '0', hexDigit (c.toNat / 16), hexDigit (c.toNat % 16)]
  else [c]

def quoted (s : Option String) : List Char := '"' :: ((s.getD "\ufffd").toList.flatMap escape ++ ['"'])

def Number.chars : Number → List Char
  | .int n => (toString n).toList
  | .real lexeme => lexeme.toList

mutual

def compactChars : Json → List Char
  | null => "null".toList
  | bool b => (if b then "true" else "false").toList
  | number n => n.chars
  | string s => quoted s
  | array items => '[' :: (compactItems items ++ [']'])
  | object members => '\x7b' :: (compactMembers members ++ ['\x7d'])

def compactItems : List Json → List Char
  | [] => []
  | [v] => v.compactChars
  | v :: rest => v.compactChars ++ ',' :: compactItems rest

def compactMembers : List (Option String × Json) → List Char
  | [] => []
  | [(name, v)] => quoted name ++ ':' :: v.compactChars
  | (name, v) :: rest => quoted name ++ ':' :: (v.compactChars ++ ',' :: compactMembers rest)

end

def newLine (depth : Nat) : List Char := '\n' :: List.replicate (2 * depth) ' '

mutual

/-- The characters of a value written at a given depth, an item or member to a line. -/
def prettyChars (depth : Nat) : Json → List Char
  | null => "null".toList
  | bool b => (if b then "true" else "false").toList
  | number n => n.chars
  | string s => quoted s
  | array [] => ['[', ']']
  | array (v :: rest) => '[' :: (prettyItems (depth + 1) (v :: rest) ++ newLine depth ++ [']'])
  | object [] => ['\x7b', '\x7d']
  | object (m :: rest) => '\x7b' :: (prettyMembers (depth + 1) (m :: rest) ++ newLine depth ++ ['\x7d'])

def prettyItems (depth : Nat) : List Json → List Char
  | [] => []
  | [v] => newLine depth ++ v.prettyChars depth
  | v :: rest => newLine depth ++ v.prettyChars depth ++ ',' :: prettyItems depth rest

def prettyMembers (depth : Nat) : List (Option String × Json) → List Char
  | [] => []
  | [(name, v)] => newLine depth ++ quoted name ++ ':' :: ' ' :: v.prettyChars depth
  | (name, v) :: rest =>
    newLine depth ++ quoted name ++ ':' :: ' ' :: (v.prettyChars depth ++ ',' :: prettyMembers depth rest)

end

def compact (v : Json) : String := String.ofList v.compactChars

def pretty (v : Json) : String := String.ofList (v.prettyChars 0)

end ObserverPattern.Json
