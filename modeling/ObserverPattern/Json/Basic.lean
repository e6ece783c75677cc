/-!
# JSON values

A value as it stands in a JSON text: members of an object in their order, repeated names included.

* An integer literal is kept apart from a number with a
  fraction or an exponent, and from minus zero.
* A string is kept as text, or as `none` where its escapes do not spell one because a surrogate is
  unpaired: such a string may stand where nothing reads it.
-/

namespace ObserverPattern

inductive Json.Number where
  | int (n : Int)
  /-- A literal with a fraction or an exponent, or minus zero. -/
  | real (lexeme : String)
  deriving DecidableEq

inductive Json where
  | null
  | bool (b : Bool)
  | number (n : Json.Number)
  /-- A string, or `none` if its escapes spell no text. -/
  | string (s : Option String)
  | array (items : List Json)
  | object (members : List (Option String × Json))

namespace Json

def text (s : String) : Json := .string (some s)

def nat (n : Nat) : Json := .number (.int n)

def int (n : Int) : Json := .number (.int n)

def record (members : List (String × Json)) : Json := .object (members.map fun (k, v) => (some k, v))

def tagged (tag : String) (payload : Json) : Json := record [(tag, payload)]

def option {α : Type} (encode : α → Json) : Option α → Json
  | none => null
  | some a => encode a

mutual

def nesting : Json → Nat
  | null | bool _ | number _ | string _ => 0
  | array items => nestingItems items + 1
  | object members => nestingMembers members + 1

def nestingItems : List Json → Nat
  | [] => 0
  | v :: rest => max v.nesting (nestingItems rest)

def nestingMembers : List (Option String × Json) → Nat
  | [] => 0
  | (_, v) :: rest => max v.nesting (nestingMembers rest)

end

end Json

end ObserverPattern
