import ObserverPattern.Json.Parser

/-!
# Reading typed values

A reader turns a JSON value into a value of a type, or refuses it. It is given the number of arrays
and objects that may still be entered, so that no text is followed deeper than `maxNesting`; members
that nothing reads do not count.

* A record is an object, whose unknown members are ignored and whose known ones occur once, or an
  array of the fields in their order (`slots?`).
* A value of a sum type is an object with one member, named for the alternative (`variant?`); an
  alternative that holds nothing may be its bare name (`constant?`).
-/

namespace ObserverPattern.Json

def maxNesting : Nat := 127

/-- Reads a value in which a number of arrays and objects may still be entered. -/
abbrev Reader (α : Type) := Nat → Json → Option α

/-! ## Scalars and lists -/

def readString : Reader String
  | _, .string s => s
  | _, _ => none

def readBool : Reader Bool
  | _, .bool b => some b
  | _, _ => none

def readNatBelow (bound : Nat) : Reader Nat
  | _, .number (.int (.ofNat n)) => if n < bound then some n else none
  | _, _ => none

def readWord : Reader Nat := readNatBelow UInt64.size

def readInt64 : Reader Int64
  | _, .number (.int n) => if Int64.minValue.toInt ≤ n ∧ n ≤ Int64.maxValue.toInt then some (Int64.ofInt n) else none
  | _, _ => none

def readOption {α : Type} (read : Reader α) : Reader (Option α)
  | _, .null => some none
  | depth, v => (read depth v).map some

def readList {α : Type} (read : Reader α) : Reader (List α)
  | depth + 1, .array items => items.mapM (read depth)
  | _, _ => none

/-! ## Records -/

/-- What a record without a field means. -/
inductive Absence where
  | refused
  /-- An object without it has null there, and an array has to hold it. -/
  | null
  | defaulted
  deriving DecidableEq

abbrev Shape := List (String × Absence)

def fullShape (names : List String) : Shape := names.map (·, .refused)

/-- The values of the fields of an array of fields; only fields with
a default may be missing, at its end. -/
def slotsOfItems : Shape → List Json → Option (List (Option Json))
  | [], [] => some []
  | [], _ :: _ => none
  | _ :: shape, v :: items => (slotsOfItems shape items).map (some v :: ·)
  | (_, absence) :: shape, [] =>
    if absence = .defaulted then (slotsOfItems shape []).map (none :: ·) else none

def slotOfMembers (members : List (String × Json)) (name : String) (absence : Absence) :
    Option (Option Json) :=
  match members.filter (·.1 == name) with
  | [] =>
    match absence with
    | .refused => none
    | .null => some (some .null)
    | .defaulted => some none
  | [(_, v)] => some (some v)
  | _ => none

def namedMembers? (members : List (Option String × Json)) : Option (List (String × Json)) :=
  members.mapM fun (name, v) => name.map (·, v)

/-- The values of the fields of a record, `none` where a default has to be taken. -/
def slots? (shape : Shape) : Json → Option (List (Option Json))
  | .array items => slotsOfItems shape items
  | .object members => do
    let members ← namedMembers? members
    shape.mapM fun (name, absence) => slotOfMembers members name absence
  | _ => none

def fields? (names : List String) (v : Json) : Option (List Json) := do
  let slots ← slots? (fullShape names) v
  slots.mapM id

def readOr {α : Type} (read : Reader α) (default : α) (depth : Nat) : Option Json → Option α
  | none => some default
  | some v => read depth v

/-! ## Alternatives -/

def variant? : Json → Option (String × Json)
  | .object [(some tag, v)] => some (tag, v)
  | _ => none

def constant? : Reader String
  | _, .string s => s
  | _ + 1, .object [(some tag, .null)] => some tag
  | _, _ => none

/-! ## Texts -/

def ofText? {α : Type} (read : Reader α) (s : String) : Option α := (parse? s).bind (read maxNesting)

end ObserverPattern.Json
