import ObserverPattern.Fault
import ObserverPattern.Role
import ObserverPattern.Text.Digit
import ObserverPattern.Text.Replace
import ObserverPattern.Text.Word
import ObserverPattern.Trace.Fact

/-!
# Payloads

What the payload of a trace line can tell.

* A step of the index `idx` tells a direction.
* `left op right`, with blanks around a relational operator and a dotted path on either side, is a
  comparison. Where several operators would do, the last one separates the sides. The receivers
  `rcv_<marker>…` are replaced by `this` before the sides are taken.
* `<role>_<marker><name>_… = <index>` binds a role hole.

Neither a path nor the text between the underscore and the equals sign of a binding has a line feed.
-/

namespace ObserverPattern.Payload

/-! ## Directions -/

def direction? (payload : List Char) : Option Direction :=
  if payload = Direction.forward.text.toList then some .forward
  else if payload = Direction.reverse.text.toList then some .reverse
  else none

/-! ## Comparisons -/

/-- Whether a text is a dotted path: it has a dot inside and no line feed. -/
def isPath (s : List Char) : Bool := s.tail.dropLast.contains '.' && !s.contains '\n'

/-- What stands before and behind the last dot of a text that is not its last character. -/
def splitLastDot? : List Char → Option (List Char × List Char)
  | [] => none
  | c :: cs =>
    match splitLastDot? cs with
    | some (before, after) => some (c :: before, after)
    | none => if c = '.' ∧ cs ≠ [] then some ([], cs) else none

def relations : List Operator := [.lt, .le, .eq, .ne, .ge, .gt]

/-- A relational operator between blanks at the start of a text, and what follows it. -/
def relation? : List Char → Option (Operator × List Char)
  | ' ' :: s =>
    relations.findSome? fun op => (Text.afterPrefix? (op.symbol.toList ++ [' ']) s).map (op, ·)
  | _ => none

/-- The text before the last relational operator that is not at
the end of a text, the operator, and what follows it. -/
def splitRelation? : List Char → Option (List Char × Operator × List Char)
  | [] => none
  | c :: cs =>
    match splitRelation? cs with
    | some (left, op, right) => some (c :: left, op, right)
    | none =>
      match relation? (c :: cs) with
      | some (op, right) => if right = [] then none else some ([], op, right)
      | none => none

/-- The sides and the operator of a comparison. The right side is a path if the last dot inside the
text belongs to it, so the operator is looked for before that dot. -/
def comparison? (s : List Char) : Option (List Char × Operator × List Char) := do
  let (before, after) ← splitLastDot? s
  let (left, op, start) ← splitRelation? before
  let right := start ++ '.' :: after
  if isPath left && isPath right then some (left, op, right) else none

/-- Matches a receiver: the given prefix and all word characters behind it. -/
def receiverMatcher (receiver : List Char) : Text.Matcher := fun _ s =>
  (Text.afterPrefix? receiver s).map fun rest => receiver.length + (rest.takeWhile Text.isWord).length

def withoutReceivers (marker : String) (s : List Char) : List Char :=
  Text.replaceMatches (receiverMatcher ("rcv_" ++ marker).toList) "this".toList s

def fact? (marker payload : String) : Except DecodeFault (Option Fact) :=
  let s := payload.toList
  match direction? s with
  | some d => .ok (some (.direction d))
  | none =>
    match comparison? (withoutReceivers marker s) with
    | some (left, op, right) => .ok (some (.compare (String.ofList left) op (String.ofList right)))
    | none => if (comparison? s).isSome then .error (.malformedFact payload .comparisonLost) else .ok none

/-! ## Bindings -/

/-- Reads decimal digits behind a number that has been read;
the value has to stay below `2 ^ 64`. -/
def readIndexFrom (value : Nat) : List Char → Except FactFault Nat
  | [] => .ok value
  | c :: cs =>
    if c.isDigit then
      let value := 10 * value + (c.toNat - '0'.toNat)
      if value < 2 ^ 64 then readIndexFrom value cs else .error .indexTooLarge
    else .error .foreignDigit

def readIndex (digits : List Char) : Except FactFault Nat := readIndexFrom 0 digits

/-- The text before ` = ` and the digits behind it, at the end of a text. -/
def splitIndex? (s : List Char) : Option (List Char × List Char) :=
  let digits := (s.reverse.takeWhile Text.isDecimalDigit).reverse
  match s.reverse.dropWhile Text.isDecimalDigit with
  | ' ' :: '=' :: ' ' :: before => if digits.isEmpty then none else some (before.reverse, digits)
  | _ => none

def bindingOf? (marker : String) (s : List Char) (role : Role) : Option (String × List Char) := do
  let rest ← Text.afterPrefix? (role.hole marker).toList s
  let name := rest.takeWhile (· != '_')
  match name, rest.dropWhile (· != '_') with
  | _ :: _, _ :: rest =>
    let (between, digits) ← splitIndex? rest
    if between.contains '\n' then none else some (role.hole (marker ++ String.ofList name), digits)
  | _, _ => none

def binding? (marker payload : String) : Except DecodeFault (Option (String × Nat)) :=
  match Role.all.findSome? (bindingOf? marker payload.toList) with
  | none => .ok none
  | some (hole, digits) =>
    match readIndex digits with
    | .ok index => .ok (some (hole, index))
    | .error fault => .error (.malformedFact payload fault)

end ObserverPattern.Payload
