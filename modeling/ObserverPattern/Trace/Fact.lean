import ObserverPattern.Syntax.Expr
import ObserverPattern.Table
import ObserverPattern.Trace.MemberKey

/-!
# Facts

What a trace tells about the expressions of a method: which operator compares two operands, and in
which direction a collection is walked. Facts are recorded under the name of the method that
produces them, in trace order.

* `Facts.move` moves the facts of a method to another one.
-/

namespace ObserverPattern

inductive Direction where
  | forward
  | reverse
  deriving DecidableEq, Repr

inductive Fact where
  | compare (left : String) (op : Operator) (right : String)
  | direction (d : Direction)
  deriving DecidableEq

def Direction.text : Direction → String
  | .forward => "idx + 1"
  | .reverse => "idx - 1"

def Fact.text : Fact → String
  | .compare left op right => left ++ " " ++ op.symbol ++ " " ++ right
  | .direction d => d.text

def Fact.direction? : Fact → Option Direction
  | .direction d => some d
  | .compare .. => none

def Fact.comparison? (left right : String) : Fact → Option Operator
  | .compare l op r => if memberKey l = left ∧ memberKey r = right then some op else none
  | .direction _ => none

abbrev Facts := Table (List Fact)

abbrev Bindings := Table Nat

namespace Facts

def factsOf (t : Facts) (key : String) : List Fact := (t.get? key).getD []

def push (t : Facts) (key : String) (fact : Fact) : Facts := t.insert key (t.factsOf key ++ [fact])

/-- Moves the facts of one key to another, in place of what was
there, and tells whether there were any. -/
def move (t : Facts) (old new : String) : Facts × Bool :=
  match t.get? old with
  | none => (t, false)
  | some facts => ((t.insert new facts).erase old, true)

def direction? (t : Facts) (key : String) : Option Direction := (t.factsOf key).findSome? Fact.direction?

/-- The operator of the first comparison recorded under a key whose operands have the given keys. -/
def comparison? (t : Facts) (key left right : String) : Option Operator :=
  (t.factsOf key).findSome? (Fact.comparison? left right)

end Facts

end ObserverPattern
