/-!
# Expressions

The expressions of skeleton code: what a field is initialised with and what statements are made of.

* `Expr.lastName?` is the last component of a dotted path;
* `Expr.methodCall?` takes the call of a method apart;
* equality of expressions is decidable (`Expr.same_iff`).
-/

namespace ObserverPattern

inductive Operator where
  | lt
  | le
  | eq
  | ne
  | ge
  | gt
  | and
  | or
  | add
  | sub
  deriving DecidableEq, Repr

def Operator.all : List Operator := [.lt, .le, .eq, .ne, .ge, .gt, .and, .or, .add, .sub]

def Operator.symbol : Operator → String
  | .lt => "<"
  | .le => "<="
  | .eq => "=="
  | .ne => "!="
  | .ge => ">="
  | .gt => ">"
  | .and => "&&"
  | .or => "||"
  | .add => "+"
  | .sub => "-"

def Operator.ofSymbol? (s : String) : Option Operator := Operator.all.find? (·.symbol == s)

/-- The symbol of an operator determines the operator. -/
theorem Operator.ofSymbol?_symbol (op : Operator) : Operator.ofSymbol? op.symbol = some op := by
  cases op <;> rfl

inductive Literal where
  | null
  | bool (b : Bool)
  | int (n : Int64)
  | str (s : String)
  deriving DecidableEq

inductive Expr where
  | literal (l : Literal)
  | id (name : String)
  /-- The member of a value: a dotted path, or the method of a call. -/
  | field (receiver : Expr) (name : String)
  | call (callee : Expr) (args : List Expr)
  | new (ty : String) (args : List Expr)
  | binary (op : Operator) (left right : Expr)
  | cast (ty : String) (e : Expr)
  /-- A placeholder `@name(operands)` that the skeleton builder left for the decoder. -/
  | placeholder (name : String) (operands : List Expr)

namespace Expr

def null : Expr := .literal .null

def bool (b : Bool) : Expr := .literal (.bool b)

def methodCall (receiver : Expr) (method : String) (args : List Expr) : Expr :=
  .call (.field receiver method) args

def isNull : Expr → Bool
  | .literal .null => true
  | _ => false

/-- The last component of a dotted path, seen through calls and casts. -/
def lastName? : Expr → Option String
  | .id name => some name
  | .field _ name => some name
  | .call callee _ => callee.lastName?
  | .cast _ e => e.lastName?
  | _ => none

def methodCall? : Expr → Option (Expr × String × List Expr)
  | .call (.field receiver method) args => some (receiver, method, args)
  | _ => none

/-! ## Equality -/

mutual

def same : Expr → Expr → Bool
  | .literal a, .literal b => a == b
  | .id a, .id b => a == b
  | .field r a, .field s b => same r s && a == b
  | .call f as, .call g bs => same f g && sameAll as bs
  | .new a as, .new b bs => a == b && sameAll as bs
  | .binary o a b, .binary p c d => o == p && (same a c && same b d)
  | .cast a e, .cast b f => a == b && same e f
  | .placeholder a as, .placeholder b bs => a == b && sameAll as bs
  | _, _ => false

def sameAll : List Expr → List Expr → Bool
  | [], [] => true
  | a :: as, b :: bs => same a b && sameAll as bs
  | _, _ => false

end

mutual

theorem same_iff : ∀ a b : Expr, same a b = true ↔ a = b
  | .literal a, b => by cases b <;> simp [same]
  | .id a, b => by cases b <;> simp [same]
  | .field r a, b => by cases b <;> simp [same, same_iff r]
  | .call f as, b => by cases b <;> simp [same, same_iff f, sameAll_iff as]
  | .new a as, b => by cases b <;> simp [same, sameAll_iff as]
  | .binary o a b, c => by cases c <;> simp [same, same_iff a, same_iff b]
  | .cast a e, b => by cases b <;> simp [same, same_iff e]
  | .placeholder a as, b => by cases b <;> simp [same, sameAll_iff as]

theorem sameAll_iff : ∀ as bs : List Expr, sameAll as bs = true ↔ as = bs
  | [], bs => by cases bs <;> simp [sameAll]
  | a :: as, bs => by cases bs <;> simp [sameAll, same_iff a, sameAll_iff as]

end

instance : DecidableEq Expr := fun a b => decidable_of_iff _ (same_iff a b)

end Expr

end ObserverPattern
