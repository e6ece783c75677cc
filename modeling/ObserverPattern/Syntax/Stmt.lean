import ObserverPattern.Syntax.Expr

/-!
# Statements

The statements of skeleton code. A block is a list of statements.

* `Stmt.same_iff`: equality of statements is decidable.
-/

namespace ObserverPattern

inductive Stmt where
  | expr (e : Expr)
  /-- The assignment of a value, or with a type the declaration of a local variable. -/
  | assign (ty : Option String) (target value : Expr)
  | ifElse (cond : Expr) (thenBody elseBody : List Stmt)
  | forEach (ty var : String) (source : Expr) (body : List Stmt)
  | whileLoop (cond : Expr) (body : List Stmt)
  | ret (value : Option Expr)

abbrev Block := List Stmt

namespace Stmt

def declare (ty name : String) (value : Expr) : Stmt := .assign (some ty) (.id name) value

mutual

def same : Stmt → Stmt → Bool
  | .expr a, .expr b => a == b
  | .assign t a b, .assign u c d => t == u && (a == c && b == d)
  | .ifElse c a b, .ifElse d e f => c == d && (sameAll a e && sameAll b f)
  | .forEach t v a b, .forEach u w c d => t == u && (v == w && (a == c && sameAll b d))
  | .whileLoop c a, .whileLoop d b => c == d && sameAll a b
  | .ret a, .ret b => a == b
  | _, _ => false

def sameAll : List Stmt → List Stmt → Bool
  | [], [] => true
  | a :: as, b :: bs => same a b && sameAll as bs
  | _, _ => false

end

mutual

theorem same_iff : ∀ a b : Stmt, same a b = true ↔ a = b
  | .expr a, b => by cases b <;> simp [same]
  | .assign t a b, c => by cases c <;> simp [same]
  | .ifElse c a b, d => by cases d <;> simp [same, sameAll_iff a, sameAll_iff b]
  | .forEach t v a b, c => by cases c <;> simp [same, sameAll_iff b]
  | .whileLoop c a, b => by cases b <;> simp [same, sameAll_iff a]
  | .ret a, b => by cases b <;> simp [same]

theorem sameAll_iff : ∀ as bs : List Stmt, sameAll as bs = true ↔ as = bs
  | [], bs => by cases bs <;> simp [sameAll]
  | a :: as, bs => by cases bs <;> simp [sameAll, same_iff a, sameAll_iff as]

end

instance : DecidableEq Stmt := fun a b => decidable_of_iff _ (same_iff a b)

end Stmt

end ObserverPattern
