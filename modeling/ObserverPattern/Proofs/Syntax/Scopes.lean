import ObserverPattern.Proofs.Syntax.Parts

/-!
# Identifiers and what is declared around them

A loop declares its variable for its body, and an assignment with a type to a name declares a local for the statements
that follow in its block, with all that is nested in them.

* `Expr.ids` lists the identifiers of an expression, `Stmt.usesIn` those of a block, each with the declarations in
  whose scope it stands;
* `Use.IsFree`: no declaration around an identifier bears its name.
-/

namespace ObserverPattern

mutual

/-- The identifiers of an expression, in order. -/
def Expr.ids : Expr → List String
  | .literal _ => []
  | .id name => [name]
  | .field receiver _ => receiver.ids
  | .call callee args => callee.ids ++ Expr.listIds args
  | .new _ args => Expr.listIds args
  | .binary _ left right => left.ids ++ right.ids
  | .cast _ e => e.ids
  | .placeholder _ operands => Expr.listIds operands

def Expr.listIds : List Expr → List String
  | [] => []
  | e :: rest => e.ids ++ Expr.listIds rest

end

/-- A declaration of a name inside a body. -/
inductive Binder where
  /-- The variable of a loop. -/
  | loop (name : String)
  /-- A local variable. -/
  | declared (name : String)
  deriving DecidableEq

def Binder.name : Binder → String
  | .loop name | .declared name => name

/-- An identifier, with the declarations in whose scope it stands, the innermost first. -/
structure Use where
  name : String
  scope : List Binder
  deriving DecidableEq

/-- No declaration around an identifier bears its name. -/
def Use.IsFree (u : Use) : Prop := ∀ b ∈ u.scope, b.name ≠ u.name

instance (u : Use) : Decidable u.IsFree := inferInstanceAs (Decidable (∀ b ∈ u.scope, b.name ≠ u.name))

namespace Stmt

/-- What a statement declares for those that follow it. -/
def declares : Stmt → List Binder
  | .assign (some _) (.id name) _ => [.declared name]
  | _ => []

/-- What a statement declares, for those that follow it or for its own body. -/
def binders : Stmt → List Binder
  | .forEach _ var _ _ => [.loop var]
  | s => s.declares

section Uses

variable (ids : Expr → List String)

mutual

/-- The identifiers of a statement that stands in a scope, in order. Which identifiers of an expression count is
given. -/
def usesOf (scope : List Binder) : Stmt → List Use
  | .expr e => (ids e).map (⟨·, scope⟩)
  | .assign _ target value => (ids target ++ ids value).map (⟨·, scope⟩)
  | .ifElse cond thenBody elseBody =>
    (ids cond).map (⟨·, scope⟩) ++ (usesIn scope thenBody ++ usesIn scope elseBody)
  | .forEach _ var source body => (ids source).map (⟨·, scope⟩) ++ usesIn (.loop var :: scope) body
  | .whileLoop cond body => (ids cond).map (⟨·, scope⟩) ++ usesIn scope body
  | .ret none => []
  | .ret (some e) => (ids e).map (⟨·, scope⟩)

/-- The identifiers of a block that stands in a scope, in order. -/
def usesIn (scope : List Binder) : List Stmt → List Use
  | [] => []
  | s :: rest => usesOf scope s ++ usesIn (s.declares ++ scope) rest

end

end Uses

end Stmt

end ObserverPattern
