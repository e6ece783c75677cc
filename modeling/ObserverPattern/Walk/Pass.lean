import ObserverPattern.Walk.Position

/-!
# Passes

A pass tells what a traversal does at each kind of node. It gets a node whose children have been
replaced and gives what takes its place: for a field or a statement any number of nodes. A pass may
keep a state and may fail, in whatever monad it runs.
-/

namespace ObserverPattern

inductive NodeSort where
  | classDecl
  | field
  | method
  | stmt
  | expr
  deriving DecidableEq

def NodeSort.all : List NodeSort := [.classDecl, .field, .method, .stmt, .expr]

def NodeSort.name : NodeSort → String
  | .classDecl => "class"
  | .field => "field"
  | .method => "method"
  | .stmt => "statement"
  | .expr => "expression"

/-- What is done at each kind of node. -/
structure Pass (m : Type → Type) where
  onClass : Position → ClassDecl → m Unit
  onField : Position → Field → m (List Field)
  /-- What takes the place of a method body as a whole. -/
  onMethod : Position → Block → m Block
  onStmt : Position → Stmt → m Block
  onExpr : Position → Expr → m Expr

def Pass.identity {m : Type → Type} [Pure m] : Pass m where
  onClass _ _ := pure ()
  onField _ f := pure [f]
  onMethod _ body := pure body
  onStmt _ s := pure [s]
  onExpr _ e := pure e

end ObserverPattern
