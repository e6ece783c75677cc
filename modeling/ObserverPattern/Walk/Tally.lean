import ObserverPattern.Walk.Traverse

/-!
# Tallies

How often a pass was applied to each kind of node, how often it changed
something, and how often it removed a node.

* `Pass.counted` does what a pass does and counts. A field or a statement is changed unless just the
  node itself comes back, a method if its body is longer or shorter afterwards, and a class always.
-/

namespace ObserverPattern

structure Counts where
  applications : Nat
  transformations : Nat
  removals : Nat
  deriving DecidableEq

structure Tally where
  classDecl : Counts
  field : Counts
  method : Counts
  stmt : Counts
  expr : Counts
  deriving DecidableEq

def Counts.zero : Counts := ⟨0, 0, 0⟩

def Counts.add (c : Counts) (changed removed : Bool) : Counts where
  applications := c.applications + 1
  transformations := c.transformations + changed.toNat
  removals := c.removals + removed.toNat

namespace Tally

def zero : Tally := ⟨.zero, .zero, .zero, .zero, .zero⟩

def get (t : Tally) : NodeSort → Counts
  | .classDecl => t.classDecl
  | .field => t.field
  | .method => t.method
  | .stmt => t.stmt
  | .expr => t.expr

def add (t : Tally) (kind : NodeSort) (changed removed : Bool) : Tally :=
  match kind with
  | .classDecl => { t with classDecl := t.classDecl.add changed removed }
  | .field => { t with field := t.field.add changed removed }
  | .method => { t with method := t.method.add changed removed }
  | .stmt => { t with stmt := t.stmt.add changed removed }
  | .expr => { t with expr := t.expr.add changed removed }

def transformations (t : Tally) : Nat := NodeSort.all.foldl (fun n kind => n + (t.get kind).transformations) 0

def removals (t : Tally) : Nat := NodeSort.all.foldl (fun n kind => n + (t.get kind).removals) 0

end Tally

/-- The pass that does the same and counts. -/
def Pass.counted {m : Type → Type} [Monad m] (pass : Pass m) : Pass (StateT Tally m) where
  onClass p c := do
    pass.onClass p c
    modify (·.add .classDecl true false)
  onField p f := do
    let new ← pass.onField p f
    modify (·.add .field (new != [f]) new.isEmpty)
    return new
  onMethod p body := do
    let new ← pass.onMethod p body
    modify (·.add .method (new.length != body.length) false)
    return new
  onStmt p s := do
    let new ← pass.onStmt p s
    modify (·.add .stmt (new != [s]) new.isEmpty)
    return new
  onExpr p e := do
    let new ← pass.onExpr p e
    modify (·.add .expr (new != e) false)
    return new

def Walk.walkCounted {m : Type → Type} [Monad m] [MonadExceptOf DecodeFault m] (pass : Pass m)
    (maxDepth : Nat) (t : Template) (r : Registry) : m (Registry × Tally) :=
  (walk pass.counted maxDepth t r).run .zero

end ObserverPattern
