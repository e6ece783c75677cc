import ObserverPattern.Program.Basic
import ObserverPattern.Walk.Pass

/-!
# Traversal

Takes a pass through the classes that a template lists, children before parents, each node once.

* `walkExpr` and `walkStmt` go through a tree; what a pass puts in
  the place of a node is not visited again.
* `walkClass` goes through the fields of a class, then through the methods it lists; `walk` through
  the classes of a template, in order. The fields or the body under way are taken out of the
  registry that the pass is shown.
-/

namespace ObserverPattern.Walk

variable {m : Type → Type} [Monad m]

mutual

def walkExpr (pass : Pass m) (p : Position) : Expr → m Expr
  | .literal l => pass.onExpr p (.literal l)
  | .id name => pass.onExpr p (.id name)
  | .field receiver name => do
    let receiver ← walkExpr pass p receiver
    pass.onExpr p (.field receiver name)
  | .call callee args => do
    let callee ← walkExpr pass p callee
    let args ← walkExprs pass p args
    pass.onExpr p (.call callee args)
  | .new ty args => do
    let args ← walkExprs pass p args
    pass.onExpr p (.new ty args)
  | .binary op left right => do
    let left ← walkExpr pass p left
    let right ← walkExpr pass p right
    pass.onExpr p (.binary op left right)
  | .cast ty e => do
    let e ← walkExpr pass p e
    pass.onExpr p (.cast ty e)
  | .placeholder name operands => do
    let operands ← walkExprs pass p operands
    pass.onExpr p (.placeholder name operands)

def walkExprs (pass : Pass m) (p : Position) : List Expr → m (List Expr)
  | [] => pure []
  | e :: rest => do
    let e ← walkExpr pass p e
    let rest ← walkExprs pass p rest
    return e :: rest

end

def walkOption (pass : Pass m) (p : Position) : Option Expr → m (Option Expr)
  | none => pure none
  | some e => do
    let e ← walkExpr pass p e
    return some e

variable [MonadExceptOf DecodeFault m]

/-- A computation without state as one of a traversal. -/
def lift {α : Type} : Except DecodeFault α → m α
  | .ok a => pure a
  | .error e => throw e

mutual

def walkStmt (pass : Pass m) (p : Position) : Stmt → m Block
  | .expr e => do
    let e ← walkExpr pass p e
    pass.onStmt p (.expr e)
  | .assign ty target value => do
    let target ← walkExpr pass p target
    let value ← walkExpr pass p value
    pass.onStmt p (.assign ty target value)
  | .ifElse cond thenBody elseBody => do
    let cond ← walkExpr pass p cond
    lift p.inner.enter
    let thenBody ← walkStmts pass p.inner thenBody
    lift p.inner.enter
    let elseBody ← walkStmts pass p.inner elseBody
    pass.onStmt p (.ifElse cond thenBody elseBody)
  | .forEach ty var source body => do
    let source ← walkExpr pass p source
    lift p.inner.enter
    let body ← walkStmts pass p.inner body
    pass.onStmt p (.forEach ty var source body)
  | .whileLoop cond body => do
    let cond ← walkExpr pass p cond
    lift p.inner.enter
    let body ← walkStmts pass p.inner body
    pass.onStmt p (.whileLoop cond body)
  | .ret value => do
    let value ← walkOption pass p value
    pass.onStmt p (.ret value)

def walkStmts (pass : Pass m) (p : Position) : List Stmt → m Block
  | [] => pure []
  | s :: rest => do
    let new ← walkStmt pass p s
    let rest ← walkStmts pass p rest
    return new ++ rest

end

/-- Takes a pass through a block, unless it lies too deep. -/
def walkBlock (pass : Pass m) (p : Position) (body : Block) : m Block := do
  lift p.enter
  walkStmts pass p body

def walkField (pass : Pass m) (p : Position) (f : Field) : m (List Field) := do
  let init ← walkOption pass p f.init
  pass.onField p { f with init }

def walkFields (pass : Pass m) (p : Position) : List Field → m (List Field)
  | [] => pure []
  | f :: rest => do
    let new ← walkField pass p f
    let rest ← walkFields pass p rest
    return new ++ rest

/-- Takes a pass through the body of a method that a class lists. Meanwhile the registry is without that body. -/
def walkMethod (pass : Pass m) (maxDepth : Nat) (owner : ClassId) (r : Registry) (id : MethodId) :
    m Registry := do
  let method ← lift (r.getMethod id)
  let p : Position := ⟨r.withoutBody id, owner, some id, 0, maxDepth⟩
  let body ← walkBlock pass p method.body
  let body ← pass.onMethod p body
  lift ((r.withoutBody id).putBody id body)

/-- Takes a pass through a class. While it goes through the fields, the registry and the class are without these. -/
def walkClass (pass : Pass m) (maxDepth : Nat) (r : Registry) (id : ClassId) : m Registry := do
  let c ← lift (r.getClass id)
  let p : Position := ⟨r.withoutFields id, id, none, 0, maxDepth⟩
  pass.onClass p { c with fields := [] }
  let fields ← walkFields pass p c.fields
  let r ← lift ((r.withoutFields id).putFields id fields)
  c.methods.foldlM (walkMethod pass maxDepth id) r

/-- Takes a pass through the classes that a template lists. -/
def walk (pass : Pass m) (maxDepth : Nat) (t : Template) (r : Registry) : m Registry :=
  t.classes.foldlM (walkClass pass maxDepth) r

end ObserverPattern.Walk
