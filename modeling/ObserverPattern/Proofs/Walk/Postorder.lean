import ObserverPattern.Proofs.Syntax.Parts
import ObserverPattern.Program.Basic
import ObserverPattern.Walk.Pass

/-!
# Programs in post-order

* `Template.spots`: the nodes of the classes that a template lists, children before parents, each with the
  place where it stands;
* `Expr.postorder_perm`, `Stmt.statements_perm`: no part of an expression or a statement is left out, and
  none comes twice.
-/

namespace ObserverPattern

/-- A node of a program. -/
inductive Node where
  | classDecl (c : ClassDecl)
  | field (f : Field)
  | method (m : MethodDecl)
  | stmt (s : Stmt)
  | expr (e : Expr)

def Node.sort : Node → NodeSort
  | .classDecl _ => .classDecl
  | .field _ => .field
  | .method _ => .method
  | .stmt _ => .stmt
  | .expr _ => .expr

/-- A node of a program at the place where it stands. -/
structure Spot where
  location : String
  depth : Nat
  node : Node

/-- What a pass is told of a node apart from the node itself. -/
structure Visit where
  sort : NodeSort
  location : String
  depth : Nat
  deriving DecidableEq

def Spot.visit (s : Spot) : Visit := ⟨s.node.sort, s.location, s.depth⟩

mutual

/-- The expressions that an expression is made of, each after those that it is made of itself. -/
def Expr.postorder : Expr → List Expr
  | .literal l => [.literal l]
  | .id name => [.id name]
  | .field receiver name => receiver.postorder ++ [.field receiver name]
  | .call callee args => callee.postorder ++ (Expr.listPostorder args ++ [.call callee args])
  | .new ty args => Expr.listPostorder args ++ [.new ty args]
  | .binary op left right => left.postorder ++ (right.postorder ++ [.binary op left right])
  | .cast ty e => e.postorder ++ [.cast ty e]
  | .placeholder name operands => Expr.listPostorder operands ++ [.placeholder name operands]

def Expr.listPostorder : List Expr → List Expr
  | [] => []
  | e :: rest => e.postorder ++ Expr.listPostorder rest

end

theorem Expr.postorder_eq (e : Expr) : e.postorder = listPostorder e.children ++ [e] := by
  cases e <;> simp [postorder, listPostorder, children]

private theorem Expr.postorder_perm_of_children {e : Expr}
    (h : (listPostorder e.children).Perm (listParts e.children)) : e.postorder.Perm e.parts := by
  rw [postorder_eq, parts_eq]
  exact (List.perm_append_singleton e _).trans (h.cons e)

mutual

/-- Every part of an expression is enumerated, and just once. -/
theorem Expr.postorder_perm : ∀ e : Expr, e.postorder.Perm e.parts
  | .literal _ => .refl _
  | .id _ => .refl _
  | .field receiver _ => postorder_perm_of_children (receiver.postorder_perm.append (.refl []))
  | .call callee args => postorder_perm_of_children (callee.postorder_perm.append (listPostorder_perm args))
  | .new _ args => postorder_perm_of_children (listPostorder_perm args)
  | .binary _ left right =>
    postorder_perm_of_children (left.postorder_perm.append (right.postorder_perm.append (.refl [])))
  | .cast _ e => postorder_perm_of_children (e.postorder_perm.append (.refl []))
  | .placeholder _ operands => postorder_perm_of_children (listPostorder_perm operands)

theorem Expr.listPostorder_perm : ∀ es : List Expr, (listPostorder es).Perm (listParts es)
  | [] => .refl _
  | e :: es => e.postorder_perm.append (listPostorder_perm es)

end

namespace Spot

variable (location : String) (depth : Nat)

def expr (e : Expr) : Spot := ⟨location, depth, .expr e⟩

def exprs (es : List Expr) : List Spot := (Expr.listPostorder es).map (expr location depth)

/-- A statement behind the expressions in it and the statements nested in it. -/
def stmt (nested : List Spot) (s : Stmt) : List Spot :=
  exprs location depth s.operands ++ (nested ++ [⟨location, depth, .stmt s⟩])

end Spot

mutual

def Stmt.spots (location : String) : Nat → Stmt → List Spot
  | depth, .expr e => Spot.stmt location depth [] (.expr e)
  | depth, .assign ty target value => Spot.stmt location depth [] (.assign ty target value)
  | depth, .ifElse cond thenBody elseBody =>
    Spot.stmt location depth
      (Stmt.listSpots location (depth + 1) thenBody ++ Stmt.listSpots location (depth + 1) elseBody)
      (.ifElse cond thenBody elseBody)
  | depth, .forEach ty var source body =>
    Spot.stmt location depth (Stmt.listSpots location (depth + 1) body) (.forEach ty var source body)
  | depth, .whileLoop cond body =>
    Spot.stmt location depth (Stmt.listSpots location (depth + 1) body) (.whileLoop cond body)
  | depth, .ret value => Spot.stmt location depth [] (.ret value)

def Stmt.listSpots (location : String) : Nat → List Stmt → List Spot
  | _, [] => []
  | depth, s :: rest => Stmt.spots location depth s ++ Stmt.listSpots location depth rest

end

def Node.stmt? : Node → Option Stmt
  | .stmt s => some s
  | _ => none

private theorem filterMap_exprs (location : String) (depth : Nat) (es : List Expr) :
    (Spot.exprs location depth es).filterMap (·.node.stmt?) = [] := by
  rw [Spot.exprs, List.filterMap_map, List.filterMap_eq_nil_iff]
  exact fun _ _ => rfl

private theorem Stmt.statements_perm_of_children {location : String} {depth : Nat} {nested : List Spot}
    {s : Stmt} (h : (nested.filterMap (·.node.stmt?)).Perm (listParts s.children)) :
    ((Spot.stmt location depth nested s).filterMap (·.node.stmt?)).Perm s.parts := by
  rw [parts_eq, Spot.stmt, List.filterMap_append, filterMap_exprs, List.nil_append, List.filterMap_append]
  exact (List.perm_append_singleton s _).trans (h.cons s)

mutual

/-- Every statement nested in a statement is enumerated, and just once. -/
theorem Stmt.statements_perm (location : String) :
    ∀ depth (s : Stmt), ((s.spots location depth).filterMap (·.node.stmt?)).Perm s.parts
  | _, .expr _ => statements_perm_of_children (.refl _)
  | _, .assign _ _ _ => statements_perm_of_children (.refl _)
  | depth, .ifElse _ thenBody elseBody => by
    refine statements_perm_of_children ?_
    rw [List.filterMap_append, children, listParts_append]
    have hthen := listStatements_perm location (depth + 1) thenBody
    have helse := listStatements_perm location (depth + 1) elseBody
    exact hthen.append helse
  | depth, .forEach _ _ _ body => statements_perm_of_children (listStatements_perm location (depth + 1) body)
  | depth, .whileLoop _ body => statements_perm_of_children (listStatements_perm location (depth + 1) body)
  | _, .ret _ => statements_perm_of_children (.refl _)

theorem Stmt.listStatements_perm (location : String) :
    ∀ depth (b : Block), ((listSpots location depth b).filterMap (·.node.stmt?)).Perm (listParts b)
  | _, [] => .refl _
  | depth, s :: b => by
    rw [listSpots, listParts, List.filterMap_append]
    exact (statements_perm location depth s).append (listStatements_perm location depth b)

end

def Field.spots (owner : String) (f : Field) : List Spot :=
  Spot.exprs owner 0 f.init.toList ++ [⟨owner, 0, .field f⟩]

/-- The nodes of a method as one of a class that lists it. -/
def MethodDecl.spots (owner : String) (m : MethodDecl) : List Spot :=
  Stmt.listSpots (owner ++ "." ++ m.name) 0 m.body ++ [⟨owner ++ "." ++ m.name, 0, .method m⟩]

namespace Registry

def methodSpots (r : Registry) (owner : String) (id : MethodId) : List Spot :=
  (r.method? id).elim [] (·.spots owner)

/-- The nodes of a class: the class, its fields, and the methods that it lists. -/
def classSpots (r : Registry) (id : ClassId) : List Spot :=
  (r.class? id).elim [] fun c =>
    ⟨c.name, 0, .classDecl c⟩ ::
      (c.fields.flatMap (Field.spots c.name) ++ c.methods.flatMap (r.methodSpots c.name))

end Registry

/-- The nodes of the classes that a template lists, in post-order. -/
def Template.spots (t : Template) (r : Registry) : List Spot := t.classes.flatMap r.classSpots

end ObserverPattern
