import ObserverPattern.Syntax.Stmt

/-!
# Parts of expressions and statements

* `Expr.parts` lists an expression and the expressions it is made of, `Stmt.parts` a statement and
  the statements nested in it;
* `Stmt.operands` are the expressions that stand in a statement itself, `Stmt.exprs` their parts;
* `Expr.shell` and `Stmt.shell` are a node without what is below it.
-/

namespace ObserverPattern

mutual

/-- The expressions that an expression is made of, itself included. -/
def Expr.parts : Expr → List Expr
  | .literal l => [.literal l]
  | .id name => [.id name]
  | .field receiver name => .field receiver name :: receiver.parts
  | .call callee args => .call callee args :: (callee.parts ++ Expr.listParts args)
  | .new ty args => .new ty args :: Expr.listParts args
  | .binary op left right => .binary op left right :: (left.parts ++ right.parts)
  | .cast ty e => .cast ty e :: e.parts
  | .placeholder name operands => .placeholder name operands :: Expr.listParts operands

/-- The expressions that a list of expressions is made of. -/
def Expr.listParts : List Expr → List Expr
  | [] => []
  | e :: rest => e.parts ++ Expr.listParts rest

end

mutual

/-- The statements nested in a statement, itself included. -/
def Stmt.parts : Stmt → List Stmt
  | .expr e => [.expr e]
  | .assign ty target value => [.assign ty target value]
  | .ifElse cond thenBody elseBody =>
    .ifElse cond thenBody elseBody :: (Stmt.listParts thenBody ++ Stmt.listParts elseBody)
  | .forEach ty var source body => .forEach ty var source body :: Stmt.listParts body
  | .whileLoop cond body => .whileLoop cond body :: Stmt.listParts body
  | .ret value => [.ret value]

/-- The statements of a block at every depth. -/
def Stmt.listParts : List Stmt → List Stmt
  | [] => []
  | s :: rest => s.parts ++ Stmt.listParts rest

end

mutual

/-- The parts of a part are parts. -/
theorem Expr.parts_subset : ∀ {x y : Expr}, x ∈ y.parts → x.parts ⊆ y.parts
  | x, .literal l, hx => by
    obtain rfl := List.mem_singleton.1 hx
    exact List.Subset.refl _
  | x, .id name, hx => by
    obtain rfl := List.mem_singleton.1 hx
    exact List.Subset.refl _
  | x, .field receiver name, hx => by
    rcases List.mem_cons.1 hx with rfl | hx
    · exact List.Subset.refl _
    · exact List.subset_cons_of_subset _ (Expr.parts_subset hx)
  | x, .call callee args, hx => by
    rcases List.mem_cons.1 hx with rfl | hx
    · exact List.Subset.refl _
    rcases List.mem_append.1 hx with hx | hx
    · exact List.subset_cons_of_subset _ (List.subset_append_of_subset_left _ (Expr.parts_subset hx))
    · exact List.subset_cons_of_subset _ (List.subset_append_of_subset_right _ (Expr.parts_subset_listParts hx))
  | x, .new ty args, hx => by
    rcases List.mem_cons.1 hx with rfl | hx
    · exact List.Subset.refl _
    · exact List.subset_cons_of_subset _ (Expr.parts_subset_listParts hx)
  | x, .binary op left right, hx => by
    rcases List.mem_cons.1 hx with rfl | hx
    · exact List.Subset.refl _
    rcases List.mem_append.1 hx with hx | hx
    · exact List.subset_cons_of_subset _ (List.subset_append_of_subset_left _ (Expr.parts_subset hx))
    · exact List.subset_cons_of_subset _ (List.subset_append_of_subset_right _ (Expr.parts_subset hx))
  | x, .cast ty e, hx => by
    rcases List.mem_cons.1 hx with rfl | hx
    · exact List.Subset.refl _
    · exact List.subset_cons_of_subset _ (Expr.parts_subset hx)
  | x, .placeholder name operands, hx => by
    rcases List.mem_cons.1 hx with rfl | hx
    · exact List.Subset.refl _
    · exact List.subset_cons_of_subset _ (Expr.parts_subset_listParts hx)

theorem Expr.parts_subset_listParts : ∀ {x : Expr} {es : List Expr}, x ∈ Expr.listParts es →
    x.parts ⊆ Expr.listParts es
  | x, [], hx => by cases hx
  | x, e :: es, hx => by
    rcases List.mem_append.1 hx with hx | hx
    · exact List.subset_append_of_subset_left _ (Expr.parts_subset hx)
    · exact List.subset_append_of_subset_right _ (Expr.parts_subset_listParts hx)

end

namespace Expr

/-- The expressions directly below an expression. -/
def children : Expr → List Expr
  | .literal _ => []
  | .id _ => []
  | .field receiver _ => [receiver]
  | .call callee args => callee :: args
  | .new _ args => args
  | .binary _ left right => [left, right]
  | .cast _ e => [e]
  | .placeholder _ operands => operands

theorem parts_eq (e : Expr) : e.parts = e :: listParts e.children := by
  cases e <;> simp [parts, children, listParts]

theorem mem_listParts {x : Expr} {es : List Expr} : x ∈ listParts es ↔ ∃ e ∈ es, x ∈ e.parts := by
  induction es with
  | nil => simp [listParts]
  | cons e es ih => simp [listParts, ih]

theorem self_mem_parts (e : Expr) : e ∈ e.parts := by
  simp [parts_eq]

/-- An expression with nothing in it. -/
def shell : Expr → Expr
  | .literal l => .literal l
  | .id name => .id name
  | .field _ name => .field null name
  | .call _ _ => .call null []
  | .new ty _ => .new ty []
  | .binary op _ _ => .binary op null null
  | .cast ty _ => .cast ty null
  | .placeholder name _ => .placeholder name []

end Expr

namespace Stmt

/-- The expressions that stand in a statement itself. -/
def operands : Stmt → List Expr
  | .expr e => [e]
  | .assign _ target value => [target, value]
  | .ifElse cond _ _ => [cond]
  | .forEach _ _ source _ => [source]
  | .whileLoop cond _ => [cond]
  | .ret value => value.toList

/-- The expressions that stand in a statement itself, with their parts. -/
def exprs (s : Stmt) : List Expr := Expr.listParts s.operands

/-- The statements directly below a statement. -/
def children : Stmt → List Stmt
  | .ifElse _ thenBody elseBody => thenBody ++ elseBody
  | .forEach _ _ _ body => body
  | .whileLoop _ body => body
  | _ => []

theorem mem_listParts {x : Stmt} {b : Block} : x ∈ listParts b ↔ ∃ s ∈ b, x ∈ s.parts := by
  induction b with
  | nil => simp [listParts]
  | cons s b ih => simp [listParts, ih]

theorem listParts_append (a b : Block) : listParts (a ++ b) = listParts a ++ listParts b := by
  induction a with
  | nil => rfl
  | cons s a ih => simp [listParts, ih]

theorem parts_eq (s : Stmt) : s.parts = s :: listParts s.children := by
  cases s <;> simp [parts, children, listParts, listParts_append]

theorem self_mem_parts (s : Stmt) : s ∈ s.parts := by
  simp [parts_eq]

/-- A statement with nothing in it. -/
def shell : Stmt → Stmt
  | .expr _ => .expr .null
  | .assign ty _ _ => .assign ty .null .null
  | .ifElse _ _ _ => .ifElse .null [] []
  | .forEach ty var _ _ => .forEach ty var .null []
  | .whileLoop _ _ => .whileLoop .null []
  | .ret _ => .ret none

end Stmt

end ObserverPattern
