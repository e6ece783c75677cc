import ObserverPattern.Proofs.Syntax.Encoding

/-!
# How deep code can get

A decode puts code in place of other code whose encoding is nested less deep. The first operand of `@CompareString`
and the receiver of a dispatch come to stand in the callee of a call, and a loop over a collection becomes a loop that
declares its element.

* `Expr.reach`, `Stmt.reach`: how deep the encoding is nested if an argument counts as if it stood in the callee, and
  a loop as if it had become one with an iterator;
* `Expr.nesting_le_reach`, `Expr.reach_le`, `Stmt.nesting_le_reach`, `Stmt.reach_le`: that is no less deep than the
  encoding is, and at most a third deeper, with eight levels more for statements.
-/

namespace ObserverPattern

open Json

/-! ## Expressions -/

mutual

/-- How deep the encoding of an expression can get. -/
def Expr.reach : Expr → Nat
  | .literal l => l.toJson.nesting + 1
  | .id _ => 1
  | .field receiver _ => receiver.reach + 2
  | .call callee args => max (callee.reach + 2) (Expr.listReach args + 4)
  | .new _ args => Expr.listReach args + 3
  | .binary _ left right => max left.reach right.reach + 2
  | .cast _ e => e.reach + 2
  | .placeholder _ operands => Expr.listReach operands + 4

def Expr.listReach : List Expr → Nat
  | [] => 0
  | e :: rest => max e.reach (Expr.listReach rest)

end

namespace Expr

theorem listReach_le {es : List Expr} {n : Nat} : listReach es ≤ n ↔ ∀ e ∈ es, e.reach ≤ n := by
  induction es with
  | nil => simp [listReach]
  | cons e es ih => rw [listReach, Nat.max_le, ih, List.forall_mem_cons]

/-- Some of some expressions get no deeper than all of them. -/
theorem listReach_mono {es es' : List Expr} (h : es ⊆ es') : listReach es ≤ listReach es' :=
  listReach_le.2 fun e he => listReach_le.1 (Nat.le_refl _) e (h he)

@[simp] theorem reach_methodCall (receiver : Expr) (method : String) (args : List Expr) :
    (methodCall receiver method args).reach = max receiver.reach (listReach args) + 4 := by
  rw [methodCall, reach, reach]
  omega

section Nesting

variable (e left right : Expr) (es : List Expr) (name : String)

@[simp] theorem nesting_literal (l : Literal) : (literal l).toJson.nesting = l.toJson.nesting + 1 := by
  rw [toJson, nesting_tagged]

@[simp] theorem nesting_id : (id name).toJson.nesting = 1 := rfl

@[simp] theorem nesting_field : (field e name).toJson.nesting = e.toJson.nesting + 2 := by
  simp [toJson, nesting_tagged, nesting_record, nestingItems, text, nesting]

@[simp] theorem nesting_call : (call e es).toJson.nesting =
    max (e.toJson.nesting + 2) (nestingItems (listToJson es) + 3) := by
  simp [toJson, nesting_tagged, nesting_record, nestingItems, nesting]

@[simp] theorem nesting_new : (new name es).toJson.nesting = nestingItems (listToJson es) + 3 := by
  simp [toJson, nesting_tagged, nesting_record, nestingItems, text, nesting]

@[simp] theorem nesting_binary (op : Operator) :
    (binary op left right).toJson.nesting = max left.toJson.nesting right.toJson.nesting + 2 := by
  simp [toJson, nesting_tagged, nesting_record, nestingItems, Operator.toJson, text, nesting]

@[simp] theorem nesting_cast : (cast name e).toJson.nesting = e.toJson.nesting + 2 := by
  simp [toJson, nesting_tagged, nesting_record, nestingItems, text, nesting]

@[simp] theorem nesting_placeholder : (placeholder name es).toJson.nesting = nestingItems (listToJson es) + 3 := by
  simp [toJson, nesting_tagged, nesting_record, nestingItems, text, nesting]

end Nesting

mutual

theorem nesting_le_reach : ∀ e : Expr, e.toJson.nesting ≤ e.reach
  | .literal l => Nat.le_of_eq (nesting_literal l)
  | .id name => Nat.le_of_eq (nesting_id name)
  | .field receiver name => by
    have := nesting_le_reach receiver
    rw [nesting_field, reach]
    omega
  | .call callee args => by
    have := nesting_le_reach callee
    have := nestingItems_le_listReach args
    rw [nesting_call, reach]
    omega
  | .new ty args => by
    have := nestingItems_le_listReach args
    rw [nesting_new, reach]
    omega
  | .binary op left right => by
    have := nesting_le_reach left
    have := nesting_le_reach right
    rw [nesting_binary, reach]
    omega
  | .cast ty e => by
    have := nesting_le_reach e
    rw [nesting_cast, reach]
    omega
  | .placeholder name operands => by
    have := nestingItems_le_listReach operands
    rw [nesting_placeholder, reach]
    omega

theorem nestingItems_le_listReach : ∀ es : List Expr, nestingItems (Expr.listToJson es) ≤ Expr.listReach es
  | [] => Nat.le_refl 0
  | e :: es => by
    have := nesting_le_reach e
    have := nestingItems_le_listReach es
    rw [Expr.listToJson, nestingItems, Expr.listReach]
    omega

end

mutual

/-- An expression gets deeper by a third at most: only the step from three levels to four is repeated. -/
theorem reach_le : ∀ e : Expr, 3 * e.reach ≤ 4 * e.toJson.nesting
  | .literal l => by
    rw [nesting_literal, reach]
    omega
  | .id name => by
    rw [nesting_id, reach]
    omega
  | .field receiver name => by
    have := reach_le receiver
    rw [nesting_field, reach]
    omega
  | .call callee args => by
    have := reach_le callee
    have := listReach_le_nesting args
    rw [nesting_call, reach]
    omega
  | .new ty args => by
    have := listReach_le_nesting args
    rw [nesting_new, reach]
    omega
  | .binary op left right => by
    have := reach_le left
    have := reach_le right
    rw [nesting_binary, reach]
    omega
  | .cast ty e => by
    have := reach_le e
    rw [nesting_cast, reach]
    omega
  | .placeholder name operands => by
    have := listReach_le_nesting operands
    rw [nesting_placeholder, reach]
    omega

theorem listReach_le_nesting : ∀ es : List Expr, 3 * Expr.listReach es ≤ 4 * nestingItems (Expr.listToJson es)
  | [] => Nat.le_refl 0
  | e :: es => by
    have := reach_le e
    have := listReach_le_nesting es
    rw [Expr.listToJson, nestingItems, Expr.listReach]
    omega

end

end Expr

/-! ## Statements -/

mutual

/-- How deep the encoding of a statement can get. A loop can become one whose body starts with a declaration of the
element, behind a declaration of the iterator. -/
def Stmt.reach : Stmt → Nat
  | .expr e => e.reach + 1
  | .assign _ target value => max target.reach value.reach + 2
  | .ifElse cond thenBody elseBody =>
    max (cond.reach + 2) (max (Stmt.listReach thenBody) (Stmt.listReach elseBody) + 3)
  | .forEach _ _ source body => max (max (source.reach + 6) 12) (Stmt.listReach body + 3)
  | .whileLoop cond body => max (cond.reach + 2) (Stmt.listReach body + 3)
  | .ret none => 1
  | .ret (some e) => e.reach + 1

def Stmt.listReach : List Stmt → Nat
  | [] => 0
  | s :: rest => max s.reach (Stmt.listReach rest)

end

namespace Stmt

theorem listReach_le {b : Block} {n : Nat} : listReach b ≤ n ↔ ∀ s ∈ b, s.reach ≤ n := by
  induction b with
  | nil => simp [listReach]
  | cons s b ih => rw [listReach, Nat.max_le, ih, List.forall_mem_cons]

theorem listReach_mono {b b' : Block} (h : b ⊆ b') : listReach b ≤ listReach b' :=
  listReach_le.2 fun s hs => listReach_le.1 (Nat.le_refl _) s (h hs)

@[simp] theorem listReach_append (b b' : Block) : listReach (b ++ b') = max (listReach b) (listReach b') := by
  induction b with
  | nil => simp [listReach]
  | cons s b ih => rw [List.cons_append, listReach, ih, listReach, Nat.max_assoc]

section Nesting

variable (e cond target value : Expr) (b b' : Block) (ty var : String)

@[simp] theorem nesting_expr : (expr e).toJson.nesting = e.toJson.nesting + 1 := by
  rw [toJson, nesting_tagged]

@[simp] theorem nesting_assign (ty : Option String) :
    (assign ty target value).toJson.nesting = max target.toJson.nesting value.toJson.nesting + 2 := by
  cases ty <;> simp [toJson, nesting_tagged, nesting_record, nestingItems, Json.option, text, nesting]

@[simp] theorem nesting_ifElse : (ifElse cond b b').toJson.nesting =
    max (cond.toJson.nesting + 2) (max (nestingItems (listToJson b)) (nestingItems (listToJson b')) + 3) := by
  simp [toJson, nesting_tagged, nesting_record, nestingItems, nesting]

@[simp] theorem nesting_forEach : (forEach ty var e b).toJson.nesting =
    max (e.toJson.nesting + 2) (nestingItems (listToJson b) + 3) := by
  simp [toJson, nesting_tagged, nesting_record, nestingItems, text, nesting]

@[simp] theorem nesting_whileLoop : (whileLoop cond b).toJson.nesting =
    max (cond.toJson.nesting + 2) (nestingItems (listToJson b) + 3) := by
  simp [toJson, nesting_tagged, nesting_record, nestingItems, nesting]

@[simp] theorem nesting_ret_none : (ret none).toJson.nesting = 1 := rfl

@[simp] theorem nesting_ret_some : (ret (some e)).toJson.nesting = e.toJson.nesting + 1 := by
  rw [toJson, nesting_tagged, Json.option]

end Nesting

mutual

theorem nesting_le_reach : ∀ s : Stmt, s.toJson.nesting ≤ s.reach
  | .expr e => by
    have := e.nesting_le_reach
    rw [nesting_expr, reach]
    omega
  | .assign ty target value => by
    have := target.nesting_le_reach
    have := value.nesting_le_reach
    rw [nesting_assign, reach]
    omega
  | .ifElse cond thenBody elseBody => by
    have := cond.nesting_le_reach
    have := nestingItems_le_listReach thenBody
    have := nestingItems_le_listReach elseBody
    rw [nesting_ifElse, reach]
    omega
  | .forEach ty var source body => by
    have := source.nesting_le_reach
    have := nestingItems_le_listReach body
    rw [nesting_forEach, reach]
    omega
  | .whileLoop cond body => by
    have := cond.nesting_le_reach
    have := nestingItems_le_listReach body
    rw [nesting_whileLoop, reach]
    omega
  | .ret none => Nat.le_refl 1
  | .ret (some e) => by
    have := e.nesting_le_reach
    rw [nesting_ret_some, reach]
    omega

theorem nestingItems_le_listReach : ∀ b : List Stmt, nestingItems (Stmt.listToJson b) ≤ Stmt.listReach b
  | [] => Nat.le_refl 0
  | s :: b => by
    have := nesting_le_reach s
    have := nestingItems_le_listReach b
    rw [Stmt.listToJson, nestingItems, Stmt.listReach]
    omega

end

mutual

/-- What a loop adds is added once, however deep the loop stands inside others. -/
theorem reach_le : ∀ s : Stmt, 3 * s.reach ≤ 4 * s.toJson.nesting + 24
  | .expr e => by
    have := e.reach_le
    rw [nesting_expr, reach]
    omega
  | .assign ty target value => by
    have := target.reach_le
    have := value.reach_le
    rw [nesting_assign, reach]
    omega
  | .ifElse cond thenBody elseBody => by
    have := cond.reach_le
    have := listReach_le_nesting thenBody
    have := listReach_le_nesting elseBody
    rw [nesting_ifElse, reach]
    omega
  | .forEach ty var source body => by
    have := source.reach_le
    have := listReach_le_nesting body
    rw [nesting_forEach, reach]
    omega
  | .whileLoop cond body => by
    have := cond.reach_le
    have := listReach_le_nesting body
    rw [nesting_whileLoop, reach]
    omega
  | .ret none => by decide
  | .ret (some e) => by
    have := e.reach_le
    rw [nesting_ret_some, reach]
    omega

theorem listReach_le_nesting : ∀ b : List Stmt, 3 * Stmt.listReach b ≤ 4 * nestingItems (Stmt.listToJson b) + 24
  | [] => by decide
  | s :: b => by
    have := reach_le s
    have := listReach_le_nesting b
    rw [Stmt.listToJson, nestingItems, Stmt.listReach]
    omega

end

end Stmt

end ObserverPattern
