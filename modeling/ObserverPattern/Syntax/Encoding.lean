import ObserverPattern.Json.Reading
import ObserverPattern.Syntax.Stmt

/-!
# Expressions and statements as JSON

Each alternative of an operator, literal, expression or statement is named by its tag: `toJson`
writes a value and `read` reads it back. An alternative with several parts holds a record of them.
-/

namespace ObserverPattern

open Json

/-! ## Operators and literals -/

def Operator.tag : Operator → String
  | .lt => "Lt"
  | .le => "Le"
  | .eq => "Eq"
  | .ne => "Ne"
  | .ge => "Ge"
  | .gt => "Gt"
  | .and => "And"
  | .or => "Or"
  | .add => "Add"
  | .sub => "Sub"

def Operator.toJson (op : Operator) : Json := .text op.tag

def Operator.read : Reader Operator := fun depth v => do
  let tag ← constant? depth v
  Operator.all.find? (·.tag == tag)

def Literal.toJson : Literal → Json
  | .null => .text "Null"
  | .bool b => .tagged "Bool" (.bool b)
  | .int n => .tagged "Int" (.int n.toInt)
  | .str s => .tagged "Str" (.text s)

def Literal.read : Reader Literal := fun depth v =>
  if constant? depth v = some "Null" then some .null
  else
    match depth, variant? v with
    | depth + 1, some ("Bool", v) => (readBool depth v).map .bool
    | depth + 1, some ("Int", v) => (readInt64 depth v).map .int
    | depth + 1, some ("Str", v) => (readString depth v).map .str
    | _, _ => none

/-! ## Expressions -/

mutual

def Expr.toJson : Expr → Json
  | .literal l => .tagged "Literal" l.toJson
  | .id name => .tagged "Id" (.text name)
  | .field receiver name => .tagged "Field" (.record [("recv", receiver.toJson), ("name", .text name)])
  | .call callee args =>
    .tagged "Call" (.record [("callee", callee.toJson), ("args", .array (Expr.listToJson args))])
  | .new ty args => .tagged "New" (.record [("ty", .text ty), ("args", .array (Expr.listToJson args))])
  | .binary op left right =>
    .tagged "Binary" (.record [("op", op.toJson), ("left", left.toJson), ("right", right.toJson)])
  | .cast ty e => .tagged "Cast" (.record [("ty", .text ty), ("expr", e.toJson)])
  | .placeholder name operands =>
    .tagged "Anno" (.record [("name", .text name), ("exps", .array (Expr.listToJson operands))])

def Expr.listToJson : List Expr → List Json
  | [] => []
  | e :: rest => e.toJson :: Expr.listToJson rest

end

def Expr.read : Reader Expr
  | 0, _ => none
  | outer + 1, v => do
    let (tag, v) ← variant? v
    match tag with
    | "Literal" => (Literal.read outer v).map .literal
    | "Id" => (readString outer v).map .id
    | _ =>
      match outer with
      | 0 => none
      | depth + 1 =>
        match tag with
        | "Field" => do
          let [receiver, name] ← fields? ["recv", "name"] v | none
          some (.field (← Expr.read depth receiver) (← readString depth name))
        | "Call" => do
          let [callee, args] ← fields? ["callee", "args"] v | none
          some (.call (← Expr.read depth callee) (← readExprs depth args))
        | "New" => do
          let [ty, args] ← fields? ["ty", "args"] v | none
          some (.new (← readString depth ty) (← readExprs depth args))
        | "Binary" => do
          let [op, left, right] ← fields? ["op", "left", "right"] v | none
          some (.binary (← Operator.read depth op) (← Expr.read depth left) (← Expr.read depth right))
        | "Cast" => do
          let [ty, e] ← fields? ["ty", "expr"] v | none
          some (.cast (← readString depth ty) (← Expr.read depth e))
        | "Anno" => do
          let [name, operands] ← fields? ["name", "exps"] v | none
          some (.placeholder (← readString depth name) (← readExprs depth operands))
        | _ => none
where
  readExprs : Reader (List Expr)
    | depth + 1, .array items => items.mapM (Expr.read depth)
    | _, _ => none

/-! ## Statements -/

mutual

def Stmt.toJson : Stmt → Json
  | .expr e => .tagged "Expr" e.toJson
  | .assign ty target value =>
    .tagged "Assign" (.record [("ty", .option .text ty), ("lhs", target.toJson), ("rhs", value.toJson)])
  | .ifElse cond thenBody elseBody =>
    .tagged "If" (.record [("cond", cond.toJson), ("then_branch", .array (Stmt.listToJson thenBody)),
      ("else_branch", .array (Stmt.listToJson elseBody))])
  | .forEach ty var source body =>
    .tagged "For" (.record [("ty", .text ty), ("var", .text var), ("iter", source.toJson),
      ("body", .array (Stmt.listToJson body))])
  | .whileLoop cond body =>
    .tagged "While" (.record [("cond", cond.toJson), ("body", .array (Stmt.listToJson body))])
  | .ret value => .tagged "Return" (.option Expr.toJson value)

def Stmt.listToJson : List Stmt → List Json
  | [] => []
  | s :: rest => s.toJson :: Stmt.listToJson rest

end

def Stmt.read : Reader Stmt
  | 0, _ => none
  | outer + 1, v => do
    let (tag, v) ← variant? v
    match tag with
    | "Expr" => (Expr.read outer v).map .expr
    | "Return" => (readOption Expr.read outer v).map .ret
    | _ =>
      match outer with
      | 0 => none
      | depth + 1 =>
        match tag with
        | "Assign" => do
          let [some ty, some target, some value] ←
            slots? [("ty", .null), ("lhs", .refused), ("rhs", .refused)] v | none
          some (.assign (← readOption readString depth ty) (← Expr.read depth target)
            (← Expr.read depth value))
        | "If" => do
          let [cond, thenBody, elseBody] ← fields? ["cond", "then_branch", "else_branch"] v | none
          some (.ifElse (← Expr.read depth cond) (← readStmts depth thenBody)
            (← readStmts depth elseBody))
        | "For" => do
          let [ty, var, source, body] ← fields? ["ty", "var", "iter", "body"] v | none
          some (.forEach (← readString depth ty) (← readString depth var) (← Expr.read depth source)
            (← readStmts depth body))
        | "While" => do
          let [cond, body] ← fields? ["cond", "body"] v | none
          some (.whileLoop (← Expr.read depth cond) (← readStmts depth body))
        | _ => none
where
  readStmts : Reader (List Stmt)
    | depth + 1, .array items => items.mapM (Stmt.read depth)
    | _, _ => none

end ObserverPattern
