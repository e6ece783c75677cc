import ObserverPattern.Proofs.Json.Typed
import ObserverPattern.Proofs.Json.Writing
import ObserverPattern.Syntax.Encoding

/-!
# Code survives its encoding

Expressions and statements are read back from the values that encode them (`Expr.read_toJson`, `Stmt.read_toJson`),
and these values are plain.
-/

namespace ObserverPattern

open Json

theorem Operator.read_toJson (op : Operator) : ReadsBack Operator.read op.toJson op := by
  intro depth
  cases op <;> simp [toJson, tag, text, nesting, Operator.read, constant?, all]

theorem Literal.read_toJson (l : Literal) : ReadsBack Literal.read l.toJson l := by
  cases l with
  | null =>
    intro depth
    simp [toJson, text, nesting, Literal.read, constant?]
  | bool b =>
    refine .of_tagged rfl fun depth => ?_
    have hconstant := constant?_tagged "Bool" (v := .bool b) (by simp) (depth + 1)
    simp [Literal.read, hconstant, readBool_bool b depth]
  | int n =>
    refine .of_tagged rfl fun depth => ?_
    have hconstant := constant?_tagged "Int" (v := .int n.toInt) (by simp [Json.int]) (depth + 1)
    simp [Literal.read, hconstant, readInt64_int n depth]
  | str s =>
    refine .of_tagged rfl fun depth => ?_
    have hconstant := constant?_tagged "Str" (v := .text s) (by simp [text]) (depth + 1)
    simp [Literal.read, hconstant, readString_text s depth]

/-! ## Expressions -/

theorem Expr.listToJson_eq (es : List Expr) : Expr.listToJson es = es.map Expr.toJson := by
  induction es with
  | nil => rfl
  | cons e es ih => rw [listToJson, ih, List.map_cons]

private theorem Expr.readExprs_eq : Expr.read.readExprs = readList Expr.read := by
  funext depth v
  cases depth with
  | zero => rfl
  | succ depth => cases v <;> rfl

private theorem Expr.readExprs_listToJson {es : List Expr} (h : ∀ e ∈ es, ReadsBack Expr.read e.toJson e) :
    ReadsBack Expr.read.readExprs (.array (Expr.listToJson es)) es := by
  rw [Expr.readExprs_eq, Expr.listToJson_eq]
  exact readList_array h

mutual

/-- An expression is read back from the value that encodes it. -/
theorem Expr.read_toJson : ∀ e : Expr, ReadsBack Expr.read e.toJson e
  | .literal l => by
    refine .of_tagged rfl fun depth => ?_
    simp [Expr.read, Literal.read_toJson l depth]
  | .id name => by
    refine .of_tagged rfl fun depth => ?_
    simp [Expr.read, readString_text name depth]
  | .field receiver name => by
    refine .of_tagged_record rfl (by simp [Expr.read]) fun depth => ?_
    have hreceiver := Expr.read_toJson receiver depth
    simp [Expr.read, fields?_record, ite_and, hreceiver, readString_text name depth]
  | .call callee args => by
    refine .of_tagged_record rfl (by simp [Expr.read]) fun depth => ?_
    have hcallee := Expr.read_toJson callee depth
    have hargs := Expr.readExprs_listToJson (Expr.read_mem_toJson args) depth
    simp [Expr.read, fields?_record, ite_and, hcallee, hargs]
  | .new ty args => by
    refine .of_tagged_record rfl (by simp [Expr.read]) fun depth => ?_
    have hargs := Expr.readExprs_listToJson (Expr.read_mem_toJson args) depth
    simp [Expr.read, fields?_record, ite_and, hargs, readString_text ty depth]
  | .binary op left right => by
    refine .of_tagged_record rfl (by simp [Expr.read]) fun depth => ?_
    have hleft := Expr.read_toJson left depth
    have hright := Expr.read_toJson right depth
    simp [Expr.read, fields?_record, ite_and, hleft, hright, Operator.read_toJson op depth]
  | .cast ty e => by
    refine .of_tagged_record rfl (by simp [Expr.read]) fun depth => ?_
    have he := Expr.read_toJson e depth
    simp [Expr.read, fields?_record, ite_and, he, readString_text ty depth]
  | .placeholder name operands => by
    refine .of_tagged_record rfl (by simp [Expr.read]) fun depth => ?_
    have hoperands := Expr.readExprs_listToJson (Expr.read_mem_toJson operands) depth
    simp [Expr.read, fields?_record, ite_and, hoperands, readString_text name depth]

private theorem Expr.read_mem_toJson : ∀ es : List Expr, ∀ e ∈ es, ReadsBack Expr.read e.toJson e
  | [], _, he => by cases he
  | e :: es, x, hx => by
    rcases List.mem_cons.1 hx with hxe | hx
    · exact hxe ▸ Expr.read_toJson e
    · exact Expr.read_mem_toJson es x hx

end

mutual

theorem Expr.plain_toJson : ∀ e : Expr, e.toJson.Plain
  | .literal l => by cases l <;> simp [toJson, Literal.toJson]
  | .id name => by simp [toJson]
  | .field receiver name => by simp [toJson, plain_toJson receiver]
  | .call callee args => by simp [toJson, plain_toJson callee, Expr.plain_listToJson args]
  | .new ty args => by simp [toJson, Expr.plain_listToJson args]
  | .binary op left right => by simp [toJson, Operator.toJson, plain_toJson left, plain_toJson right]
  | .cast ty e => by simp [toJson, plain_toJson e]
  | .placeholder name operands => by simp [toJson, Expr.plain_listToJson operands]

private theorem Expr.plain_listToJson : ∀ es : List Expr, PlainItems (Expr.listToJson es)
  | [] => trivial
  | e :: es => ⟨e.plain_toJson, Expr.plain_listToJson es⟩

end

theorem Expr.toJson_ne_null (e : Expr) : e.toJson ≠ .null := by
  cases e <;> simp [toJson, tagged, record]

/-! ## Statements -/

theorem Stmt.listToJson_eq (b : Block) : Stmt.listToJson b = b.map Stmt.toJson := by
  induction b with
  | nil => rfl
  | cons s b ih => rw [listToJson, ih, List.map_cons]

private theorem Stmt.readStmts_eq : Stmt.read.readStmts = readList Stmt.read := by
  funext depth v
  cases depth with
  | zero => rfl
  | succ depth => cases v <;> rfl

private theorem Stmt.readStmts_listToJson {b : Block} (h : ∀ s ∈ b, ReadsBack Stmt.read s.toJson s) :
    ReadsBack Stmt.read.readStmts (.array (Stmt.listToJson b)) b := by
  rw [Stmt.readStmts_eq, Stmt.listToJson_eq]
  exact readList_array h

mutual

/-- A statement is read back from the value that encodes it. -/
theorem Stmt.read_toJson : ∀ s : Stmt, ReadsBack Stmt.read s.toJson s
  | .expr e => by
    refine .of_tagged rfl fun depth => ?_
    simp [Stmt.read, Expr.read_toJson e depth]
  | .assign ty target value => by
    refine .of_tagged_record rfl (by simp [Stmt.read]) fun depth => ?_
    have hty := readOption_text ty depth
    have htarget := Expr.read_toJson target depth
    have hvalue := Expr.read_toJson value depth
    simp [Stmt.read, slots?_record, ite_and, hty, htarget, hvalue]
  | .ifElse cond thenBody elseBody => by
    refine .of_tagged_record rfl (by simp [Stmt.read]) fun depth => ?_
    have hcond := Expr.read_toJson cond depth
    have hthen := Stmt.readStmts_listToJson (Stmt.read_mem_toJson thenBody) depth
    have helse := Stmt.readStmts_listToJson (Stmt.read_mem_toJson elseBody) depth
    simp [Stmt.read, fields?_record, ite_and, hcond, hthen, helse]
  | .forEach ty var source body => by
    refine .of_tagged_record rfl (by simp [Stmt.read]) fun depth => ?_
    have hsource := Expr.read_toJson source depth
    have hbody := Stmt.readStmts_listToJson (Stmt.read_mem_toJson body) depth
    simp [Stmt.read, fields?_record, ite_and, hsource, hbody,
      readString_text ty depth, readString_text var depth]
  | .whileLoop cond body => by
    refine .of_tagged_record rfl (by simp [Stmt.read]) fun depth => ?_
    have hcond := Expr.read_toJson cond depth
    have hbody := Stmt.readStmts_listToJson (Stmt.read_mem_toJson body) depth
    simp [Stmt.read, fields?_record, ite_and, hcond, hbody]
  | .ret value => by
    refine .of_tagged rfl fun depth => ?_
    have hvalue := readOption_option (fun e _ => e.toJson_ne_null) (fun e (_ : e ∈ value) => Expr.read_toJson e) depth
    simp [Stmt.read, hvalue]

private theorem Stmt.read_mem_toJson : ∀ b : List Stmt, ∀ s ∈ b, ReadsBack Stmt.read s.toJson s
  | [], _, hs => by cases hs
  | s :: b, x, hx => by
    rcases List.mem_cons.1 hx with hxs | hx
    · exact hxs ▸ Stmt.read_toJson s
    · exact Stmt.read_mem_toJson b x hx

end

mutual

theorem Stmt.plain_toJson : ∀ s : Stmt, s.toJson.Plain
  | .expr e => by simp [toJson, e.plain_toJson]
  | .assign ty target value => by simp [toJson, target.plain_toJson, value.plain_toJson]
  | .ifElse cond thenBody elseBody => by
    simp [toJson, cond.plain_toJson, Stmt.plain_listToJson thenBody, Stmt.plain_listToJson elseBody]
  | .forEach ty var source body => by simp [toJson, source.plain_toJson, Stmt.plain_listToJson body]
  | .whileLoop cond body => by simp [toJson, cond.plain_toJson, Stmt.plain_listToJson body]
  | .ret value => by
    have hvalue := plain_option (a := value) fun e _ => e.plain_toJson
    simp [toJson, hvalue]

private theorem Stmt.plain_listToJson : ∀ b : List Stmt, PlainItems (Stmt.listToJson b)
  | [] => trivial
  | s :: b => ⟨s.plain_toJson, Stmt.plain_listToJson b⟩

end

end ObserverPattern
