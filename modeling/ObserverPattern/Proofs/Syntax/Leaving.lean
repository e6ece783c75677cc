import ObserverPattern.Proofs.Text.Gaps
import ObserverPattern.Syntax.Source
import ObserverPattern.Text.Substring

/-!
# What is left of source text

A traversal may put other text in the place of some of the source. What is left is a text with gaps
(`Leaving.expr`, `Leaving.stmt`): one for each statement that takes the place of a statement.

* Renamed names, the dispatchers in types, and calls and placeholders that are resolved leave gaps.
* A branch on a truth value leaves what the statements that are taken leave, and a loop that gets an iterator leaves
  the declaration of the iterator and a loop.
* A dispatch leaves its receiver and the arguments that are not null.

What is filled is put together from what its parts fill (`fills_operand`, `fills_braces`, `fills_iteratorLoop`), and a
text that is left of every statement stands in every statement (`FillStmts.occursIn`).
-/

namespace ObserverPattern

open Text

def Expr.isCall : Expr → Bool
  | .call _ _ => true
  | _ => false

/-- How a traversal treats the parts of source text. -/
structure Leaving where
  /-- What is left of a name. -/
  name : String → Gapped
  /-- What is left of the type of a cast or of a declaration. -/
  type : String → Gapped
  /-- What an expression becomes. -/
  image : Expr → Expr
  /-- Whether an expression that stands as a statement is dispatched, given what it becomes. -/
  dispatches : Expr → Bool
  /-- The truth value that a branch is decided by, given what its condition becomes. -/
  verdict : Expr → Option Bool
  /-- The iterator that a loop gets, given what its source becomes. -/
  iterator : Expr → Option String

namespace Leaving

variable (t : Leaving)

/-- Parentheses around what is left of an operand, if they are needed. -/
def operand (e : Expr) (left : Gapped) : Gapped :=
  if (t.image e).isCompound then whole ['('] ++ (left ++ whole [')']) else left

def commas (left : List Gapped) : Gapped := (whole [',', ' ']).intercalate left

def braces (left : List Gapped) : Gapped :=
  if left.isEmpty then whole ['\x7b', ' ', '\x7d']
  else whole ['\x7b', ' '] ++ ((whole [' ']).intercalate left ++ whole [' ', '\x7d'])

mutual

/-- What is left of an expression. -/
def expr : Expr → Gapped
  | .literal l => whole l.chars
  | .id name => t.name name
  | .field receiver name => t.operand receiver (expr receiver) ++ (whole ['.'] ++ t.name name)
  | .call callee args =>
    if (t.image (.call callee args)).isCall then
      expr callee ++ (whole ['('] ++ (commas (exprs args) ++ whole [')']))
    else [none]
  | .new ty args => whole ("new ".toList ++ ty.toList) ++ (whole ['('] ++ (commas (exprs args) ++ whole [')']))
  | .binary op left right =>
    t.operand left (expr left) ++ (whole [' '] ++ (whole op.symbol.toList ++
      (whole [' '] ++ t.operand right (expr right))))
  | .cast ty e => whole ['('] ++ (t.type ty ++ (whole [')', ' '] ++ t.operand e (expr e)))
  | .placeholder name operands =>
    if name = "CompareString" ∨ name = "Compare" then none :: (exprs operands).flatMap (· ++ [none])
    else whole ('@' :: name.toList) ++ (whole ['('] ++ (commas (exprs operands) ++ whole [')']))

def exprs : List Expr → List Gapped
  | [] => []
  | e :: rest => expr e :: exprs rest

end

/-- What is left of a dispatch. -/
def dispatch : Expr → Gapped
  | .call _ (_ :: receiver :: args) =>
    t.operand receiver (t.expr receiver) ++ (whole ['.'] ++ none :: (whole ['('] ++
      (commas ((args.filter fun arg => !arg.isNull).map t.expr) ++ whole [')'])))
  | _ => [none]

/-- The declaration of the iterator of a loop. -/
def iteratorDeclaration (iterator : String) (source : Expr) : Gapped :=
  whole ("Iterator ".toList ++ iterator.toList ++ " = ".toList) ++
    (t.operand source (t.expr source) ++ (whole ['.'] ++ none :: whole "();".toList))

/-- A loop with an iterator, which declares its variable at the start of its body. -/
def iteratorLoop (iterator ty var : String) (body : List Gapped) : Gapped :=
  whole ("while (".toList ++ iterator.toList ++ ".hasNext()) ".toList) ++
    braces (whole (ty.toList ++ ' ' :: (var.toList ++ " = (".toList ++ ty.toList ++ ") ".toList ++ iterator.toList ++
      ".next();".toList)) :: body)

mutual

/-- What is left of a statement: a text for each statement that takes its place. -/
def stmt : Stmt → List Gapped
  | .expr e => [if t.dispatches (t.image e) then t.dispatch e ++ whole [';'] else t.expr e ++ whole [';']]
  | .assign none target value => [t.expr target ++ (whole " = ".toList ++ (t.expr value ++ whole [';']))]
  | .assign (some ty) target value =>
    [t.type ty ++ (whole [' '] ++ (t.expr target ++ (whole " = ".toList ++ (t.expr value ++ whole [';']))))]
  | .ifElse cond thenBody elseBody =>
    match t.verdict (t.image cond) with
    | some true => block thenBody
    | some false => block elseBody
    | none =>
      [whole "if (".toList ++ t.expr cond ++ (whole ") ".toList ++ (braces (block thenBody) ++
        if (block elseBody).isEmpty then [] else whole " else ".toList ++ braces (block elseBody)))]
  | .forEach ty var source body =>
    match t.iterator (t.image source) with
    | none =>
      [whole ("for (".toList ++ ty.toList) ++ (whole [' '] ++ (whole (var.toList ++ " : ".toList) ++ t.expr source ++
        (whole ") ".toList ++ braces (block body))))]
    | some iterator => [t.iteratorDeclaration iterator source, iteratorLoop iterator ty var (block body)]
  | .whileLoop cond body => [whole "while (".toList ++ (t.expr cond ++ (whole ") ".toList ++ braces (block body)))]
  | .ret none => [whole "return;".toList]
  | .ret (some e) => [whole "return ".toList ++ (t.expr e ++ whole [';'])]

/-- What is left of a block. -/
def block : List Stmt → List Gapped
  | [] => []
  | s :: rest => stmt s ++ block rest

end

end Leaving

/-! ## Filling what is left -/

theorem Expr.listChars_eq_intercalate (es : List Expr) : listChars es = [',', ' '].intercalate (es.map chars) := by
  induction es with
  | nil => rfl
  | cons e es ih =>
    cases es with
    | nil => simp [listChars]
    | cons e' es =>
      rw [listChars, ih, List.map_cons, List.map_cons, List.map_cons, List.intercalate_cons_cons, List.append_assoc]
      · rfl
      · simp

theorem Stmt.listChars_eq_intercalate (b : Block) : listChars b = [' '].intercalate (b.map chars) := by
  induction b with
  | nil => rfl
  | cons s b ih =>
    cases b with
    | nil => simp [listChars]
    | cons s' b =>
      rw [listChars, ih, List.map_cons, List.map_cons, List.map_cons, List.intercalate_cons_cons, List.append_assoc]
      · rfl
      · simp

theorem Stmt.chars_declare (ty name : String) (value : Expr) : (declare ty name value).chars =
    ty.toList ++ ' ' :: (name.toList ++ ' ' :: '=' :: ' ' :: (value.chars ++ [';'])) :=
  rfl

theorem Stmt.chars_whileLoop (cond : Expr) (body : Block) :
    (whileLoop cond body).chars = "while (".toList ++ cond.chars ++ ')' :: ' ' :: inBraces (listChars body) :=
  rfl

theorem Stmt.chars_ne_nil (s : Stmt) : s.chars ≠ [] := by
  have hrest : ∀ {text rest : List Char}, rest ≠ [] → text ++ rest ≠ [] :=
    fun h => List.append_ne_nil_of_right_ne_nil _ h
  cases s with
  | expr e => exact hrest (List.cons_ne_nil _ _)
  | assign ty target value => cases ty <;> exact hrest (List.cons_ne_nil _ _)
  | ifElse cond thenBody elseBody => exact hrest (List.cons_ne_nil _ _)
  | forEach ty var source body => exact hrest (List.cons_ne_nil _ _)
  | whileLoop cond body => exact hrest (List.cons_ne_nil _ _)
  | ret value =>
    cases value with
    | none => exact (by decide : "return;".toList ≠ [])
    | some e => exact hrest (List.cons_ne_nil _ _)

private theorem Stmt.listChars_cons_ne_nil (s : Stmt) (b : Block) : listChars (s :: b) ≠ [] := by
  cases b with
  | nil => simpa [listChars] using s.chars_ne_nil
  | cons s' b => simp [listChars]

/-- Statements that have texts which fill given texts with gaps, one by one. -/
def FillStmts (left : List Gapped) (b : Block) : Prop := List.Forall₂ (fun g s => Fills g s.chars) left b

/-- Expressions that fill given texts in the same way. -/
def FillExprs (left : List Gapped) (es : List Expr) : Prop := List.Forall₂ (fun g e => Fills g e.chars) left es

variable {t : Leaving} {left : List Gapped} {g : Gapped}

theorem FillStmts.isEmpty_eq {b : Block} (h : FillStmts left b) : left.isEmpty = b.isEmpty := by
  cases h <;> rfl

/-- A text that is left of every statement stands in every statement. -/
theorem FillStmts.occursIn {b : Block} {x : String} (h : FillStmts left b)
    (hleft : ∀ g ∈ left, whole x.toList <:+: g) :
    ∀ s ∈ b, Text.occursIn x s.source = true := by
  induction h with
  | nil => simp
  | @cons g s left b hs _ ih =>
    rw [List.forall_mem_cons] at hleft ⊢
    have hchars : x.toList <:+: s.chars := hs.infix hleft.1
    rw [Text.occursIn, Stmt.source, String.toList_ofList]
    exact ⟨occurs_iff.2 hchars, ih hleft.2⟩

theorem fills_commas {es : List Expr} (h : FillExprs left es) : Fills (Leaving.commas left) (Expr.listChars es) := by
  rw [Expr.listChars_eq_intercalate]
  exact Fills.intercalate (List.forall₂_map_right_iff.2 h) [',', ' ']

theorem fills_operand {e e' : Expr} (himage : t.image e = e') (h : Fills g e'.chars) :
    Fills (t.operand e g) (Expr.inParens e'.isCompound e'.chars) := by
  rw [Leaving.operand, himage, Expr.inParens]
  split
  · exact .char '(' (h.append (fills_whole [')']))
  · exact h

private theorem inParens_eq (compound : Bool) (s : List Char) :
    ∃ before behind, Expr.inParens compound s = before ++ (s ++ behind) := by
  cases compound with
  | false => exact ⟨[], [], (List.append_nil s).symm⟩
  | true => exact ⟨['('], [')'], rfl⟩

/-- What is left of the operands of a placeholder that is resolved. -/
theorem fills_resolved {left right : Expr} {gs : List Gapped} (h : FillExprs gs [left, right])
    (compound compound' : Bool) (between behind : List Char) : Fills (none :: gs.flatMap (· ++ [none]))
      (Expr.inParens compound left.chars ++ (between ++ (Expr.inParens compound' right.chars ++ behind))) := by
  obtain ⟨a, b, hleft⟩ := inParens_eq compound left.chars
  obtain ⟨a', b', hright⟩ := inParens_eq compound' right.chars
  cases h with
  | cons hg h =>
    cases h with
    | @cons g' _ _ _ hg' h =>
      cases h
      have hbehind := hg'.append (fills_gap (b' ++ behind))
      have hfills := Fills.gap a (hg.append (.gap (b ++ (between ++ a')) hbehind))
      rw [hleft, hright]
      simpa [List.append_assoc] using hfills

theorem fills_braces {b : Block} (h : FillStmts left b) :
    Fills (Leaving.braces left) (Stmt.inBraces (Stmt.listChars b)) := by
  cases h with
  | nil => exact fills_whole _
  | @cons g s left b hs hb =>
    rw [Leaving.braces, Stmt.inBraces, if_neg (by simp), if_neg (by simpa using Stmt.listChars_cons_ne_nil s b),
      Stmt.listChars_eq_intercalate]
    have hfills := Fills.intercalate (List.forall₂_map_right_iff.2 (List.Forall₂.cons hs hb)) [' ']
    exact (fills_whole ['\x7b', ' ']).append (hfills.append (fills_whole [' ', '\x7d']))

theorem fills_iteratorDeclaration {source source' : Expr} (himage : t.image source = source')
    (h : Fills (t.expr source) source'.chars) (iterator method : String) :
    Fills (t.iteratorDeclaration iterator source)
      (Stmt.declare "Iterator" iterator (.methodCall source' method [])).chars := by
  have hchars : (Stmt.declare "Iterator" iterator (.methodCall source' method [])).chars =
      ("Iterator ".toList ++ iterator.toList ++ " = ".toList) ++
        (Expr.inParens source'.isCompound source'.chars ++ '.' :: (method.toList ++ "();".toList)) := by
    simp [Stmt.chars_declare, Expr.methodCall, Expr.chars, Expr.listChars]
  have hcall := (fills_operand himage h).append (.char '.' (.gap method.toList (fills_whole "();".toList)))
  rw [hchars]
  exact (fills_whole _).append hcall

theorem fills_iteratorLoop {body : Block} (h : FillStmts left body) (iterator ty var : String) :
    Fills (Leaving.iteratorLoop iterator ty var left)
      (Stmt.whileLoop (.methodCall (.id iterator) "hasNext" [])
        (.declare ty var (.cast ty (.methodCall (.id iterator) "next" [])) :: body)).chars := by
  have hnext : (Stmt.declare ty var (.cast ty (.methodCall (.id iterator) "next" []))).chars =
      ty.toList ++ ' ' :: (var.toList ++ " = (".toList ++ ty.toList ++ ") ".toList ++ iterator.toList ++
        ".next();".toList) := by
    simp [Stmt.chars_declare, Expr.methodCall, Expr.chars, Expr.listChars, Expr.isCompound, Expr.inParens]
  have hloop : ∀ inner : Block, (Stmt.whileLoop (.methodCall (.id iterator) "hasNext" []) inner).chars =
      ("while (".toList ++ iterator.toList ++ ".hasNext()) ".toList) ++ Stmt.inBraces (Stmt.listChars inner) := by
    simp [Stmt.chars_whileLoop, Expr.methodCall, Expr.chars, Expr.listChars, Expr.isCompound, Expr.inParens]
  rw [hloop]
  exact (fills_whole _).append (fills_braces (.cons (hnext ▸ fills_whole _) h))

end ObserverPattern
