import ObserverPattern.Syntax.Stmt

/-!
# Source text

How literals, expressions and statements are written as
source text. A statement takes a single line.

* An operand that is a binary operation or a cast stands in
  parentheses; no other parentheses are written.
* A string literal escapes the quote, the backslash, the line feed,
  the carriage return and the tabulator.
* An empty block is written as two braces with a blank between
  them, an empty else branch not at all.
-/

namespace ObserverPattern

def Literal.escape (c : Char) : List Char :=
  match c with
  | '"' => ['\\', '"']
  | '\\' => ['\\', '\\']
  | '\n' => ['\\', 'n']
  | '\r' => ['\\', 'r']
  | '\t' => ['\\', 't']
  | c => [c]

def Literal.chars : Literal → List Char
  | .null => "null".toList
  | .bool b => (if b then "true" else "false").toList
  | .int n => (toString n.toInt).toList
  | .str s => '"' :: (s.toList.flatMap Literal.escape ++ ['"'])

def Literal.source (l : Literal) : String := String.ofList l.chars

/-- Whether an expression needs parentheses as an operand. -/
def Expr.isCompound : Expr → Bool
  | .binary .. | .cast .. => true
  | _ => false

/-- The text of an operand: in parentheses if they are needed. -/
def Expr.inParens (compound : Bool) (text : List Char) : List Char :=
  if compound then '(' :: (text ++ [')']) else text

mutual

def Expr.chars : Expr → List Char
  | .literal l => l.chars
  | .id name => name.toList
  | .field receiver name => Expr.inParens receiver.isCompound receiver.chars ++ '.' :: name.toList
  | .call callee args => callee.chars ++ '(' :: (Expr.listChars args ++ [')'])
  | .new ty args => "new ".toList ++ ty.toList ++ '(' :: (Expr.listChars args ++ [')'])
  | .binary op left right =>
    Expr.inParens left.isCompound left.chars ++ ' ' :: (op.symbol.toList ++
      ' ' :: Expr.inParens right.isCompound right.chars)
  | .cast ty e => '(' :: (ty.toList ++ ')' :: ' ' :: Expr.inParens e.isCompound e.chars)
  | .placeholder name operands => '@' :: (name.toList ++ '(' :: (Expr.listChars operands ++ [')']))

def Expr.listChars : List Expr → List Char
  | [] => []
  | [e] => e.chars
  | e :: rest => e.chars ++ ',' :: ' ' :: Expr.listChars rest

end

def Expr.source (e : Expr) : String := String.ofList e.chars

def Stmt.inBraces (text : List Char) : List Char :=
  if text.isEmpty then ['\x7b', ' ', '\x7d'] else '\x7b' :: ' ' :: (text ++ [' ', '\x7d'])

mutual

def Stmt.chars : Stmt → List Char
  | .expr e => e.chars ++ [';']
  | .assign none target value => target.chars ++ ' ' :: '=' :: ' ' :: (value.chars ++ [';'])
  | .assign (some ty) target value =>
    ty.toList ++ ' ' :: (target.chars ++ ' ' :: '=' :: ' ' :: (value.chars ++ [';']))
  | .ifElse cond thenBody elseBody =>
    "if (".toList ++ cond.chars ++ ')' :: ' ' :: (Stmt.inBraces (Stmt.listChars thenBody) ++
      (if elseBody.isEmpty then [] else " else ".toList ++ Stmt.inBraces (Stmt.listChars elseBody)))
  | .forEach ty var source body =>
    "for (".toList ++ ty.toList ++ ' ' :: (var.toList ++ " : ".toList ++ source.chars ++
      ')' :: ' ' :: Stmt.inBraces (Stmt.listChars body))
  | .whileLoop cond body =>
    "while (".toList ++ cond.chars ++ ')' :: ' ' :: Stmt.inBraces (Stmt.listChars body)
  | .ret none => "return;".toList
  | .ret (some e) => "return ".toList ++ e.chars ++ [';']

def Stmt.listChars : List Stmt → List Char
  | [] => []
  | [s] => s.chars
  | s :: rest => s.chars ++ ' ' :: Stmt.listChars rest

end

def Stmt.source (s : Stmt) : String := String.ofList s.chars

end ObserverPattern
