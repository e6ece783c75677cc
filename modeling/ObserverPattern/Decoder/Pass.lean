import ObserverPattern.Decoder.Basic
import ObserverPattern.Program.Source
import ObserverPattern.Text.Reference
import ObserverPattern.Walk.Pass

/-!
# The decoding pass

What the decoder does at each node of the classes that remain.

* Names: a type that mentions a decoded dispatcher names its subject instead, and so does a variable
  or member that is called after the dispatcher in lower case.
* Placeholders: `@Compare` becomes the operator that the trace tells, `@CompareString`
  a call of `equals`, a call of `subcls` the answer of the class hierarchy, and
  reflective dispatch a call of the handle method.
* Statements: a branch whose condition is a truth value is replaced by the statements that are
  taken, and a loop over the collection of the class by a loop with an iterator. Temporary
  statements of constructors are dropped, as is the call of the subject at the start of a method.
-/

namespace ObserverPattern.Decoder

variable (d : Decoder)

/-! ## Names -/

def isMarked (name : String) : Bool := Text.occursIn d.conventions.auxMarker name

def startsMarked (name : String) : Bool := Text.startsWith name d.conventions.auxMarker

def boundSubject (r : Registry) (aux : String) : Except DecodeFault ClassDecl :=
  match d.resolved.get? aux with
  | some p => r.getClass p.subject
  | none => .error (.unknownAux aux)

/-- A type with the longest dispatcher it mentions replaced by the subject. -/
def concreteType (r : Registry) (ty : String) : Except DecodeFault String :=
  match d.auxNames.find? (Text.hasWord · ty) with
  | none => .error (.unknownAux ty)
  | some aux => do
    let subject ← d.boundSubject r aux
    return Text.renameWord aux subject.name ty

/-- The name of a variable or member: the subject in lower case if
it contains the marker in lower case. -/
def concreteName (r : Registry) (name : String) : Except DecodeFault String :=
  if Text.occursIn d.conventions.lowerMarker name then
    match d.auxNames.find? fun aux => Text.occursIn (Text.lower aux) name with
    | none => .error (.unknownAux name)
    | some aux => do
      let subject ← d.boundSubject r aux
      return Text.lower subject.name
  else .ok name

/-! ## Fields and methods -/

/-- A field that has a dispatcher as its type and is called
after it becomes a field of the subject. -/
def onField (p : Position) (f : Field) : Except DecodeFault (List Field) :=
  if d.isMarked f.ty && f.name == Text.lower f.ty then do
    let subject ← d.boundSubject p.registry f.ty
    return [{ f with ty := subject.name, name := Text.lower subject.name }]
  else .ok [f]

def callsSubject : Stmt → Bool
  | .expr e =>
    match e.methodCall? with
    | some (.id receiver, method, _) => method == "subjectCall" && d.startsMarked receiver
    | _ => false
  | _ => false

/-- Drops the temporary statements of a constructor, and the call of the
subject at the start of another method. -/
def onMethod (p : Position) (body : Block) : Except DecodeFault Block :=
  match p.method, body with
  | some id, first :: rest => do
    let m ← p.registry.getMethod id
    if m.isInit then
      return (first :: rest).filter fun s => !Text.occursIn d.conventions.tmpMarker s.source
    else return if d.callsSubject first then rest else first :: rest
  | _, _ => .ok body

/-! ## Statements -/

def reflected? : Expr → Option String
  | .field (.id aux) method => if method = "reflect" ∧ d.startsMarked aux then some aux else none
  | _ => none

/-- `<aux>.reflect(handle_<aux>, receiver, args…)` becomes
`receiver.<handle>(args…)`, without null arguments. -/
def resolveDispatch (p : Position) (e : Expr) : Except DecodeFault Expr :=
  match e with
  | .call callee (target :: receiver :: args) =>
    match d.reflected? callee with
    | none => .ok e
    | some aux =>
      if target.lastName? = some (Role.handle.hole aux) then do
        let handle ← Participants.chooseMethod p.registry d.bindings aux .handle
        let name ← p.registry.methodName handle
        return .methodCall receiver name (args.filter fun arg => !arg.isNull)
      else .ok e
  | _ => .ok e

/-- Whether a loop goes over the collection of the class. -/
def walksCollection (p : Position) (source : Expr) : Except DecodeFault Bool := do
  let owner ← p.registry.getClass p.owner
  return owner.collection.isSome && source.lastName? == owner.collection

def directionAt (p : Position) : Except DecodeFault Direction :=
  match p.method with
  | none => .ok .forward
  | some id => do
    let key ← p.registry.signature id
    return (d.facts.direction? key).getD .forward

def iteratorMethod : Direction → String
  | .forward => "iterator"
  | .reverse => "descendingIterator"

/-- The loop over a collection with an iterator. -/
def loopWithIterator (direction : Direction) (ty var : String) (source : Expr) (body : Block) : Block :=
  let iterator := "iter_" ++ source.lastName?.getD ""
  let next : Expr := .cast ty (.methodCall (.id iterator) "next" [])
  [.declare "Iterator" iterator (.methodCall source (iteratorMethod direction) []),
    .whileLoop (.methodCall (.id iterator) "hasNext" []) (.declare ty var next :: body)]

def onStmt (p : Position) (s : Stmt) : Except DecodeFault Block :=
  match s with
  | .expr e => do
    let e ← d.resolveDispatch p e
    return [.expr e]
  | .assign (some ty) target value =>
    if d.isMarked ty then do
      let ty ← d.concreteType p.registry ty
      return [.assign (some ty) target value]
    else .ok [s]
  | .ifElse cond thenBody elseBody =>
    if cond.source = "false" then .ok elseBody
    else if cond.source = "true" then .ok thenBody
    else .ok [s]
  | .forEach ty var source body => do
    if ← walksCollection p source then
      let direction ← d.directionAt p
      return loopWithIterator direction ty var source body
    else return [s]
  | _ => .ok [s]

/-! ## Expressions -/

def twoOperands (p : Position) (name : String) : List Expr → Except DecodeFault (Expr × Expr)
  | [left, right] => .ok (left, right)
  | operands => do throw (.contract (← p.location) (.operandCount name operands.length))

def factKey (p : Position) : Except DecodeFault String :=
  match p.method with
  | some id => p.registry.signature id
  | none => p.location

/-- `@CompareString(a, b)` becomes `a.equals(b)`, and `@Compare(a,
b)` the comparison that the trace tells. -/
def resolvePlaceholder (p : Position) (name : String) (operands : List Expr) : Except DecodeFault Expr :=
  if name = "CompareString" then do
    let (left, right) ← twoOperands p name operands
    return .methodCall left "equals" [right]
  else if name = "Compare" then do
    let (left, right) ← twoOperands p name operands
    let method ← factKey p
    match d.facts.comparison? method (memberKey left.source) (memberKey right.source) with
    | some op => return .binary op left right
    | none => throw (.missingFact method left.source right.source)
  else .ok (.placeholder name operands)

/-- The class index and the hole in the arguments of a test for a subclass of a subject. -/
def subclassTest? (callee : Expr) (args : List Expr) : Option (Int64 × String) :=
  match callee, args with
  | .id name, [.literal (.int sub), sup] =>
    if name = "subcls" ∧ Text.occursIn Role.subject.name sup.source then sup.lastName?.map (sub, ·) else none
  | _, _ => none

def auxOfHole (hole : String) : String :=
  match Text.afterPrefix? (Role.subject.hole "").toList hole.toList with
  | some rest => String.ofList rest
  | none => hole

/-- `subcls(n, subject_<aux>)` becomes the answer whether class
`n` is the bound subject or below it. -/
def resolveCall (p : Position) (callee : Expr) (args : List Expr) : Except DecodeFault Expr :=
  match subclassTest? callee args with
  | none => .ok (.call callee args)
  | some (sub, hole) => do
    let aux := auxOfHole hole
    let some sup := d.bindings.get? hole | throw (.missingRole aux hole)
    if sub < 0 then
      throw (.contract (← p.location) (.negativeIndex sub.toInt))
    let sub ← Participants.classOf p.registry aux hole sub.toInt.toNat
    let sup ← Participants.classOf p.registry aux hole sup
    return .bool (d.hierarchy.le sub sup)

def onExpr (p : Position) (e : Expr) : Except DecodeFault Expr :=
  match e with
  | .placeholder name operands => d.resolvePlaceholder p name operands
  | .id name => do
    let name ← d.concreteName p.registry name
    return .id name
  | .field receiver name => do
    let name ← d.concreteName p.registry name
    return .field receiver name
  | .call callee args => d.resolveCall p callee args
  | .cast ty inner =>
    if d.isMarked ty then do
      let ty ← d.concreteType p.registry ty
      return .cast ty inner
    else .ok e
  | _ => .ok e

def pass : Pass (Except DecodeFault) where
  onClass _ _ := .ok ()
  onField := d.onField
  onMethod := d.onMethod
  onStmt := d.onStmt
  onExpr := d.onExpr

end ObserverPattern.Decoder
