import ObserverPattern.Participants
import ObserverPattern.Structure.Collection
import ObserverPattern.Text.Reference

/-!
# Handle bodies

The handle method of a subject gets the body of the generic handle of the auxiliary dispatcher, with
the generic names replaced by those of the participants.

* Identifiers: the receiver becomes `this`, the generic collection the concrete one,
  `evt` the event parameter of the handle, and the dispatcher the observer class.
  Members: the generic collection alone.
* Types: the dispatcher and `Object`, as whole words, become the observer class.
* `<aux>.reflect(update_<aux>, o, args…)` becomes `o.<update>(args…)`, without the argument that the
  update method has no parameter for.
-/

namespace ObserverPattern.HandleBody

/-- The names that take the place of the generic ones. -/
structure Names where
  aux : String
  genericCollection : String
  collection : String
  eventParam : String
  observer : String
  update : String
  /-- The argument that update calls do without. -/
  omitted : Option UpdateArgument
  location : String

namespace Names

def variableName (n : Names) (name : String) : String :=
  if Text.startsWith name ("rcv_" ++ n.aux) then "this"
  else if name = n.genericCollection then n.collection
  else if name = "evt" then n.eventParam
  else if name = n.aux then n.observer
  else name

def memberName (n : Names) (name : String) : String :=
  if name = n.genericCollection then n.collection else name

def typeName (n : Names) (ty : String) : String :=
  Text.renameWord "Object" n.observer (Text.renameWord n.aux n.observer ty)

/-- Whether a call with a given first argument is an update call through the dispatcher. -/
def dispatchesUpdate (n : Names) (callee target : Expr) : Bool :=
  match callee with
  | .field (.id receiver) method =>
    method == "reflect" && receiver == n.aux && target.lastName? == some ("update_" ++ n.aux)
  | _ => false

def isEvent (n : Names) : Expr → Bool
  | .id name => name == n.eventParam
  | .cast _ e => n.isEvent e
  | _ => false

def isArgument (n : Names) : UpdateArgument → Expr → Bool
  | .event, e => n.isEvent e
  | .receiver, e => e == .id "this"

def adjust (n : Names) (args : List Expr) : Except DecodeFault (List Expr) :=
  match n.omitted with
  | none => .ok args
  | some argument =>
    if args.any (n.isArgument argument) then .ok (args.eraseP (n.isArgument argument))
    else .error (.contract n.location (.nothingToDrop argument))

mutual

def concreteExpr (n : Names) : Expr → Except DecodeFault Expr
  | .literal l => .ok (.literal l)
  | .id name => .ok (.id (n.variableName name))
  | .field receiver name => do
    let receiver ← n.concreteExpr receiver
    return .field receiver (n.memberName name)
  | .call callee (target :: receiver :: rest) =>
    if n.dispatchesUpdate callee target then do
      let receiver ← n.concreteExpr receiver
      let rest ← n.concreteExprs rest
      let args ← n.adjust rest
      return .methodCall receiver n.update args
    else do
      let callee ← n.concreteExpr callee
      let args ← n.concreteExprs (target :: receiver :: rest)
      return .call callee args
  | .call callee args => do
    let callee ← n.concreteExpr callee
    let args ← n.concreteExprs args
    return .call callee args
  | .new ty args => do
    let args ← n.concreteExprs args
    return .new (n.typeName ty) args
  | .binary op left right => do
    let left ← n.concreteExpr left
    let right ← n.concreteExpr right
    return .binary op left right
  | .cast ty e => do
    let e ← n.concreteExpr e
    return .cast (n.typeName ty) e
  | .placeholder name operands => do
    let operands ← n.concreteExprs operands
    return .placeholder name operands

def concreteExprs (n : Names) : List Expr → Except DecodeFault (List Expr)
  | [] => .ok []
  | e :: rest => do
    let e ← n.concreteExpr e
    let rest ← n.concreteExprs rest
    return e :: rest

end

mutual

def concreteStmt (n : Names) : Stmt → Except DecodeFault Stmt
  | .expr e => do
    let e ← n.concreteExpr e
    return .expr e
  | .assign ty target value => do
    let target ← n.concreteExpr target
    let value ← n.concreteExpr value
    return .assign (ty.map n.typeName) target value
  | .ifElse cond thenBody elseBody => do
    let cond ← n.concreteExpr cond
    let thenBody ← n.concreteBlock thenBody
    let elseBody ← n.concreteBlock elseBody
    return .ifElse cond thenBody elseBody
  | .forEach ty var source body => do
    let source ← n.concreteExpr source
    let body ← n.concreteBlock body
    return .forEach (n.typeName ty) var source body
  | .whileLoop cond body => do
    let cond ← n.concreteExpr cond
    let body ← n.concreteBlock body
    return .whileLoop cond body
  | .ret none => .ok (.ret none)
  | .ret (some e) => do
    let e ← n.concreteExpr e
    return .ret (some e)

def concreteBlock (n : Names) : List Stmt → Except DecodeFault (List Stmt)
  | [] => .ok []
  | s :: rest => do
    let s ← n.concreteStmt s
    let rest ← n.concreteBlock rest
    return s :: rest

end

end Names

/-- The argument that the calls of an update method do without: none if it
has at least two parameters, the event if its only parameter is the subject,
and the receiver if it is anything else. -/
def omittedArgument (r : Registry) (update : MethodId) (subject : ClassId) :
    Except DecodeFault (Option UpdateArgument) := do
  let m ← r.getMethod update
  match m.params with
  | [] => throw (.contract (← r.signature update) .noParameters)
  | [p] => return some (if p.ty = (← r.className subject) then .event else .receiver)
  | _ => return none

def names (c : Conventions) (r : Registry) (aux : String) (p : Participants) : Except DecodeFault Names := do
  let event ← r.className p.event
  let eventParam ← Collection.parameterOfType r p.handle event
  let observer ← r.className p.observer
  let update ← r.methodName p.update
  let omitted ← omittedArgument r p.update p.subject
  let location ← r.signature p.handle
  return {
    aux, eventParam, observer, update, omitted, location
    genericCollection := c.collectionPrefix
    collection := c.collectionFor observer }

/-- Gives the handle method the generic body with the names of the participants. -/
def transplant (c : Conventions) (r : Registry) (aux : String) (p : Participants) (generic : MethodId) :
    Except DecodeFault Registry := do
  let n ← names c r aux p
  let m ← r.getMethod generic
  let body ← n.concreteBlock m.body
  r.putBody p.handle body

end ObserverPattern.HandleBody
