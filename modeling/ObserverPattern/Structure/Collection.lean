import ObserverPattern.Conventions
import ObserverPattern.Program.Registry

/-!
# Observer collections

The subject keeps its observers in a collection field, which
the attach and the detach method work on.

* `Collection.install` adds the field; the constructors of the subject create the collection, or the
  field itself does if there are none.
* `Collection.defineOperation` gives a method the body that adds an
  observer to the collection or removes one.
-/

namespace ObserverPattern.Collection

def isConstructorCall : Stmt → Bool
  | .expr (.call (.id name) _) => name == "super" || name == "this"
  | _ => false

/-- A constructor body with a statement at its start, behind the call of another constructor. -/
def atStart (s : Stmt) : Block → Block
  | [] => [s]
  | first :: rest => if isConstructorCall first then first :: s :: rest else s :: first :: rest

/-- The statement by which a constructor creates the collection for an observer. -/
def creation (c : Conventions) (observer : String) : Stmt :=
  .assign none (.field (.id "this") (c.collectionFor observer)) (.new (c.collectionTypeFor observer) [])

def initialise (s : Stmt) (r : Registry) (constructor : MethodId) : Except DecodeFault Registry :=
  r.updateMethod constructor fun m => { m with body := atStart s m.body }

/-- Adds the collection of observers to the subject, and gives the name of the field. -/
def install (c : Conventions) (r : Registry) (subject observer : ClassId) :
    Except DecodeFault (Registry × String) := do
  let observer ← r.className observer
  let name := c.collectionFor observer
  let ty := c.collectionTypeFor observer
  let constructors ← r.initializers subject
  let field : Field := ⟨ty, name, if constructors.isEmpty then some (.new ty []) else none⟩
  let r ← constructors.foldlM (initialise (creation c observer)) r
  let r ← r.updateClass subject fun k => { k with fields := k.fields ++ [field], collection := some name }
  return (r, name)

inductive Operation where
  | add
  | remove
  deriving DecidableEq

def Operation.name : Operation → String
  | .add => "add"
  | .remove => "remove"

def operationBody (op : Operation) (collection observer : String) : Block :=
  [.expr (.methodCall (.id collection) op.name [.id observer])]

def parameterOfType (r : Registry) (id : MethodId) (ty : String) : Except DecodeFault String := do
  let m ← r.getMethod id
  match Param.namesOfTypes [ty] m.params with
  | name :: _ => return name
  | [] => throw (.contract (← r.signature id) (.noParameter ty))

def defineOperation (op : Operation) (r : Registry) (id : MethodId) (collection : String)
    (observer : ClassId) : Except DecodeFault Registry := do
  let observer ← r.className observer
  let parameter ← parameterOfType r id observer
  r.putBody id (operationBody op collection parameter)

end ObserverPattern.Collection
