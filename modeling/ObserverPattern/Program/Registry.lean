import ObserverPattern.Fault

/-!
# The registry

Ordered tables of the classes and methods of a program. The indices that a solver chooses point into
them, so decoding adds, removes and moves nothing.

* A look-up outside the tables is an error of its own
  (`DecodeFault.noClass`, `DecodeFault.noMethod`), and so is a change there
  (`updateClass`, `updateMethod`).
* `signature` names a method by its name, its class and the types of its parameters.
-/

namespace ObserverPattern

/-- The classes and methods of a program. -/
structure Registry where
  classes : List ClassDecl
  methods : List MethodDecl
  deriving DecidableEq

namespace Registry

def empty : Registry := ⟨[], []⟩

/-! ## Look-ups -/

def class? (r : Registry) (id : ClassId) : Option ClassDecl := r.classes[id.index]?

def method? (r : Registry) (id : MethodId) : Option MethodDecl := r.methods[id.index]?

def getClass (r : Registry) (id : ClassId) : Except DecodeFault ClassDecl :=
  match r.class? id with
  | some c => .ok c
  | none => .error (.noClass id)

def getMethod (r : Registry) (id : MethodId) : Except DecodeFault MethodDecl :=
  match r.method? id with
  | some m => .ok m
  | none => .error (.noMethod id)

/-- The class that a chosen index points to, if it is in range. -/
def chosenClass? (r : Registry) (index : Nat) : Option ClassId :=
  if index < r.classes.length then some ⟨index⟩ else none

def chosenMethod? (r : Registry) (index : Nat) : Option MethodId :=
  if index < r.methods.length then some ⟨index⟩ else none

def classNamed? (r : Registry) (name : String) : Option ClassId :=
  (r.classes.findIdx? (·.name == name)).map ClassId.mk

def className (r : Registry) (id : ClassId) : Except DecodeFault String := do
  let c ← r.getClass id
  return c.name

def methodName (r : Registry) (id : MethodId) : Except DecodeFault String := do
  let m ← r.getMethod id
  return m.name

/-- The name under which the facts of a method are recorded: its name, its class and the types of
its parameters, with underscores between them. -/
def signature (r : Registry) (id : MethodId) : Except DecodeFault String := do
  let m ← r.getMethod id
  let owner ← r.className m.owner
  return "_".intercalate (m.name :: owner :: m.params.map (·.ty))

/-- The constructors that a class lists, in order. -/
def initializers (r : Registry) (id : ClassId) : Except DecodeFault (List MethodId) := do
  let c ← r.getClass id
  c.methods.filterM fun m => do
    let m ← r.getMethod m
    return m.isInit

/-! ## Changes -/

def modifyClass (r : Registry) (id : ClassId) (f : ClassDecl → ClassDecl) : Registry :=
  { r with classes := r.classes.modify id.index f }

def modifyMethod (r : Registry) (id : MethodId) (f : MethodDecl → MethodDecl) : Registry :=
  { r with methods := r.methods.modify id.index f }

def setFields (r : Registry) (id : ClassId) (fields : List Field) : Registry :=
  r.modifyClass id fun c => { c with fields }

def setBody (r : Registry) (id : MethodId) (body : Block) : Registry :=
  r.modifyMethod id fun m => { m with body }

/-- The registry while the fields of a class are taken out of it. -/
def withoutFields (r : Registry) (id : ClassId) : Registry := r.setFields id []

/-- The registry while the body of a method is taken out of it. -/
def withoutBody (r : Registry) (id : MethodId) : Registry := r.setBody id []

/-- Changes a class that the registry has. -/
def updateClass (r : Registry) (id : ClassId) (f : ClassDecl → ClassDecl) : Except DecodeFault Registry := do
  let _ ← r.getClass id
  return r.modifyClass id f

/-- Changes a method that the registry has. -/
def updateMethod (r : Registry) (id : MethodId) (f : MethodDecl → MethodDecl) : Except DecodeFault Registry := do
  let _ ← r.getMethod id
  return r.modifyMethod id f

def putFields (r : Registry) (id : ClassId) (fields : List Field) : Except DecodeFault Registry := do
  let _ ← r.getClass id
  return r.setFields id fields

def putBody (r : Registry) (id : MethodId) (body : Block) : Except DecodeFault Registry := do
  let _ ← r.getMethod id
  return r.setBody id body

def pushClass (r : Registry) (c : ClassDecl) : Registry × ClassId :=
  ({ r with classes := r.classes ++ [c] }, ⟨r.classes.length⟩)

/-- Adds a method at the end and lists it on its declaring class, if the registry has that class. -/
def pushMethod (r : Registry) (m : MethodDecl) : Registry × MethodId :=
  let id : MethodId := ⟨r.methods.length⟩
  let listed := r.modifyClass m.owner fun c => { c with methods := c.methods ++ [id] }
  ({ listed with methods := r.methods ++ [m] }, id)

end Registry

end ObserverPattern
