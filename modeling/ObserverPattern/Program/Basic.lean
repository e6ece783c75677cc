import ObserverPattern.Program.Registry

/-!
# Programs

A program is a template, the classes to emit and the
auxiliary dispatchers to decode, over a registry.

* `Program.validate` accepts a program if every index stored in it points into the registry, and
  names the first one that does not.
-/

namespace ObserverPattern

/-- The classes to emit, and the names of the auxiliary dispatchers to decode, in order. -/
structure Template where
  classes : List ClassId
  auxs : List String
  deriving DecidableEq

structure Program where
  template : Template
  registry : Registry
  deriving DecidableEq

namespace Program

/-- The first fault of a class: a method it lists, the event class
or the handle method of its dispatcher. -/
def classFault? (r : Registry) (c : ClassDecl) : Option ContractFault :=
  match c.methods.find? fun m => (r.method? m).isNone with
  | some m => some (.danglingMethod m)
  | none =>
    match c.dispatcher with
    | none => none
    | some d =>
      if (r.class? d.event).isNone then some (.danglingEvent d.event)
      else if (r.method? d.handle).isNone then some (.danglingHandle d.handle)
      else none

/-- The first index that points nowhere, with the place where it is stored: in the template, in a
class, in a method, in this order. -/
def fault? (p : Program) : Option (String × ContractFault) :=
  let r := p.registry
  ((p.template.classes.find? fun id => (r.class? id).isNone).map fun id =>
      ("template", .danglingClass id)) <|>
    (r.classes.findSome? fun c => (classFault? r c).map fun fault => (c.name, fault)) <|>
    ((r.methods.find? fun m => (r.class? m.owner).isNone).map fun m => (m.name, .danglingOwner m.owner))

def validate (p : Program) : Except DecodeFault Unit :=
  match p.fault? with
  | none => .ok ()
  | some (location, fault) => .error (.contract location fault)

end Program

end ObserverPattern
