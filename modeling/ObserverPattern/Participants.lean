import ObserverPattern.Conventions
import ObserverPattern.Program.Registry
import ObserverPattern.Role
import ObserverPattern.Trace.Fact

/-!
# Participants

The classes and methods that play the roles of one auxiliary dispatcher. The
solver's bindings are indices into the registry.

* Attach and detach are chosen only if the event has such methods.
* A subject that is an interface is replaced by the class that
  declares the attach and the detach method.
-/

namespace ObserverPattern

/-- The classes and methods that play the roles of an auxiliary dispatcher. -/
structure Participants where
  subject : ClassId
  observer : ClassId
  event : ClassId
  attach : Option MethodId
  detach : Option MethodId
  handle : MethodId
  update : MethodId
  deriving DecidableEq

namespace Participants

def boundIndex (b : Bindings) (aux : String) (role : Role) : Except DecodeFault Nat :=
  match b.get? (role.hole aux) with
  | some index => .ok index
  | none => .error (.missingRole aux (role.hole aux))

def classOf (r : Registry) (aux hole : String) (index : Nat) : Except DecodeFault ClassId :=
  match r.chosenClass? index with
  | some id => .ok id
  | none => .error (.roleOutOfRange aux hole index .classes r.classes.length)

def methodOf (r : Registry) (aux hole : String) (index : Nat) : Except DecodeFault MethodId :=
  match r.chosenMethod? index with
  | some id => .ok id
  | none => .error (.roleOutOfRange aux hole index .methods r.methods.length)

def chooseClass (r : Registry) (b : Bindings) (aux : String) (role : Role) :
    Except DecodeFault ClassId := do
  let index ← boundIndex b aux role
  classOf r aux (role.hole aux) index

def chooseMethod (r : Registry) (b : Bindings) (aux : String) (role : Role) :
    Except DecodeFault MethodId := do
  let index ← boundIndex b aux role
  methodOf r aux (role.hole aux) index

def ownerOf (r : Registry) (id : MethodId) : Except DecodeFault ClassId := do
  let m ← r.getMethod id
  return m.owner

/-- The name under which the log shows the class of a method. -/
def ownerName (r : Registry) (id : MethodId) : Except DecodeFault String := do
  let owner ← ownerOf r id
  r.className owner

/-- The method that plays a role which an event has a number of methods for. -/
def chooseCounted (r : Registry) (b : Bindings) (aux : String) (role : Role) (count : Nat) :
    Except DecodeFault (Option MethodId) :=
  if count = 0 then .ok none
  else do
    let id ← chooseMethod r b aux role
    let _ ← ownerName r id
    return some id

/-- The class that declares the attach and the detach method of an interface subject. -/
def commonOwner (r : Registry) (aux : String) (interface : ClassDecl) (attach detach : Option MethodId) :
    Except DecodeFault ClassId :=
  match attach, detach with
  | some attach, some detach => do
    let a ← ownerOf r attach
    let d ← ownerOf r detach
    if a = d then return a
    throw (.roleConsistency aux (← r.className a) (← r.className d))
  | some m, none | none, some m => ownerOf r m
  | none, none => .error (.abstractSubject aux interface.name)

/-- The class that stands in for an interface subject. -/
def concreteSubject (r : Registry) (aux : String) (interface : ClassDecl) (attach detach : Option MethodId) :
    Except DecodeFault ClassId := do
  let concrete ← commonOwner r aux interface attach detach
  let _ ← r.className concrete
  return concrete

/-- The chosen subject, unless it is an interface. -/
def actingSubject (r : Registry) (aux : String) (bound : ClassId) (attach detach : Option MethodId) :
    Except DecodeFault ClassId := do
  let c ← r.getClass bound
  if c.isInterface then concreteSubject r aux c attach detach else return bound

/-- The participants of a dispatcher. The event and all that play a role are looked up for the log too. -/
def resolve (r : Registry) (b : Bindings) (aux : String) (d : Dispatcher) (counts : RoleCounts) :
    Except DecodeFault Participants := do
  let _ ← r.className d.event
  let bound ← chooseClass r b aux .subject
  let observer ← chooseClass r b aux .observer
  let _ ← r.className bound
  let _ ← r.className observer
  let attach ← chooseCounted r b aux .attach counts.attach
  let detach ← chooseCounted r b aux .detach counts.detach
  let handle ← chooseMethod r b aux .handle
  let update ← chooseMethod r b aux .update
  let _ ← ownerName r handle
  let _ ← ownerName r update
  let subject ← actingSubject r aux bound attach detach
  return { subject, observer, event := d.event, attach, detach, handle, update }

end Participants

end ObserverPattern
