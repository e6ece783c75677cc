import ObserverPattern.Program.Registry

/-!
# Positions

Where in a program a traversal stands: in a class or a method, at some depth of nested blocks. The
registry shown is without the fields or the body under way.

* `Position.location` names the place: the class, or the class
  and the method with a dot between them;
* `Position.enter` refuses a block at the greatest depth.
-/

namespace ObserverPattern

/-- A place in a program. -/
structure Position where
  registry : Registry
  owner : ClassId
  method : Option MethodId
  depth : Nat
  maxDepth : Nat

namespace Position

def inner (p : Position) : Position := { p with depth := p.depth + 1 }

def location (p : Position) : Except DecodeFault String := do
  let owner ← p.registry.className p.owner
  match p.method with
  | none => return owner
  | some id => return owner ++ "." ++ (← p.registry.methodName id)

/-- Accepts a block at this place, unless it lies too deep. -/
def enter (p : Position) : Except DecodeFault Unit := do
  if p.depth < p.maxDepth then return ()
  throw (.contract (← p.location) (.tooDeep p.maxDepth))

end Position

end ObserverPattern
