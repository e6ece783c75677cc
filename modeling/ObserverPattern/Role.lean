/-!
# Roles

The six roles of the Observer pattern that a solver fills. The solver's choice for a role
of an auxiliary dispatcher is bound to a *hole*, whose name is the role and the
dispatcher with an underscore between them.
-/

namespace ObserverPattern

inductive Role where
  | subject
  | observer
  | attach
  | detach
  | handle
  | update
  deriving DecidableEq, Repr

namespace Role

def all : List Role := [.subject, .observer, .attach, .detach, .handle, .update]

def name : Role → String
  | .subject => "subject"
  | .observer => "observer"
  | .attach => "attach"
  | .detach => "detach"
  | .handle => "handle"
  | .update => "update"

/-- The hole of a role of an auxiliary dispatcher. -/
def hole (role : Role) (aux : String) : String := role.name ++ "_" ++ aux

end Role

end ObserverPattern
