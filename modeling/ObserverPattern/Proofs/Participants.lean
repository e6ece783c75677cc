import ObserverPattern.Participants
import ObserverPattern.Proofs.Program.Skeleton

/-!
# Participants and the skeleton

The participants of a dispatcher are chosen by index, and an interface subject is replaced by the
owner of a method. All of this can be read off the skeleton of the registry (`resolve_skeleton`).
-/

namespace ObserverPattern.Participants

variable (r : Registry) (b : Bindings) (aux : String)

theorem classOf_skeleton (hole : String) (index : Nat) :
    classOf r.skeleton aux hole index = classOf r aux hole index := by
  unfold classOf
  rw [Registry.chosenClass?_skeleton]
  simp [Registry.skeleton]

private theorem chooseClass_skeleton (role : Role) :
    chooseClass r.skeleton b aux role = chooseClass r b aux role := by
  simp only [chooseClass, classOf_skeleton]

theorem chooseMethod_skeleton (role : Role) : chooseMethod r.skeleton b aux role = chooseMethod r b aux role := by
  simp only [chooseMethod, methodOf, Registry.chosenMethod?_skeleton]
  simp [Registry.skeleton]

private theorem ownerOf_skeleton (id : MethodId) : ownerOf r.skeleton id = ownerOf r id := by
  unfold ownerOf
  rw [Registry.getMethod_skeleton]
  cases r.getMethod id <;> rfl

private theorem ownerName_skeleton (id : MethodId) : ownerName r.skeleton id = ownerName r id := by
  simp only [ownerName, ownerOf_skeleton, Registry.className_skeleton]

private theorem chooseCounted_skeleton (role : Role) (count : Nat) :
    chooseCounted r.skeleton b aux role count = chooseCounted r b aux role count := by
  simp only [chooseCounted, chooseMethod_skeleton, ownerName_skeleton]

private theorem concreteSubject_skeleton (c : ClassDecl) (attach detach : Option MethodId) :
    concreteSubject r.skeleton aux c.skeleton attach detach = concreteSubject r aux c attach detach := by
  unfold concreteSubject
  cases attach <;> cases detach <;>
    simp [commonOwner, ownerOf_skeleton, Registry.className_skeleton, ClassDecl.skeleton]

private theorem actingSubject_skeleton (bound : ClassId) (attach detach : Option MethodId) :
    actingSubject r.skeleton aux bound attach detach = actingSubject r aux bound attach detach := by
  unfold actingSubject
  rw [Registry.getClass_skeleton]
  cases r.getClass bound with
  | error e => rfl
  | ok c =>
    simp only [Except.map, bind, Except.bind, concreteSubject_skeleton]
    rfl

/-- The participants depend on the skeleton only. -/
theorem resolve_skeleton (d : Dispatcher) (counts : RoleCounts) :
    resolve r.skeleton b aux d counts = resolve r b aux d counts := by
  simp only [resolve, chooseClass_skeleton, chooseMethod_skeleton, chooseCounted_skeleton, ownerName_skeleton,
    Registry.className_skeleton, actingSubject_skeleton]

end ObserverPattern.Participants
