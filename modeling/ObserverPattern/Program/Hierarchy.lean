import ObserverPattern.Program.ClassSet
import ObserverPattern.Program.Registry

/-!
# The class hierarchy

Supertypes are given by name; a name stands for the last class that bears it,
and a name that no class bears is ignored.

* `Registry.supertypes` are the classes that each class names.
* `search` collects the classes above a class from a stack of classes that are pending. To run out of
  steps (`none`) is another result than to end; `search_isSome` bounds the steps that a search takes,
  whatever cycles there are.
* `Hierarchy.ofRegistry` keeps what the search finds for each class, and `Hierarchy.le` tells whether
  a class is another one or below it.
-/

namespace ObserverPattern

/-- The classes with their names, the last class first. -/
def Registry.classesFromLast (r : Registry) : List (String × ClassId) :=
  (r.classes.mapIdx fun i c => (c.name, ClassId.mk i)).reverse

def ClassDecl.supertypes (c : ClassDecl) (named : List (String × ClassId)) : List ClassId :=
  (c.superclass.toList ++ c.interfaces).filterMap (named.lookup ·)

/-- For each class the classes that it names as its supertypes. -/
def Registry.supertypes (r : Registry) : Array (List ClassId) :=
  let named := r.classesFromLast
  (r.classes.map (·.supertypes named)).toArray

/-- The classes above each class of a registry, itself included. -/
structure Hierarchy where
  ancestors : Array ClassSet
  deriving DecidableEq

namespace Hierarchy

def empty : Hierarchy := ⟨#[]⟩

/-! ## The search -/

def parents (supertypes : Array (List ClassId)) (id : ClassId) : List ClassId := supertypes[id.index]?.getD []

/-- Takes the class that was pushed last. One that has been seen is passed over; any other is seen from now on, and
its parents are pushed. -/
def search (supertypes : Array (List ClassId)) : Nat → List ClassId → ClassSet → Option ClassSet
  | _, [], seen => some seen
  | 0, _ :: _, _ => none
  | steps + 1, id :: pending, seen =>
    if seen.contains id then search supertypes steps pending seen
    else search supertypes steps ((parents supertypes id).reverse ++ pending) (seen.insert id)

/-- The parents of the classes that have not been seen. -/
def unseenParents (supertypes : Array (List ClassId)) (seen : ClassSet) : List ClassId :=
  (List.range supertypes.size).flatMap fun i => if seen.contains ⟨i⟩ then [] else parents supertypes ⟨i⟩

variable {supertypes : Array (List ClassId)} {pending : List ClassId} {seen : ClassSet}

private theorem length_flatMap_range {f g : Nat → List ClassId} {k d : Nat}
    (hk : (g k).length + d = (f k).length) (hother : ∀ i, i ≠ k → g i = f i) (n : Nat) :
    ((List.range n).flatMap g).length + (if k < n then d else 0) = ((List.range n).flatMap f).length := by
  induction n with
  | zero => rfl
  | succ n ih =>
    simp only [List.range_succ, List.flatMap_append, List.flatMap_singleton, List.length_append]
    by_cases hn : n = k
    · subst hn
      rw [if_neg (Nat.lt_irrefl n)] at ih
      rw [if_pos (Nat.lt_succ_self n)]
      omega
    · have := hother n hn
      by_cases hlt : k < n
      · rw [if_pos hlt] at ih
        rw [if_pos (Nat.lt_succ_of_lt hlt), this]
        omega
      · rw [if_neg hlt] at ih
        rw [if_neg (by omega), this]
        omega

/-- The parents of a class that is seen for the first time are among them no longer. -/
theorem length_unseenParents_insert {id : ClassId} (hsize : seen.flags.size = supertypes.size)
    (hunseen : seen.contains id = false) :
    (unseenParents supertypes (seen.insert id)).length + (parents supertypes id).length =
      (unseenParents supertypes seen).length := by
  by_cases hid : id.index < supertypes.size
  · have hlength := length_flatMap_range (k := id.index) (d := (parents supertypes id).length)
      (f := fun i => if seen.contains ⟨i⟩ then [] else parents supertypes ⟨i⟩)
      (g := fun i => if (seen.insert id).contains ⟨i⟩ then [] else parents supertypes ⟨i⟩)
      (by simp [ClassSet.contains_insert, hunseen, hsize, hid]) ?_ supertypes.size
    · rwa [if_pos hid] at hlength
    · intro i hi
      have hne : id ≠ ⟨i⟩ := by
        rintro rfl
        exact hi rfl
      simp [ClassSet.contains_insert, hne]
  · have hsame : seen.insert id = seen := by
      rw [ClassSet.insert, Array.setIfInBounds_eq_of_size_le (by omega)]
    rw [hsame, parents, Array.getElem?_eq_none (by omega)]
    rfl

/-- A search ends, since a class has its parents pushed only once: there are no more steps than classes are pending
and parents of unseen classes are still to be pushed. -/
theorem search_isSome {steps : Nat} (hsize : seen.flags.size = supertypes.size)
    (hsteps : (unseenParents supertypes seen).length + pending.length ≤ steps) :
    (search supertypes steps pending seen).isSome := by
  induction steps generalizing pending seen with
  | zero =>
    obtain rfl : pending = [] := List.length_eq_zero_iff.1 (by omega)
    rfl
  | succ steps ih =>
    cases pending with
    | nil => rfl
    | cons id pending =>
      rw [List.length_cons] at hsteps
      rw [search]
      split
      · exact ih hsize (by omega)
      · next hunseen =>
        have := length_unseenParents_insert hsize (Bool.not_eq_true _ ▸ hunseen)
        refine ih (Array.size_setIfInBounds.trans hsize) ?_
        rw [List.length_append, List.length_reverse]
        omega

/-! ## The hierarchy of a registry -/

/-- As many steps as the search from one class takes at most. -/
def searchSteps (supertypes : Array (List ClassId)) : Nat :=
  (unseenParents supertypes (ClassSet.empty supertypes.size)).length + 1

/-- The search from one class. -/
def searchFrom (supertypes : Array (List ClassId)) (steps : Nat) (id : ClassId) : Option ClassSet :=
  search supertypes steps [id] (ClassSet.empty supertypes.size)

theorem searchFrom_isSome (supertypes : Array (List ClassId)) (id : ClassId) :
    (searchFrom supertypes (searchSteps supertypes) id).isSome :=
  search_isSome (by simp [ClassSet.empty]) (Nat.le_refl _)

/-- What the search from one class finds. -/
def collect (supertypes : Array (List ClassId)) (id : ClassId) : ClassSet :=
  (searchFrom supertypes (searchSteps supertypes) id).get (searchFrom_isSome supertypes id)

def ofRegistry (r : Registry) : Hierarchy :=
  let supertypes := r.supertypes
  ⟨((List.range r.classes.length).map fun index => collect supertypes ⟨index⟩).toArray⟩

def above (h : Hierarchy) (id : ClassId) : ClassSet := h.ancestors[id.index]?.getD (ClassSet.empty 0)

/-- Whether `sub` is `sup` or below it. -/
def le (h : Hierarchy) (sub sup : ClassId) : Bool := sub == sup || (h.above sub).contains sup

end Hierarchy

end ObserverPattern
