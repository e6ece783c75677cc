import ObserverPattern.Program.Declaration

/-!
# Sets of classes

A set of the classes of a registry is a flag for each of them, so that asking for a class and adding
one take no longer for a large registry than for a small one.

* `contains_empty` and `contains_insert`: what is in a set.
-/

namespace ObserverPattern

/-- A set of the classes of a registry, by a flag for each class. -/
structure ClassSet where
  flags : Array Bool
  deriving DecidableEq

namespace ClassSet

def empty (size : Nat) : ClassSet := ⟨Array.replicate size false⟩

def contains (s : ClassSet) (id : ClassId) : Bool := s.flags[id.index]?.getD false

/-- The set with one more class; an index outside the registry adds nothing. -/
def insert (s : ClassSet) (id : ClassId) : ClassSet := ⟨s.flags.setIfInBounds id.index true⟩

theorem contains_empty (size : Nat) (id : ClassId) : (empty size).contains id = false := by
  simp only [empty, contains, Array.getElem?_replicate]
  split <;> rfl

theorem contains_insert (s : ClassSet) (a b : ClassId) :
    (s.insert a).contains b = (decide (a = b ∧ b.index < s.flags.size) || s.contains b) := by
  have same : a.index = b.index ↔ a = b := by cases a; cases b; simp
  simp only [insert, contains, Array.getElem?_setIfInBounds, same]
  by_cases h : a = b
  · subst h
    by_cases inside : a.index < s.flags.size <;> simp [inside]
  · simp [h]

end ClassSet

end ObserverPattern
