import ObserverPattern.Trace.Fact

/-!
# Moving facts

`Facts.move` takes the facts of one key to another.

* `get?_move`: what becomes of each key. The new key has the facts afterwards, in place of its own, the
  old key has none, and the facts of every other key stay.
* `get?_moveAll_of_apart`: the same for one move of a row whose other moves touch neither of its keys.
* `get?_move_comm`: moves between different keys can be done in either order.
-/

namespace ObserverPattern.Facts

variable {t : Facts} {old new key : String} {facts : List Fact}

/-- The facts of a key that is neither of the two stay. -/
theorem get?_move_of_ne (hold : key ≠ old) (hnew : key ≠ new) : (t.move old new).1.get? key = t.get? key := by
  unfold move
  cases t.get? old with
  | none => rfl
  | some facts =>
    show ((t.insert new facts).erase old).get? key = t.get? key
    rw [Table.get?_erase, if_neg hold, Table.get?_insert, if_neg hnew]

/-- The new key has the facts that were moved. -/
theorem get?_move_new (h : t.get? old = some facts) (hne : new ≠ old) :
    (t.move old new).1.get? new = some facts := by
  unfold move
  rw [h]
  show ((t.insert new facts).erase old).get? new = some facts
  rw [Table.get?_erase, if_neg hne, Table.get?_insert, if_pos rfl]

/-- The facts of each key after a move. -/
theorem get?_move (t : Facts) (old new key : String) :
    (t.move old new).1.get? key =
      if (t.get? old).isNone then t.get? key
      else if key = old then none else if key = new then t.get? old else t.get? key := by
  unfold move
  cases hold : t.get? old with
  | none => rfl
  | some facts =>
    show ((t.insert new facts).erase old).get? key = _
    rw [Table.get?_erase, Table.get?_insert]
    rfl

/-- What a move does to the facts of the keys depends on these only. -/
theorem get?_move_congr {t t' : Facts} (h : ∀ key, t.get? key = t'.get? key) (old new key : String) :
    (t.move old new).1.get? key = (t'.move old new).1.get? key := by
  simp only [get?_move, h]

/-- Moves between different keys can be done in either order. -/
theorem get?_move_comm (t : Facts) {old new old' new' : String} (hold : old ≠ old') (hold' : old ≠ new')
    (hnew : new ≠ old') (hnew' : new ≠ new') (key : String) :
    ((t.move old new).1.move old' new').1.get? key = ((t.move old' new').1.move old new).1.get? key := by
  have first : ∀ k, k = old' ∨ k = new' → (t.move old new).1.get? k = t.get? k := by
    rintro k (rfl | rfl)
    · exact get?_move_of_ne (Ne.symm hold) (Ne.symm hnew)
    · exact get?_move_of_ne (Ne.symm hold') (Ne.symm hnew')
  have second : ∀ k, k = old ∨ k = new → (t.move old' new').1.get? k = t.get? k := by
    rintro k (rfl | rfl)
    · exact get?_move_of_ne hold hold'
    · exact get?_move_of_ne hnew hnew'
  rw [get?_move (t.move old new).1, get?_move (t.move old' new').1, first old' (.inl rfl), second old (.inl rfl)]
  -- A key of one move is no key of the other, which leaves what the one move does there.
  by_cases hkey : key = old ∨ key = new
  · have hne : key ≠ old' ∧ key ≠ new' := by
      rcases hkey with rfl | rfl
      · exact ⟨hold, hold'⟩
      · exact ⟨hnew, hnew'⟩
    rw [if_neg hne.1, if_neg hne.2, ite_self, second key hkey, get?_move]
  · obtain ⟨hkey₁, hkey₂⟩ := not_or.1 hkey
    rw [if_neg hkey₁, if_neg hkey₂, ite_self, get?_move_of_ne hkey₁ hkey₂, get?_move]

/-- Moves, one after the other. -/
def moveAll (t : Facts) (moves : List (String × String)) : Facts := moves.foldl (fun t m => (t.move m.1 m.2).1) t

@[simp] theorem moveAll_nil (t : Facts) : t.moveAll [] = t := rfl

@[simp] theorem moveAll_cons (t : Facts) (m : String × String) (ms : List (String × String)) :
    t.moveAll (m :: ms) = (t.move m.1 m.2).1.moveAll ms := rfl

theorem get?_moveAll_congr {t t' : Facts} (h : ∀ key, t.get? key = t'.get? key) (moves : List (String × String))
    (key : String) : (t.moveAll moves).get? key = (t'.moveAll moves).get? key := by
  induction moves generalizing t t' with
  | nil => exact h key
  | cons m moves ih => exact ih (get?_move_congr h m.1 m.2)

/-- The facts of a key that no move touches stay. -/
theorem get?_moveAll_of_ne {moves : List (String × String)} (h : ∀ m ∈ moves, key ≠ m.1 ∧ key ≠ m.2) :
    (t.moveAll moves).get? key = t.get? key := by
  induction moves generalizing t with
  | nil => rfl
  | cons m moves ih =>
    obtain ⟨hold, hnew⟩ := h m (by simp)
    rw [moveAll_cons, ih fun m' hm' => h m' (by simp [hm']), get?_move_of_ne hold hnew]

/-- After a row of moves, one of which is the given one while the others touch neither of its keys, the
new key has the facts of the old one, if there were any, and the old key has none. -/
theorem get?_moveAll_of_apart {moves : List (String × String)} (hne : new ≠ old)
    (hmem : (old, new) ∈ moves ∨ t.get? old = none)
    (hapart : ∀ m ∈ moves, m = (old, new) ∨ (old ≠ m.1 ∧ old ≠ m.2) ∧ new ≠ m.1 ∧ new ≠ m.2) :
    (t.moveAll moves).get? new = (t.get? old).or (t.get? new) ∧ (t.moveAll moves).get? old = none := by
  induction moves generalizing t with
  | nil =>
    have hnone : t.get? old = none := by simpa using hmem
    simp [hnone]
  | cons m moves ih =>
    rw [moveAll_cons]
    have hrest := fun m' (hm' : m' ∈ moves) => hapart m' (by simp [hm'])
    rcases hapart m (by simp) with rfl | ⟨⟨hold₁, hold₂⟩, hnew₁, hnew₂⟩
    · -- The move itself leaves nothing under the old key, so doing it once more would change nothing.
      have hold : (t.move old new).1.get? old = none := by
        rw [get?_move]
        cases t.get? old <;> simp
      have hnew : (t.move old new).1.get? new = (t.get? old).or (t.get? new) := by
        rw [get?_move]
        cases hfacts : t.get? old <;> simp [hne]
      obtain ⟨h₁, h₂⟩ := ih (.inr hold) hrest
      rw [h₁, hold, hnew]
      exact ⟨rfl, h₂⟩
    · have hold := get?_move_of_ne (t := t) hold₁ hold₂
      have hnew := get?_move_of_ne (t := t) hnew₁ hnew₂
      have hmem' : (old, new) ∈ moves ∨ (t.move m.1 m.2).1.get? old = none := by
        rw [hold]
        refine hmem.imp_left fun h => (List.mem_cons.1 h).resolve_left ?_
        rintro rfl
        exact hold₁ rfl
      rw [← hold, ← hnew]
      exact ih hmem' hrest

/-- A key with a direction has facts. -/
theorem get?_of_direction? {d : Direction} (h : t.direction? key = some d) :
    ∃ facts, t.get? key = some facts ∧ facts.findSome? Fact.direction? = some d := by
  unfold direction? factsOf at h
  cases hfacts : t.get? key with
  | none =>
    rw [hfacts] at h
    cases h
  | some facts =>
    rw [hfacts] at h
    exact ⟨facts, rfl, h⟩

theorem direction?_eq (h : t.get? key = some facts) : t.direction? key = facts.findSome? Fact.direction? := by
  unfold direction? factsOf
  rw [h]
  rfl

end ObserverPattern.Facts
