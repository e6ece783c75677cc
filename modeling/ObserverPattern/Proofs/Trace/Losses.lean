import Mathlib.Tactic.SplitIfs
import ObserverPattern.Trace.Fact

/-!
# What a move of facts loses

The new key of a move has the facts of the old one afterwards, in place of its own.

* `perm_insert`, `perm_erase`: what the two halves of a move do to the values of a table as a whole, whatever
  keys they stand under;
* `all_move`: so a move loses the facts that the new key had, no others, and none twice. A key that is moved to itself
  is no exception: what it had is lost;
* `move_loses`: in a table that facts have been recorded in and moved about, a move takes everything along exactly
  if the new key is none of the table.
-/

namespace ObserverPattern

namespace Table

variable {α : Type}

/-! ## Values of all keys -/

/-- The values of all keys, in the order of the table, where each value is a list. -/
def all (t : Table (List α)) : List α := t.entries.flatMap Prod.snd

private theorem perm_put (key : String) (value : List α) (entries : List (String × List α)) :
    (entries.flatMap Prod.snd ++ value).Perm
      ((put key value entries).flatMap Prod.snd ++ (find key entries).getD []) := by
  induction entries with
  | nil => simp [put, find]
  | cons e rest ih =>
    obtain ⟨k, v⟩ := e
    by_cases h : k = key
    · -- The old value goes to the end, and the new one comes to the front.
      have hold : (v ++ rest.flatMap Prod.snd).Perm (rest.flatMap Prod.snd ++ v) := List.perm_append_comm
      have hnew : (rest.flatMap Prod.snd ++ v ++ value).Perm (value ++ (rest.flatMap Prod.snd ++ v)) :=
        List.perm_append_comm
      simpa [put, find, h] using (hold.append_right value).trans hnew
    · simpa [put, find, h] using ih.append_left v

private theorem perm_filter {key : String} {entries : List (String × List α)}
    (h : (entries.map Prod.fst).Nodup) :
    (entries.flatMap Prod.snd).Perm
      ((entries.filter fun e => e.1 != key).flatMap Prod.snd ++ (find key entries).getD []) := by
  induction entries with
  | nil => simp [find]
  | cons e rest ih =>
    obtain ⟨k, v⟩ := e
    obtain ⟨hk, hrest⟩ := List.nodup_cons.1 h
    by_cases hkey : k = key
    · have hkeep : (rest.filter fun e => e.1 != key) = rest := by
        refine List.filter_eq_self.2 fun e he => ?_
        have hmem : e.1 ∈ rest.map Prod.fst := List.mem_map_of_mem he
        have hne : e.1 ≠ key := fun heq => hk (hkey.trans heq.symm ▸ hmem)
        simpa using hne
      have hend : (v ++ rest.flatMap Prod.snd).Perm (rest.flatMap Prod.snd ++ v) := List.perm_append_comm
      simpa [find, hkey, hkeep] using hend
    · simpa [find, hkey] using (ih hrest).append_left v

/-- An entry adds its values and takes those away that the key had. -/
theorem perm_insert (t : Table (List α)) (key : String) (value : List α) :
    (t.all ++ value).Perm ((t.insert key value).all ++ (t.get? key).getD []) := perm_put key value t.entries

/-- What a key had goes with the key. -/
theorem perm_erase (t : Table (List α)) (key : String) :
    t.all.Perm ((t.erase key).all ++ (t.get? key).getD []) := perm_filter t.nodup

/-! ## Entries of other keys -/

private theorem filter_put {p : String → Bool} {key : String} (hp : p key = false) (value : α)
    (entries : List (String × α)) :
    (put key value entries).filter (fun e => p e.1) = entries.filter fun e => p e.1 := by
  induction entries with
  | nil => simp [put, hp]
  | cons e rest ih =>
    obtain ⟨k, v⟩ := e
    by_cases h : k = key
    · simp [put, h, hp]
    · simp [put, h, List.filter_cons, ih]

/-- The entries of the other keys stay, and so does their order. -/
theorem filter_insert {p : String → Bool} {key : String} (hp : p key = false) (t : Table α) (value : α) :
    (t.insert key value).entries.filter (fun e => p e.1) = t.entries.filter fun e => p e.1 :=
  filter_put hp value t.entries

theorem filter_erase {p : String → Bool} {key : String} (hp : p key = false) (t : Table α) :
    (t.erase key).entries.filter (fun e => p e.1) = t.entries.filter fun e => p e.1 := by
  show ((t.entries.filter fun e => e.1 != key).filter fun e => p e.1) = _
  rw [List.filter_filter]
  refine List.filter_congr fun e _ => ?_
  by_cases h : e.1 = key
  · simp [h, hp]
  · simp [h]

end Table

namespace Facts

/-! ## Tables with a history -/

/-- What is done to a table of facts. -/
inductive Step where
  | push (key : String) (fact : Fact)
  | move (old new : String)

def Step.apply (t : Facts) : Step → Facts
  | .push key fact => t.push key fact
  | .move old new => (t.move old new).1

/-- The table that a history leaves. -/
def ofHistory (steps : List Step) : Facts := steps.foldl Step.apply Table.empty

/-- Each key of a table has facts. -/
def Filled (t : Facts) : Prop := ∀ key facts, t.get? key = some facts → facts ≠ []

theorem Filled.push {t : Facts} (h : t.Filled) (key : String) (fact : Fact) : (t.push key fact).Filled := by
  intro k facts hfacts
  rw [Facts.push, Table.get?_insert] at hfacts
  split at hfacts
  · obtain rfl := Option.some.inj hfacts
    simp
  · exact h k facts hfacts

theorem Filled.move {t : Facts} (h : t.Filled) (old new : String) : (t.move old new).1.Filled := by
  intro k facts hfacts
  unfold Facts.move at hfacts
  cases hold : t.get? old with
  | none =>
    rw [hold] at hfacts
    exact h k facts hfacts
  | some moved =>
    simp only [hold, Table.get?_erase, Table.get?_insert] at hfacts
    split_ifs at hfacts with hk hnew
    · obtain rfl := Option.some.inj hfacts
      exact h old moved hold
    · exact h k facts hfacts

/-- No history leaves a key without facts. -/
theorem filled_ofHistory (steps : List Step) : (ofHistory steps).Filled := by
  have hrun : ∀ (steps : List Step) (t : Facts), t.Filled → (steps.foldl Step.apply t).Filled := by
    intro steps
    induction steps with
    | nil => exact fun t h => h
    | cons step steps ih =>
      intro t h
      refine ih _ ?_
      cases step with
      | push key fact => exact h.push key fact
      | move old new => exact h.move old new
  refine hrun steps _ ?_
  intro key facts h
  cases h

theorem Filled.factsOf_eq_nil_iff {t : Facts} (h : t.Filled) (key : String) :
    t.factsOf key = [] ↔ key ∉ t.keys := by
  rw [← Table.isSome_get?, factsOf]
  cases hfacts : t.get? key with
  | none => simp
  | some facts => simpa using h key facts hfacts

/-! ## Moves -/

section Moves

variable {t : Facts} {old new : String}

theorem move_eq_of_none (h : (t.move old new).2 = false) : (t.move old new).1 = t := by
  unfold move at h ⊢
  cases hold : t.get? old with
  | none => rfl
  | some facts => simp [hold] at h

theorem exists_of_move (h : (t.move old new).2 = true) :
    t.get? old = some (t.factsOf old) ∧ (t.move old new).1 = (t.insert new (t.factsOf old)).erase old := by
  unfold move at h ⊢
  unfold factsOf
  cases hold : t.get? old with
  | none => simp [hold] at h
  | some facts => exact ⟨rfl, rfl⟩

/-- A move loses the facts that the new key had, and nothing else. -/
theorem all_move (h : (t.move old new).2 = true) : t.all.Perm ((t.move old new).1.all ++ t.factsOf new) := by
  obtain ⟨hold, hmove⟩ := exists_of_move h
  have hinsert : (t.all ++ t.factsOf old).Perm ((t.insert new (t.factsOf old)).all ++ t.factsOf new) :=
    t.perm_insert new (t.factsOf old)
  have herase := (t.insert new (t.factsOf old)).perm_erase old
  -- The old key has the moved facts when it is taken out, also if it is the new one.
  have hmoved : ((t.insert new (t.factsOf old)).get? old).getD [] = t.factsOf old := by
    rw [Table.get?_insert, hold, ite_self, Option.getD_some]
  rw [hmoved, ← hmove] at herase
  have hall : (t.all ++ t.factsOf old).Perm ((t.move old new).1.all ++ t.factsOf new ++ t.factsOf old) := by
    refine hinsert.trans ((herase.append_right _).trans ?_)
    rw [List.append_assoc, List.append_assoc]
    exact List.perm_append_comm.append_left _
  exact (List.perm_append_right_iff _).1 hall

/-- The new key has the facts that were moved, unless it is the old one. -/
theorem factsOf_move (h : (t.move old new).2 = true) :
    (t.move old new).1.factsOf new = if old = new then [] else t.factsOf old := by
  obtain ⟨-, hmove⟩ := exists_of_move h
  rw [hmove, factsOf, Table.get?_erase, Table.get?_insert]
  by_cases hne : old = new
  · simp [hne]
  · simp [hne, Ne.symm hne]

/-- The entries of the keys that are neither of the two stay, and so does their order. -/
theorem filter_move {p : String → Bool} (h : (t.move old new).2 = true) (hold : p old = false)
    (hnew : p new = false) :
    (t.move old new).1.entries.filter (fun e => p e.1) = t.entries.filter fun e => p e.1 := by
  obtain ⟨-, hmove⟩ := exists_of_move h
  rw [hmove, Table.filter_erase hold, Table.filter_insert hnew]

/-- A move loses what the new key had. Where the old key has no facts nothing happens. Otherwise the old key is gone,
the other keys keep their facts and their order, the new key has the facts that were moved, in place of its own,
but none if it is the old key; and all that was recorded is there still, except what the new key had. So the
facts that are moved arrive and nothing is lost exactly if the new key is none of the table before. -/
theorem move_loses (history : List Step) (old new : String) (ht : ofHistory history = t) :
    ((t.move old new).2 = false → (t.move old new).1 = t) ∧
      ((t.move old new).2 = true →
        (t.move old new).1.factsOf new = (if old = new then [] else t.factsOf old) ∧
        ((t.move old new).1.entries.filter fun e => e.1 != old && e.1 != new) =
          (t.entries.filter fun e => e.1 != old && e.1 != new) ∧
        old ∉ (t.move old new).1.keys ∧
        t.all.Perm ((t.move old new).1.all ++ t.factsOf new) ∧
        (((t.factsOf old).Sublist ((t.move old new).1.factsOf new) ∧ t.all.Perm (t.move old new).1.all) ↔
          new ∉ t.keys)) := by
  have hfilled : t.Filled := ht ▸ filled_ofHistory history
  refine ⟨move_eq_of_none, fun h => ?_⟩
  obtain ⟨hold, hmove⟩ := exists_of_move h
  refine ⟨factsOf_move h, ?_, ?_, all_move h, ?_, ?_⟩
  · exact filter_move (p := fun k => k != old && k != new) h (by simp) (by simp)
  · simp [hmove, Table.keys_erase]
  · rintro ⟨-, hperm⟩
    -- What is lost has to have length zero.
    have hlength := (all_move h).length_eq
    rw [List.length_append, hperm.length_eq] at hlength
    have hnone : t.factsOf new = [] := List.length_eq_zero_iff.1 (by omega)
    exact (hfilled.factsOf_eq_nil_iff new).1 hnone
  · intro hnew
    have hne : old ≠ new := by
      rintro rfl
      exact hnew ((t.isSome_get? old).1 (by simp [hold]))
    have hnone : t.factsOf new = [] := (hfilled.factsOf_eq_nil_iff new).2 hnew
    have hall := all_move h
    rw [hnone, List.append_nil] at hall
    have hmoved : (t.move old new).1.factsOf new = t.factsOf old := by rw [factsOf_move h, if_neg hne]
    exact ⟨hmoved ▸ List.Sublist.refl _, hall⟩

/-- Facts of two methods. -/
def twoMethods : Facts :=
  ofHistory [.push "notify" (.direction .reverse), .push "publish" (.compare "this._date" .lt "evt._date")]

/-- A key that is moved to itself loses its facts, and a key that another one is moved to loses its own. -/
theorem move_loses_twoMethods :
    (twoMethods.move "notify" "notify").2 = true ∧ (twoMethods.move "notify" "notify").1.factsOf "notify" = [] ∧
      ¬twoMethods.all.Perm (twoMethods.move "notify" "notify").1.all ∧
      (twoMethods.move "notify" "publish").2 = true ∧
      (twoMethods.move "notify" "publish").1.factsOf "publish" = [.direction .reverse] ∧
      ¬twoMethods.all.Perm (twoMethods.move "notify" "publish").1.all := by
  have hself : (twoMethods.move "notify" "notify").2 = true := by decide +kernel
  have hother : (twoMethods.move "notify" "publish").2 = true := by decide +kernel
  obtain ⟨hfacts, -, -, hperm, -⟩ := (move_loses _ "notify" "notify" (t := twoMethods) rfl).2 hself
  obtain ⟨hfacts', -, -, hperm', -⟩ := (move_loses _ "notify" "publish" (t := twoMethods) rfl).2 hother
  refine ⟨hself, hfacts, ?_, hother, hfacts', ?_⟩
  · intro h
    have hlength := (h.symm.trans hperm).length_eq
    rw [List.length_append] at hlength
    have hlost : (twoMethods.factsOf "notify").length = 1 := by decide +kernel
    omega
  · intro h
    have hlength := (h.symm.trans hperm').length_eq
    rw [List.length_append] at hlength
    have hlost : (twoMethods.factsOf "publish").length = 1 := by decide +kernel
    omega

end Moves

end Facts

end ObserverPattern
