import Mathlib.Data.List.Induction
import Mathlib.Logic.Relation
import ObserverPattern.Program.Hierarchy

/-!
# Supertypes

The hierarchy of a registry is the reflexive and transitive closure of what its classes declare. A declared name
stands for the last class that bears it (`Registry.LastNamed`, `Registry.Declares`).

* `mem_parents`: a step of the search is a declaration;
* `Finds`: the way of a search that ends, one rule for a class that has been seen and one for any other;
* `Finds.sound`: only what can be reached is found;
* `Underway`: between two steps the parents of the classes seen have been seen or are pending, so that at the end
  (`Finds.complete`) nothing is missing;
* `searchFrom_eq`: the search ends, and more steps find the same;
* `ofRegistry_le`: a class is below another one exactly if declarations lead from the one to the other.
-/

namespace ObserverPattern

namespace Registry

/-- A class is the last one that bears a name. -/
def LastNamed (r : Registry) (name : String) (id : ClassId) : Prop :=
  (∃ c, r.class? id = some c ∧ c.name = name) ∧
    ∀ later c, r.class? later = some c → c.name = name → later.index ≤ id.index

/-- A class declares another one to be its superclass or one of its interfaces. -/
def Declares (r : Registry) (sub sup : ClassId) : Prop :=
  ∃ c name, r.class? sub = some c ∧ (c.superclass = some name ∨ name ∈ c.interfaces) ∧ r.LastNamed name sup

/-! ## Names -/

/-- Looking a name up from the last class on finds the last class that bears it. -/
theorem lookup_classesFromLast {r : Registry} {name : String} {id : ClassId} :
    r.classesFromLast.lookup name = some id ↔ r.LastNamed name id := by
  obtain ⟨classes, methods⟩ := r
  simp only [classesFromLast, LastNamed, class?]
  induction classes using List.reverseRecOn with
  | nil => simp
  | append_singleton classes c ih =>
    rw [List.mapIdx_concat, List.reverse_concat, List.lookup_cons]
    by_cases hname : c.name = name
    · subst hname
      simp only [beq_self_eq_true, Option.some.injEq]
      constructor
      · rintro rfl
        refine ⟨⟨c, by simp, rfl⟩, fun later c' hlater _ => ?_⟩
        have := (List.getElem?_eq_some_iff.1 hlater).1
        simp only [List.length_append, List.length_singleton] at this
        show later.index ≤ classes.length
        omega
      · rintro ⟨⟨c', hc', -⟩, hlast⟩
        have hle : classes.length ≤ id.index := hlast ⟨classes.length⟩ c (by simp) rfl
        have hlt := (List.getElem?_eq_some_iff.1 hc').1
        simp only [List.length_append, List.length_singleton] at hlt
        obtain ⟨index⟩ := id
        simp only at hle hlt
        congr 1
        omega
    · -- A class of another name at the end bears on neither side.
      have hbears : ∀ (k : ClassId) (c' : ClassDecl), c'.name = name →
          ((classes ++ [c])[k.index]? = some c' ↔ classes[k.index]? = some c') := by
        intro k c' hc'
        rw [List.getElem?_append]
        split
        · rfl
        · next hge =>
          rw [List.getElem?_eq_none (Nat.le_of_not_lt hge), List.getElem?_singleton]
          constructor
          · intro h
            split at h
            · exact absurd (Option.some.inj h ▸ hc') hname
            · cases h
          · nofun
      rw [beq_false_of_ne (Ne.symm hname)]
      refine ih.trans (and_congr (exists_congr fun c' => ?_) (forall₂_congr fun later c' => ?_))
      · exact and_congr_left fun hc' => (hbears id c' hc').symm
      · constructor
        · exact fun h hlater hc' => h ((hbears later c' hc').1 hlater) hc'
        · exact fun h hlater hc' => h ((hbears later c' hc').2 hlater) hc'

end Registry

namespace Hierarchy

variable {r : Registry} {supertypes : Array (List ClassId)} {pending : List ClassId} {seen found : ClassSet}
  {steps : Nat}

/-! ## The search -/

theorem size_supertypes (r : Registry) : r.supertypes.size = r.classes.length := by
  simp [Registry.supertypes]

/-- The parents of a class are those that it declares. -/
theorem mem_parents {sub sup : ClassId} : sup ∈ parents r.supertypes sub ↔ r.Declares sub sup := by
  have hparents : parents r.supertypes sub = ((r.class? sub).map (·.supertypes r.classesFromLast)).getD [] := by
    simp [parents, Registry.supertypes, Registry.class?]
  rw [hparents]
  unfold Registry.Declares
  cases r.class? sub with
  | none => simp
  | some c =>
    simp only [Option.map_some, Option.getD_some, ClassDecl.supertypes, List.mem_filterMap, List.mem_append,
      Option.mem_toList, Registry.lookup_classesFromLast, Option.some.injEq]
    constructor
    · rintro ⟨name, hname, hlast⟩
      exact ⟨c, name, rfl, hname, hlast⟩
    · rintro ⟨_, name, rfl, hname, hlast⟩
      exact ⟨name, hname, hlast⟩

/-- All parents are classes of the registry. -/
theorem parents_lt {sub sup : ClassId} (hsup : sup ∈ parents r.supertypes sub) :
    sup.index < r.supertypes.size := by
  obtain ⟨_, _, -, -, ⟨c, hc, -⟩, -⟩ := mem_parents.1 hsup
  rw [size_supertypes]
  exact (List.getElem?_eq_some_iff.1 hc).1

/-- The way of a search: what it finds from what is pending and what has been seen. -/
inductive Finds (supertypes : Array (List ClassId)) : List ClassId → ClassSet → ClassSet → Prop
  | done (seen : ClassSet) : Finds supertypes [] seen seen
  | skip {id : ClassId} {pending : List ClassId} {seen found : ClassSet} (hid : seen.contains id = true)
      (hrest : Finds supertypes pending seen found) : Finds supertypes (id :: pending) seen found
  | visit {id : ClassId} {pending : List ClassId} {seen found : ClassSet} (hid : seen.contains id = false)
      (hrest : Finds supertypes ((parents supertypes id).reverse ++ pending) (seen.insert id) found) :
      Finds supertypes (id :: pending) seen found

theorem finds_of_search (hsearch : search supertypes steps pending seen = some found) :
    Finds supertypes pending seen found := by
  induction steps generalizing pending seen with
  | zero =>
    cases pending with
    | nil =>
      obtain rfl : seen = found := by simpa [search] using hsearch
      exact .done seen
    | cons id pending => simp [search] at hsearch
  | succ steps ih =>
    cases pending with
    | nil =>
      obtain rfl : seen = found := by simpa [search] using hsearch
      exact .done seen
    | cons id pending =>
      rw [search] at hsearch
      split at hsearch
      · next hid => exact .skip hid (ih hsearch)
      · next hid => exact .visit (Bool.not_eq_true _ ▸ hid) (ih hsearch)

/-- Whatever number of steps the search of a result may take, it gives nothing else. -/
theorem Finds.search_eq (hfinds : Finds supertypes pending seen found) (steps : Nat) :
    search supertypes steps pending seen = some found ∨ search supertypes steps pending seen = none := by
  induction hfinds generalizing steps with
  | done seen => exact .inl (by cases steps <;> rfl)
  | skip hid _ ih =>
    cases steps with
    | zero => exact .inr rfl
    | succ steps =>
      rw [search, if_pos hid]
      exact ih steps
  | visit hid _ ih =>
    cases steps with
    | zero => exact .inr rfl
    | succ steps =>
      rw [search, if_neg (Bool.not_eq_true _ ▸ hid)]
      exact ih steps

/-- What is closed under parents and holds of the classes seen and pending holds of all that is found. -/
theorem Finds.sound {P : ClassId → Prop} (hP : ∀ a, P a → ∀ b ∈ parents supertypes a, P b)
    (hfinds : Finds supertypes pending seen found) (hpending : ∀ a ∈ pending, P a)
    (hseen : ∀ a, seen.contains a = true → P a) : ∀ a, found.contains a = true → P a := by
  induction hfinds with
  | done seen => exact hseen
  | skip _ _ ih => exact ih (fun a ha => hpending a (List.mem_cons_of_mem _ ha)) hseen
  | @visit id _ _ _ _ _ ih =>
    have hid := hpending id List.mem_cons_self
    refine ih (fun a ha => ?_) fun a ha => ?_
    · rcases List.mem_append.1 ha with ha | ha
      · exact hP id hid a (List.mem_reverse.1 ha)
      · exact hpending a (List.mem_cons_of_mem id ha)
    · rw [ClassSet.contains_insert, Bool.or_eq_true, decide_eq_true_eq] at ha
      rcases ha with ⟨rfl, -⟩ | ha
      · exact hid
      · exact hseen a ha

/-- Between two steps: all that is pending is a class of the registry, and the parents of a class that has been seen
have been seen or are pending. -/
structure Underway (supertypes : Array (List ClassId)) (pending : List ClassId) (seen : ClassSet) : Prop where
  size : seen.flags.size = supertypes.size
  inside : ∀ a ∈ pending, a.index < supertypes.size
  covered : ∀ a, seen.contains a = true → ∀ b ∈ parents supertypes a, seen.contains b = true ∨ b ∈ pending

theorem Underway.skip {id : ClassId} (hunderway : Underway supertypes (id :: pending) seen)
    (hid : seen.contains id = true) : Underway supertypes pending seen where
  size := hunderway.size
  inside := fun a ha => hunderway.inside a (List.mem_cons_of_mem id ha)
  covered := by
    intro a ha b hb
    rcases hunderway.covered a ha b hb with hb | hb
    · exact .inl hb
    · rcases List.mem_cons.1 hb with rfl | hb
      · exact .inl hid
      · exact .inr hb

theorem Underway.contains_insert {id : ClassId} (hunderway : Underway supertypes (id :: pending) seen) :
    (seen.insert id).contains id = true := by
  have hid := hunderway.inside id List.mem_cons_self
  simp [ClassSet.contains_insert, hunderway.size, hid]

theorem contains_insert_of_contains {id a : ClassId} (ha : seen.contains a = true) :
    (seen.insert id).contains a = true := by
  simp [ClassSet.contains_insert, ha]

theorem Underway.visit (hlt : ∀ a, ∀ b ∈ parents supertypes a, b.index < supertypes.size) {id : ClassId}
    (hunderway : Underway supertypes (id :: pending) seen) :
    Underway supertypes ((parents supertypes id).reverse ++ pending) (seen.insert id) where
  size := Array.size_setIfInBounds.trans hunderway.size
  inside := by
    intro a ha
    rcases List.mem_append.1 ha with ha | ha
    · exact hlt id a (List.mem_reverse.1 ha)
    · exact hunderway.inside a (List.mem_cons_of_mem id ha)
  covered := by
    intro a ha b hb
    rw [ClassSet.contains_insert, Bool.or_eq_true, decide_eq_true_eq] at ha
    rcases ha with ⟨rfl, -⟩ | ha
    · exact .inr (List.mem_append_left _ (List.mem_reverse.2 hb))
    · rcases hunderway.covered a ha b hb with hb | hb
      · exact .inl (contains_insert_of_contains hb)
      · rcases List.mem_cons.1 hb with rfl | hb
        · exact .inl hunderway.contains_insert
        · exact .inr (List.mem_append_right _ hb)

/-- The search finds what has been seen and what is pending, and with a class all its parents. -/
theorem Finds.complete (hlt : ∀ a, ∀ b ∈ parents supertypes a, b.index < supertypes.size)
    (hfinds : Finds supertypes pending seen found) (hunderway : Underway supertypes pending seen) :
    (∀ a, seen.contains a = true ∨ a ∈ pending → found.contains a = true) ∧
      ∀ a, found.contains a = true → ∀ b ∈ parents supertypes a, found.contains b = true := by
  induction hfinds with
  | done seen => exact ⟨by simp, by simpa using hunderway.covered⟩
  | skip hid _ ih =>
    obtain ⟨hfound, hclosed⟩ := ih (hunderway.skip hid)
    refine ⟨?_, hclosed⟩
    rintro a (ha | ha)
    · exact hfound a (.inl ha)
    · rcases List.mem_cons.1 ha with rfl | ha
      · exact hfound a (.inl hid)
      · exact hfound a (.inr ha)
  | visit _ _ ih =>
    obtain ⟨hfound, hclosed⟩ := ih (hunderway.visit hlt)
    refine ⟨?_, hclosed⟩
    rintro a (ha | ha)
    · exact hfound a (.inl (contains_insert_of_contains ha))
    · rcases List.mem_cons.1 ha with rfl | ha
      · exact hfound a (.inl hunderway.contains_insert)
      · exact hfound a (.inr (List.mem_append_right _ ha))

/-! ## What is above a class -/

theorem finds_collect (supertypes : Array (List ClassId)) (id : ClassId) :
    Finds supertypes [id] (ClassSet.empty supertypes.size) (collect supertypes id) :=
  finds_of_search (Option.some_get (searchFrom_isSome supertypes id)).symm

/-- The search from a class ends, and more steps find the same. -/
theorem searchFrom_eq (supertypes : Array (List ClassId)) (id : ClassId)
    (hsteps : searchSteps supertypes ≤ steps) : searchFrom supertypes steps id = some (collect supertypes id) := by
  have hends : (searchFrom supertypes steps id).isSome := search_isSome (by simp [ClassSet.empty]) hsteps
  rcases (finds_collect supertypes id).search_eq steps with hfound | hnone
  · exact hfound
  · rw [searchFrom, hnone] at hends
    cases hends

/-- The search starts with one class pending and none seen. -/
private theorem underway_start {id : ClassId} (hid : id.index < supertypes.size) :
    Underway supertypes [id] (ClassSet.empty supertypes.size) where
  size := by simp [ClassSet.empty]
  inside := by simpa using hid
  covered := by simp [ClassSet.contains_empty]

/-- The search from a class of the registry finds what declarations lead to. -/
theorem contains_collect {sub sup : ClassId} (hsub : sub.index < r.supertypes.size) :
    (collect r.supertypes sub).contains sup = true ↔ Relation.ReflTransGen r.Declares sub sup := by
  have hfinds := finds_collect r.supertypes sub
  constructor
  · refine hfinds.sound (P := Relation.ReflTransGen r.Declares sub) ?_ ?_ ?_ sup
    · exact fun a ha b hb => ha.tail (mem_parents.1 hb)
    · intro a ha
      obtain rfl := List.mem_singleton.1 ha
      exact .refl
    · simp [ClassSet.contains_empty]
  · obtain ⟨hfound, hclosed⟩ := hfinds.complete (fun _ _ => parents_lt) (underway_start hsub)
    intro hpath
    induction hpath with
    | refl => exact hfound sub (.inr List.mem_cons_self)
    | tail _ hstep ih => exact hclosed _ ih _ (mem_parents.2 hstep)

/-- The hierarchy keeps what the search finds from each class of its registry. -/
theorem ofRegistry_above (r : Registry) (id : ClassId) : (ofRegistry r).above id =
    if id.index < r.classes.length then collect r.supertypes id else ClassSet.empty 0 := by
  simp only [above, ofRegistry, List.getElem?_toArray, List.getElem?_map]
  split
  · next hid => simp [List.getElem?_range hid]
  · next hid => rw [List.getElem?_eq_none (by simpa using hid), Option.map_none, Option.getD_none]

/-- A class is another one or below it exactly if declarations lead from the one to the other, each to the last class
that bears the declared name. The search for what is above a class ends, whatever cycles there are: with any number of
steps from `searchSteps` on it finds what the hierarchy keeps. -/
theorem ofRegistry_le (r : Registry) :
    (∀ id steps, id.index < r.classes.length → searchSteps r.supertypes ≤ steps →
      searchFrom r.supertypes steps id = some ((ofRegistry r).above id)) ∧
    (∀ sub sup, (ofRegistry r).le sub sup = true ↔ Relation.ReflTransGen r.Declares sub sup) ∧
    (∀ a, (ofRegistry r).le a a = true) ∧
    ∀ a b c, (ofRegistry r).le a b = true → (ofRegistry r).le b c = true → (ofRegistry r).le a c = true := by
  have hle : ∀ sub sup, (ofRegistry r).le sub sup = true ↔ Relation.ReflTransGen r.Declares sub sup := by
    intro sub sup
    rw [le, Bool.or_eq_true, beq_iff_eq, ofRegistry_above]
    by_cases hsub : sub.index < r.classes.length
    · rw [if_pos hsub, contains_collect (size_supertypes r ▸ hsub), or_iff_right_of_imp]
      rintro rfl
      exact .refl
    · rw [if_neg hsub, ClassSet.contains_empty]
      constructor
      · rintro (rfl | h)
        · exact .refl
        · cases h
      · intro hpath
        rcases hpath.cases_head with rfl | ⟨next, ⟨c, _, hc, -⟩, -⟩
        · exact .inl rfl
        · exact absurd (List.getElem?_eq_some_iff.1 hc).1 hsub
  refine ⟨fun id steps hid hsteps => ?_, hle, fun a => (hle a a).2 .refl, fun a b c hab hbc => ?_⟩
  · rw [ofRegistry_above, if_pos hid]
    exact searchFrom_eq r.supertypes id hsteps
  · exact (hle a c).2 (((hle a b).1 hab).trans ((hle b c).1 hbc))

/-- Two classes of one name, a class below itself, two classes below one another, and a name that no class bears. -/
def knot : Registry where
  classes :=
    [{ ClassDecl.empty "Ring" with superclass := some "Bead" },
      { ClassDecl.empty "Ring" with superclass := some "Ring", interfaces := ["Gone", "Knot"] },
      { ClassDecl.empty "Knot" with superclass := some "Ring" },
      { ClassDecl.empty "Bead" with superclass := some "Ring" }]
  methods := []

/-- The second `Ring` and the `Knot` are above one another and above the `Bead`; nothing leads to the first `Ring`.
Every search is over after six steps. -/
theorem ofRegistry_le_knot :
    searchFrom knot.supertypes 6 ⟨3⟩ = some ((ofRegistry knot).above ⟨3⟩) ∧
      (ofRegistry knot).le ⟨3⟩ ⟨1⟩ = true ∧ (ofRegistry knot).le ⟨1⟩ ⟨2⟩ = true ∧
        (ofRegistry knot).le ⟨2⟩ ⟨1⟩ = true ∧ (ofRegistry knot).le ⟨3⟩ ⟨2⟩ = true ∧
          Relation.ReflTransGen knot.Declares ⟨3⟩ ⟨2⟩ ∧ ¬Relation.ReflTransGen knot.Declares ⟨3⟩ ⟨0⟩ := by
  obtain ⟨hends, hle, -, htrans⟩ := ofRegistry_le knot
  have hup : (ofRegistry knot).le ⟨3⟩ ⟨1⟩ = true := by decide
  have hnext : (ofRegistry knot).le ⟨1⟩ ⟨2⟩ = true := by decide
  have hboth := htrans ⟨3⟩ ⟨1⟩ ⟨2⟩ hup hnext
  refine ⟨hends ⟨3⟩ 6 (by decide) (by decide), hup, hnext, by decide, hboth, (hle _ _).1 hboth, fun hpath => ?_⟩
  have hnone : (ofRegistry knot).le ⟨3⟩ ⟨0⟩ = false := by decide
  exact Bool.false_ne_true (hnone.symm.trans ((hle _ _).2 hpath))

end Hierarchy

end ObserverPattern
