import ObserverPattern.Proofs.Program.Skeleton

/-!
# Programs whose indices are in range

`Program.InRange` says that every index stored in a program points into its registry. The key facts:
`validate` accepts exactly these programs (`validate_eq_ok_iff`), and the property depends on the
skeleton of the registry only (`InRange.of_skeleton_eq`).
-/

namespace ObserverPattern.Program

/-- Every class and method index of a program points into its registry. -/
structure InRange (p : Program) : Prop where
  listed : ∀ id ∈ p.template.classes, (p.registry.class? id).isSome
  methods : ∀ c ∈ p.registry.classes, ∀ m ∈ c.methods, (p.registry.method? m).isSome
  dispatchers : ∀ c ∈ p.registry.classes, ∀ d, c.dispatcher = some d →
    (p.registry.class? d.event).isSome ∧ (p.registry.method? d.handle).isSome
  owners : ∀ m ∈ p.registry.methods, (p.registry.class? m.owner).isSome

private theorem classFault?_eq_none_iff {r : Registry} {c : ClassDecl} :
    classFault? r c = none ↔ (∀ m ∈ c.methods, (r.method? m).isSome) ∧
      ∀ d, c.dispatcher = some d → (r.class? d.event).isSome ∧ (r.method? d.handle).isSome := by
  unfold classFault?
  cases hm : c.methods.find? fun m => (r.method? m).isNone with
  | some m =>
    have hnone := List.find?_some hm
    have hmem := List.mem_of_find?_eq_some hm
    simp only [reduceCtorEq, false_iff]
    intro h
    have := h.1 m hmem
    simp_all
  | none =>
    rw [List.find?_eq_none] at hm
    have hall : ∀ m ∈ c.methods, (r.method? m).isSome := by
      intro m hmem
      have := hm m hmem
      simpa [Option.isSome_iff_ne_none] using this
    cases hd : c.dispatcher with
    | none => simpa using hall
    | some d =>
      cases he : r.class? d.event with
      | none => simp [he]
      | some e =>
        cases hh : r.method? d.handle with
        | none => simp [he, hh]
        | some m => simpa [he, hh] using hall

/-- A program is accepted exactly if its indices are in range. -/
theorem validate_eq_ok_iff {p : Program} : p.validate = .ok () ↔ p.InRange := by
  have hvalid : p.validate = .ok () ↔ p.fault? = none := by
    unfold validate
    cases p.fault? <;> simp
  rw [hvalid]
  unfold fault?
  simp only [Option.orElse_eq_orElse, Option.orElse_eq_or, Option.or_eq_none_iff, Option.map_eq_none_iff,
    List.find?_eq_none, List.findSome?_eq_none_iff, classFault?_eq_none_iff, Option.isNone_iff_eq_none]
  constructor
  · rintro ⟨hlisted, hclasses, howners⟩
    refine ⟨?_, fun c hc => (hclasses c hc).1, fun c hc => (hclasses c hc).2, ?_⟩
    · intro id hid
      exact Option.isSome_iff_ne_none.2 (hlisted id hid)
    · intro m hm
      exact Option.isSome_iff_ne_none.2 (howners m hm)
  · intro h
    refine ⟨?_, fun c hc => ⟨h.methods c hc, h.dispatchers c hc⟩, ?_⟩
    · intro id hid
      exact Option.isSome_iff_ne_none.1 (h.listed id hid)
    · intro m hm
      exact Option.isSome_iff_ne_none.1 (h.owners m hm)

private theorem inRange_skeleton (t : Template) (r : Registry) : InRange ⟨t, r.skeleton⟩ ↔ InRange ⟨t, r⟩ := by
  have hclass : ∀ id, (r.skeleton.class? id).isSome = (r.class? id).isSome := by
    intro id
    rw [Registry.class?_skeleton, Option.isSome_map]
  have hmethod : ∀ id, (r.skeleton.method? id).isSome = (r.method? id).isSome := by
    intro id
    rw [Registry.method?_skeleton, Option.isSome_map]
  constructor
  · rintro ⟨hlisted, hmethods, hdispatchers, howners⟩
    simp only [hclass, hmethod] at hlisted hmethods hdispatchers howners
    refine ⟨hlisted, ?_, ?_, ?_⟩
    · intro c hc
      exact hmethods c.skeleton (List.mem_map_of_mem hc)
    · intro c hc
      exact hdispatchers c.skeleton (List.mem_map_of_mem hc)
    · intro m hm
      exact howners m.header (List.mem_map_of_mem hm)
  · intro h
    refine ⟨?_, ?_, ?_, ?_⟩ <;> simp only [hclass, hmethod]
    · exact h.listed
    · intro c hc
      obtain ⟨c₀, hc₀, rfl⟩ := List.mem_map.1 hc
      exact h.methods c₀ hc₀
    · intro c hc
      obtain ⟨c₀, hc₀, rfl⟩ := List.mem_map.1 hc
      exact h.dispatchers c₀ hc₀
    · intro m hm
      obtain ⟨m₀, hm₀, rfl⟩ := List.mem_map.1 hm
      exact h.owners m₀ hm₀

/-- Indices stay in range as long as the skeleton stays and the template lists no new classes. -/
theorem InRange.of_skeleton_eq {p p' : Program} (h : p.InRange) (hr : p'.registry.skeleton = p.registry.skeleton)
    (ht : p'.template.classes ⊆ p.template.classes) : p'.InRange := by
  obtain ⟨t, r⟩ := p
  obtain ⟨t', r'⟩ := p'
  rw [← inRange_skeleton] at h ⊢
  simp only at hr
  rw [hr]
  exact ⟨fun id hid => h.listed id (ht hid), h.methods, h.dispatchers, h.owners⟩

end ObserverPattern.Program
