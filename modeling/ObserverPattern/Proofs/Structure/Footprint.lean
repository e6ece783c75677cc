import ObserverPattern.Proofs.Structure.Frame

/-!
# What the structural phase reads

Giving the participants of a dispatcher their code reads the skeleton of the registry, the class and
the bodies that it goes on to write, and one body more, that of the generic handle.

* `Registry.AgreeOn`: two registries look the same at some classes and some methods;
* `transplant_follows`: if the generic handle is among these methods, giving the participants their code
  succeeds in the second registry whenever it does in the first, and the results look the same there too.
-/

namespace ObserverPattern

/-- Registries with one skeleton that agree on some classes and some methods. -/
structure Registry.AgreeOn (classes : ClassId → Prop) (methods : MethodId → Prop) (r s : Registry) : Prop where
  skeleton : s.skeleton = r.skeleton
  class?_eq : ∀ id, classes id → s.class? id = r.class? id
  method?_eq : ∀ id, methods id → s.method? id = r.method? id

namespace Registry.AgreeOn

variable {classes : ClassId → Prop} {methods : MethodId → Prop} {r s : Registry}

theorem symm (h : AgreeOn classes methods r s) : AgreeOn classes methods s r :=
  ⟨h.skeleton.symm, fun id hid => (h.class?_eq id hid).symm, fun id hid => (h.method?_eq id hid).symm⟩

/-! ## Changes -/

theorem updateClass (h : AgreeOn classes methods r s) (id : ClassId) {f : ClassDecl → ClassDecl}
    (hf : ∀ c, (f c).skeleton = c.skeleton) :
    Follows (AgreeOn classes methods) (r.updateClass id f) (s.updateClass id f) := by
  intro r' hr'
  obtain ⟨hid, rfl⟩ := updateClass_eq_ok.1 hr'
  refine ⟨_, updateClass_eq_ok.2 ⟨class?_isSome_congr h.skeleton id ▸ hid, rfl⟩, ?_, ?_, h.method?_eq⟩
  · rw [skeleton_modifyClass hf, skeleton_modifyClass hf, h.skeleton]
  · intro k hk
    rw [class?_modifyClass, class?_modifyClass, h.class?_eq k hk]

theorem updateMethod (h : AgreeOn classes methods r s) (id : MethodId) {f : MethodDecl → MethodDecl}
    (hf : ∀ m, (f m).header = m.header) :
    Follows (AgreeOn classes methods) (r.updateMethod id f) (s.updateMethod id f) := by
  intro r' hr'
  obtain ⟨hid, rfl⟩ := updateMethod_eq_ok.1 hr'
  refine ⟨_, updateMethod_eq_ok.2 ⟨method?_isSome_congr h.skeleton id ▸ hid, rfl⟩, ?_, h.class?_eq, ?_⟩
  · rw [skeleton_modifyMethod hf, skeleton_modifyMethod hf, h.skeleton]
  · intro k hk
    rw [method?_modifyMethod, method?_modifyMethod, h.method?_eq k hk]

theorem putBody (h : AgreeOn classes methods r s) (id : MethodId) (body : Block) :
    Follows (AgreeOn classes methods) (r.putBody id body) (s.putBody id body) :=
  h.updateMethod id fun _ => rfl

/-- What is read off the skeleton is the same. -/
theorem read {α : Type} (h : AgreeOn classes methods r s) (f : Registry → Except DecodeFault α)
    (hf : ∀ r, f r.skeleton = f r) : Follows Eq (f r) (f s) := .of_eq (congr_skeleton f hf h.skeleton)

/-! ## Giving participants their code -/

private theorem install (h : AgreeOn classes methods r s) (c : Conventions) (subject observer : ClassId) :
    Follows (fun x y => AgreeOn classes methods x.1 y.1 ∧ x.2 = y.2) (Collection.install c r subject observer)
      (Collection.install c s subject observer) := by
  unfold Collection.install
  refine (h.read (·.className observer) (className_skeleton observer)).bind ?_
  rintro name _ rfl
  refine (h.read (·.initializers subject) (initializers_skeleton subject)).bind ?_
  rintro constructors _ rfl
  refine (Follows.foldlM (fun id r₁ s₁ h₁ => h₁.updateMethod id fun _ => rfl) h).bind fun r₁ s₁ h₁ => ?_
  refine (h₁.updateClass subject (by intro _; rfl)).bind fun r₂ s₂ h₂ => ?_
  exact .pure ⟨h₂, rfl⟩

private theorem defineOptional (h : AgreeOn classes methods r s) (op : Collection.Operation) (id : Option MethodId)
    (collection : String) (observer : ClassId) :
    Follows (AgreeOn classes methods) (Collection.defineOptional op r id collection observer)
      (Collection.defineOptional op s id collection observer) := by
  cases id with
  | none => exact .pure h
  | some id =>
    refine (h.read (·.className observer) (className_skeleton observer)).bind ?_
    rintro name _ rfl
    refine (h.read (Collection.parameterOfType · id name) (Collection.parameterOfType_skeleton id name)).bind ?_
    rintro parameter _ rfl
    exact h.putBody id _

private theorem handle (h : AgreeOn classes methods r s) (c : Conventions) (aux : String) (p : Participants)
    {generic : MethodId} (hgeneric : methods generic) :
    Follows (AgreeOn classes methods) (HandleBody.transplant c r aux p generic)
      (HandleBody.transplant c s aux p generic) := by
  have hmethod : s.getMethod generic = r.getMethod generic := by
    unfold getMethod
    rw [h.method?_eq generic hgeneric]
  refine (h.read (HandleBody.names c · aux p) (HandleBody.names_skeleton c aux p)).bind ?_
  rintro n _ rfl
  refine (Follows.of_eq hmethod).bind ?_
  rintro m _ rfl
  refine (Follows.of_eq rfl).bind ?_
  rintro body _ rfl
  exact h.putBody p.handle body

/-- Registries that agree on the generic handle go on to agree where they do. -/
theorem transplant_follows (h : AgreeOn classes methods r s) (c : Conventions) (aux : String) (p : Participants)
    {generic : MethodId} (hgeneric : methods generic) :
    Follows (AgreeOn classes methods) (Decoder.transplant c r aux p generic)
      (Decoder.transplant c s aux p generic) := by
  rw [Decoder.transplant_eq, Decoder.transplant_eq]
  refine (h.install c p.subject p.observer).bind ?_
  rintro ⟨r₁, collection⟩ ⟨s₁, _⟩ ⟨h₁, rfl⟩
  refine (h₁.defineOptional .add p.attach collection p.observer).bind fun r₂ s₂ h₂ => ?_
  refine (h₂.defineOptional .remove p.detach collection p.observer).bind fun r₃ s₃ h₃ => ?_
  exact h₃.handle c aux p hgeneric

end Registry.AgreeOn

end ObserverPattern
