import ObserverPattern.Proofs.Decoder.Rules
import ObserverPattern.Proofs.Participants

/-!
# What the pass of a decoder sees of a place

A traversal shows the pass the registry as it is at that time. For expressions and methods only the
skeleton of the registry, the class and the method matter, not the depth (`onExpr_congr`,
`onMethod_congr`), so the pass does the same at the same place of the program that comes out.
-/

namespace ObserverPattern

/-- Two places that a decoder cannot tell apart: the same class and method, in registries with one skeleton. -/
structure Position.Alike (p q : Position) : Prop where
  skeleton : q.registry.skeleton = p.registry.skeleton
  owner : q.owner = p.owner
  method : q.method = p.method

namespace Decoder

variable {d : Decoder} {p q : Position}

theorem boundSubject_skeleton (aux : String) (r : Registry) :
    d.boundSubject r.skeleton aux = (d.boundSubject r aux).map ClassDecl.skeleton := by
  unfold boundSubject
  cases d.resolved.get? aux with
  | none => rfl
  | some participants => exact Registry.getClass_skeleton r participants.subject

/-- Where registries have one skeleton, a dispatcher has subjects of one name. -/
theorem boundSubject_of_skeleton_eq {r r' : Registry} (h : r'.skeleton = r.skeleton) {aux : String}
    {subject : ClassDecl} (hsubject : d.boundSubject r aux = .ok subject) :
    ∃ subject', d.boundSubject r' aux = .ok subject' ∧ subject'.name = subject.name := by
  have hmap : (d.boundSubject r' aux).map ClassDecl.skeleton = .ok subject.skeleton := by
    rw [← boundSubject_skeleton, h, boundSubject_skeleton, hsubject]
    rfl
  cases hbound : d.boundSubject r' aux with
  | error e =>
    rw [hbound] at hmap
    cases hmap
  | ok subject' =>
    rw [hbound] at hmap
    have hskeleton : subject'.skeleton = subject.skeleton := Except.ok.inj hmap
    have hname : subject'.skeleton.name = subject.skeleton.name := by rw [hskeleton]
    exact ⟨subject', rfl, hname⟩

theorem concreteName_skeleton (name : String) (r : Registry) :
    d.concreteName r.skeleton name = d.concreteName r name := by
  unfold concreteName
  by_cases hmarked : Text.occursIn d.conventions.lowerMarker name = true
  · rw [if_pos hmarked, if_pos hmarked]
    cases d.auxNames.find? fun aux => Text.occursIn (Text.lower aux) name with
    | none => rfl
    | some aux =>
      simp only [boundSubject_skeleton]
      cases d.boundSubject r aux <;> rfl
  · rw [if_neg hmarked, if_neg hmarked]

theorem concreteType_skeleton (ty : String) (r : Registry) : d.concreteType r.skeleton ty = d.concreteType r ty := by
  unfold concreteType
  cases d.auxNames.find? (Text.hasWord · ty) with
  | none => rfl
  | some aux =>
    simp only [boundSubject_skeleton]
    cases d.boundSubject r aux <;> rfl

private theorem location_congr (h : p.Alike q) : q.location = p.location := by
  have hclass := fun id => Registry.congr_skeleton (·.className id) (Registry.className_skeleton id) h.skeleton
  have hmethod := fun id => Registry.congr_skeleton (·.methodName id) (Registry.methodName_skeleton id) h.skeleton
  unfold Position.location
  simp only [hclass, hmethod, h.owner, h.method]

private theorem factKey_congr (h : p.Alike q) : factKey q = factKey p := by
  have hsignature := fun id => Registry.congr_skeleton (·.signature id) (Registry.signature_skeleton id) h.skeleton
  unfold factKey
  rw [h.method]
  cases p.method with
  | none => exact location_congr h
  | some id => exact hsignature id

private theorem twoOperands_congr (h : p.Alike q) (name : String) (operands : List Expr) :
    twoOperands q name operands = twoOperands p name operands := by
  unfold twoOperands
  rw [location_congr h]

private theorem resolvePlaceholder_congr (h : p.Alike q) (name : String) (operands : List Expr) :
    d.resolvePlaceholder q name operands = d.resolvePlaceholder p name operands := by
  unfold resolvePlaceholder
  rw [twoOperands_congr h, factKey_congr h]

private theorem resolveCall_congr (h : p.Alike q) (callee : Expr) (args : List Expr) :
    d.resolveCall q callee args = d.resolveCall p callee args := by
  have hclass := fun aux hole index => Registry.congr_skeleton (Participants.classOf · aux hole index)
    (fun r => Participants.classOf_skeleton r aux hole index) h.skeleton
  unfold resolveCall
  simp only [location_congr h, hclass]

/-- The pass does the same to an expression at places that are alike. -/
theorem onExpr_congr (h : p.Alike q) (e : Expr) : d.onExpr q e = d.onExpr p e := by
  have hname := fun name => Registry.congr_skeleton (d.concreteName · name) (concreteName_skeleton name) h.skeleton
  have htype := fun ty => Registry.congr_skeleton (d.concreteType · ty) (concreteType_skeleton ty) h.skeleton
  cases e with
  | placeholder name operands => exact resolvePlaceholder_congr h name operands
  | call callee args => exact resolveCall_congr h callee args
  | id name => simp only [onExpr, hname]
  | field receiver name => simp only [onExpr, hname]
  | cast ty inner => simp only [onExpr, htype]
  | literal l => rfl
  | new ty args => rfl
  | binary op left right => rfl

/-- The pass does the same to a method as a whole at places that are alike. -/
theorem onMethod_congr (h : p.Alike q) (b : Block) : d.onMethod q b = d.onMethod p b := by
  cases hmethod : p.method with
  | none =>
    unfold onMethod
    rw [h.method, hmethod]
  | some id =>
    cases b with
    | nil =>
      unfold onMethod
      rw [h.method, hmethod]
    | cons first rest =>
      have hinit : (q.registry.getMethod id).map (·.isInit) = (p.registry.getMethod id).map (·.isInit) := by
        refine Registry.congr_skeleton (fun r => (r.getMethod id).map (·.isInit)) ?_ h.skeleton
        intro r
        rw [Registry.getMethod_skeleton]
        cases r.getMethod id <;> rfl
      rw [onMethod_eq hmethod, onMethod_eq (h.method.trans hmethod), hinit]

end Decoder

end ObserverPattern
