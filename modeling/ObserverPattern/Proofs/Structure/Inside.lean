import ObserverPattern.Proofs.Program.Inside
import ObserverPattern.Proofs.Structure.Frame

/-!
# The structural phase looks up what is there

Giving the participants of a dispatcher their code follows the indices of the participants and those
stored in the registry. If all of these point into the registry, nothing is looked up or changed outside
(`transplant_inside`).
-/

namespace ObserverPattern

variable {r : Registry}

/-! ## The collection of the subject -/

namespace Collection

private theorem install_inside (h : r.Closed) (c : Conventions) {subject observer : ClassId}
    (hsubject : (r.class? subject).isSome) (hobserver : (r.class? observer).isSome) :
    Inside (fun x => x.1.skeleton = r.skeleton) (install c r subject observer) := by
  refine (Registry.className_inside hobserver).bind fun name _ => ?_
  refine (h.initializers hsubject).bind fun constructors hconstructors => ?_
  have hfold : ∀ s, Inside (fun r₁ => r₁.skeleton = r.skeleton) (constructors.foldlM (initialise s) r) := by
    intro s
    refine Inside.foldlM (fun id hid r₁ hr₁ => ?_) rfl
    have hid₁ := (Registry.method?_isSome_congr hr₁ id).trans (hconstructors id hid)
    exact (Registry.updateMethod_inside hid₁ (by intro _; rfl)).mono fun _ hr₂ => hr₂.trans hr₁
  refine (hfold _).bind fun r₁ hr₁ => ?_
  have hsubject₁ := (Registry.class?_isSome_congr hr₁ subject).trans hsubject
  exact (Registry.updateClass_inside hsubject₁ (by intro _; rfl)).bind fun r₂ hr₂ => hr₂.trans hr₁

private theorem parameterOfType_inside (h : r.Closed) {id : MethodId} (hid : (r.method? id).isSome) (ty : String) :
    Inside (fun _ => True) (parameterOfType r id ty) := by
  refine (Registry.getMethod_inside hid).bind fun m _ => ?_
  cases Param.namesOfTypes [ty] m.params with
  | nil => exact (h.signature hid).bind fun _ _ => rfl
  | cons name names => trivial

private theorem defineOptional_inside (h : r.Closed) (op : Operation) {id : Option MethodId}
    (hid : ∀ k ∈ id, (r.method? k).isSome) (collection : String) {observer : ClassId}
    (hobserver : (r.class? observer).isSome) :
    Inside (fun r' => r'.skeleton = r.skeleton) (defineOptional op r id collection observer) := by
  cases id with
  | none => rfl
  | some id =>
    refine (Registry.className_inside hobserver).bind fun name _ => ?_
    refine (parameterOfType_inside h (hid id rfl) name).bind fun parameter _ => ?_
    exact Registry.putBody_inside (hid id rfl) _

end Collection

/-! ## The handle method -/

namespace HandleBody

namespace Names

variable (n : Names)

private theorem adjust_inside (args : List Expr) : Inside (fun _ => True) (n.adjust args) := by
  unfold adjust
  cases n.omitted with
  | none => trivial
  | some argument => by_cases h : args.any (n.isArgument argument) = true <;> simp [h, Inside, DecodeFault.isMissing]

mutual

private theorem concreteExpr_inside : ∀ e, Inside (fun _ => True) (n.concreteExpr e)
  | .literal l => by
    simp only [concreteExpr]
    trivial
  | .id name => by
    simp only [concreteExpr]
    trivial
  | .field receiver name => by
    simp only [concreteExpr]
    exact (concreteExpr_inside receiver).bind fun _ _ => trivial
  | .call callee [] => by
    simp only [concreteExpr]
    exact (concreteExpr_inside callee).bind fun _ _ => (concreteExprs_inside []).bind fun _ _ => trivial
  | .call callee [arg] => by
    simp only [concreteExpr]
    exact (concreteExpr_inside callee).bind fun _ _ => (concreteExprs_inside [arg]).bind fun _ _ => trivial
  | .call callee (target :: receiver :: rest) => by
    simp only [concreteExpr]
    split
    · exact (concreteExpr_inside receiver).bind fun _ _ => (concreteExprs_inside rest).bind fun _ _ =>
        (n.adjust_inside _).bind fun _ _ => trivial
    · exact (concreteExpr_inside callee).bind fun _ _ =>
        (concreteExprs_inside (target :: receiver :: rest)).bind fun _ _ => trivial
  | .new ty args => by
    simp only [concreteExpr]
    exact (concreteExprs_inside args).bind fun _ _ => trivial
  | .binary op left right => by
    simp only [concreteExpr]
    exact (concreteExpr_inside left).bind fun _ _ => (concreteExpr_inside right).bind fun _ _ => trivial
  | .cast ty e => by
    simp only [concreteExpr]
    exact (concreteExpr_inside e).bind fun _ _ => trivial
  | .placeholder name operands => by
    simp only [concreteExpr]
    exact (concreteExprs_inside operands).bind fun _ _ => trivial

private theorem concreteExprs_inside : ∀ es, Inside (fun _ => True) (n.concreteExprs es)
  | [] => by
    simp only [concreteExprs]
    trivial
  | e :: es => by
    simp only [concreteExprs]
    exact (concreteExpr_inside e).bind fun _ _ => (concreteExprs_inside es).bind fun _ _ => trivial

end

mutual

private theorem concreteStmt_inside : ∀ s, Inside (fun _ => True) (n.concreteStmt s)
  | .expr e => by
    simp only [concreteStmt]
    exact (n.concreteExpr_inside e).bind fun _ _ => trivial
  | .assign ty target value => by
    simp only [concreteStmt]
    exact (n.concreteExpr_inside target).bind fun _ _ => (n.concreteExpr_inside value).bind fun _ _ => trivial
  | .ifElse cond thenBody elseBody => by
    simp only [concreteStmt]
    exact (n.concreteExpr_inside cond).bind fun _ _ => (concreteBlock_inside thenBody).bind fun _ _ =>
      (concreteBlock_inside elseBody).bind fun _ _ => trivial
  | .forEach ty var source body => by
    simp only [concreteStmt]
    exact (n.concreteExpr_inside source).bind fun _ _ => (concreteBlock_inside body).bind fun _ _ => trivial
  | .whileLoop cond body => by
    simp only [concreteStmt]
    exact (n.concreteExpr_inside cond).bind fun _ _ => (concreteBlock_inside body).bind fun _ _ => trivial
  | .ret none => by
    simp only [concreteStmt]
    trivial
  | .ret (some e) => by
    simp only [concreteStmt]
    exact (n.concreteExpr_inside e).bind fun _ _ => trivial

private theorem concreteBlock_inside : ∀ b, Inside (fun _ => True) (n.concreteBlock b)
  | [] => by
    simp only [concreteBlock]
    trivial
  | s :: b => by
    simp only [concreteBlock]
    exact (concreteStmt_inside s).bind fun _ _ => (concreteBlock_inside b).bind fun _ _ => trivial

end

end Names

private theorem omittedArgument_inside (h : r.Closed) {update : MethodId} (hupdate : (r.method? update).isSome)
    {subject : ClassId} (hsubject : (r.class? subject).isSome) :
    Inside (fun _ => True) (omittedArgument r update subject) := by
  refine (Registry.getMethod_inside hupdate).bind fun m _ => ?_
  match m.params with
  | [] => exact (h.signature hupdate).bind fun _ _ => rfl
  | [_] => exact (Registry.className_inside hsubject).bind fun _ _ => trivial
  | _ :: _ :: _ => trivial

private theorem names_inside (h : r.Closed) (c : Conventions) (aux : String) {p : Participants} (hp : p.InRange r) :
    Inside (fun _ => True) (names c r aux p) := by
  refine (Registry.className_inside hp.event).bind fun event _ => ?_
  refine (Collection.parameterOfType_inside h hp.handle event).bind fun _ _ => ?_
  refine (Registry.className_inside hp.observer).bind fun _ _ => ?_
  refine (Registry.methodName_inside hp.update).bind fun _ _ => ?_
  refine (omittedArgument_inside h hp.update hp.subject).bind fun _ _ => ?_
  exact (h.signature hp.handle).bind fun _ _ => trivial

private theorem transplant_inside (h : r.Closed) (c : Conventions) (aux : String) {p : Participants}
    (hp : p.InRange r) {generic : MethodId} (hgeneric : (r.method? generic).isSome) :
    Inside (fun r' => r'.skeleton = r.skeleton) (transplant c r aux p generic) := by
  refine (names_inside h c aux hp).bind fun n _ => ?_
  refine (Registry.getMethod_inside hgeneric).bind fun m _ => ?_
  exact (n.concreteBlock_inside m.body).bind fun body _ => Registry.putBody_inside hp.handle body

end HandleBody

/-- In a closed registry, giving participants in range their code looks up and changes what is there. -/
theorem Decoder.transplant_inside (h : r.Closed) (c : Conventions) (aux : String) {p : Participants}
    (hp : p.InRange r) {generic : MethodId} (hgeneric : (r.method? generic).isSome) :
    Inside (fun r' => r'.skeleton = r.skeleton) (transplant c r aux p generic) := by
  rw [transplant_eq]
  refine (Collection.install_inside h c hp.subject hp.observer).bind ?_
  rintro ⟨r₁, collection⟩ hr₁
  have hp₁ := hp.of_skeleton_eq hr₁
  refine (Collection.defineOptional_inside (h.of_skeleton_eq hr₁) .add hp₁.attach collection hp₁.observer).bind
    fun r₂ hr₂ => ?_
  have hr₂ := hr₂.trans hr₁
  have hp₂ := hp.of_skeleton_eq hr₂
  refine (Collection.defineOptional_inside (h.of_skeleton_eq hr₂) .remove hp₂.detach collection hp₂.observer).bind
    fun r₃ hr₃ => ?_
  have hr₃ := hr₃.trans hr₂
  have hgeneric₃ := (Registry.method?_isSome_congr hr₃ generic).trans hgeneric
  exact (HandleBody.transplant_inside (h.of_skeleton_eq hr₃) c aux (hp.of_skeleton_eq hr₃) hgeneric₃).mono
    fun _ hr₄ => hr₄.trans hr₃

end ObserverPattern
