import ObserverPattern.Proofs.Decoder.Rules
import ObserverPattern.Proofs.Syntax.Types
import ObserverPattern.Proofs.Walk.Trees

/-!
# The rules of the decoding pass for types

The pass changes the types of casts and declarations (`Retypes`) and of fields that are called after their
type, and a loop over the collection declares its variable and casts to its type. No other rule changes a type
or makes one.

* `walkBlock_types`, `walkFields_types`: what the rules do for single types (`TypeRules`), a visit does for the types
  in a body and for those in fields.
-/

namespace ObserverPattern.Decoder

variable {d : Decoder} {r : Registry} {p : Position}

/-! ## Single types -/

/-- What the pass makes of the type of a cast or of a declaration. -/
def Retypes (d : Decoder) (r : Registry) (ty ty' : String) : Prop :=
  d.isMarked ty = true ∧ d.concreteType r ty = .ok ty' ∨ d.isMarked ty = false ∧ ty' = ty

/-- Of a cast only the type changes, as types do. -/
theorem onExpr_cast_type {ty : String} {inner e' : Expr} (h : d.onExpr p (.cast ty inner) = .ok e') :
    ∃ ty', e' = .cast ty' inner ∧ d.Retypes p.registry ty ty' := by
  simp only [onExpr] at h
  split at h
  · next hmarked =>
    simp only [bind_eq_ok, pure_eq_ok] at h
    obtain ⟨ty', htype, rfl⟩ := h
    exact ⟨ty', rfl, .inl ⟨hmarked, htype⟩⟩
  · next hmarked => exact ⟨ty, (Except.ok.inj h).symm, .inr ⟨Bool.eq_false_iff.2 hmarked, rfl⟩⟩

/-- Of a declaration only the type changes, as types do. -/
theorem onStmt_declare_type {ty : String} {target value : Expr} {b : Block}
    (h : d.onStmt p (.assign (some ty) target value) = .ok b) :
    ∃ ty', b = [.assign (some ty') target value] ∧ d.Retypes p.registry ty ty' := by
  simp only [onStmt] at h
  split at h
  · next hmarked =>
    simp only [bind_eq_ok, pure_eq_ok] at h
    obtain ⟨ty', htype, rfl⟩ := h
    exact ⟨ty', rfl, .inl ⟨hmarked, htype⟩⟩
  · next hmarked => exact ⟨ty, (Except.ok.inj h).symm, .inr ⟨Bool.eq_false_iff.2 hmarked, rfl⟩⟩

/-- A field that is called after its type gets its type from the subject, unless the type has no marker. -/
theorem onField_types {f : Field} {fs : List Field} (h : d.onField p f = .ok fs) :
    (∃ subject, d.boundSubject p.registry f.ty = .ok subject ∧
      fs = [⟨subject.name, Text.lower subject.name, f.init⟩]) ∨
      ¬(d.isMarked f.ty = true ∧ f.name = Text.lower f.ty) ∧ fs = [f] := by
  unfold onField at h
  split at h
  · simp only [bind_eq_ok, pure_eq_ok] at h
    obtain ⟨subject, hsubject, rfl⟩ := h
    exact .inl ⟨subject, hsubject, rfl⟩
  · next hrule => exact .inr ⟨by simpa using hrule, (Except.ok.inj h).symm⟩

/-! ## The types in a body -/

/-- What the rules for single types establish at each kind of place. -/
structure TypeRules (d : Decoder) (r : Registry) (V W : TypePlace → String → Prop) : Prop where
  cast : ∀ ty ty', V .cast ty → d.Retypes r ty ty' → W .cast ty'
  declared : ∀ ty ty', V .declared ty → d.Retypes r ty ty' → W .declared ty'
  created : ∀ ty, V .created ty → W .created ty
  loop : ∀ ty, V .loop ty → W .loop ty
  /-- A loop over the collection declares its variable and casts the element. -/
  element : ∀ ty, V .loop ty → W .declared ty ∧ W .cast ty
  iterator : W .declared "Iterator"

section Body

variable {V W : TypePlace → String → Prop}

private theorem typed_of_no_type {e : Expr} (hcast : ∀ ty inner, e ≠ .cast ty inner)
    (hnew : ∀ ty args, e ≠ .new ty args) : e.Typed W := by
  intro place ty hty
  cases e with
  | cast ty inner => exact absurd rfl (hcast ty inner)
  | new ty args => exact absurd rfl (hnew ty args)
  | _ => cases place <;> cases hty

private theorem typed_cast {ty : String} (hty : W .cast ty) (inner : Expr) : (Expr.cast ty inner).Typed W := by
  intro place ty' hty'
  cases place with
  | cast => exact List.mem_singleton.1 hty' ▸ hty
  | _ => cases hty'

private theorem typed_new {ty : String} (hty : W .created ty) (args : List Expr) : (Expr.new ty args).Typed W := by
  intro place ty' hty'
  cases place with
  | created => exact List.mem_singleton.1 hty' ▸ hty
  | _ => cases hty'

/-- The pass makes no types in expressions but of casts. -/
theorem onExpr_types (hrules : d.TypeRules p.registry V W) (e₀ e e' : Expr) (he₀ : e₀.Typed V)
    (hshell : e.shell = e₀.shell) (hchildren : ∀ x ∈ Expr.listParts e.children, x.Typed W)
    (h : d.onExpr p e = .ok e') : ∀ x ∈ e'.parts, x.Typed W := by
  have he : e.Typed V := he₀.of_shell hshell
  have hsame : ∀ e₁ : Expr, e₁.Typed W → e₁.children = e.children → ∀ x ∈ e₁.parts, x.Typed W := by
    intro e₁ hself hsub x hx
    rw [Expr.parts_eq, hsub, List.mem_cons] at hx
    rcases hx with rfl | hx
    · exact hself
    · exact hchildren x hx
  cases e with
  | placeholder name operands =>
    rcases resolvePlaceholder_eq_ok h with ⟨left, right, rfl, rfl⟩ | ⟨left, right, op, key, rfl, -, -, rfl⟩ |
      ⟨-, -, rfl⟩
    · intro x hx
      simp only [Expr.methodCall, Expr.parts, Expr.listParts, List.mem_cons, List.mem_append, List.append_nil] at hx
      rcases hx with rfl | (rfl | hx) | hx
      · exact typed_of_no_type (by simp) (by simp)
      · exact typed_of_no_type (by simp) (by simp)
      · exact hchildren x (by simp [Expr.children, Expr.listParts, hx])
      · exact hchildren x (by simp [Expr.children, Expr.listParts, hx])
    · exact hsame _ (typed_of_no_type (by simp) (by simp)) rfl
    · exact hsame _ (typed_of_no_type (by simp) (by simp)) rfl
  | call callee args =>
    rcases resolveCall_eq_ok h with ⟨-, rfl⟩ | ⟨_, _, _, sub, sup, -, -, -, -, -, rfl⟩
    · exact hsame _ (typed_of_no_type (by simp) (by simp)) rfl
    · intro x hx
      simp only [Expr.bool, Expr.parts, List.mem_singleton] at hx
      subst hx
      exact typed_of_no_type (by simp) (by simp)
  | id name =>
    simp only [onExpr, bind_eq_ok, pure_eq_ok] at h
    obtain ⟨name', -, rfl⟩ := h
    exact hsame _ (typed_of_no_type (by simp) (by simp)) rfl
  | field receiver name =>
    simp only [onExpr, bind_eq_ok, pure_eq_ok] at h
    obtain ⟨name', -, rfl⟩ := h
    exact hsame _ (typed_of_no_type (by simp) (by simp)) rfl
  | cast ty inner =>
    obtain ⟨ty', rfl, hty⟩ := onExpr_cast_type h
    exact hsame _ (typed_cast (hrules.cast ty ty' (he .cast ty (by simp [Expr.ownTypes])) hty) inner) rfl
  | new ty args =>
    cases h
    exact hsame _ (typed_new (hrules.created ty (he .created ty (by simp [Expr.ownTypes]))) args) rfl
  | literal l =>
    cases h
    exact hsame _ (typed_of_no_type (by simp) (by simp)) rfl
  | binary op left right =>
    cases h
    exact hsame _ (typed_of_no_type (by simp) (by simp)) rfl

private theorem stmt_typed_of_no_type {s : Stmt} (hassign : ∀ ty target value, s ≠ .assign (some ty) target value)
    (hfor : ∀ ty var source body, s ≠ .forEach ty var source body) (hexprs : ∀ e ∈ s.exprs, e.Typed W) :
    s.Typed W := by
  refine ⟨fun place ty hty => ?_, hexprs⟩
  cases s with
  | assign ty target value =>
    cases ty with
    | none => cases place <;> cases hty
    | some ty => exact absurd rfl (hassign ty target value)
  | forEach ty var source body => exact absurd rfl (hfor ty var source body)
  | _ => cases place <;> cases hty

private theorem stmt_typed_declare {ty : String} (hty : W .declared ty) {target value : Expr}
    (hexprs : ∀ e ∈ (Stmt.assign (some ty) target value).exprs, e.Typed W) :
    (Stmt.assign (some ty) target value).Typed W := by
  refine ⟨fun place ty' hty' => ?_, hexprs⟩
  cases place with
  | declared => exact List.mem_singleton.1 hty' ▸ hty
  | _ => cases hty'

private theorem stmt_typed_forEach {ty var : String} (hty : W .loop ty) {source : Expr} {body : Block}
    (hexprs : ∀ e ∈ (Stmt.forEach ty var source body).exprs, e.Typed W) :
    (Stmt.forEach ty var source body).Typed W := by
  refine ⟨fun place ty' hty' => ?_, hexprs⟩
  cases place with
  | loop => exact List.mem_singleton.1 hty' ▸ hty
  | _ => cases hty'

private theorem resolveDispatch_types {e e' : Expr} (hexprs : ∀ x ∈ e.parts, x.Typed W)
    (h : d.resolveDispatch p e = .ok e') : ∀ x ∈ e'.parts, x.Typed W := by
  rcases resolveDispatch_eq_ok h with rfl | ⟨callee, target, receiver, args, method, rfl, -, rfl⟩
  · exact hexprs
  · intro x hx
    simp only [Expr.methodCall, Expr.parts, List.mem_cons, List.mem_append] at hx
    rcases hx with rfl | (rfl | hx) | hx
    · exact typed_of_no_type (by simp) (by simp)
    · exact typed_of_no_type (by simp) (by simp)
    · exact hexprs x (by simp [Expr.parts, Expr.listParts, hx])
    · obtain ⟨arg, harg, hx⟩ := Expr.mem_listParts.1 hx
      have hargs : x ∈ Expr.listParts args := Expr.mem_listParts.2 ⟨arg, (List.mem_filter.1 harg).1, hx⟩
      exact hexprs x (by simp [Expr.parts, Expr.listParts, hargs])

/-- The iterator has a type of its own; the type of the variable of the loop now stands in two other places. -/
private theorem loopWithIterator_types {direction : Direction} {ty var : String} {source : Expr} {body : Block}
    (hiterator : W .declared "Iterator") (helement : W .declared ty ∧ W .cast ty)
    (hsource : ∀ x ∈ source.parts, x.Typed W) (hbody : ∀ x ∈ Stmt.listParts body, x.Typed W) :
    ∀ x ∈ Stmt.listParts (loopWithIterator direction ty var source body), x.Typed W := by
  intro x hx
  simp only [loopWithIterator, Stmt.declare, Stmt.listParts, Stmt.parts, List.singleton_append, List.append_nil,
    List.mem_cons] at hx
  rcases hx with rfl | rfl | rfl | hx
  · refine stmt_typed_declare hiterator ?_
    intro e he
    simp only [Stmt.exprs, Stmt.operands, Expr.methodCall, Expr.listParts, Expr.parts, List.append_nil,
      List.singleton_append, List.mem_cons] at he
    rcases he with rfl | rfl | rfl | he
    · exact typed_of_no_type (by simp) (by simp)
    · exact typed_of_no_type (by simp) (by simp)
    · exact typed_of_no_type (by simp) (by simp)
    · exact hsource e he
  · refine stmt_typed_of_no_type (by simp) (by simp) ?_
    intro e he
    simp only [Stmt.exprs, Stmt.operands, Expr.methodCall, Expr.listParts, Expr.parts, List.append_nil,
      List.mem_cons, List.not_mem_nil, or_false] at he
    rcases he with rfl | rfl | rfl
    · exact typed_of_no_type (by simp) (by simp)
    · exact typed_of_no_type (by simp) (by simp)
    · exact typed_of_no_type (by simp) (by simp)
  · refine stmt_typed_declare helement.1 ?_
    intro e he
    simp only [Stmt.exprs, Stmt.operands, Expr.methodCall, Expr.listParts, Expr.parts, List.append_nil,
      List.singleton_append, List.mem_cons, List.not_mem_nil, or_false] at he
    rcases he with rfl | rfl | rfl | rfl | rfl
    · exact typed_of_no_type (by simp) (by simp)
    · exact typed_cast helement.2 _
    · exact typed_of_no_type (by simp) (by simp)
    · exact typed_of_no_type (by simp) (by simp)
    · exact typed_of_no_type (by simp) (by simp)
  · exact hbody x hx

/-- The pass makes no types in statements but of declarations, and of loops over the collection. -/
theorem onStmt_types (hrules : d.TypeRules p.registry V W) (s₀ s : Stmt) (b : Block)
    (hs₀ : ∀ place, ∀ ty ∈ s₀.ownTypes place, V place ty) (hshell : s.shell = s₀.shell)
    (hexprs : ∀ e ∈ s.exprs, e.Typed W) (hchildren : ∀ x ∈ Stmt.listParts s.children, x.Typed W)
    (h : d.onStmt p s = .ok b) : ∀ x ∈ Stmt.listParts b, x.Typed W := by
  have hs : ∀ place, ∀ ty ∈ s.ownTypes place, V place ty := by
    intro place ty hty
    rw [← Stmt.ownTypes_shell, hshell, Stmt.ownTypes_shell] at hty
    exact hs₀ place ty hty
  have hsame : s.Typed W → ∀ x ∈ Stmt.listParts [s], x.Typed W := by
    intro hself x hx
    simp only [Stmt.listParts, List.append_nil, Stmt.parts_eq s, List.mem_cons] at hx
    rcases hx with rfl | hx
    · exact hself
    · exact hchildren x hx
  cases s with
  | expr e =>
    simp only [onStmt, bind_eq_ok, pure_eq_ok] at h
    obtain ⟨e', he', rfl⟩ := h
    have he : ∀ x ∈ e.parts, x.Typed W := fun x hx => hexprs x (by simpa [Stmt.exprs, Stmt.operands, Expr.listParts])
    intro x hx
    simp only [Stmt.listParts, Stmt.parts, List.append_nil, List.mem_singleton] at hx
    subst hx
    refine stmt_typed_of_no_type (by simp) (by simp) ?_
    simpa [Stmt.exprs, Stmt.operands, Expr.listParts] using resolveDispatch_types he he'
  | assign ty target value =>
    cases ty with
    | none =>
      cases h
      exact hsame (stmt_typed_of_no_type (by simp) (by simp) hexprs)
    | some ty =>
      obtain ⟨ty', rfl, hty⟩ := onStmt_declare_type h
      intro x hx
      simp only [Stmt.listParts, Stmt.parts, List.append_nil, List.mem_singleton] at hx
      subst hx
      exact stmt_typed_declare (hrules.declared ty ty' (hs .declared ty (by simp [Stmt.ownTypes])) hty) hexprs
  | ifElse cond thenBody elseBody =>
    obtain rfl := onStmt_ifElse h
    by_cases hfalse : cond.source = "false"
    · rw [if_pos hfalse]
      exact fun x hx => hchildren x (by simp [Stmt.children, Stmt.listParts_append, hx])
    · rw [if_neg hfalse]
      by_cases htrue : cond.source = "true"
      · rw [if_pos htrue]
        exact fun x hx => hchildren x (by simp [Stmt.children, Stmt.listParts_append, hx])
      · rw [if_neg htrue]
        exact hsame (stmt_typed_of_no_type (by simp) (by simp) hexprs)
  | forEach ty var source body =>
    have hloop : V .loop ty := hs .loop ty (by simp [Stmt.ownTypes])
    obtain ⟨walks, -, ⟨rfl, rfl⟩ | ⟨-, direction, -, rfl⟩⟩ := onStmt_forEach h
    · exact hsame (stmt_typed_forEach (hrules.loop ty hloop) hexprs)
    · have hsource : ∀ x ∈ source.parts, x.Typed W :=
        fun x hx => hexprs x (by simpa [Stmt.exprs, Stmt.operands, Expr.listParts])
      exact loopWithIterator_types hrules.iterator (hrules.element ty hloop) hsource hchildren
  | whileLoop cond body =>
    cases h
    exact hsame (stmt_typed_of_no_type (by simp) (by simp) hexprs)
  | ret value =>
    cases h
    exact hsame (stmt_typed_of_no_type (by simp) (by simp) hexprs)

/-- A visit of a method takes a body whose types have one property to a body whose types have another one, if
the rules do this for single types. -/
theorem walkBlock_types (hrules : d.TypeRules p.registry V W) {b body new : Block}
    (hb : Stmt.ListTyped V b) (hbody : Walk.walkBlock d.pass p b = .ok body) (hnew : d.onMethod p body = .ok new) :
    Stmt.ListTyped W new := by
  simp only [Walk.walkBlock, Walk.lift_eq, bind_eq_ok] at hbody
  obtain ⟨-, -, hbody⟩ := hbody
  rw [Stmt.listTyped_iff] at hb ⊢
  have htyped := Walk.walkStmts_parts_of (H := Expr.Typed V)
    (K := fun s => ∀ place, ∀ ty ∈ s.ownTypes place, V place ty) (fun _ => onExpr_types hrules)
    (fun _ => onStmt_types hrules) p.depth b body (fun s hs => ⟨(hb s hs).own, (hb s hs).exprs⟩) hbody
  intro x hx
  obtain ⟨s, hs, hx⟩ := Stmt.mem_listParts.1 hx
  exact htyped x (Stmt.mem_listParts.2 ⟨s, onMethod_subset hnew hs, hx⟩)

/-- The same for the expressions that fields are initialised with. -/
theorem walkFields_types (hrules : d.TypeRules p.registry V W) {fs fs' : List Field}
    (hfs : Field.ListTyped V fs) (h : Walk.walkFields d.pass p fs = .ok fs') : Field.ListTyped W fs' := by
  rw [Field.listTyped_iff] at hfs ⊢
  induction fs generalizing fs' with
  | nil =>
    rw [Walk.walkFields, pure_eq_ok] at h
    subst h
    simp
  | cons f fs ih =>
    simp only [Walk.walkFields, Walk.walkField, bind_eq_ok, pure_eq_ok] at h
    obtain ⟨new, ⟨init, hinit, hnew⟩, rest, hrest, rfl⟩ := h
    have htyped := Walk.walkOption_parts_of (onExpr_types hrules) (hfs f (by simp)) hinit
    obtain ⟨ty, name, rfl⟩ := onField_eq_ok hnew
    intro f' hf'
    rcases List.mem_cons.1 hf' with rfl | hf'
    · exact htyped
    · exact ih (fun f hf => hfs f (by simp [hf])) hrest f' hf'

end Body

end ObserverPattern.Decoder
