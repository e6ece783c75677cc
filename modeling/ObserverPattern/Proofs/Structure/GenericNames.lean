import ObserverPattern.Proofs.Structure.Frame
import ObserverPattern.Proofs.Syntax.Types
import ObserverPattern.Proofs.Text.Words

/-!
# Handle bodies without generic names

* `Names.Makes` tells, constructor by constructor, which concrete expression a generic one becomes, and
  `Names.MakesStmt` the same of statements (`Names.makesBlock_of_concreteBlock`);
* `Names.MakesBlock.replaces`: the names in a concrete body have been put in place of generic ones, at every depth;
* `transplant_concrete`: so no generic name is left in the body that a handle method gets.
-/

namespace ObserverPattern.HandleBody

namespace Names

mutual

/-- The concrete expression that a generic one becomes. -/
inductive Makes (n : Names) : Expr → Expr → Prop
  | literal (l : Literal) : Makes n (.literal l) (.literal l)
  | id (name : String) : Makes n (.id name) (.id (n.variableName name))
  | field {receiver receiver' : Expr} (name : String) (hreceiver : Makes n receiver receiver') :
      Makes n (.field receiver name) (.field receiver' (n.memberName name))
  | update {callee target receiver receiver' : Expr} {rest rest' args : List Expr}
      (hdispatch : n.dispatchesUpdate callee target = true) (hreceiver : Makes n receiver receiver')
      (hrest : MakesAll n rest rest') (hargs : n.adjust rest' = .ok args) :
      Makes n (.call callee (target :: receiver :: rest)) (.methodCall receiver' n.update args)
  | call {callee callee' : Expr} {args args' : List Expr}
      (hother : ∀ target receiver rest, args = target :: receiver :: rest → n.dispatchesUpdate callee target = false)
      (hcallee : Makes n callee callee') (hargs : MakesAll n args args') :
      Makes n (.call callee args) (.call callee' args')
  | new {args args' : List Expr} (ty : String) (hargs : MakesAll n args args') :
      Makes n (.new ty args) (.new (n.typeName ty) args')
  | binary {left left' right right' : Expr} (op : Operator) (hleft : Makes n left left')
      (hright : Makes n right right') : Makes n (.binary op left right) (.binary op left' right')
  | cast {e e' : Expr} (ty : String) (he : Makes n e e') : Makes n (.cast ty e) (.cast (n.typeName ty) e')
  | placeholder {operands operands' : List Expr} (name : String) (hoperands : MakesAll n operands operands') :
      Makes n (.placeholder name operands) (.placeholder name operands')

/-- The concrete expressions that generic ones become. -/
inductive MakesAll (n : Names) : List Expr → List Expr → Prop
  | nil : MakesAll n [] []
  | cons {e e' : Expr} {es es' : List Expr} (he : Makes n e e') (hes : MakesAll n es es') :
      MakesAll n (e :: es) (e' :: es')

end

mutual

/-- The concrete statement that a generic one becomes. -/
inductive MakesStmt (n : Names) : Stmt → Stmt → Prop
  | expr {e e' : Expr} (he : n.Makes e e') : MakesStmt n (.expr e) (.expr e')
  | assign {target target' value value' : Expr} (ty : Option String) (htarget : n.Makes target target')
      (hvalue : n.Makes value value') :
      MakesStmt n (.assign ty target value) (.assign (ty.map n.typeName) target' value')
  | ifElse {cond cond' : Expr} {thenBody then' elseBody else' : Block} (hcond : n.Makes cond cond')
      (hthen : MakesBlock n thenBody then') (helse : MakesBlock n elseBody else') :
      MakesStmt n (.ifElse cond thenBody elseBody) (.ifElse cond' then' else')
  | forEach {source source' : Expr} {body body' : Block} (ty var : String) (hsource : n.Makes source source')
      (hbody : MakesBlock n body body') :
      MakesStmt n (.forEach ty var source body) (.forEach (n.typeName ty) var source' body')
  | whileLoop {cond cond' : Expr} {body body' : Block} (hcond : n.Makes cond cond')
      (hbody : MakesBlock n body body') :
      MakesStmt n (.whileLoop cond body) (.whileLoop cond' body')
  | retNone : MakesStmt n (.ret none) (.ret none)
  | ret {e e' : Expr} (he : n.Makes e e') : MakesStmt n (.ret (some e)) (.ret (some e'))

/-- The concrete block that a generic one becomes. -/
inductive MakesBlock (n : Names) : Block → Block → Prop
  | nil : MakesBlock n [] []
  | cons {s s' : Stmt} {b b' : Block} (hs : MakesStmt n s s') (hb : MakesBlock n b b') :
      MakesBlock n (s :: b) (s' :: b')

end

variable {n : Names}

mutual

theorem makes_of_concreteExpr : ∀ {e e' : Expr}, n.concreteExpr e = .ok e' → n.Makes e e'
  | .literal l, e', h => by
    rw [concreteExpr] at h
    exact Except.ok.inj h ▸ .literal l
  | .id name, e', h => by
    rw [concreteExpr] at h
    exact Except.ok.inj h ▸ .id name
  | .field receiver name, e', h => by
    simp only [concreteExpr, bind_eq_ok, pure_eq_ok] at h
    obtain ⟨receiver', hreceiver, rfl⟩ := h
    exact .field name (makes_of_concreteExpr hreceiver)
  -- A dispatch has two arguments at least, so there are three cases of a call.
  | .call callee (target :: receiver :: rest), e', h => by
    rw [concreteExpr] at h
    split at h
    · next hdispatch =>
      simp only [bind_eq_ok, pure_eq_ok] at h
      obtain ⟨receiver', hreceiver, rest', hrest, args, hargs, rfl⟩ := h
      exact .update hdispatch (makes_of_concreteExpr hreceiver) (makesAll_of_concreteExprs hrest) hargs
    · next hdispatch =>
      simp only [bind_eq_ok, pure_eq_ok] at h
      obtain ⟨callee', hcallee, args', hargs, rfl⟩ := h
      refine .call ?_ (makes_of_concreteExpr hcallee) (makesAll_of_concreteExprs hargs)
      rintro _ _ _ heq
      obtain ⟨rfl, -⟩ := List.cons_eq_cons.1 heq
      simpa using hdispatch
  | .call callee [], e', h => by
    simp only [concreteExpr, bind_eq_ok, pure_eq_ok] at h
    obtain ⟨callee', hcallee, args', hargs, rfl⟩ := h
    exact .call (by simp) (makes_of_concreteExpr hcallee) (makesAll_of_concreteExprs hargs)
  | .call callee [arg], e', h => by
    simp only [concreteExpr, bind_eq_ok, pure_eq_ok] at h
    obtain ⟨callee', hcallee, args', hargs, rfl⟩ := h
    exact .call (by simp) (makes_of_concreteExpr hcallee) (makesAll_of_concreteExprs hargs)
  | .new ty args, e', h => by
    simp only [concreteExpr, bind_eq_ok, pure_eq_ok] at h
    obtain ⟨args', hargs, rfl⟩ := h
    exact .new ty (makesAll_of_concreteExprs hargs)
  | .binary op left right, e', h => by
    simp only [concreteExpr, bind_eq_ok, pure_eq_ok] at h
    obtain ⟨left', hleft, right', hright, rfl⟩ := h
    exact .binary op (makes_of_concreteExpr hleft) (makes_of_concreteExpr hright)
  | .cast ty e, e', h => by
    simp only [concreteExpr, bind_eq_ok, pure_eq_ok] at h
    obtain ⟨e', he, rfl⟩ := h
    exact .cast ty (makes_of_concreteExpr he)
  | .placeholder name operands, e', h => by
    simp only [concreteExpr, bind_eq_ok, pure_eq_ok] at h
    obtain ⟨operands', hoperands, rfl⟩ := h
    exact .placeholder name (makesAll_of_concreteExprs hoperands)

theorem makesAll_of_concreteExprs : ∀ {es es' : List Expr}, n.concreteExprs es = .ok es' → n.MakesAll es es'
  | [], es', h => by
    rw [concreteExprs] at h
    exact Except.ok.inj h ▸ .nil
  | e :: es, es', h => by
    simp only [concreteExprs, bind_eq_ok, pure_eq_ok] at h
    obtain ⟨e', he, es', hes, rfl⟩ := h
    exact .cons (makes_of_concreteExpr he) (makesAll_of_concreteExprs hes)

end

mutual

theorem concreteExpr_of_makes : ∀ {e e' : Expr}, n.Makes e e' → n.concreteExpr e = .ok e'
  | _, _, .literal _ => rfl
  | _, _, .id _ => rfl
  | _, _, .field _ hreceiver => by
    rw [concreteExpr, concreteExpr_of_makes hreceiver]
    rfl
  | _, _, .update hdispatch hreceiver hrest hargs => by
    rw [concreteExpr, if_pos hdispatch, concreteExpr_of_makes hreceiver, ok_bind, concreteExprs_of_makesAll hrest,
      ok_bind, hargs]
    rfl
  | _, _, @Makes.call _ callee _ args _ hother hcallee hargs => by
    have hcallee := concreteExpr_of_makes hcallee
    have hargs := concreteExprs_of_makesAll hargs
    match args with
    | [] | [_] =>
      rw [concreteExpr, hcallee, ok_bind, hargs]
      · rfl
      · simp
    | target :: receiver :: rest =>
      rw [concreteExpr, hother target receiver rest rfl, if_neg Bool.false_ne_true, hcallee, ok_bind, hargs]
      rfl
  | _, _, .new _ hargs => by
    rw [concreteExpr, concreteExprs_of_makesAll hargs]
    rfl
  | _, _, .binary _ hleft hright => by
    rw [concreteExpr, concreteExpr_of_makes hleft, ok_bind, concreteExpr_of_makes hright]
    rfl
  | _, _, .cast _ he => by
    rw [concreteExpr, concreteExpr_of_makes he]
    rfl
  | _, _, .placeholder _ hoperands => by
    rw [concreteExpr, concreteExprs_of_makesAll hoperands]
    rfl

theorem concreteExprs_of_makesAll : ∀ {es es' : List Expr}, n.MakesAll es es' → n.concreteExprs es = .ok es'
  | _, _, .nil => rfl
  | _, _, .cons he hes => by
    rw [concreteExprs, concreteExpr_of_makes he, ok_bind, concreteExprs_of_makesAll hes]
    rfl

end

mutual

theorem makesStmt_of_concreteStmt : ∀ {s s' : Stmt}, n.concreteStmt s = .ok s' → n.MakesStmt s s'
  | .expr e, s', h => by
    simp only [concreteStmt, bind_eq_ok, pure_eq_ok] at h
    obtain ⟨e', he, rfl⟩ := h
    exact .expr (makes_of_concreteExpr he)
  | .assign ty target value, s', h => by
    simp only [concreteStmt, bind_eq_ok, pure_eq_ok] at h
    obtain ⟨target', htarget, value', hvalue, rfl⟩ := h
    exact .assign ty (makes_of_concreteExpr htarget) (makes_of_concreteExpr hvalue)
  | .ifElse cond thenBody elseBody, s', h => by
    simp only [concreteStmt, bind_eq_ok, pure_eq_ok] at h
    obtain ⟨cond', hcond, then', hthen, else', helse, rfl⟩ := h
    exact .ifElse (makes_of_concreteExpr hcond) (makesBlock_of_concreteBlock hthen)
      (makesBlock_of_concreteBlock helse)
  | .forEach ty var source body, s', h => by
    simp only [concreteStmt, bind_eq_ok, pure_eq_ok] at h
    obtain ⟨source', hsource, body', hbody, rfl⟩ := h
    exact .forEach ty var (makes_of_concreteExpr hsource) (makesBlock_of_concreteBlock hbody)
  | .whileLoop cond body, s', h => by
    simp only [concreteStmt, bind_eq_ok, pure_eq_ok] at h
    obtain ⟨cond', hcond, body', hbody, rfl⟩ := h
    exact .whileLoop (makes_of_concreteExpr hcond) (makesBlock_of_concreteBlock hbody)
  | .ret none, s', h => by
    rw [concreteStmt] at h
    exact Except.ok.inj h ▸ .retNone
  | .ret (some e), s', h => by
    simp only [concreteStmt, bind_eq_ok, pure_eq_ok] at h
    obtain ⟨e', he, rfl⟩ := h
    exact .ret (makes_of_concreteExpr he)

theorem makesBlock_of_concreteBlock : ∀ {b b' : Block}, n.concreteBlock b = .ok b' → n.MakesBlock b b'
  | [], b', h => by
    rw [concreteBlock] at h
    exact Except.ok.inj h ▸ .nil
  | s :: b, b', h => by
    simp only [concreteBlock, bind_eq_ok, pure_eq_ok] at h
    obtain ⟨s', hs, b', hb, rfl⟩ := h
    exact .cons (makesStmt_of_concreteStmt hs) (makesBlock_of_concreteBlock hb)

end

theorem sublist_of_adjust {args args' : List Expr} (h : n.adjust args = .ok args') : args'.Sublist args := by
  unfold adjust at h
  split at h
  · exact Except.ok.inj h ▸ List.Sublist.refl _
  · split at h
    · exact Except.ok.inj h ▸ List.eraseP_sublist
    · cases h

/-! ## Where the parts of a concrete body come from -/

/-- An expression that one of some generic ones becomes, or the method that an update call selects. -/
def MadeFrom (n : Names) (xs : List Expr) (x' : Expr) : Prop :=
  (∃ x ∈ xs, n.Makes x x') ∨ ∃ receiver, x' = .field receiver n.update

theorem MadeFrom.mono {xs ys : List Expr} {x' : Expr} (h : n.MadeFrom xs x') (hsub : xs ⊆ ys) : n.MadeFrom ys x' := by
  obtain ⟨x, hx, hmakes⟩ | hupdate := h
  · exact .inl ⟨x, hsub hx, hmakes⟩
  · exact .inr hupdate

mutual

theorem Makes.parts : ∀ {e e' : Expr}, n.Makes e e' → ∀ x' ∈ e'.parts, n.MadeFrom e.parts x'
  | _, _, h@(.literal _), x', hx => .inl ⟨_, List.mem_singleton_self _, (List.mem_singleton.1 hx).symm ▸ h⟩
  | _, _, h@(.id _), x', hx => .inl ⟨_, List.mem_singleton_self _, (List.mem_singleton.1 hx).symm ▸ h⟩
  | _, _, h@(.field _ hreceiver), x', hx => by
    rcases List.mem_cons.1 hx with rfl | hx
    · exact .inl ⟨_, Expr.self_mem_parts _, h⟩
    · exact (hreceiver.parts x' hx).mono (List.subset_cons_self _ _)
  | _, _, h@(.update _ hreceiver hrest hargs), x', hx => by
    rcases List.mem_cons.1 hx with rfl | hx
    · exact .inl ⟨_, Expr.self_mem_parts _, h⟩
    rcases List.mem_append.1 hx with hx | hx
    · rcases List.mem_cons.1 hx with rfl | hx
      · exact .inr ⟨_, rfl⟩
      · exact (hreceiver.parts x' hx).mono fun x hx => by simp [Expr.parts, Expr.listParts, hx]
    · -- The arguments that stay are among the renamed ones.
      obtain ⟨arg, harg, hx⟩ := Expr.mem_listParts.1 hx
      have hrest' := Expr.mem_listParts.2 ⟨arg, (sublist_of_adjust hargs).subset harg, hx⟩
      exact (hrest.parts x' hrest').mono fun x hx => by simp [Expr.parts, Expr.listParts, hx]
  | _, _, h@(.call _ hcallee hargs), x', hx => by
    rcases List.mem_cons.1 hx with rfl | hx
    · exact .inl ⟨_, Expr.self_mem_parts _, h⟩
    rcases List.mem_append.1 hx with hx | hx
    · exact (hcallee.parts x' hx).mono fun x hx => by simp [Expr.parts, hx]
    · exact (hargs.parts x' hx).mono fun x hx => by simp [Expr.parts, hx]
  | _, _, h@(.new _ hargs), x', hx => by
    rcases List.mem_cons.1 hx with rfl | hx
    · exact .inl ⟨_, Expr.self_mem_parts _, h⟩
    · exact (hargs.parts x' hx).mono (List.subset_cons_self _ _)
  | _, _, h@(.binary _ hleft hright), x', hx => by
    rcases List.mem_cons.1 hx with rfl | hx
    · exact .inl ⟨_, Expr.self_mem_parts _, h⟩
    rcases List.mem_append.1 hx with hx | hx
    · exact (hleft.parts x' hx).mono fun x hx => by simp [Expr.parts, hx]
    · exact (hright.parts x' hx).mono fun x hx => by simp [Expr.parts, hx]
  | _, _, h@(.cast _ he), x', hx => by
    rcases List.mem_cons.1 hx with rfl | hx
    · exact .inl ⟨_, Expr.self_mem_parts _, h⟩
    · exact (he.parts x' hx).mono (List.subset_cons_self _ _)
  | _, _, h@(.placeholder _ hoperands), x', hx => by
    rcases List.mem_cons.1 hx with rfl | hx
    · exact .inl ⟨_, Expr.self_mem_parts _, h⟩
    · exact (hoperands.parts x' hx).mono (List.subset_cons_self _ _)

theorem MakesAll.parts : ∀ {es es' : List Expr}, n.MakesAll es es' →
    ∀ x' ∈ Expr.listParts es', n.MadeFrom (Expr.listParts es) x'
  | _, _, .nil, x', hx => by cases hx
  | _, _, .cons he hes, x', hx => by
    rcases List.mem_append.1 hx with hx | hx
    · exact (he.parts x' hx).mono (List.subset_append_left _ _)
    · exact (hes.parts x' hx).mono (List.subset_append_right _ _)

end

theorem MakesStmt.operands {s s' : Stmt} (h : n.MakesStmt s s') : n.MakesAll s.operands s'.operands := by
  cases h with
  | expr he | ret he => exact .cons he .nil
  | assign ty htarget hvalue => exact .cons htarget (.cons hvalue .nil)
  | ifElse hcond | whileLoop hcond => exact .cons hcond .nil
  | forEach ty var hsource => exact .cons hsource .nil
  | retNone => exact .nil

theorem MakesStmt.exprs {s s' : Stmt} (h : n.MakesStmt s s') : ∀ x' ∈ s'.exprs, n.MadeFrom s.exprs x' :=
  h.operands.parts

mutual

theorem MakesStmt.parts : ∀ {s s' : Stmt}, n.MakesStmt s s' → ∀ t' ∈ s'.parts, ∃ t ∈ s.parts, n.MakesStmt t t'
  | _, _, h@(.expr _), t', ht => ⟨_, List.mem_singleton_self _, List.mem_singleton.1 ht ▸ h⟩
  | _, _, h@(.assign ..), t', ht => ⟨_, List.mem_singleton_self _, List.mem_singleton.1 ht ▸ h⟩
  | _, _, h@(.ifElse _ hthen helse), t', ht => by
    rcases List.mem_cons.1 ht with rfl | ht
    · exact ⟨_, Stmt.self_mem_parts _, h⟩
    rcases List.mem_append.1 ht with ht | ht
    · obtain ⟨t, hmem, hmakes⟩ := hthen.parts t' ht
      exact ⟨t, List.mem_cons_of_mem _ (List.mem_append_left _ hmem), hmakes⟩
    · obtain ⟨t, hmem, hmakes⟩ := helse.parts t' ht
      exact ⟨t, List.mem_cons_of_mem _ (List.mem_append_right _ hmem), hmakes⟩
  | _, _, h@(.forEach _ _ _ hbody), t', ht => by
    rcases List.mem_cons.1 ht with rfl | ht
    · exact ⟨_, Stmt.self_mem_parts _, h⟩
    · obtain ⟨t, hmem, hmakes⟩ := hbody.parts t' ht
      exact ⟨t, List.mem_cons_of_mem _ hmem, hmakes⟩
  | _, _, h@(.whileLoop _ hbody), t', ht => by
    rcases List.mem_cons.1 ht with rfl | ht
    · exact ⟨_, Stmt.self_mem_parts _, h⟩
    · obtain ⟨t, hmem, hmakes⟩ := hbody.parts t' ht
      exact ⟨t, List.mem_cons_of_mem _ hmem, hmakes⟩
  | _, _, h@.retNone, t', ht => ⟨_, List.mem_singleton_self _, List.mem_singleton.1 ht ▸ h⟩
  | _, _, h@(.ret _), t', ht => ⟨_, List.mem_singleton_self _, List.mem_singleton.1 ht ▸ h⟩

theorem MakesBlock.parts : ∀ {b b' : Block}, n.MakesBlock b b' →
    ∀ t' ∈ Stmt.listParts b', ∃ t ∈ Stmt.listParts b, n.MakesStmt t t'
  | _, _, .nil, t', ht => by cases ht
  | _, _, .cons hs hb, t', ht => by
    rcases List.mem_append.1 ht with ht | ht
    · obtain ⟨t, hmem, hmakes⟩ := hs.parts t' ht
      exact ⟨t, List.mem_append_left _ hmem, hmakes⟩
    · obtain ⟨t, hmem, hmakes⟩ := hb.parts t' ht
      exact ⟨t, List.mem_append_right _ hmem, hmakes⟩

end

/-! ## No generic name is left -/

/-- The names that stand in a node itself have been put in place of generic ones. -/
def Replaces (n : Names) : Expr → Prop
  | .id name => ∃ generic, name = n.variableName generic
  | .field _ name => name = n.update ∨ ∃ generic, name = n.memberName generic
  | .new ty _ | .cast ty _ => ∃ generic, ty = n.typeName generic
  | _ => True

theorem Replaces.types {e : Expr} (h : n.Replaces e) :
    ∀ place, ∀ ty ∈ e.ownTypes place, ∃ generic, ty = n.typeName generic := by
  intro place ty hty
  cases e with
  | new created args =>
    cases place with
    | created => exact List.mem_singleton.1 hty ▸ h
    | _ => cases hty
  | cast target e =>
    cases place with
    | cast => exact List.mem_singleton.1 hty ▸ h
    | _ => cases hty
  | _ => cases place <;> cases hty

theorem MadeFrom.replaces {xs : List Expr} {x' : Expr} (h : n.MadeFrom xs x') : n.Replaces x' := by
  obtain ⟨x, -, hmakes⟩ | ⟨receiver, rfl⟩ := h
  · cases hmakes with
    | id name => exact ⟨name, rfl⟩
    | field name hreceiver => exact .inr ⟨name, rfl⟩
    | new ty hargs => exact ⟨ty, rfl⟩
    | cast ty he => exact ⟨ty, rfl⟩
    | _ => trivial
  · exact .inl rfl

/-- The types that stand in a statement itself have been put in place of generic ones, and so have the names in its
expressions. -/
structure ReplacesIn (n : Names) (s : Stmt) : Prop where
  types : ∀ place, ∀ ty ∈ s.ownTypes place, ∃ generic, ty = n.typeName generic
  exprs : ∀ e ∈ s.exprs, n.Replaces e

/-- The statement a concrete one is made from has a type of the same kind. -/
private theorem MakesStmt.replacesIn {s s' : Stmt} (h : n.MakesStmt s s') : n.ReplacesIn s' := by
  constructor
  · intro place ty hty
    cases h with
    | assign generic htarget hvalue =>
      cases generic with
      | none => cases place <;> cases hty
      | some generic =>
        cases place with
        | declared => exact ⟨generic, List.mem_singleton.1 hty⟩
        | _ => cases hty
    | forEach generic var hsource hbody =>
      cases place with
      | loop => exact ⟨generic, List.mem_singleton.1 hty⟩
      | _ => cases hty
    | _ => cases place <;> cases hty
  · exact fun x hx => (h.exprs x hx).replaces

theorem MakesBlock.replaces {b b' : Block} (h : n.MakesBlock b b') : ∀ s ∈ Stmt.listParts b', n.ReplacesIn s := by
  intro s hs
  obtain ⟨_, -, hmakes⟩ := h.parts s hs
  exact hmakes.replacesIn

/-- A name that has been put in place is one of the four new ones, or was none of the generic ones. -/
theorem variableName_cases (n : Names) (name : String) :
    n.variableName name = "this" ∨ n.variableName name = n.collection ∨ n.variableName name = n.eventParam ∨
      n.variableName name = n.observer ∨ n.variableName name = name ∧ Text.startsWith name ("rcv_" ++ n.aux) = false ∧
        name ≠ n.genericCollection ∧ name ≠ "evt" ∧ name ≠ n.aux := by
  unfold variableName
  split_ifs <;> simp_all

theorem memberName_ne {name : String} (h : n.collection ≠ n.genericCollection) :
    n.memberName name ≠ n.genericCollection := by
  unfold memberName
  split_ifs with hname
  · exact h
  · exact hname

/-- Between names that are words, no type that has been put in place has the dispatcher or Object as a word. -/
theorem hasWord_typeName (haux : Text.IsName n.aux.toList) (hobserver : Text.IsName n.observer.toList)
    (hne : n.observer ≠ n.aux) (hobject : n.observer ≠ "Object") (ty : String) :
    Text.hasWord n.aux (n.typeName ty) = false ∧ Text.hasWord "Object" (n.typeName ty) = false := by
  have hword : Text.IsName "Object".toList := by decide +kernel
  simp only [typeName, Bool.eq_false_iff, ne_eq, Text.hasWord_renameWord hword hobserver haux,
    Text.hasWord_renameWord hword hobserver hword, Text.hasWord_renameWord haux hobserver haux]
  simp [Ne.symm hne, Ne.symm hobject]

/-- A body in which no generic name is left. -/
structure Concrete (n : Names) (b : Block) : Prop where
  ids : ∀ s ∈ Stmt.listParts b, ∀ name, .id name ∈ s.exprs →
    name = "this" ∨ name = n.collection ∨ name = n.eventParam ∨ name = n.observer ∨
      Text.startsWith name ("rcv_" ++ n.aux) = false ∧ name ≠ n.genericCollection ∧ name ≠ "evt" ∧ name ≠ n.aux
  members : ∀ s ∈ Stmt.listParts b, ∀ receiver name, .field receiver name ∈ s.exprs →
    name = n.genericCollection → name = n.collection ∨ name = n.update
  /-- No update goes through the dispatcher, unless this is what a participant is called. -/
  updates : n.aux ≠ "this" → n.aux ≠ n.collection → n.aux ≠ n.eventParam → n.aux ≠ n.observer →
    ∀ s ∈ Stmt.listParts b, ∀ target receiver rest,
      .call (.field (.id n.aux) "reflect") (target :: receiver :: rest) ∈ s.exprs →
        target.lastName? ≠ some ("update_" ++ n.aux)
  types : ∀ place, ∀ ty ∈ Stmt.listTypes place b, Text.hasWord n.aux ty = false ∧ Text.hasWord "Object" ty = false

theorem MakesBlock.concrete {b b' : Block} (h : n.MakesBlock b b') (haux : Text.IsName n.aux.toList)
    (hobserver : Text.IsName n.observer.toList) (hne : n.observer ≠ n.aux) (hobject : n.observer ≠ "Object") :
    n.Concrete b' := by
  have hids : ∀ s ∈ Stmt.listParts b', ∀ name, .id name ∈ s.exprs → ∃ generic, name = n.variableName generic :=
    fun s hs name hname => (h.replaces s hs).exprs _ hname
  constructor
  · intro s hs name hname
    obtain ⟨generic, rfl⟩ := hids s hs name hname
    rcases n.variableName_cases generic with hthis | hcollection | hevent | hobs | ⟨hsame, hrest⟩
    · exact .inl hthis
    · exact .inr (.inl hcollection)
    · exact .inr (.inr (.inl hevent))
    · exact .inr (.inr (.inr (.inl hobs)))
    · exact .inr (.inr (.inr (.inr (hsame.symm ▸ hrest))))
  · intro s hs receiver name hfield hname
    rcases (h.replaces s hs).exprs _ hfield with hupdate | ⟨generic, hgeneric⟩
    · exact .inr hupdate
    · by_cases hcollection : n.collection = n.genericCollection
      · exact .inl (hname.trans hcollection.symm)
      · exact absurd (hgeneric.symm.trans hname) (memberName_ne hcollection)
  · intro hthis hcollection hevent hobs s hs target receiver rest hcall
    -- The dispatcher would be left as the receiver of the call.
    have haux : .id n.aux ∈ s.exprs := Expr.parts_subset_listParts hcall (by simp [Expr.parts])
    obtain ⟨generic, hgeneric⟩ := hids s hs n.aux haux
    rcases n.variableName_cases generic with hcase | hcase | hcase | hcase | ⟨hsame, -, -, -, hother⟩
    · exact absurd (hgeneric.trans hcase) hthis
    · exact absurd (hgeneric.trans hcase) hcollection
    · exact absurd (hgeneric.trans hcase) hevent
    · exact absurd (hgeneric.trans hcase) hobs
    · exact absurd (hsame.symm.trans hgeneric.symm) hother
  · intro place ty hty
    obtain ⟨s, hs, hty | ⟨e, he, hty⟩⟩ := Stmt.mem_listTypes.1 hty
    · obtain ⟨generic, rfl⟩ := (h.replaces s hs).types place ty hty
      exact hasWord_typeName haux hobserver hne hobject generic
    · obtain ⟨generic, rfl⟩ := ((h.replaces s hs).exprs e he).types place ty hty
      exact hasWord_typeName haux hobserver hne hobject generic

end Names

/-- The names for a handle body are those of the participants. -/
theorem names_eq_ok {c : Conventions} {r : Registry} {aux : String} {p : Participants} {n : Names}
    (h : names c r aux p = .ok n) : n.aux = aux ∧ n.genericCollection = c.collectionPrefix ∧
      n.collection = c.collectionFor n.observer ∧ r.className p.observer = .ok n.observer ∧
        r.methodName p.update = .ok n.update ∧ ∃ event, r.className p.event = .ok event ∧
          Collection.parameterOfType r p.handle event = .ok n.eventParam := by
  simp only [names, bind_eq_ok, pure_eq_ok] at h
  obtain ⟨event, hevent, formal, hformal, observer, hobserver, update, hupdate, -, -, -, -, rfl⟩ := h
  exact ⟨rfl, rfl, rfl, hobserver, hupdate, event, hevent, hformal⟩

/-- The body that a handle method gets is what the generic body becomes. -/
theorem transplant_makes {c : Conventions} {r r' : Registry} {aux : String} {p : Participants} {generic : MethodId}
    (h : transplant c r aux p generic = .ok r') : ∃ n g m, names c r aux p = .ok n ∧ r.method? generic = some g ∧
      r'.method? p.handle = some m ∧ n.MakesBlock g.body m.body := by
  obtain ⟨n, g, body, hn, hg, hbody, hsome, rfl⟩ := transplant_eq_ok h
  obtain ⟨m, hm⟩ := Option.isSome_iff_exists.1 hsome
  exact ⟨n, g, _, hn, hg, Registry.method?_setBody_self hm body, Names.makesBlock_of_concreteBlock hbody⟩

/-- In the body that a handle method gets no generic name is left, where the dispatcher and the observer are called by
words and the observer neither like the dispatcher nor Object. -/
theorem transplant_concrete {c : Conventions} {r r' : Registry} {aux observer : String} {p : Participants}
    {generic : MethodId} (h : transplant c r aux p generic = .ok r')
    (hobserver : r.className p.observer = .ok observer)
    (haux : Text.IsName aux.toList) (hname : Text.IsName observer.toList) (hne : observer ≠ aux)
    (hobject : observer ≠ "Object") : ∃ n m, names c r aux p = .ok n ∧
      (n.aux = aux ∧ n.genericCollection = c.collectionPrefix ∧ n.collection = c.collectionFor observer ∧
        n.observer = observer ∧ r.methodName p.update = .ok n.update ∧
          ∃ event, r.className p.event = .ok event ∧ Collection.parameterOfType r p.handle event = .ok n.eventParam) ∧
        r'.method? p.handle = some m ∧ n.Concrete m.body := by
  obtain ⟨n, g, m, hn, -, hm, hmakes⟩ := transplant_makes h
  obtain ⟨rfl, hgeneric, hcollection, hobs, hupdate, hevent⟩ := names_eq_ok hn
  obtain rfl := Except.ok.inj (hobs.symm.trans hobserver)
  exact ⟨n, m, hn, ⟨rfl, hgeneric, hcollection, rfl, hupdate, hevent⟩, hm,
    hmakes.concrete haux hname hne hobject⟩

/-! ## A door with bells -/

namespace Door

def genericHandle : MethodDecl :=
  ⟨"handleCode", ⟨0⟩, [⟨"AuxObserverOpening", "rcv"⟩, ⟨"Opening", "evt"⟩], "void", false,
    [.forEach "Object" "o" (.field (.id "rcv_AuxObserverOpening") "_obs")
      [.expr (.methodCall (.id "AuxObserverOpening") "reflect" [.id "update_AuxObserverOpening",
        .cast "AuxObserverOpening" (.id "o"), .id "rcv_AuxObserverOpening", .cast "Opening" (.id "evt")])]]⟩

/-- A door tells its bells when it is opened. The parameter of its handle method is called as given. -/
def registry (formal : String) : Registry where
  classes :=
    [ClassDecl.empty "AuxObserverOpening", ClassDecl.empty "Opening", ClassDecl.empty "Door", ClassDecl.empty "Bell"]
  methods :=
    [genericHandle, ⟨"open", ⟨2⟩, [⟨"Opening", formal⟩], "void", false, []⟩,
      ⟨"ring", ⟨3⟩, [⟨"Door", "door"⟩, ⟨"Opening", "opening"⟩], "void", false, []⟩]

def participants : Participants := ⟨⟨2⟩, ⟨3⟩, ⟨1⟩, none, none, ⟨1⟩, ⟨2⟩⟩

theorem transplant_opening :
    ∃ r', transplant .default (registry "opening") "AuxObserverOpening" participants ⟨0⟩ = .ok r' := by
  have hok : okAnd (transplant .default (registry "opening") "AuxObserverOpening" participants ⟨0⟩)
      (fun _ => true) = true := by
    decide +kernel
  obtain ⟨r', h, -⟩ := okAnd_eq_true.1 hok
  exact ⟨r', h⟩

end Door

theorem transplant_concrete_door : ∃ r' n m,
    transplant .default (Door.registry "opening") "AuxObserverOpening" Door.participants ⟨0⟩ = .ok r' ∧
      names .default (Door.registry "opening") "AuxObserverOpening" Door.participants = .ok n ∧
        r'.method? Door.participants.handle = some m ∧ n.Concrete m.body := by
  obtain ⟨r', h⟩ := Door.transplant_opening
  have hobserver : (Door.registry "opening").className Door.participants.observer = .ok "Bell" := by decide +kernel
  obtain ⟨n, m, hn, -, hm, hconcrete⟩ := transplant_concrete h hobserver (by decide +kernel) (by decide +kernel)
    (by decide) (by decide)
  exact ⟨r', n, m, h, hn, hm, hconcrete⟩

end ObserverPattern.HandleBody
