import ObserverPattern.Proofs.Decoder.Rules
import ObserverPattern.Proofs.Decoder.Skeleton
import ObserverPattern.Proofs.Walk.Trees

/-!
# The normal form of decoded code

One traversal, children before parents, leaves nothing behind that the decoder is to resolve: no
placeholder of a comparison, no test for a subclass of a subject, no branch on a truth value and no
loop over the collection of the class. The replacements of a node are not visited again, so each rule
has to give code in which none of the others applies (`onExpr_normal`, `onStmt_normal`).

* `decode_normal`: the bodies and the fields of the classes that a decode leaves are in normal form.
-/

namespace ObserverPattern

/-! ## What is to be resolved -/

/-- A placeholder for a comparison. -/
def Expr.IsPlaceholder (e : Expr) : Prop := ∃ operands, e = .placeholder "Compare" operands ∨
  e = .placeholder "CompareString" operands

/-- A test whether a class is the subject or below it. -/
def Expr.IsSubclassTest (e : Expr) : Prop := ∃ n sup, e = .call (.id "subcls") [.literal (.int n), sup] ∧
  Text.occursIn "subject" sup.source = true ∧ sup.lastName?.isSome = true

/-- A branch on a truth value. -/
def Stmt.IsDecided (s : Stmt) : Prop := ∃ cond thenBody elseBody, s = .ifElse cond thenBody elseBody ∧
  (cond.source = "true" ∨ cond.source = "false")

/-- A loop over the collection of a name. -/
def Stmt.LoopsOver (name : String) (s : Stmt) : Prop := ∃ ty var source body, s = .forEach ty var source body ∧
  source.lastName? = some name

/-- An expression that is not to be resolved. -/
structure Expr.Normal (e : Expr) : Prop where
  noPlaceholder : ¬ e.IsPlaceholder
  noSubclassTest : ¬ e.IsSubclassTest

/-- A statement that is not to be resolved, in a class that may have a collection, and the
expressions in it. -/
structure Stmt.Normal (collection : Option String) (s : Stmt) : Prop where
  undecided : ¬ s.IsDecided
  noLoop : ∀ name, collection = some name → ¬ s.LoopsOver name
  exprs : ∀ e ∈ s.exprs, e.Normal

namespace Decoder

variable {d : Decoder} {p : Position}

/-! ## Expressions -/

private theorem normal_of_not_call {e : Expr} (hcall : ∀ callee args, e ≠ .call callee args)
    (hplaceholder : ∀ name operands, e ≠ .placeholder name operands) : e.Normal := by
  constructor
  · rintro ⟨operands, rfl | rfl⟩
    · exact hplaceholder _ _ rfl
    · exact hplaceholder _ _ rfl
  · rintro ⟨n, sup, rfl, -⟩
    exact hcall _ _ rfl

private theorem normal_methodCall (receiver : Expr) (method : String) (args : List Expr) :
    (Expr.methodCall receiver method args).Normal := by
  constructor
  · rintro ⟨operands, h | h⟩ <;> cases h
  · rintro ⟨n, sup, h, -⟩
    cases h

private theorem resolvePlaceholder_normal {name : String} {operands : List Expr} {e' : Expr}
    (hoperands : ∀ x ∈ Expr.listParts operands, x.Normal)
    (h : d.resolvePlaceholder p name operands = .ok e') : ∀ x ∈ e'.parts, x.Normal := by
  intro x hx
  rcases resolvePlaceholder_eq_ok h with ⟨left, right, rfl, rfl⟩ | ⟨left, right, op, key, rfl, -, -, rfl⟩ |
    ⟨hstring, hcompare, rfl⟩
  · simp only [Expr.methodCall, Expr.parts, Expr.listParts, List.mem_cons, List.mem_append, List.append_nil] at hx
    rcases hx with rfl | (rfl | hx) | hx
    · exact normal_methodCall left "equals" [right]
    · exact normal_of_not_call (by simp) (by simp)
    · exact hoperands x (by simp [Expr.listParts, hx])
    · exact hoperands x (by simp [Expr.listParts, hx])
  · simp only [Expr.parts, List.mem_cons, List.mem_append] at hx
    rcases hx with rfl | hx | hx
    · exact normal_of_not_call (by simp) (by simp)
    · exact hoperands x (by simp [Expr.listParts, hx])
    · exact hoperands x (by simp [Expr.listParts, hx])
  · rw [Expr.parts, List.mem_cons] at hx
    rcases hx with rfl | hx
    · constructor
      · rintro ⟨operands, heq | heq⟩
        · exact hcompare (Expr.placeholder.inj heq).1
        · exact hstring (Expr.placeholder.inj heq).1
      · rintro ⟨n, sup, heq, -⟩
        cases heq
    · exact hoperands x hx

private theorem resolveCall_normal {callee : Expr} {args : List Expr} {e' : Expr}
    (hchildren : ∀ x ∈ Expr.listParts (callee :: args), x.Normal)
    (h : d.resolveCall p callee args = .ok e') : ∀ x ∈ e'.parts, x.Normal := by
  intro x hx
  rcases resolveCall_eq_ok h with ⟨htest, rfl⟩ | ⟨_, _, _, sub, sup, -, -, -, -, -, rfl⟩
  · rw [Expr.parts_eq, List.mem_cons] at hx
    rcases hx with rfl | hx
    · constructor
      · rintro ⟨operands, heq | heq⟩ <;> cases heq
      · rintro ⟨n, sup, heq, hsubject, hname⟩
        obtain ⟨rfl, rfl⟩ := Expr.call.inj heq
        obtain ⟨hole, hhole⟩ := Option.isSome_iff_exists.1 hname
        rw [subclassTest?_eq_some.2 ⟨sup, rfl, rfl, hsubject, hhole⟩] at htest
        cases htest
    · exact hchildren x hx
  · simp only [Expr.bool, Expr.parts, List.mem_singleton] at hx
    subst hx
    exact normal_of_not_call (by simp) (by simp)

/-- The pass takes an expression whose children are in normal form to one in normal form. -/
theorem onExpr_normal (e e' : Expr) (hchildren : ∀ x ∈ Expr.listParts e.children, x.Normal)
    (h : d.onExpr p e = .ok e') : ∀ x ∈ e'.parts, x.Normal := by
  -- Most rules change a name or a type and leave the children, which are in normal form.
  have hsame : ∀ e₁ : Expr, e₁.Normal → e₁.children = e.children → ∀ x ∈ e₁.parts, x.Normal := by
    intro e₁ hself hsub x hx
    rw [Expr.parts_eq, hsub, List.mem_cons] at hx
    rcases hx with rfl | hx
    · exact hself
    · exact hchildren x hx
  cases e with
  | placeholder name operands => exact resolvePlaceholder_normal hchildren h
  | call callee args => exact resolveCall_normal hchildren h
  | id name =>
    simp only [onExpr, bind_eq_ok, pure_eq_ok] at h
    obtain ⟨name', -, rfl⟩ := h
    exact hsame _ (normal_of_not_call (by simp) (by simp)) rfl
  | field receiver name =>
    simp only [onExpr, bind_eq_ok, pure_eq_ok] at h
    obtain ⟨name', -, rfl⟩ := h
    exact hsame _ (normal_of_not_call (by simp) (by simp)) rfl
  | cast ty inner =>
    obtain ⟨ty', rfl⟩ := onExpr_cast h
    exact hsame _ (normal_of_not_call (by simp) (by simp)) rfl
  | literal l =>
    cases h
    exact hsame _ (normal_of_not_call (by simp) (by simp)) rfl
  | new ty args =>
    cases h
    exact hsame _ (normal_of_not_call (by simp) (by simp)) rfl
  | binary op left right =>
    cases h
    exact hsame _ (normal_of_not_call (by simp) (by simp)) rfl

/-! ## Statements -/

private theorem normal_of_simple {collection : Option String} {s : Stmt}
    (hif : ∀ cond thenBody elseBody, s ≠ .ifElse cond thenBody elseBody)
    (hfor : ∀ ty var source body, s ≠ .forEach ty var source body) (hexprs : ∀ e ∈ s.exprs, e.Normal) :
    s.Normal collection := by
  refine ⟨?_, ?_, hexprs⟩
  · rintro ⟨cond, thenBody, elseBody, rfl, -⟩
    exact hif _ _ _ rfl
  · rintro name - ⟨ty, var, source, body, rfl, -⟩
    exact hfor _ _ _ _ rfl

private theorem resolveDispatch_normal {e e' : Expr} (hexprs : ∀ x ∈ e.parts, x.Normal)
    (h : d.resolveDispatch p e = .ok e') : ∀ x ∈ e'.parts, x.Normal := by
  rcases resolveDispatch_eq_ok h with rfl | ⟨callee, target, receiver, args, method, rfl, -, rfl⟩
  · exact hexprs
  · have hargs : ∀ x ∈ Expr.listParts (args.filter fun arg => !arg.isNull), x ∈ Expr.listParts args := by
      intro x hx
      obtain ⟨arg, harg, hx⟩ := Expr.mem_listParts.1 hx
      exact Expr.mem_listParts.2 ⟨arg, (List.mem_filter.1 harg).1, hx⟩
    intro x hx
    simp only [Expr.methodCall, Expr.parts, List.mem_cons, List.mem_append] at hx
    rcases hx with rfl | (rfl | hx) | hx
    · exact normal_methodCall _ _ _
    · exact normal_of_not_call (by simp) (by simp)
    · exact hexprs x (by simp [Expr.parts, Expr.listParts, hx])
    · exact hexprs x (by simp [Expr.parts, Expr.listParts, hargs x hx])

private theorem loopWithIterator_normal {collection : Option String} {direction : Direction} {ty var : String}
    {source : Expr} {body : Block} (hsource : ∀ x ∈ source.parts, x.Normal)
    (hbody : ∀ x ∈ Stmt.listParts body, x.Normal collection) :
    ∀ x ∈ Stmt.listParts (loopWithIterator direction ty var source body), x.Normal collection := by
  intro x hx
  simp only [loopWithIterator, Stmt.declare, Stmt.listParts, Stmt.parts, List.singleton_append, List.append_nil,
    List.mem_cons] at hx
  rcases hx with rfl | rfl | rfl | hx
  · refine normal_of_simple (by simp) (by simp) ?_
    intro e he
    simp only [Stmt.exprs, Stmt.operands, Expr.methodCall, Expr.listParts, Expr.parts, List.append_nil,
      List.singleton_append, List.mem_cons] at he
    rcases he with rfl | rfl | rfl | he
    · exact normal_of_not_call (by simp) (by simp)
    · exact normal_methodCall _ _ _
    · exact normal_of_not_call (by simp) (by simp)
    · exact hsource e he
  · refine normal_of_simple (by simp) (by simp) ?_
    intro e he
    simp only [Stmt.exprs, Stmt.operands, Expr.methodCall, Expr.listParts, Expr.parts, List.append_nil,
      List.mem_cons, List.not_mem_nil, or_false] at he
    rcases he with rfl | rfl | rfl
    · exact normal_methodCall _ _ _
    · exact normal_of_not_call (by simp) (by simp)
    · exact normal_of_not_call (by simp) (by simp)
  · refine normal_of_simple (by simp) (by simp) ?_
    intro e he
    simp only [Stmt.exprs, Stmt.operands, Expr.methodCall, Expr.listParts, Expr.parts, List.append_nil,
      List.singleton_append, List.mem_cons, List.not_mem_nil, or_false] at he
    rcases he with rfl | rfl | rfl | rfl | rfl
    · exact normal_of_not_call (by simp) (by simp)
    · exact normal_of_not_call (by simp) (by simp)
    · exact normal_methodCall _ _ _
    · exact normal_of_not_call (by simp) (by simp)
    · exact normal_of_not_call (by simp) (by simp)
  · exact hbody x hx

/-- The pass takes a statement whose expressions and whose nested statements are in normal form to
statements in normal form. -/
theorem onStmt_normal {collection : Option String}
    (hcollection : ∀ c, p.registry.class? p.owner = some c → c.collection = collection) (s : Stmt) (b : Block)
    (hexprs : ∀ e ∈ s.exprs, e.Normal) (hchildren : ∀ x ∈ Stmt.listParts s.children, x.Normal collection)
    (h : d.onStmt p s = .ok b) : ∀ x ∈ Stmt.listParts b, x.Normal collection := by
  -- Where the statement stays, only the statement itself is left to be looked at.
  have hsame : s.Normal collection → ∀ x ∈ Stmt.listParts [s], x.Normal collection := by
    intro hself x hx
    simp only [Stmt.listParts, List.append_nil, Stmt.parts_eq s, List.mem_cons] at hx
    rcases hx with rfl | hx
    · exact hself
    · exact hchildren x hx
  cases s with
  | expr e =>
    simp only [onStmt, bind_eq_ok, pure_eq_ok] at h
    obtain ⟨e', he', rfl⟩ := h
    have he : ∀ x ∈ e.parts, x.Normal := fun x hx => hexprs x (by simpa [Stmt.exprs, Stmt.operands, Expr.listParts])
    intro x hx
    simp only [Stmt.listParts, Stmt.parts, List.append_nil, List.mem_singleton] at hx
    subst hx
    refine normal_of_simple (by simp) (by simp) ?_
    simpa [Stmt.exprs, Stmt.operands, Expr.listParts] using resolveDispatch_normal he he'
  | assign ty target value =>
    obtain ⟨ty', -, rfl⟩ := onStmt_assign h
    intro x hx
    simp only [Stmt.listParts, Stmt.parts, List.append_nil, List.mem_singleton] at hx
    subst hx
    exact normal_of_simple (by simp) (by simp) hexprs
  | ifElse cond thenBody elseBody =>
    obtain rfl := onStmt_ifElse h
    by_cases hfalse : cond.source = "false"
    · rw [if_pos hfalse]
      exact fun x hx => hchildren x (by simp [Stmt.children, Stmt.listParts_append, hx])
    · rw [if_neg hfalse]
      by_cases htrue : cond.source = "true"
      · rw [if_pos htrue]
        exact fun x hx => hchildren x (by simp [Stmt.children, Stmt.listParts_append, hx])
      · rw [if_neg htrue]
        refine hsame ⟨?_, ?_, hexprs⟩
        · rintro ⟨cond', then', else', heq, hcond⟩
          obtain ⟨rfl, -, -⟩ := Stmt.ifElse.inj heq
          rcases hcond with hcond | hcond
          · exact htrue hcond
          · exact hfalse hcond
        · rintro name - ⟨ty, var, source, body, heq, -⟩
          cases heq
  | forEach ty var source body =>
    have hsource : ∀ x ∈ source.parts, x.Normal :=
      fun x hx => hexprs x (by simpa [Stmt.exprs, Stmt.operands, Expr.listParts])
    obtain ⟨walks, hwalks, ⟨rfl, rfl⟩ | ⟨-, direction, -, rfl⟩⟩ := onStmt_forEach h
    · obtain ⟨c, hc, hiff⟩ := walksCollection_eq_ok hwalks
      refine hsame ⟨?_, ?_, hexprs⟩
      · rintro ⟨cond', then', else', heq, -⟩
        cases heq
      · rintro name hname ⟨ty', var', source', body', heq, hlast⟩
        obtain ⟨-, -, rfl, -⟩ := Stmt.forEach.inj heq
        rw [← hcollection c hc] at hname
        exact Bool.false_ne_true (hiff.2 ⟨name, hname, hlast⟩)
    · exact loopWithIterator_normal hsource hchildren
  | whileLoop cond body =>
    cases h
    exact hsame (normal_of_simple (by simp) (by simp) hexprs)
  | ret value =>
    cases h
    exact hsame (normal_of_simple (by simp) (by simp) hexprs)

/-! ## Fields and methods -/

private theorem walkFields_normal {fs fs' : List Field} (h : Walk.walkFields d.pass p fs = .ok fs') :
    ∀ f ∈ fs', ∀ e ∈ Expr.listParts f.init.toList, e.Normal := by
  induction fs generalizing fs' with
  | nil =>
    rw [Walk.walkFields, pure_eq_ok] at h
    subst h
    simp
  | cons f fs ih =>
    simp only [Walk.walkFields, Walk.walkField, bind_eq_ok, pure_eq_ok] at h
    obtain ⟨new, ⟨init, hinit, hnew⟩, rest, hrest, rfl⟩ := h
    have hnormal := Walk.walkOption_parts onExpr_normal hinit
    obtain ⟨ty, name, rfl⟩ := onField_eq_ok hnew
    intro f' hf'
    rcases List.mem_cons.1 hf' with rfl | hf'
    · exact hnormal
    · exact ih hrest f' hf'

/-- The pass takes every body to one in normal form. -/
theorem walkBlock_normal {collection : Option String}
    (hcollection : ∀ c, p.registry.class? p.owner = some c → c.collection = collection) {b b' : Block}
    (h : Walk.walkBlock d.pass p b = .ok b') : ∀ x ∈ Stmt.listParts b', x.Normal collection := by
  simp only [Walk.walkBlock, Walk.lift_eq, bind_eq_ok] at h
  obtain ⟨-, -, h⟩ := h
  exact Walk.walkStmts_parts (fun _ => onExpr_normal) (fun _ => onStmt_normal hcollection) p.depth b b' h

/-! ## The whole decode -/

/-- The classes that a decode leaves are in normal form: the fields of each, and the bodies of the
methods that it lists. -/
theorem decode_normal {d d' : Decoder} {p p' : Program} {s : Summary} (h : d.decode p = .ok (d', p', s))
    (hclasses : p'.template.classes.Nodup) (hmethods : p'.listedMethods.Nodup) :
    ∀ id ∈ p'.template.classes, ∃ c, p'.registry.class? id = some c ∧
      (∀ f ∈ c.fields, ∀ e ∈ Expr.listParts f.init.toList, e.Normal) ∧
        ∀ k ∈ c.methods, ∃ m, p'.registry.method? k = some m ∧
          ∀ x ∈ Stmt.listParts m.body, x.Normal c.collection := by
  intro id hid
  obtain ⟨d₁, p₁, -, -, -, hwalk, htemplate⟩ := decode_eq_ok h
  have houtline := Walk.outline_walk hwalk
  rw [htemplate] at hclasses hid
  obtain ⟨r₁, c, fields, -, hc, hfields, hresult⟩ := Walk.walk_fields hwalk (by rw [hclasses.count, if_pos hid])
  refine ⟨_, hresult, walkFields_normal hfields, ?_⟩
  intro k hk
  -- The pass sees the collection that the class has in the end: the traversal keeps it.
  have hlisted : k ∈ p₁.registry.methodsOf id := by rwa [Registry.methodsOf_eq hc]
  have honce : (p₁.template.classes.flatMap p₁.registry.methodsOf).count k = 1 := by
    have hcount := hmethods.count (a := k)
    rw [Program.listedMethods, htemplate,
      Registry.methodsOf_congr (Registry.skeleton_eq_of_outline_eq houtline)] at hcount
    rw [hcount, if_pos (List.mem_flatMap.2 ⟨id, hid, hlisted⟩)]
  obtain ⟨r₂, m, body, new, hr₂, hm, hbody, hnew, hmethod⟩ := Walk.walk_body hwalk hid hlisted honce
  refine ⟨_, hmethod, ?_⟩
  have hcollection : ∀ c₂, r₂.class? id = some c₂ → c₂.collection = c.collection :=
    fun c₂ hc₂ => Registry.collection_eq_of_outline_eq hr₂ hc hc₂
  have hnormal := walkBlock_normal (p := ⟨r₂, id, some k, 0, _⟩) hcollection hbody
  intro x hx
  obtain ⟨s, hs, hx⟩ := Stmt.mem_listParts.1 hx
  exact hnormal x (Stmt.mem_listParts.2 ⟨s, onMethod_subset hnew hs, hx⟩)

theorem decode_normal_station : ∃ d' p' s, Station.decoder.decode Station.program = .ok (d', p', s) ∧
    p'.template.classes.Nodup ∧ p'.listedMethods.Nodup ∧ ⟨4⟩ ∈ p'.template.classes ∧
      ∃ c, p'.registry.class? ⟨4⟩ = some c ∧ (∀ f ∈ c.fields, ∀ e ∈ Expr.listParts f.init.toList, e.Normal) ∧
        ∀ k ∈ c.methods, ∃ m, p'.registry.method? k = some m ∧
          ∀ x ∈ Stmt.listParts m.body, x.Normal c.collection := by
  have hdecode : okAnd (Station.decoder.decode Station.program) (fun x =>
      x.2.1.template.classes.Nodup ∧ x.2.1.listedMethods.Nodup ∧ ⟨4⟩ ∈ x.2.1.template.classes) = true := by
    decide +kernel
  obtain ⟨⟨d', p', s⟩, h, hresult⟩ := okAnd_eq_true.1 hdecode
  obtain ⟨hclasses, hmethods, hstation⟩ := of_decide_eq_true hresult
  exact ⟨d', p', s, h, hclasses, hmethods, hstation, decode_normal h hclasses hmethods _ hstation⟩

end Decoder

end ObserverPattern
