import ObserverPattern.Proofs.Decoder.NormalForm

/-!
# Concrete code is left alone

Most methods of a program are not generic: they hold no name of a dispatcher, no placeholder and
nothing else that the skeleton builder left for the decoder. The pass leaves such code alone
(`Expr.Concrete`, `Stmt.Concrete`).

* `decode_concrete`: a method with such a body that no dispatcher gives its code to comes out of a
  decode as it went in.
-/

namespace ObserverPattern

/-- An expression that holds nothing for the decoder. -/
def Expr.Concrete (c : Conventions) : Expr → Prop
  | .id name => Text.occursIn c.lowerMarker name = false
  | .field _ name => Text.occursIn c.lowerMarker name = false
  | .cast ty _ => Text.occursIn c.auxMarker ty = false
  | .placeholder name _ => name ≠ "Compare" ∧ name ≠ "CompareString"
  | .call (.id name) _ => name ≠ "subcls"
  | .call (.field (.id receiver) method) _ =>
    method = "reflect" ∨ method = "subjectCall" → Text.startsWith receiver c.auxMarker = false
  | _ => True

instance (c : Conventions) (e : Expr) : Decidable (e.Concrete c) := by
  unfold Expr.Concrete
  split <;> infer_instance

/-- A statement that holds nothing for the decoder itself, in a class that may have a collection. -/
def Stmt.ConcreteHead (c : Conventions) (collection : Option String) : Stmt → Prop
  | .assign (some ty) _ _ => Text.occursIn c.auxMarker ty = false
  | .ifElse cond _ _ => cond.source ≠ "true" ∧ cond.source ≠ "false"
  | .forEach _ _ source _ => collection = none ∨ source.lastName? ≠ collection
  | _ => True

instance (c : Conventions) (collection : Option String) (s : Stmt) : Decidable (s.ConcreteHead c collection) := by
  unfold Stmt.ConcreteHead
  split <;> infer_instance

/-- A statement that holds nothing for the decoder, nor do the expressions in it. -/
def Stmt.Concrete (c : Conventions) (collection : Option String) (s : Stmt) : Prop :=
  s.ConcreteHead c collection ∧ ∀ e ∈ s.exprs, e.Concrete c

instance (c : Conventions) (collection : Option String) (s : Stmt) : Decidable (s.Concrete c collection) :=
  inferInstanceAs (Decidable (_ ∧ _))

namespace Decoder

variable {d : Decoder} {p : Position}

/-! ## The pass -/

private theorem concreteName_eq_self {r : Registry} {name : String}
    (h : Text.occursIn d.conventions.lowerMarker name = false) : d.concreteName r name = .ok name := by
  simp [concreteName, h]

/-- The pass leaves a concrete expression alone. -/
theorem onExpr_eq_self {e : Expr} (h : e.Concrete d.conventions) : d.onExpr p e = .ok e := by
  cases e with
  | id name =>
    rw [onExpr, concreteName_eq_self h]
    rfl
  | field receiver name =>
    rw [onExpr, concreteName_eq_self h]
    rfl
  | cast ty inner =>
    have hty : d.isMarked ty = false := h
    simp [onExpr, hty]
  | placeholder name operands =>
    obtain ⟨hcompare, hstring⟩ : name ≠ "Compare" ∧ name ≠ "CompareString" := h
    simp [onExpr, resolvePlaceholder, hcompare, hstring]
  | call callee args =>
    have htest : subclassTest? callee args = none := by
      unfold subclassTest?
      split
      · next name _ _ =>
        have hname : name ≠ "subcls" := h
        simp [hname]
      · rfl
    simp only [onExpr, resolveCall, htest]
  | literal l => rfl
  | new ty args => rfl
  | binary op left right => rfl

private theorem resolveDispatch_eq_self {e : Expr} (h : e.Concrete d.conventions) :
    d.resolveDispatch p e = .ok e := by
  unfold resolveDispatch
  split
  · next callee target receiver args =>
    have hreflected : d.reflected? callee = none := by
      unfold reflected?
      split
      · next aux method =>
        rw [if_neg]
        rintro ⟨hmethod, hmarked⟩
        have hunmarked : d.startsMarked aux = false := h (.inl hmethod)
        exact Bool.false_ne_true (hunmarked.symm.trans hmarked)
      · rfl
    rw [hreflected]
  · rfl

/-- The pass leaves a concrete statement alone. -/
theorem onStmt_eq_self {s : Stmt} {c : ClassDecl} (hc : p.registry.class? p.owner = some c)
    (h : s.Concrete d.conventions c.collection) : d.onStmt p s = .ok [s] := by
  cases s with
  | expr e =>
    have he := h.2 e (by simp [Stmt.exprs, Stmt.operands, Expr.listParts, Expr.self_mem_parts])
    rw [onStmt, resolveDispatch_eq_self he]
    rfl
  | assign ty target value =>
    cases ty with
    | none => rfl
    | some ty =>
      have hty : d.isMarked ty = false := h.1
      simp [onStmt, hty]
  | ifElse cond thenBody elseBody =>
    obtain ⟨htrue, hfalse⟩ : cond.source ≠ "true" ∧ cond.source ≠ "false" := h.1
    simp [onStmt, htrue, hfalse]
  | forEach ty var source body =>
    have hwalks : walksCollection p source = .ok false := by
      simp only [walksCollection, bind_eq_ok, pure_eq_ok, Registry.getClass_eq_ok]
      refine ⟨c, hc, ?_⟩
      have hsource : c.collection = none ∨ source.lastName? ≠ c.collection := h.1
      rcases hsource with hnone | hsource
      · rw [hnone]
        rfl
      · rw [beq_eq_false_iff_ne.2 hsource, Bool.and_false]
    rw [onStmt, hwalks]
    rfl
  | whileLoop cond body => rfl
  | ret value => rfl

private theorem callsSubject_eq_false {s : Stmt} {collection : Option String}
    (h : s.Concrete d.conventions collection) : d.callsSubject s = false := by
  unfold callsSubject
  split
  · next e =>
    have he := h.2 e (by simp [Stmt.exprs, Stmt.operands, Expr.listParts, Expr.self_mem_parts])
    split
    · next receiver method args heq =>
      obtain rfl := Expr.methodCall?_eq_some heq
      by_cases hmethod : method = "subjectCall"
      · have hunmarked : d.startsMarked receiver = false := he (.inr hmethod)
        rw [hunmarked, Bool.and_false]
      · simp [hmethod]
    · rfl
  · rfl

/-- The pass leaves a body of concrete statements alone, unless they are nested too deep. -/
theorem walkBlock_eq_self {c : ClassDecl} (hc : p.registry.class? p.owner = some c) {b b' : Block}
    (hb : ∀ x ∈ Stmt.listParts b, x.Concrete d.conventions c.collection)
    (h : Walk.walkBlock d.pass p b = .ok b') : b' = b := by
  simp only [Walk.walkBlock, Walk.lift_eq, bind_eq_ok] at h
  obtain ⟨-, -, h⟩ := h
  refine Walk.walkStmts_eq_self p.depth b b' ?_ h
  intro x hx n
  exact ⟨fun e he => onExpr_eq_self ((hb x hx).2 e he), onStmt_eq_self (p := p.atDepth n) hc (hb x hx)⟩

/-- A body of concrete statements is kept as a whole, except for the temporary ones of a constructor. -/
theorem onMethod_eq_self {k : MethodId} {m : MethodDecl} {collection : Option String} {b b' : Block}
    (hmethod : p.method = some k) (hm : p.registry.method? k = some m)
    (hb : ∀ x ∈ b, x.Concrete d.conventions collection)
    (htmp : m.isInit = true → ∀ x ∈ b, Text.occursIn d.conventions.tmpMarker x.source = false)
    (h : d.onMethod p b = .ok b') : b' = b := by
  cases b with
  | nil => exact List.subset_nil.1 (onMethod_subset h)
  | cons first rest =>
    rw [onMethod_eq hmethod, Registry.getMethod_eq_ok.2 hm] at h
    by_cases hinit : m.isInit = true
    · simp only [Except.map, ok_bind, hinit, if_true, Except.ok.injEq] at h
      rw [← h, List.filter_eq_self]
      intro x hx
      rw [htmp hinit x hx]
      rfl
    · simp only [Except.map, ok_bind, hinit, callsSubject_eq_false (hb first (by simp)), if_false, Except.ok.injEq,
        Bool.false_eq_true] at h
      exact h.symm

/-! ## The whole decode -/

/-- A method with a concrete body that no dispatcher gives its code to comes out as it went in. -/
theorem decode_concrete {d d' : Decoder} {p p' : Program} {s : Summary} (h : d.decode p = .ok (d', p', s))
    {id : ClassId} {c : ClassDecl} {k : MethodId} {m : MethodDecl}
    (hid : id ∈ p'.template.classes) (hc : p'.registry.class? id = some c) (hk : k ∈ c.methods)
    (honce : p'.listedMethods.count k = 1)
    (huntouched : ∀ aux ∈ p.template.auxs, ∀ participants, d'.resolved.get? aux = some participants →
      ¬ participants.Writes p.registry k)
    (hm : p.registry.method? k = some m)
    (hbody : ∀ x ∈ Stmt.listParts m.body, x.Concrete d.conventions c.collection)
    (htmp : m.isInit = true → ∀ x ∈ m.body, Text.occursIn d.conventions.tmpMarker x.source = false) :
    p'.registry.method? k = some m := by
  have hconventions := (decode_later h).conventions
  obtain ⟨d₁, p₁, -, hdispatchers, rfl, hwalk, htemplate⟩ := decode_eq_ok h
  have houtline := Walk.outline_walk hwalk
  have hmethodsOf := Registry.methodsOf_congr (Registry.skeleton_eq_of_outline_eq houtline)
  -- The first phase does not touch the method, the second finds nothing to do in it.
  have hbefore : p₁.registry.method? k = some m := by
    rw [decodeDispatchers_method hdispatchers, hm]
    intro aux haux c₁ hc₁
    exact huntouched aux haux c₁.participants (decodeDispatchers_resolved hdispatchers hc₁ (.inl haux))
  rw [htemplate] at hid
  rw [Program.listedMethods, htemplate, hmethodsOf] at honce
  have hlisted : k ∈ p₁.registry.methodsOf id := by rwa [← hmethodsOf, Registry.methodsOf_eq hc]
  obtain ⟨r₁, m₁, body, new, hr₁, hm₁, hwalked, hnew, hresult⟩ := Walk.walk_body hwalk hid hlisted honce
  obtain rfl := Option.some.inj (hm₁.symm.trans hbefore)
  obtain ⟨c₁, hc₁, -⟩ := Registry.class?_of_outline_eq (hr₁.trans houtline.symm) hc
  obtain ⟨m₂, hm₂, hheader⟩ := Registry.method?_of_skeleton_eq (Registry.skeleton_eq_of_outline_eq hr₁) hm₁
  have hcollection := Registry.collection_eq_of_outline_eq (hr₁.trans houtline.symm) hc hc₁
  have hinit : m₂.isInit = m₁.isInit := by
    show m₂.header.isInit = m₁.header.isInit
    rw [hheader]
  rw [← hconventions] at hbody htmp
  rw [← hcollection] at hbody
  obtain rfl := walkBlock_eq_self hc₁ hbody hwalked
  have htop : ∀ x ∈ m₁.body, x.Concrete _ c₁.collection := fun x hx =>
    hbody x (Stmt.mem_listParts.2 ⟨x, hx, Stmt.self_mem_parts x⟩)
  obtain rfl := onMethod_eq_self rfl hm₂ htop (hinit ▸ htmp) hnew
  exact hresult

theorem decode_concrete_station : ∃ d' p' s m, Station.decoder.decode Station.program = .ok (d', p', s) ∧
    Station.program.registry.method? ⟨4⟩ = some m ∧ p'.listedMethods.count ⟨4⟩ = 1 ∧
      (∀ x ∈ Stmt.listParts m.body, x.Concrete .default (some "_obs_Siren")) ∧ p'.registry.method? ⟨4⟩ = some m := by
  have hdecode : okAnd (Station.decoder.decode Station.program) (fun x =>
      ⟨4⟩ ∈ x.2.1.template.classes ∧ x.2.1.listedMethods.count ⟨4⟩ = 1 ∧
        (∃ c ∈ x.2.1.registry.class? ⟨4⟩, ⟨4⟩ ∈ c.methods ∧ c.collection = some "_obs_Siren") ∧
          ∀ aux ∈ Station.program.template.auxs, ∀ participants ∈ x.1.resolved.get? aux,
            ¬ participants.Writes Station.program.registry ⟨4⟩) = true := by
    decide +kernel
  obtain ⟨⟨d', p', s⟩, h, hresult⟩ := okAnd_eq_true.1 hdecode
  obtain ⟨hid, honce, ⟨c, hc, hk, hcollection⟩, huntouched⟩ := of_decide_eq_true hresult
  obtain ⟨m, hm, hbody, hinit⟩ : ∃ m ∈ Station.program.registry.method? ⟨4⟩,
      (∀ x ∈ Stmt.listParts m.body, x.Concrete .default (some "_obs_Siren")) ∧ m.isInit = false := by
    decide +kernel
  exact ⟨d', p', s, m, h, hm, honce, hbody, decode_concrete h hid hc hk honce huntouched hm (hcollection ▸ hbody)
    fun htrue => absurd (hinit.symm.trans htrue) (by decide)⟩

end Decoder

end ObserverPattern
