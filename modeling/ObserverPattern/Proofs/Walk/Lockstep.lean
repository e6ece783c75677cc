import ObserverPattern.Proofs.Walk.Trees

/-!
# Traversals in lockstep

Two traversals, possibly in two monads, that do related things at each node do related things as a
whole. What "related" means is left open (`Lockstep`): it has to hold of equal values and of faults
that are allowed, and to pass through binds.

* `walkExpr_lockstep`, `walkStmts_lockstep`: trees, by the one induction over their constructors that
  everything said about traversals as computations goes back to;
* `walk_lockstep`: registries. While a traversal is under way the registry keeps its outline, so the
  passes need to be related at the places of registries with this outline only (`Position.Within`).
-/

namespace ObserverPattern

/-- A relation between computations in two monads, with a property of their results. -/
structure Lockstep (m n : Type → Type) [Monad m] [Monad n] [MonadExceptOf DecodeFault m]
    [MonadExceptOf DecodeFault n] where
  rel : {α : Type} → (α → Prop) → m α → n α → Prop
  /-- The faults with which both computations may fail. -/
  allows : DecodeFault → Prop
  pure : ∀ {α : Type} {P : α → Prop} {a : α}, P a → rel P (Pure.pure a) (Pure.pure a)
  throw : ∀ {α : Type} {P : α → Prop} {e : DecodeFault}, allows e →
    rel P (MonadExceptOf.throw e : m α) (MonadExceptOf.throw e : n α)
  bind : ∀ {α β : Type} {P : α → Prop} {Q : β → Prop} {x : m α} {y : n α} {f : α → m β} {g : α → n β},
    rel P x y → (∀ a, P a → rel Q (f a) (g a)) → rel Q (x >>= f) (y >>= g)

/-- A place of a registry while a traversal of `r` is under way: the registry has the outline of `r`,
and the class and the method are among those of `r`. -/
structure Position.Within (r : Registry) (p : Position) : Prop where
  outline : p.registry.outline = r.outline
  owner : (r.class? p.owner).isSome
  method : ∀ id, p.method = some id → (r.method? id).isSome

theorem Position.Within.atDepth {r : Registry} {p : Position} (h : p.Within r) (n : Nat) :
    (p.atDepth n).Within r := ⟨h.outline, h.owner, h.method⟩

variable {m n : Type → Type} [Monad m] [Monad n] [MonadExceptOf DecodeFault m] [MonadExceptOf DecodeFault n]

namespace Lockstep

/-- Two computations are related, whatever their results. -/
abbrev Together (L : Lockstep m n) {α : Type} (x : m α) (y : n α) : Prop := L.rel (fun _ => True) x y

/-- A computation without state that only fails with allowed faults. -/
theorem lift (L : Lockstep m n) {α : Type} {P : α → Prop} {x : Except DecodeFault α}
    (he : ∀ e, x = .error e → L.allows e) (ha : ∀ a, x = .ok a → P a) :
    L.rel P (Walk.lift x) (Walk.lift x) := by
  cases x with
  | ok a => exact L.pure (ha a rfl)
  | error e => exact L.throw (he e rfl)

/-- Two passes do related things at one place, at any depth, and may enter the blocks there. -/
structure Blocks (L : Lockstep m n) (pass : Pass m) (pass' : Pass n) (p : Position) : Prop where
  enter : ∀ k e, (p.atDepth k).enter = .error e → L.allows e
  onExpr : ∀ k e, L.Together (pass.onExpr (p.atDepth k) e) (pass'.onExpr (p.atDepth k) e)
  onStmt : ∀ k s, L.Together (pass.onStmt (p.atDepth k) s) (pass'.onStmt (p.atDepth k) s)

/-- Two passes do related things at each place of a registry. -/
structure Passes (L : Lockstep m n) (pass : Pass m) (pass' : Pass n) (r : Registry) : Prop where
  blocks : ∀ p, p.Within r → L.Blocks pass pass' p
  onClass : ∀ p c, p.Within r → L.Together (pass.onClass p c) (pass'.onClass p c)
  onField : ∀ p f, p.Within r → L.Together (pass.onField p f) (pass'.onField p f)
  onMethod : ∀ p b, p.Within r → L.Together (pass.onMethod p b) (pass'.onMethod p b)

/-- The classes that a template lists, and the methods that these list, are in the registry, or may be
missed. -/
structure Entries (L : Lockstep m n) (t : Template) (r : Registry) : Prop where
  classes : ∀ id ∈ t.classes, r.class? id = none → L.allows (.noClass id)
  methods : ∀ id ∈ t.classes, ∀ k ∈ r.methodsOf id, r.method? k = none → L.allows (.noMethod k)

end Lockstep

namespace Walk

variable {L : Lockstep m n} {pass : Pass m} {pass' : Pass n} {p : Position}

/-! ## Trees -/

mutual

theorem walkExpr_lockstep (h : ∀ e, L.Together (pass.onExpr p e) (pass'.onExpr p e)) :
    ∀ e, L.Together (walkExpr pass p e) (walkExpr pass' p e)
  | .literal l => by
    simp only [walkExpr]
    exact h _
  | .id name => by
    simp only [walkExpr]
    exact h _
  | .field receiver name => by
    simp only [walkExpr]
    exact L.bind (walkExpr_lockstep h receiver) fun _ _ => h _
  | .call callee args => by
    simp only [walkExpr]
    exact L.bind (walkExpr_lockstep h callee) fun _ _ => L.bind (walkExprs_lockstep h args) fun _ _ => h _
  | .new ty args => by
    simp only [walkExpr]
    exact L.bind (walkExprs_lockstep h args) fun _ _ => h _
  | .binary op left right => by
    simp only [walkExpr]
    exact L.bind (walkExpr_lockstep h left) fun _ _ => L.bind (walkExpr_lockstep h right) fun _ _ => h _
  | .cast ty e => by
    simp only [walkExpr]
    exact L.bind (walkExpr_lockstep h e) fun _ _ => h _
  | .placeholder name operands => by
    simp only [walkExpr]
    exact L.bind (walkExprs_lockstep h operands) fun _ _ => h _

theorem walkExprs_lockstep (h : ∀ e, L.Together (pass.onExpr p e) (pass'.onExpr p e)) :
    ∀ es, L.Together (walkExprs pass p es) (walkExprs pass' p es)
  | [] => by
    simp only [walkExprs]
    exact L.pure trivial
  | e :: es => by
    simp only [walkExprs]
    exact L.bind (walkExpr_lockstep h e) fun _ _ => L.bind (walkExprs_lockstep h es) fun _ _ => L.pure trivial

end

theorem walkOption_lockstep (h : ∀ e, L.Together (pass.onExpr p e) (pass'.onExpr p e)) (e : Option Expr) :
    L.Together (walkOption pass p e) (walkOption pass' p e) := by
  cases e with
  | none => exact L.pure trivial
  | some e => exact L.bind (walkExpr_lockstep h e) fun _ _ => L.pure trivial

private theorem enter_lockstep (h : L.Blocks pass pass' p) (k : Nat) :
    L.Together (lift (p.atDepth k).enter) (lift (p.atDepth k).enter) :=
  L.lift (h.enter k) fun _ _ => trivial

mutual

theorem walkStmt_lockstep (h : L.Blocks pass pass' p) :
    ∀ k s, L.Together (walkStmt pass (p.atDepth k) s) (walkStmt pass' (p.atDepth k) s)
  | k, .expr e => by
    simp only [walkStmt]
    exact L.bind (walkExpr_lockstep (h.onExpr k) e) fun _ _ => h.onStmt k _
  | k, .assign ty target value => by
    simp only [walkStmt]
    exact L.bind (walkExpr_lockstep (h.onExpr k) target) fun _ _ =>
      L.bind (walkExpr_lockstep (h.onExpr k) value) fun _ _ => h.onStmt k _
  | k, .ifElse cond thenBody elseBody => by
    simp only [walkStmt]
    exact L.bind (walkExpr_lockstep (h.onExpr k) cond) fun _ _ =>
      L.bind (enter_lockstep h (k + 1)) fun _ _ => L.bind (walkStmts_lockstep h (k + 1) thenBody) fun _ _ =>
        L.bind (enter_lockstep h (k + 1)) fun _ _ => L.bind (walkStmts_lockstep h (k + 1) elseBody) fun _ _ =>
          h.onStmt k _
  | k, .forEach ty var source body => by
    simp only [walkStmt]
    exact L.bind (walkExpr_lockstep (h.onExpr k) source) fun _ _ =>
      L.bind (enter_lockstep h (k + 1)) fun _ _ => L.bind (walkStmts_lockstep h (k + 1) body) fun _ _ =>
        h.onStmt k _
  | k, .whileLoop cond body => by
    simp only [walkStmt]
    exact L.bind (walkExpr_lockstep (h.onExpr k) cond) fun _ _ =>
      L.bind (enter_lockstep h (k + 1)) fun _ _ => L.bind (walkStmts_lockstep h (k + 1) body) fun _ _ =>
        h.onStmt k _
  | k, .ret value => by
    simp only [walkStmt]
    exact L.bind (walkOption_lockstep (h.onExpr k) value) fun _ _ => h.onStmt k _

theorem walkStmts_lockstep (h : L.Blocks pass pass' p) :
    ∀ k b, L.Together (walkStmts pass (p.atDepth k) b) (walkStmts pass' (p.atDepth k) b)
  | k, [] => by
    simp only [walkStmts]
    exact L.pure trivial
  | k, s :: b => by
    simp only [walkStmts]
    exact L.bind (walkStmt_lockstep h k s) fun _ _ => L.bind (walkStmts_lockstep h k b) fun _ _ => L.pure trivial

end

/-! ## Registries -/

variable {r : Registry}

private theorem walkBlock_lockstep (h : L.Passes pass pass' r) (hp : p.Within r) (b : Block) :
    L.Together (walkBlock pass p b) (walkBlock pass' p b) :=
  L.bind (enter_lockstep (h.blocks p hp) p.depth) fun _ _ => walkStmts_lockstep (h.blocks p hp) p.depth b

private theorem walkFields_lockstep (h : L.Passes pass pass' r) (hp : p.Within r) (fields : List Field) :
    L.Together (walkFields pass p fields) (walkFields pass' p fields) := by
  induction fields with
  | nil => exact L.pure trivial
  | cons f fields ih =>
    simp only [walkFields, walkField]
    exact L.bind (L.bind (walkOption_lockstep ((h.blocks p hp).onExpr p.depth) f.init) fun _ _ => h.onField p _ hp)
      fun _ _ => L.bind ih fun _ _ => L.pure trivial

/-- Folds whose steps are related and keep a property. -/
private theorem foldlM_lockstep {α : Type} {P : Registry → Prop} {f : Registry → α → m Registry}
    {g : Registry → α → n Registry} {xs : List α} (hstep : ∀ x ∈ xs, ∀ r, P r → L.rel P (f r x) (g r x))
    {r : Registry} (hr : P r) : L.rel P (xs.foldlM f r) (xs.foldlM g r) := by
  induction xs generalizing r with
  | nil => exact L.pure hr
  | cons x xs ih =>
    simp only [List.foldlM_cons]
    exact L.bind (hstep x (by simp) r hr) fun r₁ hr₁ => ih (fun y hy => hstep y (by simp [hy])) hr₁

variable {maxDepth : Nat}

private theorem walkMethod_lockstep (h : L.Passes pass pass' r) {owner : ClassId} (howner : (r.class? owner).isSome)
    {id : MethodId} (hid : r.method? id = none → L.allows (.noMethod id)) {r₁ : Registry}
    (hr₁ : r₁.outline = r.outline) :
    L.rel (fun r₂ => r₂.outline = r.outline) (walkMethod pass maxDepth owner r₁ id)
      (walkMethod pass' maxDepth owner r₁ id) := by
  have hsome := Registry.method?_isSome_congr (Registry.skeleton_eq_of_outline_eq hr₁) id
  unfold walkMethod
  refine L.bind (L.lift ?_ fun _ ha => ha) fun method hmethod => ?_
  · intro e he
    obtain ⟨hnone, rfl⟩ := Registry.getMethod_eq_error.1 he
    refine hid ?_
    rw [hnone] at hsome
    simpa using hsome.symm
  · rw [Registry.getMethod_eq_ok] at hmethod
    rw [hmethod] at hsome
    have hp : Position.Within r ⟨r₁.withoutBody id, owner, some id, 0, maxDepth⟩ := by
      refine ⟨(r₁.outline_withoutBody id).trans hr₁, howner, ?_⟩
      intro id' hid'
      cases hid'
      exact hsome.symm
    refine L.bind (walkBlock_lockstep h hp method.body) fun body _ => L.bind (h.onMethod _ _ hp) fun body' _ => ?_
    rw [Registry.putBody_withoutBody]
    refine L.lift ?_ ?_
    · intro e he
      rw [(Registry.putBody_eq_error.1 he).1] at hmethod
      cases hmethod
    · intro r₂ hr₂
      obtain ⟨-, rfl⟩ := Registry.putBody_eq_ok.1 hr₂
      rw [Registry.outline_setBody, hr₁]

private theorem walkClass_lockstep (h : L.Passes pass pass' r) {id : ClassId}
    (hid : r.class? id = none → L.allows (.noClass id))
    (hmethods : ∀ k ∈ r.methodsOf id, r.method? k = none → L.allows (.noMethod k)) {r₁ : Registry}
    (hr₁ : r₁.outline = r.outline) :
    L.rel (fun r₂ => r₂.outline = r.outline) (walkClass pass maxDepth r₁ id) (walkClass pass' maxDepth r₁ id) := by
  have hskeleton := Registry.skeleton_eq_of_outline_eq hr₁
  have hsome := Registry.class?_isSome_congr hskeleton id
  unfold walkClass
  refine L.bind (L.lift ?_ fun _ ha => ha) fun c hc => ?_
  · intro e he
    obtain ⟨hnone, rfl⟩ := Registry.getClass_eq_error.1 he
    refine hid ?_
    rw [hnone] at hsome
    simpa using hsome.symm
  · rw [Registry.getClass_eq_ok] at hc
    rw [hc] at hsome
    have hp : Position.Within r ⟨r₁.withoutFields id, id, none, 0, maxDepth⟩ :=
      ⟨(r₁.outline_withoutFields id).trans hr₁, hsome.symm, by simp⟩
    refine L.bind (h.onClass _ _ hp) fun _ _ => L.bind (walkFields_lockstep h hp c.fields) fun fields _ => ?_
    rw [Registry.putFields_withoutFields]
    refine L.bind (L.lift ?_ fun _ ha => ha) fun r₂ hr₂ => ?_
    · intro e he
      rw [(Registry.putFields_eq_error.1 he).1] at hc
      cases hc
    · obtain ⟨-, rfl⟩ := Registry.putFields_eq_ok.1 hr₂
      refine foldlM_lockstep ?_ ((r₁.outline_setFields id fields).trans hr₁)
      intro k hk r₃ hr₃
      rw [← Registry.methodsOf_eq hc, Registry.methodsOf_congr hskeleton] at hk
      exact walkMethod_lockstep h hsome.symm (hmethods k hk) hr₃

/-- Traversals that start from one registry are related if their passes are, at all places of
registries with the same outline. -/
theorem walk_lockstep (h : L.Passes pass pass' r) {t : Template} (ht : L.Entries t r) :
    L.rel (fun r' => r'.outline = r.outline) (walk pass maxDepth t r) (walk pass' maxDepth t r) :=
  foldlM_lockstep (fun id hid _ hr₁ => walkClass_lockstep h (ht.classes id hid) (ht.methods id hid) hr₁) rfl

end Walk

end ObserverPattern
