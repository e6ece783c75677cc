import ObserverPattern.Proofs.Walk.Postorder
import ObserverPattern.Proofs.Walk.Trees
import ObserverPattern.Walk.Tally

/-!
# The order of a traversal

A traversal visits the nodes of the program that it is given, children before parents, whatever the pass
makes of them and whatever state it keeps.

* `Pass.logged`: the pass that does the same and writes down where each node is that it gets;
* `Records`: what a part of a traversal adds to the log and to the tally;
* `walk_visits`: if no class and no method is listed twice, the log of a successful traversal is the
  enumeration of the nodes in post-order, and the tally counts them.
-/

namespace ObserverPattern

/-! ## A pass with a log -/

section Logged

variable {m : Type → Type} [Monad m] [MonadExceptOf DecodeFault m]

/-- Writes down that a node is visited. -/
def Position.note (p : Position) (sort : NodeSort) : StateT (List Visit) m Unit := do
  let location ← Walk.lift p.location
  modify (· ++ [⟨sort, location, p.depth⟩])

/-- The pass that does the same and keeps a log of the nodes that it gets. -/
def Pass.logged (pass : Pass m) : Pass (StateT (List Visit) m) where
  onClass p c := do
    p.note .classDecl
    pass.onClass p c
  onField p f := do
    p.note .field
    pass.onField p f
  onMethod p body := do
    p.note .method
    pass.onMethod p body
  onStmt p s := do
    p.note .stmt
    pass.onStmt p s
  onExpr p e := do
    p.note .expr
    pass.onExpr p e

end Logged

/-- The computations of passes with a state. -/
abbrev Stateful (σ : Type) : Type → Type := StateT σ (Except DecodeFault)

variable {σ α β : Type}

/-- If `y` succeeds, so does `x`, with the same result, and these nodes are
what the log of `x` and both tallies got more of. -/
def Records (P : α → Prop) (spots : List Spot) (x : StateT Tally (StateT (List Visit) (Stateful σ)) α)
    (y : StateT Tally (Stateful σ) α) : Prop :=
  ∀ tally log s a tally' s', (y.run tally).run s = .ok ((a, tally'), s') →
    P a ∧ ((x.run tally).run log).run s = .ok (((a, tally'), log ++ spots.map Spot.visit), s') ∧
      ∀ sort, (tally'.get sort).applications =
        (tally.get sort).applications + spots.countP (·.node.sort = sort)

namespace Records

variable {P : α → Prop} {Q : β → Prop} {spots spots' : List Spot}
  {x : StateT Tally (StateT (List Visit) (Stateful σ)) α} {y : StateT Tally (Stateful σ) α}
  {f : α → StateT Tally (StateT (List Visit) (Stateful σ)) β} {g : α → StateT Tally (Stateful σ) β}

theorem pure {a : α} (ha : P a) : Records (σ := σ) P [] (Pure.pure a) (Pure.pure a) := by
  intro tally log s a' tally' s' h
  obtain ⟨⟨rfl, rfl⟩, rfl⟩ : (a = a' ∧ tally = tally') ∧ s = s' := by simpa using Except.ok.inj h
  exact ⟨ha, by simp; rfl, by simp⟩

theorem bind (hx : Records P spots x y) (hf : ∀ a, P a → Records Q spots' (f a) (g a)) :
    Records Q (spots ++ spots') (x >>= f) (y >>= g) := by
  intro tally log s b tally₂ s₂ h
  rw [StateT.run_bind, StateT.run_bind, bind_eq_ok] at h
  obtain ⟨⟨⟨a, tally₁⟩, s₁⟩, hy, hg⟩ := h
  obtain ⟨ha, hrun, hcount⟩ := hx tally log s a tally₁ s₁ hy
  obtain ⟨hb, hrun', hcount'⟩ := hf a ha tally₁ _ s₁ b tally₂ s₂ hg
  refine ⟨hb, ?_, ?_⟩
  · rw [StateT.run_bind, StateT.run_bind, StateT.run_bind, hrun, ok_bind, List.map_append, ← List.append_assoc]
    exact hrun'
  · intro sort
    rw [hcount', hcount, List.countP_append, Nat.add_assoc]

theorem bind_pure (hx : Records P spots x y) {h : α → β} (hf : ∀ a, P a → Q (h a)) :
    Records Q spots (do let a ← x; return h a) (do let a ← y; return h a) := by
  have hbind : Records Q (spots ++ []) (do let a ← x; return h a) (do let a ← y; return h a) :=
    hx.bind fun a ha => pure (hf a ha)
  rwa [List.append_nil] at hbind

theorem lift_bind {e : Except DecodeFault α} (h : ∀ a, e = .ok a → Records Q spots (f a) (g a)) :
    Records Q spots (Walk.lift e >>= f) (Walk.lift e >>= g) := by
  cases e with
  | ok a => simpa [Walk.lift] using h a rfl
  | error e =>
    intro tally log s b tally' s' hrun
    cases hrun

theorem lift {e : Except DecodeFault α} (h : ∀ a, e = .ok a → P a) :
    Records (σ := σ) P [] (Walk.lift e) (Walk.lift e) := by
  cases e with
  | ok a => exact pure (h a rfl)
  | error e =>
    intro tally log s b tally' s' hrun
    cases hrun

private theorem map_ok (h : α → β) (a : α) : h <$> (.ok a : Except DecodeFault α) = .ok (h a) := rfl

/-- A hook that writes down its node, does its work, and counts. -/
theorem hook {p : Position} (spot : Spot) (hlocation : p.location = .ok spot.location)
    (hdepth : p.depth = spot.depth) (work : Stateful σ α) (add : α → Tally → Tally)
    (hadd : ∀ a (t : Tally) sort, ((add a t).get sort).applications =
      (t.get sort).applications + if spot.node.sort = sort then 1 else 0) :
    Records (fun _ => True) [spot]
      (do
        let a ← (do p.note spot.node.sort; work : StateT (List Visit) (Stateful σ) α)
        modify (add a)
        return a : StateT Tally (StateT (List Visit) (Stateful σ)) α)
      (do
        let a ← (work : StateT Tally (Stateful σ) α)
        modify (add a)
        return a) := by
  intro tally log s a tally' s' h
  cases hwork : work.run s with
  | error e =>
    simp only [bind_pure_comp, StateT.run_bind, StateT.run_monadLift, monadLift_self, StateT.run_map,
      StateT.run_modify, map_pure, Functor.map_map, hwork] at h
    cases h
  | ok r =>
    obtain ⟨⟨rfl, rfl⟩, rfl⟩ : (r.1 = a ∧ add r.1 tally = tally') ∧ r.2 = s' := by
      simpa [hwork, map_ok] using h
    refine ⟨trivial, ?_, ?_⟩
    · simp only [Position.note, Walk.lift, hlocation, hdepth, pure_bind, liftM_bind, bind_pure_comp, bind_assoc,
        StateT.run_bind, StateT.run_monadLift, monadLift_self, StateT.run_map, StateT.run_modify, map_pure,
        Functor.map_map, bind_map_left, hwork, map_ok, List.map_cons, List.map_nil, Spot.visit]
    · intro sort
      rw [hadd, List.countP_singleton]
      simp

end Records

namespace Walk

variable {pass : Pass (Stateful σ)} {p : Position} {location : String}

/-! ## Hooks -/

private theorem applications_add (t : Tally) (kind : NodeSort) (changed removed : Bool) (sort : NodeSort) :
    ((t.add kind changed removed).get sort).applications =
      (t.get sort).applications + if kind = sort then 1 else 0 := by
  cases kind <;> cases sort <;> rfl

private theorem onExpr_records (hp : p.location = .ok location) (e e' : Expr) :
    Records (fun _ => True) [Spot.expr location p.depth e] (pass.logged.counted.onExpr p e')
      (pass.counted.onExpr p e') :=
  Records.hook (Spot.expr location p.depth e) hp rfl (pass.onExpr p e') _ fun _ _ => applications_add _ _ _ _

private theorem onStmt_records (hp : p.location = .ok location) (s s' : Stmt) :
    Records (fun _ => True) [⟨location, p.depth, .stmt s⟩] (pass.logged.counted.onStmt p s')
      (pass.counted.onStmt p s') :=
  Records.hook ⟨location, p.depth, .stmt s⟩ hp rfl (pass.onStmt p s') _ fun _ _ => applications_add _ _ _ _

private theorem onField_records (hp : p.location = .ok location) (f f' : Field) :
    Records (fun _ => True) [⟨location, p.depth, .field f⟩] (pass.logged.counted.onField p f')
      (pass.counted.onField p f') :=
  Records.hook ⟨location, p.depth, .field f⟩ hp rfl (pass.onField p f') _ fun _ _ => applications_add _ _ _ _

private theorem onMethod_records (hp : p.location = .ok location) (m : MethodDecl) (body : Block) :
    Records (fun _ => True) [⟨location, p.depth, .method m⟩] (pass.logged.counted.onMethod p body)
      (pass.counted.onMethod p body) :=
  Records.hook ⟨location, p.depth, .method m⟩ hp rfl (pass.onMethod p body) _ fun _ _ => applications_add _ _ _ _

private theorem onClass_records (hp : p.location = .ok location) (c c' : ClassDecl) :
    Records (fun _ => True) [⟨location, p.depth, .classDecl c⟩] (pass.logged.counted.onClass p c')
      (pass.counted.onClass p c') :=
  Records.hook ⟨location, p.depth, .classDecl c⟩ hp rfl (pass.onClass p c') (fun _ t => t.add .classDecl true false)
    fun _ _ => applications_add _ _ _ _

/-! ## Trees -/

mutual

theorem walkExpr_records (hp : p.location = .ok location) :
    ∀ e : Expr, Records (fun _ => True) (e.postorder.map (Spot.expr location p.depth))
      (walkExpr pass.logged.counted p e) (walkExpr pass.counted p e)
  | .literal l => by
    simp only [walkExpr]
    exact onExpr_records hp _ _
  | .id name => by
    simp only [walkExpr]
    exact onExpr_records hp _ _
  | .field receiver name => by
    simp only [walkExpr, Expr.postorder, List.map_append]
    exact (walkExpr_records hp receiver).bind fun _ _ => onExpr_records hp _ _
  | .call callee args => by
    simp only [walkExpr, Expr.postorder, List.map_append]
    exact (walkExpr_records hp callee).bind fun _ _ => (walkExprs_records hp args).bind fun _ _ =>
      onExpr_records hp _ _
  | .new ty args => by
    simp only [walkExpr, Expr.postorder, List.map_append]
    exact (walkExprs_records hp args).bind fun _ _ => onExpr_records hp _ _
  | .binary op left right => by
    simp only [walkExpr, Expr.postorder, List.map_append]
    exact (walkExpr_records hp left).bind fun _ _ => (walkExpr_records hp right).bind fun _ _ =>
      onExpr_records hp _ _
  | .cast ty e => by
    simp only [walkExpr, Expr.postorder, List.map_append]
    exact (walkExpr_records hp e).bind fun _ _ => onExpr_records hp _ _
  | .placeholder name operands => by
    simp only [walkExpr, Expr.postorder, List.map_append]
    exact (walkExprs_records hp operands).bind fun _ _ => onExpr_records hp _ _

theorem walkExprs_records (hp : p.location = .ok location) :
    ∀ es : List Expr, Records (fun _ => True) (Spot.exprs location p.depth es)
      (walkExprs pass.logged.counted p es) (walkExprs pass.counted p es)
  | [] => Records.pure trivial
  | e :: es => by
    simp only [walkExprs, Spot.exprs, Expr.listPostorder, List.map_append]
    exact (walkExpr_records hp e).bind fun _ _ => (walkExprs_records hp es).bind_pure fun _ _ => trivial

end

private theorem exprs_singleton (location : String) (depth : Nat) (e : Expr) :
    Spot.exprs location depth [e] = e.postorder.map (Spot.expr location depth) := by
  simp only [Spot.exprs, Expr.listPostorder, List.append_nil]

theorem walkOption_records (hp : p.location = .ok location) (e : Option Expr) :
    Records (fun _ => True) (Spot.exprs location p.depth e.toList) (walkOption pass.logged.counted p e)
      (walkOption pass.counted p e) := by
  cases e with
  | none => exact Records.pure trivial
  | some e =>
    rw [Option.toList_some, exprs_singleton]
    exact (walkExpr_records hp e).bind_pure fun _ _ => trivial

mutual

/-- A statement is left by the walk after what is in it. -/
theorem walkStmt_records (hp : p.location = .ok location) :
    ∀ k (s : Stmt), Records (fun _ => True) (s.spots location k) (walkStmt pass.logged.counted (p.atDepth k) s)
      (walkStmt pass.counted (p.atDepth k) s)
  | k, .expr e => by
    simp only [walkStmt, Stmt.spots, Spot.stmt, Stmt.operands, exprs_singleton, List.nil_append]
    have hk : (p.atDepth k).location = .ok location := hp
    exact (walkExpr_records hk e).bind fun _ _ => onStmt_records hk _ _
  | k, .assign ty target value => by
    simp only [walkStmt, Stmt.spots, Spot.stmt, Stmt.operands, Spot.exprs, Expr.listPostorder, List.append_nil,
      List.map_append, List.append_assoc, List.nil_append]
    have hk : (p.atDepth k).location = .ok location := hp
    exact (walkExpr_records hk target).bind fun _ _ => (walkExpr_records hk value).bind fun _ _ =>
      onStmt_records hk _ _
  | k, .ifElse cond thenBody elseBody => by
    simp only [walkStmt, Stmt.spots, Spot.stmt, Stmt.operands, exprs_singleton, List.append_assoc]
    have hk : (p.atDepth k).location = .ok location := hp
    exact (walkExpr_records hk cond).bind fun _ _ =>
      Records.lift_bind fun _ _ => (walkStmts_records hp (k + 1) thenBody).bind fun _ _ =>
        Records.lift_bind fun _ _ => (walkStmts_records hp (k + 1) elseBody).bind fun _ _ =>
          onStmt_records hk _ _
  | k, .forEach ty var source body => by
    simp only [walkStmt, Stmt.spots, Spot.stmt, Stmt.operands, exprs_singleton]
    have hk : (p.atDepth k).location = .ok location := hp
    exact (walkExpr_records hk source).bind fun _ _ =>
      Records.lift_bind fun _ _ => (walkStmts_records hp (k + 1) body).bind fun _ _ => onStmt_records hk _ _
  | k, .whileLoop cond body => by
    simp only [walkStmt, Stmt.spots, Spot.stmt, Stmt.operands, exprs_singleton]
    have hk : (p.atDepth k).location = .ok location := hp
    exact (walkExpr_records hk cond).bind fun _ _ =>
      Records.lift_bind fun _ _ => (walkStmts_records hp (k + 1) body).bind fun _ _ => onStmt_records hk _ _
  | k, .ret value => by
    simp only [walkStmt, Stmt.spots, Spot.stmt, Stmt.operands, List.nil_append]
    have hk : (p.atDepth k).location = .ok location := hp
    exact (walkOption_records hk value).bind fun _ _ => onStmt_records hk _ _

theorem walkStmts_records (hp : p.location = .ok location) :
    ∀ k (b : Block), Records (fun _ => True) (Stmt.listSpots location k b)
      (walkStmts pass.logged.counted (p.atDepth k) b) (walkStmts pass.counted (p.atDepth k) b)
  | k, [] => by
    simp only [walkStmts, Stmt.listSpots]
    exact Records.pure trivial
  | k, s :: b => by
    simp only [walkStmts, Stmt.listSpots]
    exact (walkStmt_records hp k s).bind fun _ _ => (walkStmts_records hp k b).bind_pure fun _ _ => trivial

end

/-! ## Registries -/

variable {r r₁ : Registry} {classes : List ClassId} {methods : List MethodId} {maxDepth : Nat}

private theorem walkFields_records (hp : p.location = .ok location) (hdepth : p.depth = 0) (fields : List Field) :
    Records (fun _ => True) (fields.flatMap (Field.spots location)) (walkFields pass.logged.counted p fields)
      (walkFields pass.counted p fields) := by
  induction fields with
  | nil => exact Records.pure trivial
  | cons f fields ih =>
    simp only [walkFields, walkField, List.flatMap_cons, Field.spots, ← hdepth]
    exact ((walkOption_records hp f.init).bind fun _ _ => onField_records hp f _).bind fun _ _ =>
      ih.bind_pure fun _ _ => trivial

/-- A registry on the way of a traversal of `r`: what lies ahead is as it was. -/
structure Ahead (r : Registry) (classes : List ClassId) (methods : List MethodId) (r₁ : Registry) : Prop where
  outline : r₁.outline = r.outline
  classes : ∀ id ∈ classes, r₁.class? id = r.class? id
  methods : ∀ id ∈ methods, r₁.method? id = r.method? id

namespace Ahead

/-- A class name is what it was. -/
theorem className (h : Ahead r classes methods r₁) (id : ClassId) : r₁.className id = r.className id :=
  Registry.congr_skeleton (·.className id) (Registry.className_skeleton id)
    (Registry.skeleton_eq_of_outline_eq h.outline)

theorem setFields {id : ClassId} (h : Ahead r (id :: classes) methods r₁) (hid : id ∉ classes)
    (fields : List Field) : Ahead r classes methods (r₁.setFields id fields) where
  outline := (r₁.outline_setFields id fields).trans h.outline
  classes k hk := by
    rw [Registry.setFields, Registry.class?_modifyClass, if_neg (ne_of_mem_of_not_mem hk hid)]
    exact h.classes k (List.mem_cons_of_mem _ hk)
  methods := h.methods

theorem setBody {id : MethodId} (h : Ahead r classes (id :: methods) r₁) (hid : id ∉ methods) (body : Block) :
    Ahead r classes methods (r₁.setBody id body) where
  outline := (r₁.outline_setBody id body).trans h.outline
  classes := h.classes
  methods k hk := by
    rw [Registry.method?_setBody_of_ne (ne_of_mem_of_not_mem hk hid)]
    exact h.methods k (List.mem_cons_of_mem _ hk)

end Ahead

private theorem walkMethod_records {owner : ClassId} {name : String} (hname : r.className owner = .ok name)
    {id : MethodId} (h : Ahead r classes (id :: methods) r₁) (hid : id ∉ methods) :
    Records (Ahead r classes methods) (r.methodSpots name id) (walkMethod pass.logged.counted maxDepth owner r₁ id)
      (walkMethod pass.counted maxDepth owner r₁ id) := by
  refine Records.lift_bind fun m hm => ?_
  rw [Registry.getMethod_eq_ok] at hm
  have hp := Position.location_withoutBody ((h.className owner).trans hname) hm 0 maxDepth
  rw [h.methods id List.mem_cons_self] at hm
  simp only [Registry.methodSpots, hm, Option.elim_some, MethodDecl.spots]
  refine Records.bind (P := fun _ => True) ?_ fun body _ => ?_
  · exact Records.lift_bind fun _ _ => walkStmts_records hp 0 m.body
  · show Records _ ([_] ++ []) _ _
    refine (onMethod_records hp m body).bind fun new _ => Records.lift fun r₂ hr₂ => ?_
    rw [Registry.putBody_withoutBody, Registry.putBody_eq_ok] at hr₂
    obtain ⟨-, rfl⟩ := hr₂
    exact h.setBody hid new

private theorem walkMethods_records {owner : ClassId} {name : String} (hname : r.className owner = .ok name)
    (ids : List MethodId) (h : Ahead r classes (ids ++ methods) r₁) (hnodup : (ids ++ methods).Nodup) :
    Records (Ahead r classes methods) (ids.flatMap (r.methodSpots name))
      (ids.foldlM (walkMethod pass.logged.counted maxDepth owner) r₁)
      (ids.foldlM (walkMethod pass.counted maxDepth owner) r₁) := by
  induction ids generalizing r₁ with
  | nil => exact Records.pure h
  | cons id ids ih =>
    obtain ⟨hid, hnodup⟩ := List.nodup_cons.1 hnodup
    simp only [List.foldlM_cons, List.flatMap_cons]
    exact (walkMethod_records hname h hid).bind fun r₂ hr₂ => ih hr₂ hnodup

private theorem walkClass_records {id : ClassId} (h : Ahead r (id :: classes) (r.methodsOf id ++ methods) r₁)
    (hid : id ∉ classes) (hnodup : (r.methodsOf id ++ methods).Nodup) :
    Records (Ahead r classes methods) (r.classSpots id) (walkClass pass.logged.counted maxDepth r₁ id)
      (walkClass pass.counted maxDepth r₁ id) := by
  refine Records.lift_bind fun c hc => ?_
  rw [Registry.getClass_eq_ok, h.classes id List.mem_cons_self] at hc
  have hname : r.className id = .ok c.name := Registry.className_eq_ok.2 ⟨c, hc, rfl⟩
  have hp := Position.location_withoutFields ((h.className id).trans hname) 0 maxDepth
  rw [Registry.methodsOf_eq hc] at h hnodup
  simp only [Registry.classSpots, hc, Option.elim_some]
  show Records _ ([_] ++ _) _ _
  refine (onClass_records hp c _).bind fun _ _ => ?_
  refine (walkFields_records hp rfl c.fields).bind fun fields _ => Records.lift_bind fun r₂ hr₂ => ?_
  rw [Registry.putFields_withoutFields, Registry.putFields_eq_ok] at hr₂
  obtain ⟨-, rfl⟩ := hr₂
  exact walkMethods_records hname c.methods (h.setFields hid fields) hnodup

private theorem walkClasses_records (ids : List ClassId) (h : Ahead r ids (ids.flatMap r.methodsOf) r₁)
    (hids : ids.Nodup) (hnodup : (ids.flatMap r.methodsOf).Nodup) :
    Records (Ahead r [] []) (ids.flatMap r.classSpots) (ids.foldlM (walkClass pass.logged.counted maxDepth) r₁)
      (ids.foldlM (walkClass pass.counted maxDepth) r₁) := by
  induction ids generalizing r₁ with
  | nil => exact Records.pure h
  | cons id ids ih =>
    obtain ⟨hid, hids⟩ := List.nodup_cons.1 hids
    simp only [List.foldlM_cons, List.flatMap_cons] at h hnodup ⊢
    exact (walkClass_records h hid hnodup).bind fun r₂ hr₂ => ih hr₂ hids (List.nodup_append.1 hnodup).2.1

/-- A pass with a state is called once for each node of the program that it is given, in post-order, and told
where the node is: a successful traversal does the same if it keeps a log, and the log is the enumeration of the
nodes. The tally counts them. None of this depends on what the pass makes of the nodes. -/
theorem walk_visits (pass : Pass (Stateful σ)) {t : Template} {r r' : Registry} {tally : Tally} {s s' : σ}
    (hclasses : t.classes.Nodup) (hmethods : (t.classes.flatMap r.methodsOf).Nodup)
    (h : (walkCounted pass maxDepth t r).run s = .ok ((r', tally), s')) :
    ((walkCounted pass.logged maxDepth t r).run []).run s =
        .ok (((r', tally), (t.spots r).map Spot.visit), s') ∧
      ∀ sort, (tally.get sort).applications = (t.spots r).countP (·.node.sort = sort) := by
  have hahead : Ahead r t.classes (t.classes.flatMap r.methodsOf) r := ⟨rfl, fun _ _ => rfl, fun _ _ => rfl⟩
  have hrecords : Records (Ahead r [] []) (t.spots r) (walk pass.logged.counted maxDepth t r)
      (walk pass.counted maxDepth t r) := walkClasses_records t.classes hahead hclasses hmethods
  obtain ⟨-, hrun, hcount⟩ := hrecords .zero [] s r' tally s' h
  refine ⟨hrun, ?_⟩
  intro sort
  rw [hcount sort]
  have hzero : (Tally.zero.get sort).applications = 0 := by cases sort <;> rfl
  rw [hzero, Nat.zero_add]

/-- A pass that counts the expressions and statements it gets, and by its count removes or doubles them. -/
def restless : Pass (Stateful Nat) where
  onClass _ _ := pure ()
  onField _ f := pure [f, f]
  onMethod _ body := pure (body ++ body)
  onStmt _ s := do
    let n ← get
    set (n + 1)
    return if n % 2 = 0 then [] else [s, s]
  onExpr _ e := do
    let n ← get
    set (n + 1)
    return .call e [e]

/-- A class `C` with a field and a method. -/
def small : Registry where
  classes := [{ ClassDecl.empty "C" with fields := [⟨"int", "x", some .null⟩], methods := [⟨0⟩] }]
  methods := [⟨"run", ⟨0⟩, [], "void", false,
    [.whileLoop (.id "a") [.ret none], .expr (.binary .add (.id "b") (.id "c"))]⟩]

/-- The visits of `restless` are those of the nodes it is given. -/
theorem walk_visits_small : ∃ r' tally s',
    ((walkCounted restless.logged 2 ⟨[⟨0⟩], []⟩ small).run []).run 0 = .ok (((r', tally),
      [⟨.classDecl, "C", 0⟩, ⟨.expr, "C", 0⟩, ⟨.field, "C", 0⟩, ⟨.expr, "C.run", 0⟩, ⟨.stmt, "C.run", 1⟩,
        ⟨.stmt, "C.run", 0⟩, ⟨.expr, "C.run", 0⟩, ⟨.expr, "C.run", 0⟩, ⟨.expr, "C.run", 0⟩, ⟨.stmt, "C.run", 0⟩,
        ⟨.method, "C.run", 0⟩]), s') ∧
      (tally.get .expr).applications = 5 ∧ r' ≠ small := by
  have hok : okAnd ((walkCounted restless 2 ⟨[⟨0⟩], []⟩ small).run 0) (fun a => a.1.1 != small) = true := by
    decide +kernel
  obtain ⟨⟨⟨r', tally⟩, s'⟩, hok, hne⟩ := okAnd_eq_true.1 hok
  obtain ⟨hrun, hcount⟩ := walk_visits restless (by decide) (by decide +kernel) hok
  exact ⟨r', tally, s', hrun, hcount .expr, by simpa using hne⟩

end Walk

end ObserverPattern
