import ObserverPattern.Proofs.Program.Reach
import ObserverPattern.Proofs.Walk.Visit

/-!
# Traversals that let nothing get deeper

If no rule of a pass lets code get deeper than it could get before (`Pass.KeepsReach`), then a traversal does not
either (`walk_reach`).
-/

namespace ObserverPattern

/-- No rule of a pass lets code get deeper than it could get before. -/
structure Pass.KeepsReach (pass : Pass (Except DecodeFault)) : Prop where
  onExpr {p : Position} {e e' : Expr} : pass.onExpr p e = .ok e' → e'.reach ≤ e.reach
  onStmt {p : Position} {s : Stmt} {b : Block} : pass.onStmt p s = .ok b → Stmt.listReach b ≤ s.reach
  onField {p : Position} {f : Field} {fs : List Field} : pass.onField p f = .ok fs → ∀ g ∈ fs, g.reach ≤ f.reach
  onMethod {p : Position} {b b' : Block} : pass.onMethod p b = .ok b' → Stmt.listReach b' ≤ Stmt.listReach b

namespace Walk

variable {pass : Pass (Except DecodeFault)} {p : Position}

-- The pass sees a node whose children have been replaced: first the children, then the rule for the node.
mutual

theorem walkExpr_reach (hpass : pass.KeepsReach) : ∀ {e e' : Expr}, walkExpr pass p e = .ok e' → e'.reach ≤ e.reach
  | .literal l, e', h => hpass.onExpr h
  | .id name, e', h => hpass.onExpr h
  | .field receiver name, e', h => by
    simp only [walkExpr, bind_eq_ok] at h
    obtain ⟨receiver', hreceiver, h⟩ := h
    refine Nat.le_trans (hpass.onExpr h) ?_
    have := walkExpr_reach hpass hreceiver
    simp only [Expr.reach]
    omega
  | .call callee args, e', h => by
    simp only [walkExpr, bind_eq_ok] at h
    obtain ⟨callee', hcallee, args', hargs, h⟩ := h
    refine Nat.le_trans (hpass.onExpr h) ?_
    have := walkExpr_reach hpass hcallee
    have := walkExprs_reach hpass hargs
    simp only [Expr.reach]
    omega
  | .new ty args, e', h => by
    simp only [walkExpr, bind_eq_ok] at h
    obtain ⟨args', hargs, h⟩ := h
    refine Nat.le_trans (hpass.onExpr h) ?_
    have := walkExprs_reach hpass hargs
    simp only [Expr.reach]
    omega
  | .binary op left right, e', h => by
    simp only [walkExpr, bind_eq_ok] at h
    obtain ⟨left', hleft, right', hright, h⟩ := h
    refine Nat.le_trans (hpass.onExpr h) ?_
    have := walkExpr_reach hpass hleft
    have := walkExpr_reach hpass hright
    simp only [Expr.reach]
    omega
  | .cast ty e, e', h => by
    simp only [walkExpr, bind_eq_ok] at h
    obtain ⟨inner, he, h⟩ := h
    refine Nat.le_trans (hpass.onExpr h) ?_
    have := walkExpr_reach hpass he
    simp only [Expr.reach]
    omega
  | .placeholder name operands, e', h => by
    simp only [walkExpr, bind_eq_ok] at h
    obtain ⟨operands', hoperands, h⟩ := h
    refine Nat.le_trans (hpass.onExpr h) ?_
    have := walkExprs_reach hpass hoperands
    simp only [Expr.reach]
    omega

theorem walkExprs_reach (hpass : pass.KeepsReach) : ∀ {es es' : List Expr}, walkExprs pass p es = .ok es' →
    Expr.listReach es' ≤ Expr.listReach es
  | [], es', h => by
    rw [walkExprs, pure_eq_ok] at h
    exact h ▸ Nat.le_refl _
  | e :: es, es', h => by
    simp only [walkExprs, bind_eq_ok, pure_eq_ok] at h
    obtain ⟨e', he, es', hes, rfl⟩ := h
    have := walkExpr_reach hpass he
    have := walkExprs_reach hpass hes
    simp only [Expr.listReach]
    omega

end

mutual

theorem walkStmt_reach (hpass : pass.KeepsReach) : ∀ {p : Position} {s : Stmt} {b : Block},
    walkStmt pass p s = .ok b → Stmt.listReach b ≤ s.reach
  | p, .expr e, b, h => by
    simp only [walkStmt, bind_eq_ok] at h
    obtain ⟨e', he, h⟩ := h
    refine Nat.le_trans (hpass.onStmt h) ?_
    have := walkExpr_reach hpass he
    simp only [Stmt.reach]
    omega
  | p, .assign ty target value, b, h => by
    simp only [walkStmt, bind_eq_ok] at h
    obtain ⟨target', htarget, value', hvalue, h⟩ := h
    refine Nat.le_trans (hpass.onStmt h) ?_
    have := walkExpr_reach hpass htarget
    have := walkExpr_reach hpass hvalue
    simp only [Stmt.reach]
    omega
  | p, .ifElse cond thenBody elseBody, b, h => by
    simp only [walkStmt, bind_eq_ok] at h
    obtain ⟨cond', hcond, -, -, then', hthen, -, -, else', helse, h⟩ := h
    refine Nat.le_trans (hpass.onStmt h) ?_
    have := walkExpr_reach hpass hcond
    have := walkStmts_reach hpass hthen
    have := walkStmts_reach hpass helse
    simp only [Stmt.reach]
    omega
  | p, .forEach ty var source body, b, h => by
    simp only [walkStmt, bind_eq_ok] at h
    obtain ⟨source', hsource, -, -, body', hbody, h⟩ := h
    refine Nat.le_trans (hpass.onStmt h) ?_
    have := walkExpr_reach hpass hsource
    have := walkStmts_reach hpass hbody
    simp only [Stmt.reach]
    omega
  | p, .whileLoop cond body, b, h => by
    simp only [walkStmt, bind_eq_ok] at h
    obtain ⟨cond', hcond, -, -, body', hbody, h⟩ := h
    refine Nat.le_trans (hpass.onStmt h) ?_
    have := walkExpr_reach hpass hcond
    have := walkStmts_reach hpass hbody
    simp only [Stmt.reach]
    omega
  | p, .ret none, b, h => hpass.onStmt h
  | p, .ret (some e), b, h => by
    simp only [walkStmt, walkOption, bind_eq_ok, pure_eq_ok] at h
    obtain ⟨_, ⟨e', he, rfl⟩, h⟩ := h
    refine Nat.le_trans (hpass.onStmt h) ?_
    have := walkExpr_reach hpass he
    simp only [Stmt.reach]
    omega

theorem walkStmts_reach (hpass : pass.KeepsReach) : ∀ {p : Position} {b b' : Block}, walkStmts pass p b = .ok b' →
    Stmt.listReach b' ≤ Stmt.listReach b
  | p, [], b', h => by
    rw [walkStmts, pure_eq_ok] at h
    exact h ▸ Nat.le_refl _
  | p, s :: b, b', h => by
    simp only [walkStmts, bind_eq_ok, pure_eq_ok] at h
    obtain ⟨new, hs, rest, hb, rfl⟩ := h
    have := walkStmt_reach hpass hs
    have := walkStmts_reach hpass hb
    rw [Stmt.listReach_append, Stmt.listReach]
    omega

end

theorem walkOption_reach (hpass : pass.KeepsReach) {e e' : Option Expr} (h : walkOption pass p e = .ok e') :
    Expr.listReach e'.toList ≤ Expr.listReach e.toList := by
  cases e with
  | none =>
    rw [walkOption, pure_eq_ok] at h
    exact h ▸ Nat.le_refl _
  | some e =>
    simp only [walkOption, bind_eq_ok, pure_eq_ok] at h
    obtain ⟨e', he, rfl⟩ := h
    have := walkExpr_reach hpass he
    simp only [Option.toList, Expr.listReach]
    omega

/-- Every field comes from one that gets as deep. -/
theorem walkFields_reach (hpass : pass.KeepsReach) {fs fs' : List Field} (h : walkFields pass p fs = .ok fs') :
    ∀ g ∈ fs', ∃ f ∈ fs, g.reach ≤ f.reach := by
  induction fs generalizing fs' with
  | nil =>
    rw [walkFields, pure_eq_ok] at h
    subst h
    exact fun g hg => absurd hg List.not_mem_nil
  | cons f fs ih =>
    simp only [walkFields, walkField, bind_eq_ok, pure_eq_ok] at h
    obtain ⟨new, ⟨init, hinit, hnew⟩, rest, hrest, rfl⟩ := h
    have hself : ({ f with init } : Field).reach ≤ f.reach := walkOption_reach hpass hinit
    intro g hg
    rcases List.mem_append.1 hg with hg | hg
    · exact ⟨f, List.mem_cons_self, Nat.le_trans (hpass.onField hnew g hg) hself⟩
    · obtain ⟨f', hf', hle⟩ := ih hrest g hg
      exact ⟨f', List.mem_cons_of_mem f hf', hle⟩

/-! ## Registries -/

variable {maxDepth n : Nat} {r r' : Registry}

private theorem walkMethod_reach (hpass : pass.KeepsReach) {owner : ClassId} {id : MethodId}
    (h : walkMethod pass maxDepth owner r id = .ok r') (hr : r.ReachAtMost n) : r'.ReachAtMost n := by
  obtain ⟨m, body, new, hm, hbody, hnew, rfl⟩ := walkMethod_eq_ok h
  simp only [walkBlock, lift_eq, bind_eq_ok] at hbody
  obtain ⟨-, -, hbody⟩ := hbody
  refine hr.setBody id ?_
  have := hr.bodies id m hm
  have := walkStmts_reach hpass hbody
  have := hpass.onMethod hnew
  omega

private theorem walkClass_reach (hpass : pass.KeepsReach) {id : ClassId}
    (h : walkClass pass maxDepth r id = .ok r') (hr : r.ReachAtMost n) : r'.ReachAtMost n := by
  obtain ⟨c, fields, hc, hfields, h⟩ := walkClass_eq_ok h
  have hclass : (r.setFields id fields).ReachAtMost n := by
    refine hr.modifyClass id fun _ _ g hg => ?_
    obtain ⟨f, hf, hle⟩ := walkFields_reach hpass hfields g hg
    exact Nat.le_trans (Nat.add_le_add_right hle 6) (hr.fields id c hc f hf)
  exact foldlM_preserves (P := fun r => r.ReachAtMost n) h hclass fun _ _ _ _ => walkMethod_reach hpass

/-- A traversal lets no code get deeper, if the rules of its pass do not. -/
theorem walk_reach (hpass : pass.KeepsReach) {t : Template} (h : walk pass maxDepth t r = .ok r')
    (hr : r.ReachAtMost n) : r'.ReachAtMost n :=
  foldlM_preserves (P := fun r => r.ReachAtMost n) h hr fun _ _ _ _ => walkClass_reach hpass

end Walk

end ObserverPattern
