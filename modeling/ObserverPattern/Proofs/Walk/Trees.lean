import ObserverPattern.Proofs.Syntax.Parts
import ObserverPattern.Proofs.Walk.Visit

/-!
# Traversals of trees

What a pass does to expressions and blocks follows from what it does to a node whose children have
been replaced.

* `walkOption_parts`, `walkStmts_parts`: a property that every replacement has, given that the
  children have it, holds of every part of the outcome; in `walkExpr_parts_of` and
  `walkStmts_parts_of` something may be known of the nodes that are replaced;
* `walkExpr_eq_self`, `walkStmts_eq_self`: a tree whose parts the pass leaves alone stays as it is;
* `walkExpr_congr`: only what the pass does at a place matters;
* `walkExpr_shell`: what takes the place of an expression is what the pass makes of a node of its kind.

The blocks of a method lie at one place and at different depths (`Position.atDepth`).
-/

namespace ObserverPattern

/-- The same place at another depth. -/
def Position.atDepth (p : Position) (n : Nat) : Position := { p with depth := n }

namespace Walk

variable {pass : Pass (Except DecodeFault)} {p : Position}

/-! ## Properties of the outcome -/

section Parts

variable {H P : Expr → Prop}

mutual

/-- Every part of the outcome has a property that the pass establishes at each node. What takes the place of
a node may depend on the node itself, which is one of `e₀`, and not only on its replaced children. -/
theorem walkExpr_parts_of
    (hexpr : ∀ e₀ e e', H e₀ → e.shell = e₀.shell → (∀ x ∈ Expr.listParts e.children, P x) →
      pass.onExpr p e = .ok e' → ∀ x ∈ e'.parts, P x) :
    ∀ e₀ e', (∀ x ∈ e₀.parts, H x) → walkExpr pass p e₀ = .ok e' → ∀ x ∈ e'.parts, P x
  | .literal l, e', hparts, h => by
    rw [walkExpr] at h
    exact hexpr _ _ _ (hparts _ (Expr.self_mem_parts _)) (by rfl) (by simp [Expr.children, Expr.listParts]) h
  | .id name, e', hparts, h => by
    rw [walkExpr] at h
    exact hexpr _ _ _ (hparts _ (Expr.self_mem_parts _)) (by rfl) (by simp [Expr.children, Expr.listParts]) h
  | .field receiver name, e', hparts, h => by
    rw [walkExpr, bind_eq_ok] at h
    obtain ⟨receiver', h₁, h⟩ := h
    refine hexpr _ _ _ (hparts _ (Expr.self_mem_parts _)) (by rfl) ?_ h
    have hreceiver := walkExpr_parts_of hexpr receiver receiver' (fun x hx => hparts x (by simp [Expr.parts, hx])) h₁
    simpa [Expr.children, Expr.listParts] using hreceiver
  | .call callee args, e', hparts, h => by
    simp only [walkExpr, bind_eq_ok] at h
    obtain ⟨callee', h₁, args', h₂, h⟩ := h
    refine hexpr _ _ _ (hparts _ (Expr.self_mem_parts _)) (by rfl) ?_ h
    have hcallee := walkExpr_parts_of hexpr callee callee' (fun x hx => hparts x (by simp [Expr.parts, hx])) h₁
    have hargs := walkExprs_parts_of hexpr args args' (fun x hx => hparts x (by simp [Expr.parts, hx])) h₂
    simp only [Expr.children, Expr.listParts, List.mem_append]
    rintro x (hx | hx)
    · exact hcallee x hx
    · exact hargs x hx
  | .new ty args, e', hparts, h => by
    rw [walkExpr, bind_eq_ok] at h
    obtain ⟨args', h₁, h⟩ := h
    refine hexpr _ _ _ (hparts _ (Expr.self_mem_parts _)) (by rfl) ?_ h
    exact walkExprs_parts_of hexpr args args' (fun x hx => hparts x (by simp [Expr.parts, hx])) h₁
  | .binary op left right, e', hparts, h => by
    simp only [walkExpr, bind_eq_ok] at h
    obtain ⟨left', h₁, right', h₂, h⟩ := h
    refine hexpr _ _ _ (hparts _ (Expr.self_mem_parts _)) (by rfl) ?_ h
    have hleft := walkExpr_parts_of hexpr left left' (fun x hx => hparts x (by simp [Expr.parts, hx])) h₁
    have hright := walkExpr_parts_of hexpr right right' (fun x hx => hparts x (by simp [Expr.parts, hx])) h₂
    simp only [Expr.children, Expr.listParts, List.append_nil, List.mem_append]
    rintro x (hx | hx)
    · exact hleft x hx
    · exact hright x hx
  | .cast ty e, e', hparts, h => by
    rw [walkExpr, bind_eq_ok] at h
    obtain ⟨inner, h₁, h⟩ := h
    refine hexpr _ _ _ (hparts _ (Expr.self_mem_parts _)) (by rfl) ?_ h
    have hinner := walkExpr_parts_of hexpr e inner (fun x hx => hparts x (by simp [Expr.parts, hx])) h₁
    simpa [Expr.children, Expr.listParts] using hinner
  | .placeholder name operands, e', hparts, h => by
    rw [walkExpr, bind_eq_ok] at h
    obtain ⟨operands', h₁, h⟩ := h
    refine hexpr _ _ _ (hparts _ (Expr.self_mem_parts _)) (by rfl) ?_ h
    exact walkExprs_parts_of hexpr operands operands' (fun x hx => hparts x (by simp [Expr.parts, hx])) h₁

theorem walkExprs_parts_of
    (hexpr : ∀ e₀ e e', H e₀ → e.shell = e₀.shell → (∀ x ∈ Expr.listParts e.children, P x) →
      pass.onExpr p e = .ok e' → ∀ x ∈ e'.parts, P x) :
    ∀ es₀ es', (∀ x ∈ Expr.listParts es₀, H x) → walkExprs pass p es₀ = .ok es' → ∀ x ∈ Expr.listParts es', P x
  | [], es', _, h => by
    rw [walkExprs, pure_eq_ok] at h
    subst h
    simp [Expr.listParts]
  | e :: es, es', hparts, h => by
    simp only [walkExprs, bind_eq_ok, pure_eq_ok] at h
    obtain ⟨e', h₁, es', h₂, rfl⟩ := h
    have hhead := walkExpr_parts_of hexpr e e' (fun x hx => hparts x (by simp [Expr.listParts, hx])) h₁
    have htail := walkExprs_parts_of hexpr es es' (fun x hx => hparts x (by simp [Expr.listParts, hx])) h₂
    simp only [Expr.listParts, List.mem_append]
    rintro x (hx | hx)
    · exact hhead x hx
    · exact htail x hx

end

theorem walkOption_parts_of
    (hexpr : ∀ e₀ e e', H e₀ → e.shell = e₀.shell → (∀ x ∈ Expr.listParts e.children, P x) →
      pass.onExpr p e = .ok e' → ∀ x ∈ e'.parts, P x)
    {e₀ e' : Option Expr} (hparts : ∀ x ∈ Expr.listParts e₀.toList, H x) (h : walkOption pass p e₀ = .ok e') :
    ∀ x ∈ Expr.listParts e'.toList, P x := by
  cases e₀ with
  | none =>
    rw [walkOption, pure_eq_ok] at h
    subst h
    simp [Expr.listParts]
  | some e =>
    simp only [walkOption, bind_eq_ok, pure_eq_ok] at h
    obtain ⟨e', h₁, rfl⟩ := h
    have hself := walkExpr_parts_of hexpr e e' (fun x hx => hparts x (by simpa [Expr.listParts] using hx)) h₁
    simpa [Expr.listParts] using hself

/-- Every part of the outcome has a property that the pass establishes at each node. -/
theorem walkOption_parts
    (hexpr : ∀ e e', (∀ x ∈ Expr.listParts e.children, P x) → pass.onExpr p e = .ok e' → ∀ x ∈ e'.parts, P x)
    {e e' : Option Expr} (h : walkOption pass p e = .ok e') : ∀ x ∈ Expr.listParts e'.toList, P x :=
  walkOption_parts_of (H := fun _ => True) (fun _ e e' _ _ => hexpr e e') (fun _ _ => trivial) h

variable {K Q : Stmt → Prop}

mutual

/-- Every statement of the outcome has a property that the pass establishes at each statement, whose
expressions have the property `P`. What takes the place of a statement may depend on the statement itself,
which is one of `s₀`, and on the expressions in it, which are some of `s₀`. -/
theorem walkStmt_parts_of
    (hexpr : ∀ n e₀ e e', H e₀ → e.shell = e₀.shell → (∀ x ∈ Expr.listParts e.children, P x) →
      pass.onExpr (p.atDepth n) e = .ok e' → ∀ x ∈ e'.parts, P x)
    (hstmt : ∀ n s₀ s b, K s₀ → s.shell = s₀.shell → (∀ e ∈ s.exprs, P e) →
      (∀ x ∈ Stmt.listParts s.children, Q x) → pass.onStmt (p.atDepth n) s = .ok b → ∀ x ∈ Stmt.listParts b, Q x) :
    ∀ n s₀ b, (∀ x ∈ s₀.parts, K x ∧ ∀ e ∈ x.exprs, H e) → walkStmt pass (p.atDepth n) s₀ = .ok b →
      ∀ x ∈ Stmt.listParts b, Q x
  | n, .expr e, b, hparts, h => by
    rw [walkStmt, bind_eq_ok] at h
    obtain ⟨e', h₁, h⟩ := h
    obtain ⟨hself, hexprs⟩ := hparts _ (Stmt.self_mem_parts _)
    refine hstmt n _ _ b hself (by rfl) ?_ ?_ h
    · simp only [Stmt.exprs, Stmt.operands, Expr.listParts, List.append_nil] at hexprs ⊢
      exact walkExpr_parts_of (hexpr n) e e' hexprs h₁
    · simp [Stmt.children, Stmt.listParts]
  | n, .assign ty target value, b, hparts, h => by
    simp only [walkStmt, bind_eq_ok] at h
    obtain ⟨target', h₁, value', h₂, h⟩ := h
    obtain ⟨hself, hexprs⟩ := hparts _ (Stmt.self_mem_parts _)
    refine hstmt n _ _ b hself (by rfl) ?_ ?_ h
    · simp only [Stmt.exprs, Stmt.operands, Expr.listParts, List.append_nil, List.mem_append] at hexprs ⊢
      have htarget := walkExpr_parts_of (hexpr n) target target' (fun x hx => hexprs x (.inl hx)) h₁
      have hvalue := walkExpr_parts_of (hexpr n) value value' (fun x hx => hexprs x (.inr hx)) h₂
      rintro x (hx | hx)
      · exact htarget x hx
      · exact hvalue x hx
    · simp [Stmt.children, Stmt.listParts]
  | n, .ifElse cond thenBody elseBody, b, hparts, h => by
    simp only [walkStmt, bind_eq_ok] at h
    obtain ⟨cond', h₁, -, -, then', h₂, -, -, else', h₃, h⟩ := h
    obtain ⟨hself, hexprs⟩ := hparts _ (Stmt.self_mem_parts _)
    refine hstmt n _ _ b hself (by rfl) ?_ ?_ h
    · simp only [Stmt.exprs, Stmt.operands, Expr.listParts, List.append_nil] at hexprs ⊢
      exact walkExpr_parts_of (hexpr n) cond cond' hexprs h₁
    · have hthen := walkStmts_parts_of hexpr hstmt (n + 1) thenBody then'
        (fun x hx => hparts x (by simp [Stmt.parts, hx])) h₂
      have helse := walkStmts_parts_of hexpr hstmt (n + 1) elseBody else'
        (fun x hx => hparts x (by simp [Stmt.parts, hx])) h₃
      simp only [Stmt.children, Stmt.listParts_append, List.mem_append]
      rintro x (hx | hx)
      · exact hthen x hx
      · exact helse x hx
  | n, .forEach ty var source body, b, hparts, h => by
    simp only [walkStmt, bind_eq_ok] at h
    obtain ⟨source', h₁, -, -, body', h₂, h⟩ := h
    obtain ⟨hself, hexprs⟩ := hparts _ (Stmt.self_mem_parts _)
    refine hstmt n _ _ b hself (by rfl) ?_ ?_ h
    · simp only [Stmt.exprs, Stmt.operands, Expr.listParts, List.append_nil] at hexprs ⊢
      exact walkExpr_parts_of (hexpr n) source source' hexprs h₁
    · exact walkStmts_parts_of hexpr hstmt (n + 1) body body' (fun x hx => hparts x (by simp [Stmt.parts, hx])) h₂
  | n, .whileLoop cond body, b, hparts, h => by
    simp only [walkStmt, bind_eq_ok] at h
    obtain ⟨cond', h₁, -, -, body', h₂, h⟩ := h
    obtain ⟨hself, hexprs⟩ := hparts _ (Stmt.self_mem_parts _)
    refine hstmt n _ _ b hself (by rfl) ?_ ?_ h
    · simp only [Stmt.exprs, Stmt.operands, Expr.listParts, List.append_nil] at hexprs ⊢
      exact walkExpr_parts_of (hexpr n) cond cond' hexprs h₁
    · exact walkStmts_parts_of hexpr hstmt (n + 1) body body' (fun x hx => hparts x (by simp [Stmt.parts, hx])) h₂
  | n, .ret value, b, hparts, h => by
    rw [walkStmt, bind_eq_ok] at h
    obtain ⟨value', h₁, h⟩ := h
    obtain ⟨hself, hexprs⟩ := hparts _ (Stmt.self_mem_parts _)
    refine hstmt n _ _ b hself (by rfl) ?_ ?_ h
    · exact walkOption_parts_of (hexpr n) hexprs h₁
    · simp [Stmt.children, Stmt.listParts]

theorem walkStmts_parts_of
    (hexpr : ∀ n e₀ e e', H e₀ → e.shell = e₀.shell → (∀ x ∈ Expr.listParts e.children, P x) →
      pass.onExpr (p.atDepth n) e = .ok e' → ∀ x ∈ e'.parts, P x)
    (hstmt : ∀ n s₀ s b, K s₀ → s.shell = s₀.shell → (∀ e ∈ s.exprs, P e) →
      (∀ x ∈ Stmt.listParts s.children, Q x) → pass.onStmt (p.atDepth n) s = .ok b → ∀ x ∈ Stmt.listParts b, Q x) :
    ∀ n b₀ b', (∀ x ∈ Stmt.listParts b₀, K x ∧ ∀ e ∈ x.exprs, H e) → walkStmts pass (p.atDepth n) b₀ = .ok b' →
      ∀ x ∈ Stmt.listParts b', Q x
  | n, [], b', _, h => by
    rw [walkStmts, pure_eq_ok] at h
    subst h
    simp [Stmt.listParts]
  | n, s :: b, b', hparts, h => by
    simp only [walkStmts, bind_eq_ok, pure_eq_ok] at h
    obtain ⟨new, h₁, rest, h₂, rfl⟩ := h
    have hhead := walkStmt_parts_of hexpr hstmt n s new (fun x hx => hparts x (by simp [Stmt.listParts, hx])) h₁
    have htail := walkStmts_parts_of hexpr hstmt n b rest (fun x hx => hparts x (by simp [Stmt.listParts, hx])) h₂
    simp only [Stmt.listParts_append, List.mem_append]
    rintro x (hx | hx)
    · exact hhead x hx
    · exact htail x hx

end

/-- Every statement of the outcome has a property that the pass establishes at each statement, whose
expressions have the property `P`. -/
theorem walkStmts_parts
    (hexpr : ∀ n e e', (∀ x ∈ Expr.listParts e.children, P x) → pass.onExpr (p.atDepth n) e = .ok e' →
      ∀ x ∈ e'.parts, P x)
    (hstmt : ∀ n s b, (∀ e ∈ s.exprs, P e) → (∀ x ∈ Stmt.listParts s.children, Q x) →
      pass.onStmt (p.atDepth n) s = .ok b → ∀ x ∈ Stmt.listParts b, Q x)
    (n : Nat) (b b' : Block) (h : walkStmts pass (p.atDepth n) b = .ok b') : ∀ x ∈ Stmt.listParts b', Q x :=
  walkStmts_parts_of (H := fun _ => True) (K := fun _ => True) (fun n _ e e' _ _ => hexpr n e e')
    (fun n _ s b _ _ => hstmt n s b) n b b' (fun _ _ => ⟨trivial, fun _ _ => trivial⟩) h

end Parts

/-! ## Trees that stay as they are -/

mutual

/-- An expression whose parts the pass leaves alone stays as it is. -/
theorem walkExpr_eq_self : ∀ e : Expr, (∀ x ∈ e.parts, pass.onExpr p x = .ok x) → walkExpr pass p e = .ok e
  | .literal l, h => by
    simpa [walkExpr] using h _ (Expr.self_mem_parts _)
  | .id name, h => by
    simpa [walkExpr] using h _ (Expr.self_mem_parts _)
  | .field receiver name, h => by
    rw [walkExpr, walkExpr_eq_self receiver fun x hx => h x (by simp [Expr.parts, hx])]
    exact h _ (Expr.self_mem_parts _)
  | .call callee args, h => by
    rw [walkExpr, walkExpr_eq_self callee fun x hx => h x (by simp [Expr.parts, hx]),
      walkExprs_eq_self args fun x hx => h x (by simp [Expr.parts, hx])]
    exact h _ (Expr.self_mem_parts _)
  | .new ty args, h => by
    rw [walkExpr, walkExprs_eq_self args fun x hx => h x (by simp [Expr.parts, hx])]
    exact h _ (Expr.self_mem_parts _)
  | .binary op left right, h => by
    rw [walkExpr, walkExpr_eq_self left fun x hx => h x (by simp [Expr.parts, hx]),
      walkExpr_eq_self right fun x hx => h x (by simp [Expr.parts, hx])]
    exact h _ (Expr.self_mem_parts _)
  | .cast ty e, h => by
    rw [walkExpr, walkExpr_eq_self e fun x hx => h x (by simp [Expr.parts, hx])]
    exact h _ (Expr.self_mem_parts _)
  | .placeholder name operands, h => by
    rw [walkExpr, walkExprs_eq_self operands fun x hx => h x (by simp [Expr.parts, hx])]
    exact h _ (Expr.self_mem_parts _)

theorem walkExprs_eq_self :
    ∀ es : List Expr, (∀ x ∈ Expr.listParts es, pass.onExpr p x = .ok x) → walkExprs pass p es = .ok es
  | [], _ => rfl
  | e :: es, h => by
    rw [walkExprs, walkExpr_eq_self e fun x hx => h x (by simp [Expr.listParts, hx]),
      walkExprs_eq_self es fun x hx => h x (by simp [Expr.listParts, hx])]
    rfl

end

theorem walkOption_eq_self {e : Option Expr} (h : ∀ x ∈ Expr.listParts e.toList, pass.onExpr p x = .ok x) :
    walkOption pass p e = .ok e := by
  cases e with
  | none => rfl
  | some e =>
    rw [walkOption, walkExpr_eq_self e fun x hx => h x (by simpa [Expr.listParts] using hx)]
    rfl

/-- The pass leaves a statement alone, and the expressions in it, at any depth. -/
def LeavesAlone (pass : Pass (Except DecodeFault)) (p : Position) (s : Stmt) : Prop :=
  ∀ n, (∀ e ∈ s.exprs, pass.onExpr (p.atDepth n) e = .ok e) ∧ pass.onStmt (p.atDepth n) s = .ok [s]

mutual

/-- A statement whose parts the pass leaves alone stays as it is, unless it is nested too deep. -/
theorem walkStmt_eq_self : ∀ n (s : Stmt) b, (∀ x ∈ s.parts, LeavesAlone pass p x) →
    walkStmt pass (p.atDepth n) s = .ok b → b = [s]
  | n, .expr e, b, hparts, h => by
    obtain ⟨hexprs, hself⟩ := hparts _ (Stmt.self_mem_parts _) n
    rw [walkStmt,
      walkExpr_eq_self e fun x hx => hexprs x (by simp [Stmt.exprs, Stmt.operands, Expr.listParts, hx])] at h
    exact Except.ok.inj (h.symm.trans hself)
  | n, .assign ty target value, b, hparts, h => by
    obtain ⟨hexprs, hself⟩ := hparts _ (Stmt.self_mem_parts _) n
    rw [walkStmt,
      walkExpr_eq_self target fun x hx => hexprs x (by simp [Stmt.exprs, Stmt.operands, Expr.listParts, hx]),
      walkExpr_eq_self value fun x hx => hexprs x (by simp [Stmt.exprs, Stmt.operands, Expr.listParts, hx])] at h
    exact Except.ok.inj (h.symm.trans hself)
  | n, .ifElse cond thenBody elseBody, b, hparts, h => by
    obtain ⟨hexprs, hself⟩ := hparts _ (Stmt.self_mem_parts _) n
    rw [walkStmt,
      walkExpr_eq_self cond fun x hx => hexprs x (by simp [Stmt.exprs, Stmt.operands, Expr.listParts, hx])] at h
    simp only [ok_bind, bind_eq_ok] at h
    obtain ⟨-, -, then', h₁, -, -, else', h₂, h⟩ := h
    obtain rfl := walkStmts_eq_self (n + 1) thenBody then' (fun x hx => hparts x (by simp [Stmt.parts, hx])) h₁
    obtain rfl := walkStmts_eq_self (n + 1) elseBody else' (fun x hx => hparts x (by simp [Stmt.parts, hx])) h₂
    exact Except.ok.inj (h.symm.trans hself)
  | n, .forEach ty var source body, b, hparts, h => by
    obtain ⟨hexprs, hself⟩ := hparts _ (Stmt.self_mem_parts _) n
    rw [walkStmt,
      walkExpr_eq_self source fun x hx => hexprs x (by simp [Stmt.exprs, Stmt.operands, Expr.listParts, hx])] at h
    simp only [ok_bind, bind_eq_ok] at h
    obtain ⟨-, -, body', h₁, h⟩ := h
    obtain rfl := walkStmts_eq_self (n + 1) body body' (fun x hx => hparts x (by simp [Stmt.parts, hx])) h₁
    exact Except.ok.inj (h.symm.trans hself)
  | n, .whileLoop cond body, b, hparts, h => by
    obtain ⟨hexprs, hself⟩ := hparts _ (Stmt.self_mem_parts _) n
    rw [walkStmt,
      walkExpr_eq_self cond fun x hx => hexprs x (by simp [Stmt.exprs, Stmt.operands, Expr.listParts, hx])] at h
    simp only [ok_bind, bind_eq_ok] at h
    obtain ⟨-, -, body', h₁, h⟩ := h
    obtain rfl := walkStmts_eq_self (n + 1) body body' (fun x hx => hparts x (by simp [Stmt.parts, hx])) h₁
    exact Except.ok.inj (h.symm.trans hself)
  | n, .ret value, b, hparts, h => by
    obtain ⟨hexprs, hself⟩ := hparts _ (Stmt.self_mem_parts _) n
    rw [walkStmt, walkOption_eq_self hexprs] at h
    exact Except.ok.inj (h.symm.trans hself)

theorem walkStmts_eq_self : ∀ n (b b' : Block), (∀ x ∈ Stmt.listParts b, LeavesAlone pass p x) →
    walkStmts pass (p.atDepth n) b = .ok b' → b' = b
  | n, [], b', _, h => by
    rw [walkStmts, pure_eq_ok] at h
    exact h.symm
  | n, s :: b, b', hparts, h => by
    simp only [walkStmts, bind_eq_ok, pure_eq_ok] at h
    obtain ⟨new, h₁, rest, h₂, rfl⟩ := h
    obtain rfl := walkStmt_eq_self n s new (fun x hx => hparts x (by simp [Stmt.listParts, hx])) h₁
    obtain rfl := walkStmts_eq_self n b rest (fun x hx => hparts x (by simp [Stmt.listParts, hx])) h₂
    rfl

end

/-- The pass makes the outcome of a node that has the kind of the expression. -/
theorem walkExpr_shell {e e' : Expr} (h : walkExpr pass p e = .ok e') :
    ∃ e₁, e₁.shell = e.shell ∧ pass.onExpr p e₁ = .ok e' := by
  cases e with
  | literal l => exact ⟨_, rfl, h⟩
  | id name => exact ⟨_, rfl, h⟩
  | field receiver name =>
    simp only [walkExpr, bind_eq_ok] at h
    obtain ⟨receiver', -, h⟩ := h
    exact ⟨.field receiver' name, rfl, h⟩
  | call callee args =>
    simp only [walkExpr, bind_eq_ok] at h
    obtain ⟨callee', -, args', -, h⟩ := h
    exact ⟨.call callee' args', rfl, h⟩
  | new ty args =>
    simp only [walkExpr, bind_eq_ok] at h
    obtain ⟨args', -, h⟩ := h
    exact ⟨.new ty args', rfl, h⟩
  | binary op left right =>
    simp only [walkExpr, bind_eq_ok] at h
    obtain ⟨left', -, right', -, h⟩ := h
    exact ⟨.binary op left' right', rfl, h⟩
  | cast ty inner =>
    simp only [walkExpr, bind_eq_ok] at h
    obtain ⟨inner', -, h⟩ := h
    exact ⟨.cast ty inner', rfl, h⟩
  | placeholder name operands =>
    simp only [walkExpr, bind_eq_ok] at h
    obtain ⟨operands', -, h⟩ := h
    exact ⟨.placeholder name operands', rfl, h⟩

/-! ## What matters of a place -/

mutual

/-- Two places are the same to a traversal if they are the same to the pass. -/
theorem walkExpr_congr {q : Position} (h : ∀ e, pass.onExpr p e = pass.onExpr q e) :
    ∀ e, walkExpr pass p e = walkExpr pass q e
  | .literal l => by simp only [walkExpr, h]
  | .id name => by simp only [walkExpr, h]
  | .field receiver name => by simp only [walkExpr, h, walkExpr_congr h receiver]
  | .call callee args => by simp only [walkExpr, h, walkExpr_congr h callee, walkExprs_congr h args]
  | .new ty args => by simp only [walkExpr, h, walkExprs_congr h args]
  | .binary op left right => by simp only [walkExpr, h, walkExpr_congr h left, walkExpr_congr h right]
  | .cast ty e => by simp only [walkExpr, h, walkExpr_congr h e]
  | .placeholder name operands => by simp only [walkExpr, h, walkExprs_congr h operands]

theorem walkExprs_congr {q : Position} (h : ∀ e, pass.onExpr p e = pass.onExpr q e) :
    ∀ es, walkExprs pass p es = walkExprs pass q es
  | [] => rfl
  | e :: es => by simp only [walkExprs, walkExpr_congr h e, walkExprs_congr h es]

end

end Walk

end ObserverPattern
