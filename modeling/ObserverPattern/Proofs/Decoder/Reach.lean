import ObserverPattern.Proofs.Decoder.Phases
import ObserverPattern.Proofs.Decoder.Rules
import ObserverPattern.Proofs.Structure.Reach
import ObserverPattern.Proofs.Walk.Reach

/-!
# How deep a decoded program is nested

No rule of the decoding pass lets code get deeper than it could get before (`onExpr_reach`, `onStmt_reach`), so a
decode does not either (`decode_reach`).

* `decode_nesting_le`: the encoding of a decoded program is nested a third deeper than that of the program at most,
  but for a few levels.
-/

namespace ObserverPattern.Decoder

variable {d d' : Decoder} {p p' : Program} {n : Nat}

/-! ## The rules of the pass -/

section Rules

variable {p : Position}

/-- The first operand of a comparison of strings becomes a receiver, which is what it counted as. -/
theorem onExpr_reach {e e' : Expr} (h : d.onExpr p e = .ok e') : e'.reach ≤ e.reach := by
  cases e with
  | placeholder name operands =>
    rcases resolvePlaceholder_eq_ok h with ⟨left, right, rfl, rfl⟩ | ⟨left, right, op, key, rfl, -, -, rfl⟩ |
      ⟨-, -, rfl⟩
    · simp only [Expr.reach_methodCall, Expr.reach, Expr.listReach]
      omega
    · simp only [Expr.reach, Expr.listReach]
      omega
    · exact Nat.le_refl _
  | call callee args =>
    rcases resolveCall_eq_ok h with ⟨-, rfl⟩ | ⟨_, _, _, sub, sup, -, -, -, -, -, rfl⟩
    · exact Nat.le_refl _
    · -- A test has two arguments and so got deeper than a truth value.
      have hbool : (Expr.bool (d.hierarchy.le sub sup)).reach = 2 := rfl
      rw [hbool, Expr.reach]
      omega
  | id name =>
    simp only [onExpr, bind_eq_ok, pure_eq_ok] at h
    obtain ⟨name', -, rfl⟩ := h
    exact Nat.le_refl _
  | field receiver name =>
    simp only [onExpr, bind_eq_ok, pure_eq_ok] at h
    obtain ⟨name', -, rfl⟩ := h
    exact Nat.le_refl _
  | cast ty inner =>
    obtain ⟨ty', rfl⟩ := onExpr_cast h
    exact Nat.le_refl _
  | _ => exact Nat.le_of_eq (congrArg Expr.reach (Except.ok.inj h).symm)

private theorem resolveDispatch_reach {e e' : Expr} (h : d.resolveDispatch p e = .ok e') : e'.reach ≤ e.reach := by
  rcases resolveDispatch_eq_ok h with rfl | ⟨callee, target, receiver, args, method, rfl, -, rfl⟩
  · exact Nat.le_refl _
  · have := Expr.listReach_mono (List.filter_sublist (p := fun arg => !arg.isNull) (l := args)).subset
    simp only [Expr.reach_methodCall, Expr.reach, Expr.listReach]
    omega

private theorem loopWithIterator_reach (direction : Direction) (ty var : String) (source : Expr) (body : Block) :
    Stmt.listReach (loopWithIterator direction ty var source body) = (Stmt.forEach ty var source body).reach := by
  simp only [loopWithIterator, Stmt.declare, Stmt.listReach, Stmt.reach, Expr.reach_methodCall, Expr.reach,
    Expr.listReach]
  omega

/-- A loop over the collection becomes the loop that it counted as. -/
theorem onStmt_reach {s : Stmt} {b : Block} (h : d.onStmt p s = .ok b) : Stmt.listReach b ≤ s.reach := by
  have hsingle : ∀ s' : Stmt, Stmt.listReach [s'] = s'.reach := fun s' => Nat.max_zero s'.reach
  cases s with
  | expr e =>
    simp only [onStmt, bind_eq_ok, pure_eq_ok] at h
    obtain ⟨e', he, rfl⟩ := h
    rw [hsingle]
    exact Nat.add_le_add_right (resolveDispatch_reach he) 1
  | assign ty target value =>
    obtain ⟨ty', -, rfl⟩ := onStmt_assign h
    exact Nat.le_of_eq (hsingle _)
  | ifElse cond thenBody elseBody =>
    rw [onStmt_ifElse h]
    split_ifs
    · rw [Stmt.reach]
      omega
    · rw [Stmt.reach]
      omega
    · exact Nat.le_of_eq (hsingle _)
  | forEach ty var source body =>
    obtain ⟨walks, -, ⟨-, rfl⟩ | ⟨-, direction, -, rfl⟩⟩ := onStmt_forEach h
    · exact Nat.le_of_eq (hsingle _)
    · exact Nat.le_of_eq (loopWithIterator_reach direction ty var source body)
  | whileLoop cond body => exact Except.ok.inj h ▸ Nat.le_of_eq (hsingle _)
  | ret value => exact Except.ok.inj h ▸ Nat.le_of_eq (hsingle _)

theorem keepsReach (d : Decoder) : d.pass.KeepsReach where
  onExpr := onExpr_reach
  onStmt := onStmt_reach
  onField h g hg := by
    obtain ⟨ty, name, rfl⟩ := onField_eq_ok h
    exact List.mem_singleton.1 hg ▸ Nat.le_refl _
  onMethod h := Stmt.listReach_mono (onMethod_subset h)

end Rules

/-! ## The decode -/

theorem decode_reach {s : Summary} (h : d.decode p = .ok (d', p', s)) (hn : 11 ≤ n) (hp : p.registry.ReachAtMost n) :
    p'.registry.ReachAtMost n := by
  obtain ⟨d₁, p₁, -, hdispatchers, -, hwalk, -⟩ := decode_eq_ok h
  refine Walk.walk_reach d'.keepsReach hwalk ?_
  refine decodeDispatchers_preserves (P := fun _ p => p.registry.ReachAtMost n) hdispatchers hp ?_
  intro aux _ d₂ p₂ d₃ p₃ hstep _ hp₂
  obtain ⟨_, _, -, htransplant, -, -, rfl⟩ := decodeDispatcher_eq_ok.1 hstep
  exact transplant_reach htransplant hn hp₂

/-- The encoding of a decoded program is nested a third deeper than that of the program at most, and
six levels more. -/
theorem decode_nesting_le {s : Summary} (h : d.decode p = .ok (d', p', s)) :
    3 * p'.toJson.nesting ≤ 4 * max p.toJson.nesting 6 + 19 := by
  obtain ⟨k, hk⟩ : ∃ k, max p.toJson.nesting 6 = k + 6 := Nat.exists_eq_add_of_le' (Nat.le_max_right _ _)
  have hp := Program.reachAtMost_of_nesting_le (p := p) (n := k) (by omega)
  have hp' : p'.registry.ReachAtMost ((4 * k + 43) / 3 - 6 + 6) := by
    rw [Nat.sub_add_cancel (by omega)]
    exact decode_reach h (by omega) hp
  have := Program.nesting_le_of_reachAtMost hp'
  omega

end ObserverPattern.Decoder
