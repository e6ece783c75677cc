import ObserverPattern.Decoder.Pass
import ObserverPattern.Proofs.Program.Skeleton

/-!
# The rules of the decoding pass

What a rule of the pass has done once it succeeds, one lemma for each rule. Everything that is proved
about the traversal of a decoder goes back to these.

* Expressions: `resolvePlaceholder_eq_ok`, `resolveCall_eq_ok`, `onExpr_cast`;
* statements: `resolveDispatch_eq_ok`, `walksCollection_eq_ok`, `onStmt_assign`, `onStmt_ifElse`,
  `onStmt_forEach`;
* fields and methods: `onField_eq_ok`, `onMethod_eq`.
-/

namespace ObserverPattern

theorem Expr.methodCall?_eq_some {e receiver : Expr} {method : String} {args : List Expr}
    (h : e.methodCall? = some (receiver, method, args)) : e = .methodCall receiver method args := by
  unfold methodCall? at h
  split at h
  · simp only [Option.some.injEq, Prod.mk.injEq] at h
    obtain ⟨rfl, rfl, rfl⟩ := h
    rfl
  · cases h

namespace Decoder

variable {d : Decoder} {p : Position}

/-! ## Expressions -/

theorem twoOperands_eq_ok {name : String} {operands : List Expr} {left right : Expr}
    (h : twoOperands p name operands = .ok (left, right)) : operands = [left, right] := by
  unfold twoOperands at h
  split at h
  · cases h
    rfl
  · rw [bind_eq_ok] at h
    obtain ⟨location, -, h⟩ := h
    exact absurd h throw_ne_ok

/-- A placeholder becomes a call of `equals` or a comparison, unless it has another name. -/
theorem resolvePlaceholder_eq_ok {name : String} {operands : List Expr} {e' : Expr}
    (h : d.resolvePlaceholder p name operands = .ok e') :
    (∃ left right, operands = [left, right] ∧ e' = .methodCall left "equals" [right]) ∨
      (∃ left right op key, operands = [left, right] ∧ factKey p = .ok key ∧
        d.facts.comparison? key (memberKey left.source) (memberKey right.source) = some op ∧
          e' = .binary op left right) ∨
      name ≠ "CompareString" ∧ name ≠ "Compare" ∧ e' = .placeholder name operands := by
  unfold resolvePlaceholder at h
  split at h
  · simp only [bind_eq_ok, pure_eq_ok] at h
    obtain ⟨⟨left, right⟩, hoperands, rfl⟩ := h
    exact .inl ⟨left, right, twoOperands_eq_ok hoperands, rfl⟩
  · next hstring =>
    split at h
    · simp only [bind_eq_ok] at h
      obtain ⟨⟨left, right⟩, hoperands, key, hkey, h⟩ := h
      split at h
      · next op hop =>
        exact .inr (.inl ⟨left, right, op, key, twoOperands_eq_ok hoperands, hkey, hop, (pure_eq_ok.1 h).symm⟩)
      · exact absurd h throw_ne_ok
    · next hcompare => exact .inr (.inr ⟨hstring, hcompare, (Except.ok.inj h).symm⟩)

theorem subclassTest?_eq_some {callee : Expr} {args : List Expr} {n : Int64} {hole : String} :
    subclassTest? callee args = some (n, hole) ↔ ∃ sup, callee = .id "subcls" ∧ args = [.literal (.int n), sup] ∧
      Text.occursIn Role.subject.name sup.source = true ∧ sup.lastName? = some hole := by
  constructor
  · intro h
    unfold subclassTest? at h
    split at h
    · next name sub sup =>
      split at h
      · next hname =>
        simp only [Option.map_eq_some_iff, Prod.mk.injEq] at h
        obtain ⟨_, hlast, rfl, rfl⟩ := h
        exact ⟨sup, by rw [hname.1], rfl, hname.2, hlast⟩
      · cases h
    · cases h
  · rintro ⟨sup, rfl, rfl, hsubject, hlast⟩
    simp [subclassTest?, hsubject, hlast]

/-- A call stays, unless it tests for a subclass; then it becomes the answer of the hierarchy. -/
theorem resolveCall_eq_ok {callee : Expr} {args : List Expr} {e' : Expr} (h : d.resolveCall p callee args = .ok e') :
    subclassTest? callee args = none ∧ e' = .call callee args ∨
      ∃ n hole index sub sup, subclassTest? callee args = some (n, hole) ∧ ¬ n < 0 ∧
        d.bindings.get? hole = some index ∧
        Participants.classOf p.registry (auxOfHole hole) hole n.toInt.toNat = .ok sub ∧
          Participants.classOf p.registry (auxOfHole hole) hole index = .ok sup ∧
            e' = .bool (d.hierarchy.le sub sup) := by
  unfold resolveCall at h
  split at h
  · next htest => exact .inl ⟨htest, (Except.ok.inj h).symm⟩
  · next n hole htest =>
    simp only at h
    split at h
    · next index hindex =>
      split at h
      · rw [bind_eq_ok] at h
        obtain ⟨location, -, h⟩ := h
        exact absurd h throw_ne_ok
      · next hn =>
        simp only [bind_eq_ok, pure_eq_ok] at h
        obtain ⟨sub, hsub, sup, hsup, rfl⟩ := h
        exact .inr ⟨n, hole, index, sub, sup, htest, hn, hindex, hsub, hsup, rfl⟩
    · exact absurd h throw_ne_ok

/-- Of a cast only the type changes. -/
theorem onExpr_cast {ty : String} {inner e' : Expr} (h : d.onExpr p (.cast ty inner) = .ok e') :
    ∃ ty', e' = .cast ty' inner := by
  simp only [onExpr] at h
  split at h
  · simp only [bind_eq_ok, pure_eq_ok] at h
    obtain ⟨ty', -, rfl⟩ := h
    exact ⟨ty', rfl⟩
  · exact ⟨ty, (Except.ok.inj h).symm⟩

/-! ## Statements -/

/-- A call stays, unless it is a dispatch; then it becomes the call of a method of the receiver. -/
theorem resolveDispatch_eq_ok {e e' : Expr} (h : d.resolveDispatch p e = .ok e') :
    e' = e ∨ ∃ callee target receiver args method, e = .call callee (target :: receiver :: args) ∧
      (d.reflected? callee).isSome = true ∧
        e' = .methodCall receiver method (args.filter fun arg => !arg.isNull) := by
  unfold resolveDispatch at h
  split at h
  · next callee target receiver args =>
    split at h
    · exact .inl (Except.ok.inj h).symm
    · next aux haux =>
      split at h
      · simp only [bind_eq_ok, pure_eq_ok] at h
        obtain ⟨handle, -, method, -, rfl⟩ := h
        exact .inr ⟨callee, target, receiver, args, method, rfl, by rw [haux]; rfl, rfl⟩
      · exact .inl (Except.ok.inj h).symm
  · exact .inl (Except.ok.inj h).symm

theorem walksCollection_eq_ok {source : Expr} {b : Bool} (h : walksCollection p source = .ok b) :
    ∃ c, p.registry.class? p.owner = some c ∧
      (b = true ↔ ∃ name, c.collection = some name ∧ source.lastName? = some name) := by
  simp only [walksCollection, bind_eq_ok, pure_eq_ok, Registry.getClass_eq_ok] at h
  obtain ⟨c, hc, rfl⟩ := h
  refine ⟨c, hc, ?_⟩
  cases hcollection : c.collection with
  | none => simp
  | some name => simp

/-- Of an assignment only the type changes, if it has one. -/
theorem onStmt_assign {ty : Option String} {target value : Expr} {b : Block}
    (h : d.onStmt p (.assign ty target value) = .ok b) :
    ∃ ty', ty'.isSome = ty.isSome ∧ b = [.assign ty' target value] := by
  cases ty with
  | none => exact ⟨none, rfl, (Except.ok.inj h).symm⟩
  | some ty =>
    simp only [onStmt] at h
    split at h
    · simp only [bind_eq_ok, pure_eq_ok] at h
      obtain ⟨ty', -, rfl⟩ := h
      exact ⟨some ty', rfl, rfl⟩
    · exact ⟨some ty, rfl, (Except.ok.inj h).symm⟩

/-- What takes the place of a branch. -/
theorem onStmt_ifElse {cond : Expr} {thenBody elseBody b : Block}
    (h : d.onStmt p (.ifElse cond thenBody elseBody) = .ok b) :
    b = if cond.source = "false" then elseBody
      else if cond.source = "true" then thenBody else [.ifElse cond thenBody elseBody] := by
  simp only [onStmt] at h
  split at h
  · next hfalse => rw [if_pos hfalse, Except.ok.inj h]
  · next hfalse =>
    rw [if_neg hfalse]
    split at h
    · next htrue => rw [if_pos htrue, Except.ok.inj h]
    · next htrue => rw [if_neg htrue, Except.ok.inj h]

/-- What takes the place of a loop. -/
theorem onStmt_forEach {ty var : String} {source : Expr} {body b : Block}
    (h : d.onStmt p (.forEach ty var source body) = .ok b) :
    ∃ walks, walksCollection p source = .ok walks ∧
      (walks = false ∧ b = [.forEach ty var source body] ∨
        walks = true ∧ ∃ direction, d.directionAt p = .ok direction ∧
          b = loopWithIterator direction ty var source body) := by
  simp only [onStmt, bind_eq_ok] at h
  obtain ⟨walks, hwalks, h⟩ := h
  refine ⟨walks, hwalks, ?_⟩
  cases walks with
  | false =>
    simp only [Bool.false_eq_true, if_false, pure_eq_ok] at h
    exact .inl ⟨rfl, h.symm⟩
  | true =>
    simp only [if_true, bind_eq_ok, pure_eq_ok] at h
    obtain ⟨direction, hdirection, rfl⟩ := h
    exact .inr ⟨rfl, direction, hdirection, rfl⟩

/-! ## Fields and methods -/

/-- Of a field only the type and the name change. -/
theorem onField_eq_ok {f : Field} {fs : List Field} (h : d.onField p f = .ok fs) :
    ∃ ty name, fs = [⟨ty, name, f.init⟩] := by
  unfold onField at h
  split at h
  · simp only [bind_eq_ok, pure_eq_ok] at h
    obtain ⟨subject, -, rfl⟩ := h
    exact ⟨_, _, rfl⟩
  · exact ⟨_, _, (Except.ok.inj h).symm⟩

/-- A constructor loses its temporary statements, any other method the call of the subject at its start. -/
theorem onMethod_eq {id : MethodId} (hid : p.method = some id) (first : Stmt) (rest : Block) :
    d.onMethod p (first :: rest) = (do
      let isInit ← (p.registry.getMethod id).map (·.isInit)
      if isInit then .ok ((first :: rest).filter fun s => !Text.occursIn d.conventions.tmpMarker s.source)
      else .ok (if d.callsSubject first then rest else first :: rest)) := by
  unfold onMethod
  rw [hid]
  cases hm : p.registry.getMethod id with
  | error e => simp only [hm]; rfl
  | ok m => simp only [hm]; rfl

/-- The pass adds no statements to a method as a whole. -/
theorem onMethod_subset {b b' : Block} (h : d.onMethod p b = .ok b') : b' ⊆ b := by
  cases b with
  | nil =>
    unfold onMethod at h
    split at h
    · next heq => cases heq
    · exact (Except.ok.inj h) ▸ List.Subset.refl _
  | cons first rest =>
    cases hmethod : p.method with
    | none =>
      unfold onMethod at h
      rw [hmethod] at h
      exact (Except.ok.inj h) ▸ List.Subset.refl _
    | some id =>
      rw [onMethod_eq hmethod, bind_eq_ok] at h
      obtain ⟨isInit, -, h⟩ := h
      split at h
      · exact (Except.ok.inj h) ▸ List.filter_sublist.subset
      · split at h
        · exact (Except.ok.inj h) ▸ List.subset_cons_self _ _
        · exact (Except.ok.inj h) ▸ List.Subset.refl _

end Decoder

end ObserverPattern
