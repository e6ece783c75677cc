import ObserverPattern.Proofs.Program.Reach
import ObserverPattern.Proofs.Structure.GenericNames

/-!
# The structural phase lets nothing get deeper

A concrete handle body gets no deeper than the generic one (`HandleBody.Names.MakesBlock.reach`), and the other code
that the participants of a dispatcher are given is shallow (`Decoder.transplant_reach`).
-/

namespace ObserverPattern

/-! ## Handle bodies -/

namespace HandleBody.Names

variable {n : Names}

mutual

theorem Makes.reach : ∀ {e e' : Expr}, n.Makes e e' → e'.reach ≤ e.reach
  | _, _, .literal _ => Nat.le_refl _
  | _, _, .id _ => Nat.le_refl _
  | _, _, .field _ hreceiver => by
    have := hreceiver.reach
    simp only [Expr.reach]
    omega
  | _, _, .update _ hreceiver hrest hargs => by
    have := hreceiver.reach
    have := hrest.reach
    have := Expr.listReach_mono (sublist_of_adjust hargs).subset
    simp only [Expr.reach_methodCall, Expr.reach, Expr.listReach]
    omega
  | _, _, .call _ hcallee hargs => by
    have := hcallee.reach
    have := hargs.reach
    simp only [Expr.reach]
    omega
  | _, _, .new _ hargs => by
    have := hargs.reach
    simp only [Expr.reach]
    omega
  | _, _, .binary _ hleft hright => by
    have := hleft.reach
    have := hright.reach
    simp only [Expr.reach]
    omega
  | _, _, .cast _ he => by
    have := he.reach
    simp only [Expr.reach]
    omega
  | _, _, .placeholder _ hoperands => by
    have := hoperands.reach
    simp only [Expr.reach]
    omega

theorem MakesAll.reach : ∀ {es es' : List Expr}, n.MakesAll es es' → Expr.listReach es' ≤ Expr.listReach es
  | _, _, .nil => Nat.le_refl _
  | _, _, .cons he hes => by
    have := he.reach
    have := hes.reach
    simp only [Expr.listReach]
    omega

end

mutual

theorem MakesStmt.reach : ∀ {s s' : Stmt}, n.MakesStmt s s' → s'.reach ≤ s.reach
  | _, _, .expr he => by
    have := he.reach
    simp only [Stmt.reach]
    omega
  | _, _, .assign _ htarget hvalue => by
    have := htarget.reach
    have := hvalue.reach
    simp only [Stmt.reach]
    omega
  | _, _, .ifElse hcond hthen helse => by
    have := hcond.reach
    have := hthen.reach
    have := helse.reach
    simp only [Stmt.reach]
    omega
  | _, _, .forEach _ _ hsource hbody => by
    have := hsource.reach
    have := hbody.reach
    simp only [Stmt.reach]
    omega
  | _, _, .whileLoop hcond hbody => by
    have := hcond.reach
    have := hbody.reach
    simp only [Stmt.reach]
    omega
  | _, _, .retNone => Nat.le_refl _
  | _, _, .ret he => by
    have := he.reach
    simp only [Stmt.reach]
    omega

theorem MakesBlock.reach : ∀ {b b' : Block}, n.MakesBlock b b' → Stmt.listReach b' ≤ Stmt.listReach b
  | _, _, .nil => Nat.le_refl _
  | _, _, .cons hs hb => by
    have := hs.reach
    have := hb.reach
    simp only [Stmt.listReach]
    omega

end

end HandleBody.Names

/-! ## Participants -/

variable {r r' : Registry} {n : Nat}

namespace Collection

private theorem listReach_atStart (s : Stmt) (b : Block) :
    Stmt.listReach (atStart s b) = max s.reach (Stmt.listReach b) := by
  unfold atStart
  split
  · rfl
  · split
    · simp only [Stmt.listReach]
      omega
    · rfl

/-- The assignments of the collection in the constructors and its field get eleven levels deep at most. -/
theorem install_reach {c : Conventions} {subject observer : ClassId} {name : String}
    (h : install c r subject observer = .ok (r', name)) (hn : 11 ≤ n) (hr : r.ReachAtMost n) : r'.ReachAtMost n := by
  simp only [install, bind_eq_ok, pure_eq_ok, Prod.mk.injEq, Registry.updateClass_eq_ok] at h
  obtain ⟨observer, -, constructors, -, r₁, hr₁, _, ⟨-, rfl⟩, rfl, -⟩ := h
  have hconstructors : r₁.ReachAtMost n := by
    refine foldlM_preserves (P := fun r => r.ReachAtMost n) hr₁ hr fun id _ r₂ r₃ hstep hr₂ => ?_
    obtain ⟨-, rfl⟩ := Registry.updateMethod_eq_ok.1 hstep
    refine hr₂.modifyMethod id fun m hm => ?_
    have := hr₂.bodies id m hm
    simp only [listReach_atStart, creation, Stmt.reach, Expr.reach, Expr.listReach]
    omega
  refine hconstructors.modifyClass subject fun k hk f hf => ?_
  rcases List.mem_append.1 hf with hf | hf
  · exact hconstructors.fields subject k hk f hf
  · obtain rfl := List.mem_singleton.1 hf
    simp only [Field.reach]
    split
    · simp only [Option.toList, Expr.listReach, Expr.reach]
      omega
    · simp only [Option.toList, Expr.listReach]
      omega

theorem defineOptional_reach {op : Operation} {id : Option MethodId} {collection : String} {observer : ClassId}
    (h : defineOptional op r id collection observer = .ok r') (hn : 11 ≤ n) (hr : r.ReachAtMost n) :
    r'.ReachAtMost n := by
  cases id with
  | none => exact Except.ok.inj h ▸ hr
  | some id =>
    obtain ⟨_, _, -, -, rfl⟩ := defineOperation_eq_ok h
    refine hr.setBody id ?_
    simp only [operationBody, Stmt.listReach, Stmt.reach, Expr.reach_methodCall, Expr.listReach, Expr.reach]
    omega

end Collection

/-- Giving the participants their code lets no code get deeper, beyond the level of the new code. -/
theorem Decoder.transplant_reach {c : Conventions} {aux : String} {q : Participants} {generic : MethodId}
    (h : transplant c r aux q generic = .ok r') (hn : 11 ≤ n) (hr : r.ReachAtMost n) : r'.ReachAtMost n := by
  simp only [transplant_eq, bind_eq_ok] at h
  obtain ⟨⟨r₁, name⟩, h₁, r₂, h₂, r₃, h₃, h₄⟩ := h
  have hr₁ := Collection.install_reach h₁ hn hr
  have hr₂ := Collection.defineOptional_reach h₂ hn hr₁
  have hr₃ := Collection.defineOptional_reach h₃ hn hr₂
  obtain ⟨names, g, body, -, hg, hbody, -, rfl⟩ := HandleBody.transplant_eq_ok h₄
  refine hr₃.setBody q.handle ?_
  have := hr₃.bodies generic g hg
  have := (HandleBody.Names.makesBlock_of_concreteBlock hbody).reach
  omega

end ObserverPattern
