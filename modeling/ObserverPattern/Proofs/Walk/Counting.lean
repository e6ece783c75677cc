import ObserverPattern.Proofs.Walk.Lockstep
import ObserverPattern.Walk.Tally

/-!
# Counting changes nothing

The tally lies in a state on top of the computation of the pass.

* `fst_walkCounted`: forgetting the tally of a counted traversal gives the traversal of the pass itself,
  since a pass that counts is in lockstep with the one that does not (`Lockstep.tallies`);
* `walkCounted_congr`: passes that agree at the places of a registry have one counted traversal of it.
-/

namespace ObserverPattern

namespace Lockstep

/-- A computation with a tally does what another one does without. -/
def tallies : Lockstep (StateT Tally (Except DecodeFault)) (Except DecodeFault) where
  rel P x y := ∀ t, Prod.fst <$> x.run t = y ∧ ∀ a, y = .ok a → P a
  allows _ := True
  pure {_ P a} ha t := ⟨rfl, fun b hb => Except.ok.inj hb ▸ ha⟩
  throw _ _ := ⟨rfl, nofun⟩
  bind {α β P Q x y f g} hx hf t := by
    obtain ⟨hfst, hresult⟩ := hx t
    rw [StateT.run_bind]
    cases hrun : x.run t with
    | error e =>
      rw [hrun] at hfst
      subst hfst
      exact ⟨rfl, nofun⟩
    | ok a =>
      rw [hrun] at hfst
      subst hfst
      exact hf a.1 (hresult a.1 rfl) a.2

/-- A pass that counts does what the pass does. -/
theorem tallies_counted (pass : Pass (Except DecodeFault)) (r : Registry) : tallies.Passes pass.counted pass r := by
  have step : ∀ {α : Type} (x : Except DecodeFault α) (g : α → Tally → Tally),
      tallies.Together (do let a ← (x : StateT Tally (Except DecodeFault) α); modify (g a); return a) x := by
    intro α x g t
    cases x with
    | error e => exact ⟨rfl, nofun⟩
    | ok a => exact ⟨rfl, fun _ _ => trivial⟩
  exact {
    blocks := fun p _ => {
      enter := fun _ _ _ => trivial
      onExpr := fun k e => step _ _
      onStmt := fun k s => step _ _ }
    onClass := fun p c _ => step _ _
    onField := fun p f _ => step _ _
    onMethod := fun p b _ => step _ _ }

/-- Computations with a tally that are the same, from every tally. -/
def equal : Lockstep (StateT Tally (Except DecodeFault)) (StateT Tally (Except DecodeFault)) where
  rel P x y := ∀ t, x.run t = y.run t ∧ ∀ a, y.run t = .ok a → P a.1
  allows _ := True
  pure {_ P a} ha t := ⟨rfl, fun b hb => Except.ok.inj hb ▸ ha⟩
  throw _ _ := ⟨rfl, nofun⟩
  bind {α β P Q x y f g} hx hf t := by
    obtain ⟨hrun, hresult⟩ := hx t
    rw [StateT.run_bind, StateT.run_bind, hrun]
    cases hy : y.run t with
    | error e => exact ⟨rfl, nofun⟩
    | ok a => exact hf a.1 (hresult a hy) a.2

end Lockstep

/-- Two passes do the same at a place. -/
structure Pass.AgreeAt {m : Type → Type} (pass pass' : Pass m) (p : Position) : Prop where
  onClass : ∀ c, pass.onClass p c = pass'.onClass p c
  onField : ∀ f, pass.onField p f = pass'.onField p f
  onMethod : ∀ b, pass.onMethod p b = pass'.onMethod p b
  onStmt : ∀ s, pass.onStmt p s = pass'.onStmt p s
  onExpr : ∀ e, pass.onExpr p e = pass'.onExpr p e

/-- The registry that a counted traversal leaves is the one that the traversal leaves. -/
theorem Walk.fst_walkCounted (pass : Pass (Except DecodeFault)) (maxDepth : Nat) (t : Template) (r : Registry) :
    Prod.fst <$> walkCounted pass maxDepth t r = walk pass maxDepth t r :=
  (walk_lockstep (Lockstep.tallies_counted pass r) ⟨fun _ _ _ => trivial, fun _ _ _ _ _ => trivial⟩ .zero).1

/-- Passes that agree wherever a traversal of a registry can stand do the same to it, and count the same. -/
theorem Walk.walkCounted_congr {pass pass' : Pass (Except DecodeFault)} {r : Registry}
    (h : ∀ p : Position, p.Within r → pass.AgreeAt pass' p) (maxDepth : Nat) (t : Template) :
    walkCounted pass maxDepth t r = walkCounted pass' maxDepth t r := by
  have same : ∀ {α : Type} {x y : StateT Tally (Except DecodeFault) α}, x = y → Lockstep.equal.Together x y := by
    rintro α x _ rfl t
    exact ⟨rfl, fun _ _ => trivial⟩
  have passes : Lockstep.equal.Passes pass.counted pass'.counted r := {
    blocks := fun p hp => {
      enter := fun _ _ _ => trivial
      onExpr := fun k e => same (by simp only [Pass.counted, (h _ (hp.atDepth k)).onExpr])
      onStmt := fun k s => same (by simp only [Pass.counted, (h _ (hp.atDepth k)).onStmt]) }
    onClass := fun p c hp => same (by simp only [Pass.counted, (h p hp).onClass])
    onField := fun p f hp => same (by simp only [Pass.counted, (h p hp).onField])
    onMethod := fun p b hp => same (by simp only [Pass.counted, (h p hp).onMethod]) }
  exact (walk_lockstep passes ⟨fun _ _ _ => trivial, fun _ _ _ _ _ => trivial⟩ .zero).1

end ObserverPattern
