import ObserverPattern.Proofs.Program.Encoding
import ObserverPattern.Proofs.Program.Skeleton
import ObserverPattern.Proofs.Syntax.Reach

/-!
# How deep a program can get

In the encoding of a program what a field is initialised with stands at level six and a body at level five.

* `Registry.ReachAtMost`: how deep the code of a registry can get there, and what may be changed without more;
* `Program.nesting_le_of_reachAtMost`, `Program.reachAtMost_of_nesting_le`: what this says of the encoding, and what
  the encoding says of it.
-/

namespace ObserverPattern

open Json

/-- How deep the encoding of what a field is initialised with can get. -/
def Field.reach (f : Field) : Nat := Expr.listReach f.init.toList

/-- No code in a registry gets deeper than a number of levels in the encoding of a program. -/
structure Registry.ReachAtMost (r : Registry) (n : Nat) : Prop where
  fields : ∀ id c, r.class? id = some c → ∀ f ∈ c.fields, f.reach + 6 ≤ n
  bodies : ∀ id m, r.method? id = some m → Stmt.listReach m.body + 5 ≤ n

namespace Registry.ReachAtMost

variable {r : Registry} {n : Nat}

theorem modifyClass (h : r.ReachAtMost n) (id : ClassId) {f : ClassDecl → ClassDecl}
    (hf : ∀ c, r.class? id = some c → ∀ g ∈ (f c).fields, g.reach + 6 ≤ n) : (r.modifyClass id f).ReachAtMost n where
  fields k c hc := by
    rw [class?_modifyClass] at hc
    split at hc
    · next hk =>
      obtain ⟨c₀, hc₀, rfl⟩ := Option.map_eq_some_iff.1 hc
      exact hf c₀ (hk ▸ hc₀)
    · exact h.fields k c hc
  bodies := h.bodies

theorem modifyMethod (h : r.ReachAtMost n) (id : MethodId) {f : MethodDecl → MethodDecl}
    (hf : ∀ m, r.method? id = some m → Stmt.listReach (f m).body + 5 ≤ n) : (r.modifyMethod id f).ReachAtMost n where
  fields := h.fields
  bodies k m hm := by
    rw [method?_modifyMethod] at hm
    split at hm
    · next hk =>
      obtain ⟨m₀, hm₀, rfl⟩ := Option.map_eq_some_iff.1 hm
      exact hf m₀ (hk ▸ hm₀)
    · exact h.bodies k m hm

theorem setBody (h : r.ReachAtMost n) (id : MethodId) {b : Block} (hb : Stmt.listReach b + 5 ≤ n) :
    (r.setBody id b).ReachAtMost n :=
  h.modifyMethod id fun _ _ => hb

end Registry.ReachAtMost

namespace Program

variable {p : Program} {n : Nat}

theorem nesting_le_of_reachAtMost (h : p.registry.ReachAtMost (n + 6)) : p.toJson.nesting ≤ n + 6 := by
  rw [nesting_toJson_le]
  constructor
  · intro c hc f hf e he
    obtain ⟨i, hi⟩ := List.mem_iff_getElem?.1 hc
    have hfield := h.fields ⟨i⟩ c hi f hf
    have hreach : e.reach ≤ f.reach := Expr.listReach_le.1 (Nat.le_refl _) e (Option.mem_toList.2 he)
    have := e.nesting_le_reach
    omega
  · intro m hm
    obtain ⟨i, hi⟩ := List.mem_iff_getElem?.1 hm
    have hbody := h.bodies ⟨i⟩ m hi
    have := Stmt.nestingItems_le_listReach m.body
    omega

theorem reachAtMost_of_nesting_le (h : p.toJson.nesting ≤ n + 6) : p.registry.ReachAtMost ((4 * n + 43) / 3) := by
  obtain ⟨hclasses, hmethods⟩ := nesting_toJson_le.1 h
  constructor
  · intro id c hc f hf
    have hinit : ∀ e ∈ f.init.toList, e.reach ≤ 4 * n / 3 := by
      intro e he
      have hnesting := hclasses c (List.mem_of_getElem? hc) f hf e (Option.mem_toList.1 he)
      have := e.reach_le
      omega
    have hreach : f.reach ≤ 4 * n / 3 := Expr.listReach_le.2 hinit
    omega
  · intro id m hm
    have hnesting := hmethods m (List.mem_of_getElem? hm)
    have := Stmt.listReach_le_nesting m.body
    omega

end Program

end ObserverPattern
