/-!
# Computations that succeed

What a chain of steps that may fail has done once it succeeds. The key facts: both halves of a bind
succeeded (`bind_eq_ok`), and a fold keeps what each of its steps keeps (`foldlM_preserves`). Whether
a computation succeeds with a given property can be computed (`okAnd_eq_true`). A computation follows
another one if it succeeds whenever the other does, with a related value (`Follows`).
-/

namespace ObserverPattern

variable {ε α β : Type}

theorem ok_bind {a : α} {f : α → Except ε β} : Except.ok a >>= f = f a := rfl

theorem map_bind (x : Except ε α) (f : α → Except ε β) {γ : Type} (g : β → γ) :
    (x >>= f).map g = x >>= fun a => (f a).map g := by
  cases x <;> rfl

theorem bind_eq_ok {x : Except ε α} {f : α → Except ε β} {b : β} :
    x >>= f = .ok b ↔ ∃ a, x = .ok a ∧ f a = .ok b := by
  cases x with
  | error e => simp [bind, Except.bind]
  | ok a => simp [bind, Except.bind]

theorem pure_eq_ok {a b : α} : (pure a : Except ε α) = .ok b ↔ a = b := by
  simp [pure, Except.pure]

theorem throw_ne_ok {e : ε} {a : α} : (throw e : Except ε α) ≠ .ok a := by
  intro h
  cases h

instance decidableEqExcept [DecidableEq ε] [DecidableEq α] : DecidableEq (Except ε α)
  | .ok a, .ok b => decidable_of_iff (a = b) (by simp)
  | .error e, .error f => decidable_of_iff (e = f) (by simp)
  | .ok _, .error _ => .isFalse nofun
  | .error _, .ok _ => .isFalse nofun

/-- Whether a computation succeeds with a value of a given kind. -/
def okAnd (x : Except ε α) (p : α → Bool) : Bool :=
  match x with
  | .ok a => p a
  | .error _ => false

theorem okAnd_eq_true {x : Except ε α} {p : α → Bool} : okAnd x p = true ↔ ∃ a, x = .ok a ∧ p a = true := by
  cases x <;> simp [okAnd]

/-- What each step of a successful fold keeps, the fold keeps. -/
theorem foldlM_preserves {f : β → α → Except ε β} {P : β → Prop} {xs : List α} {s s' : β}
    (h : xs.foldlM f s = .ok s') (hs : P s) (hstep : ∀ x ∈ xs, ∀ s s', f s x = .ok s' → P s → P s') : P s' := by
  induction xs generalizing s with
  | nil =>
    rw [List.foldlM_nil, pure_eq_ok] at h
    exact h ▸ hs
  | cons x xs ih =>
    rw [List.foldlM_cons, bind_eq_ok] at h
    obtain ⟨s₁, h₁, h⟩ := h
    exact ih h (hstep x (by simp) s s₁ h₁ hs) fun y hy => hstep y (by simp [hy])

/-- A successful fold over two lists is one over the first and then one over the second. -/
theorem foldlM_append_eq_ok {f : β → α → Except ε β} {xs ys : List α} {s s' : β} :
    (xs ++ ys).foldlM f s = .ok s' ↔ ∃ t, xs.foldlM f s = .ok t ∧ ys.foldlM f t = .ok s' := by
  rw [List.foldlM_append, bind_eq_ok]

/-- If the first computation succeeds, so does the second, with a related value. -/
def Follows {α β : Type} (R : α → β → Prop) (x : Except ε α) (y : Except ε β) : Prop :=
  ∀ a, x = .ok a → ∃ b, y = .ok b ∧ R a b

namespace Follows

variable {γ δ : Type} {R : α → β → Prop} {S : γ → δ → Prop}

theorem of_eq {x y : Except ε α} (h : y = x) : Follows Eq x y := fun a ha => ⟨a, h.trans ha, rfl⟩

theorem pure {a : α} {b : β} (h : R a b) : Follows (ε := ε) R (.ok a) (.ok b) :=
  fun _ ha => ⟨b, rfl, Except.ok.inj ha ▸ h⟩

theorem bind {x : Except ε α} {y : Except ε β} {f : α → Except ε γ} {g : β → Except ε δ} (h : Follows R x y)
    (hfg : ∀ a b, R a b → Follows S (f a) (g b)) : Follows S (x >>= f) (y >>= g) := by
  intro c hc
  obtain ⟨a, ha, hc⟩ := bind_eq_ok.1 hc
  obtain ⟨b, rfl, hab⟩ := h a ha
  exact hfg a b hab c hc

theorem foldlM {xs : List γ} {f : α → γ → Except ε α} {g : β → γ → Except ε β}
    (hstep : ∀ x a b, R a b → Follows R (f a x) (g b x)) {a : α} {b : β} (h : R a b) :
    Follows R (xs.foldlM f a) (xs.foldlM g b) := by
  induction xs generalizing a b with
  | nil => exact Follows.pure h
  | cons x xs ih =>
    simp only [List.foldlM_cons]
    exact (hstep x a b h).bind fun _ _ hab => ih hab

end Follows

end ObserverPattern
