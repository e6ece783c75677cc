/-!
# Cuts

A text that is cut at a character can have that character in either part. What one cut tells of another:

* `append_cons_inj`: if both cut at the first such character, they are the same;
* `eq_or_exists_of_append_cons`: otherwise the longer left part goes on behind the shorter one;
* `lastCut?` cuts at the last place where something is found (`lastCut?_eq_some`, `exists_lastCut?`);
* `findSome?_eq_some_of_unique`: where at most one way to cut succeeds, the first one that does is found.
-/

namespace ObserverPattern.Text

section Cuts

variable {α : Type} {s t x x' y y' : List α} {c : α}

/-- A character that the start of a text does not have stands behind it. -/
theorem exists_of_append_eq (hc : c ∉ s) (h : s ++ t = x ++ c :: y) : ∃ z, x = s ++ z ∧ t = z ++ c :: y := by
  induction s generalizing x with
  | nil => exact ⟨x, rfl, h⟩
  | cons a s ih =>
    cases x with
    | nil =>
      obtain ⟨rfl, -⟩ := List.cons_eq_cons.1 h
      exact absurd List.mem_cons_self hc
    | cons b x =>
      obtain ⟨rfl, htail⟩ : a = b ∧ s ++ t = x ++ c :: y := by simpa using h
      obtain ⟨z, rfl, rfl⟩ := ih (fun hmem => hc (List.mem_cons_of_mem _ hmem)) htail
      exact ⟨z, rfl, rfl⟩

/-- A text has one cut at its first character of a kind. -/
theorem append_cons_inj (hx : c ∉ x) (hx' : c ∉ x') (h : x ++ c :: y = x' ++ c :: y') : x = x' ∧ y = y' := by
  obtain ⟨z, rfl, hz⟩ := exists_of_append_eq hx h
  cases z with
  | nil => simpa using hz
  | cons a z =>
    obtain ⟨rfl, -⟩ := List.cons_eq_cons.1 hz
    simp at hx'

/-- Of two left parts of a text the longer one is the shorter one or goes on behind it with the character of the
cut. -/
theorem eq_or_exists_of_append_cons (h : x ++ c :: y = x' ++ c :: y') (hle : x.length ≤ x'.length) :
    x' = x ∨ ∃ z, x' = x ++ c :: z := by
  obtain ⟨z, rfl⟩ : x <+: x' := List.prefix_of_prefix_length_le ⟨_, h⟩ ⟨_, rfl⟩ hle
  cases z with
  | nil => exact .inl (List.append_nil x)
  | cons a z =>
    obtain ⟨rfl, -⟩ : c = a ∧ y = z ++ c :: y' := by simpa using h
    exact .inr ⟨z, rfl⟩

end Cuts

/-! ## The last place where something is found -/

section LastCut

variable {α β : Type} {s before rest : List α} {b : β} {here : List α → Option β}

/-- What stands before the last place of a list where something is found, and what is found there. -/
def lastCut? (here : List α → Option β) : List α → Option (List α × β)
  | [] => none
  | a :: rest =>
    match lastCut? here rest with
    | some (before, b) => some (a :: before, b)
    | none => (here (a :: rest)).map ([], ·)

theorem lastCut?_eq_some (h : lastCut? here s = some (before, b)) :
    ∃ rest, s = before ++ rest ∧ here rest = some b := by
  induction s generalizing before with
  | nil => cases h
  | cons a s ih =>
    rw [lastCut?] at h
    split at h
    · next before' b' hs =>
      obtain ⟨rfl, rfl⟩ : a :: before' = before ∧ b' = b := by simpa using h
      obtain ⟨rest, rfl, hrest⟩ := ih hs
      exact ⟨rest, rfl, hrest⟩
    · obtain ⟨b', hb, heq⟩ := Option.map_eq_some_iff.1 h
      obtain ⟨rfl, rfl⟩ := Prod.mk.inj heq
      exact ⟨a :: s, rfl, hb⟩

/-- A place where something is found is the last one or stands before it. -/
theorem exists_lastCut? (hne : rest ≠ []) (h : here rest = some b) (left : List α) :
    ∃ before b', lastCut? here (left ++ rest) = some (before, b') ∧ left.length ≤ before.length := by
  induction left with
  | nil =>
    obtain ⟨a, tail, rfl⟩ := List.exists_cons_of_ne_nil hne
    rw [List.nil_append, lastCut?]
    cases lastCut? here tail with
    | some pair => exact ⟨_, _, rfl, Nat.zero_le _⟩
    | none => exact ⟨[], b, by simp [h], Nat.le_refl _⟩
  | cons a left ih =>
    obtain ⟨before, b', hcut, hle⟩ := ih
    exact ⟨a :: before, b', by rw [List.cons_append, lastCut?, hcut], by simpa using hle⟩

end LastCut

/-- If all that succeed give one answer, this is the first one. -/
theorem findSome?_eq_some_of_unique {α β : Type} {f : α → Option β} {l : List α} {a : α} {b : β} (ha : a ∈ l)
    (hb : f a = some b) (hunique : ∀ a' ∈ l, ∀ b', f a' = some b' → b' = b) : l.findSome? f = some b := by
  cases hfirst : l.findSome? f with
  | none =>
    rw [List.findSome?_eq_none_iff.1 hfirst a ha] at hb
    cases hb
  | some b' =>
    obtain ⟨a', ha', hb'⟩ := List.exists_of_findSome?_eq_some hfirst
    rw [hunique a' ha' b' hb']

end ObserverPattern.Text
