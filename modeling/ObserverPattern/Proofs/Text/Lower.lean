import ObserverPattern.Conventions
import ObserverPattern.Text.Substring

/-!
# What lower case keeps

Lower-casing works character by character. A code point without a lower-case counterpart stays, and no
counterpart lies below `a` (`lowerCode_eq_or_ge`), so the signs below it stay what they are and no others
come in.

* `lower_eq_of_occursIn_ascii`: among ASCII texts only a longer one contains another one in lower case;
* `closing_lower`: a text and its lower case end with the same number of closing brackets;
* `collectionFor_ne_lower`: so the name of a collection is never its type in lower case.
-/

namespace ObserverPattern

namespace Text

/-! ## Code points -/

private theorem lowerIn_eq_or_ge (n : Nat) (runs : List (Nat × Nat × Nat × Nat)) :
    lowerIn n runs = n ∨ ∃ run ∈ runs, run.2.2.2 ≤ lowerIn n runs := by
  induction runs with
  | nil => exact .inl rfl
  | cons run runs ih =>
    obtain ⟨first, last, step, image⟩ := run
    rw [lowerIn]
    split
    · split
      · exact .inr ⟨_, List.mem_cons_self, Nat.le_add_right _ _⟩
      · exact .inl rfl
    · refine ih.imp_right ?_
      rintro ⟨run, hrun, hle⟩
      exact ⟨run, List.mem_cons_of_mem _ hrun, hle⟩

/-- A code point stays, or becomes one of those from `a` on. -/
theorem lowerCode_eq_or_ge (n : Nat) : lowerCode n = n ∨ 'a'.toNat ≤ lowerCode n := by
  have himages : ∀ run ∈ lowerRuns, 'a'.toNat ≤ run.2.2.2 := by decide +kernel
  refine (lowerIn_eq_or_ge n lowerRuns).imp_right ?_
  rintro ⟨run, hrun, hle⟩
  exact Nat.le_trans (himages run hrun) hle

/-! ## ASCII -/

/-- A text of ASCII characters. -/
def IsAscii (cs : List Char) : Prop := ∀ c ∈ cs, c.toNat < 128

instance (cs : List Char) : Decidable (IsAscii cs) :=
  decidable_of_iff (cs.all (·.toNat < 128) = true) (by simp [IsAscii])

/-- The lower case of an ASCII character. -/
def lowerAscii (c : Char) : Char := Char.ofNat (lowerCode c.toNat)

/-- An ASCII text is lower-cased character by character, whatever stands before or behind. -/
theorem lowerAfter_ascii {cs : List Char} (h : IsAscii cs) (before : List Char) :
    lowerAfter before cs = cs.map lowerAscii := by
  induction cs generalizing before with
  | nil => rfl
  | cons c cs ih =>
    have hc : c.toNat < 128 := h c List.mem_cons_self
    have hsigma : c ≠ 'Σ' := by
      rintro rfl
      exact absurd hc (by decide)
    have hdotted : c ≠ '\u0130' := by
      rintro rfl
      exact absurd hc (by decide)
    rw [lowerAfter, if_neg hsigma, lowerChar, if_neg hdotted, ih fun x hx => h x (List.mem_cons_of_mem c hx)]
    rfl

theorem toList_lower_ascii {s : String} (h : IsAscii s.toList) : (lower s).toList = s.toList.map lowerAscii := by
  rw [lower, String.toList_ofList, lowerAfter_ascii h]

/-- An ASCII text has as many bytes as characters. -/
theorem utf8ByteSize_ascii {s : String} (h : IsAscii s.toList) : s.utf8ByteSize = s.toList.length := by
  have hofList : ∀ cs, IsAscii cs → (String.ofList cs).utf8ByteSize = cs.length := by
    intro cs hcs
    induction cs with
    | nil => rfl
    | cons c cs ih =>
      have hc : c.utf8Size = 1 := Char.utf8Size_eq_one_iff.2 (Nat.le_of_lt_succ (hcs c List.mem_cons_self))
      have hsplit : String.ofList (c :: cs) = String.singleton c ++ String.ofList cs := by
        rw [← String.toList_inj]
        simp
      rw [hsplit, String.utf8ByteSize_append, String.utf8ByteSize_singleton, hc,
        ih fun x hx => hcs x (List.mem_cons_of_mem c hx), List.length_cons, Nat.add_comm]
  rw [← hofList s.toList h, String.ofList_toList]

/-- What stands somewhere in an ASCII text stands there in lower case too. -/
theorem occursIn_lower_ascii {t s : String} (hs : IsAscii s.toList) (h : occursIn t s = true) :
    occursIn (lower t) (lower s) = true := by
  have hoccurs : t.toList <:+: s.toList := occurs_iff.1 h
  have ht : IsAscii t.toList := fun c hc => hs c (hoccurs.subset hc)
  rw [occursIn, occurs_iff, toList_lower_ascii ht, toList_lower_ascii hs]
  exact hoccurs.map lowerAscii

/-- Of ASCII texts only one that is as long can stand in another one in lower case. -/
theorem lower_eq_of_occursIn_ascii {t s : String} (ht : IsAscii t.toList) (hs : IsAscii s.toList)
    (h : occursIn (lower t) (lower s) = true) (hsize : s.utf8ByteSize ≤ t.utf8ByteSize) : lower t = lower s := by
  have hoccurs := occurs_iff.1 h
  rw [utf8ByteSize_ascii ht, utf8ByteSize_ascii hs] at hsize
  refine String.toList_inj.1 (hoccurs.eq_of_length (Nat.le_antisymm hoccurs.length_le ?_))
  rw [toList_lower_ascii ht, toList_lower_ascii hs, List.length_map, List.length_map]
  exact hsize

/-! ## Closing brackets -/

/-- How many closing brackets a text ends with, if it stands behind a number of them. -/
def closing (n : Nat) (cs : List Char) : Nat := cs.foldl (fun n c => if c = '>' then n + 1 else 0) n

theorem closing_append (n : Nat) (xs ys : List Char) : closing n (xs ++ ys) = closing (closing n xs) ys := by
  rw [closing, List.foldl_append]
  rfl

theorem closing_cons_of_ne {c : Char} (hc : c ≠ '>') (n : Nat) (cs : List Char) :
    closing n (c :: cs) = closing 0 cs := by
  rw [closing, List.foldl_cons, if_neg hc]
  rfl

private theorem lowerChar_bracket : lowerChar '>' = ['>'] := by decide +kernel

private theorem eq_of_ofNat_eq_bracket {n : Nat} (h : Char.ofNat n = '>') : n = '>'.toNat := by
  by_cases valid : n.isValidChar
  · rw [Char.ofNat, dif_pos valid] at h
    exact congrArg Char.toNat h
  · rw [Char.ofNat, dif_neg valid] at h
    exact absurd h (by decide)

private theorem closing_lowerChar (n : Nat) (c : Char) : closing n (lowerChar c) = closing n [c] := by
  by_cases hc : c = '>'
  · rw [hc, lowerChar_bracket]
  · rw [closing_cons_of_ne hc]
    unfold lowerChar
    split
    · rfl
    · -- The image of another character is that character or lies from `a` on.
      refine closing_cons_of_ne ?_ n []
      intro himage
      rcases lowerCode_eq_or_ge c.toNat with hsame | hge
      · rw [hsame, Char.ofNat_toNat] at himage
        exact hc himage
      · rw [eq_of_ofNat_eq_bracket himage] at hge
        exact absurd hge (by decide)

private theorem closing_lowerAfter (before cs : List Char) (n : Nat) :
    closing n (lowerAfter before cs) = closing n cs := by
  induction cs generalizing before n with
  | nil => rfl
  | cons c cs ih =>
    rw [lowerAfter, closing_append, ih]
    show _ = closing (closing n [c]) cs
    congr 1
    by_cases hsigma : c = 'Σ'
    · subst hsigma
      rw [if_pos rfl]
      split <;> rfl
    · rw [if_neg hsigma, closing_lowerChar]

/-- A text and its lower case end with the same number of closing brackets. -/
theorem closing_lower (n : Nat) (s : String) : closing n (lower s).toList = closing n s.toList := by
  rw [lower, String.toList_ofList, closing_lowerAfter]

end Text

/-- A collection is not called after its type: the type closes a bracket more. -/
theorem Conventions.collectionFor_ne_lower (c : Conventions) (observer : String) :
    c.collectionFor observer ≠ Text.lower (c.collectionTypeFor observer) := by
  intro h
  have hclosing := congrArg (fun s => Text.closing 0 s.toList) h
  have hname : Text.closing 0 (c.collectionFor observer).toList = Text.closing 0 observer.toList := by
    rw [collectionFor, String.toList_append, String.toList_append, List.append_assoc, Text.closing_append]
    exact Text.closing_cons_of_ne (by decide) _ _
  have htype : Text.closing 0 (c.collectionTypeFor observer).toList = Text.closing 0 observer.toList + 1 := by
    rw [collectionTypeFor, String.toList_append, String.toList_append, String.toList_append, List.append_assoc,
      List.append_assoc, Text.closing_append]
    refine (Text.closing_cons_of_ne (by decide) _ _).trans ?_
    exact Text.closing_append 0 observer.toList [_]
  simp only [Text.closing_lower, hname, htype] at hclosing
  omega

end ObserverPattern
