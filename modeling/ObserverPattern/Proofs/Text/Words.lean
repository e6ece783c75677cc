import Mathlib.Data.List.SplitBy
import ObserverPattern.Text.Reference

/-!
# The words of a text

A text is cut into its words, which are the maximal runs of word characters, and the characters between them.
To a name, which is a word itself, this is all there is of a text:

* `hasWord_iff`: a name stands in a text as a whole word if it is one of its pieces;
* `replaceMatches_wordMatcher`: replacing it replaces these pieces;
* `hasWord_renameWord`: if another name takes its place, the words stay apart.
-/

namespace ObserverPattern.Text

/-- A non-empty text of word characters. -/
def IsName (s : List Char) : Prop := s ≠ [] ∧ ∀ c ∈ s, isWord c = true

instance (s : List Char) : Decidable (IsName s) :=
  decidable_of_iff (s ≠ [] ∧ s.all isWord = true) (by simp [IsName])

/-- Whether two neighbours belong to one word. -/
def joined (a b : Char) : Bool := isWord a && isWord b

/-- The words of a text and the other characters, in order. -/
def pieces (s : List Char) : List (List Char) := s.splitBy joined

/-- A text cut into words and other characters, where no two words are neighbours. -/
inductive Cut : List (List Char) → Prop
  | nil : Cut []
  | other {c : Char} {l : List (List Char)} (hc : isWord c = false) (h : Cut l) : Cut ([c] :: l)
  | word {w : List Char} {l : List (List Char)} (hw : IsName w) (hnext : ∀ m ∈ l.head?, ¬IsName m) (h : Cut l) :
      Cut (w :: l)

section Cut

variable {w s : List Char} {l : List (List Char)}

theorem isName_cons {c : Char} : IsName (c :: s) ↔ isWord c = true ∧ ∀ c ∈ s, isWord c = true := by
  simp [IsName]

private theorem isName_of_isChain {a b : Char} (h : (a :: b :: s).IsChain fun x y => joined x y = true) :
    IsName (a :: b :: s) := by
  induction s generalizing a b with
  | nil => simpa [isName_cons, joined] using h
  | cons c s ih =>
    rw [List.isChain_cons_cons] at h
    have hrest := ih h.2
    simp only [joined, Bool.and_eq_true] at h
    exact isName_cons.2 ⟨h.1.1, hrest.2⟩

private theorem isChain_of_isName (h : IsName w) : w.IsChain fun x y => joined x y = true := by
  refine List.Pairwise.isChain (List.pairwise_of_forall_mem_list ?_)
  intro a ha b hb
  rw [joined, h.2 a ha, h.2 b hb]
  rfl

private theorem cut_of_isChain (hne : [] ∉ l) (hl : ∀ m ∈ l, m.IsChain fun x y => joined x y = true)
    (hnext : l.IsChain fun a b => ∃ ha hb, joined (a.getLast ha) (b.head hb) = false) : Cut l := by
  induction l with
  | nil => exact .nil
  | cons w l ih =>
    have hcut := ih (fun hmem => hne (List.mem_cons_of_mem _ hmem)) (fun m hm => hl m (List.mem_cons_of_mem _ hm))
      hnext.tail
    by_cases hw : IsName w
    · refine .word hw ?_ hcut
      intro m hm hname
      obtain ⟨ha, hb, hjoined⟩ := (List.isChain_cons.1 hnext).1 m hm
      rw [joined, hw.2 _ (List.getLast_mem ha), hname.2 _ (List.head_mem hb)] at hjoined
      cases hjoined
    · match w, hw with
      | [], _ => exact absurd List.mem_cons_self hne
      | [c], hw => exact .other (by simpa [isName_cons] using hw) hcut
      | a :: b :: w, hw => exact absurd (isName_of_isChain (hl _ List.mem_cons_self)) hw

theorem cut_pieces (s : List Char) : Cut (pieces s) :=
  cut_of_isChain (List.nil_notMem_splitBy _ _) (fun _ => List.isChain_of_mem_splitBy)
    (List.isChain_getLast_head_splitBy _ _)

theorem flatten_pieces (s : List Char) : (pieces s).flatten = s := List.flatten_splitBy _ _

private theorem Cut.isChain (h : Cut l) :
    [] ∉ l ∧ (∀ m ∈ l, m.IsChain fun x y => joined x y = true) ∧
      l.IsChain fun a b => ∃ ha hb, joined (a.getLast ha) (b.head hb) = false := by
  induction h with
  | nil => simp
  | @other c l hc h ih =>
    obtain ⟨hne, hl, hnext⟩ := ih
    refine ⟨by simpa using hne, by simpa using hl, List.isChain_cons.2 ⟨?_, hnext⟩⟩
    intro m hm
    have hm' : m ≠ [] := fun he => hne (he ▸ List.mem_of_mem_head? hm)
    exact ⟨by simp, hm', by simp [joined, hc]⟩
  | @word w l hw hword h ih =>
    obtain ⟨hne, hl, hnext⟩ := ih
    refine ⟨by simp [hne, Ne.symm hw.1], ?_, List.isChain_cons.2 ⟨?_, hnext⟩⟩
    · simpa using ⟨isChain_of_isName hw, hl⟩
    · intro m hm
      have hm' : m ≠ [] := fun he => hne (he ▸ List.mem_of_mem_head? hm)
      refine ⟨hw.1, hm', ?_⟩
      cases h with
      | nil => cases hm
      | other hc _ =>
        obtain rfl := Option.some.inj hm
        simp [joined, hc]
      | word hname _ _ => exact absurd hname (hword _ rfl)

/-- A text has one cut. -/
theorem Cut.pieces_flatten (h : Cut l) : pieces l.flatten = l :=
  List.splitBy_eq_iff.2 ⟨rfl, h.isChain⟩

/-- What stands behind a word is none. -/
private theorem Cut.head_flatten (h : Cut l) (hword : ∀ m ∈ l.head?, ¬IsName m) :
    l.flatten.head?.any isWord = false := by
  cases h with
  | nil => rfl
  | other hc _ => simpa using hc
  | word hw _ _ => exact absurd hw (hword _ rfl)

end Cut

/-! ## Matches -/

section Matches

variable {name new w s rest : List Char} {before : Option Char} {l : List (List Char)}

private theorem any_getLast? (hw : IsName w) (before : Option Char) : (w.getLast?.or before).any isWord = true := by
  rw [List.getLast?_eq_some_getLast hw.1, Option.some_or, Option.any_some]
  exact hw.2 _ (List.getLast_mem hw.1)

private theorem any_head? (hw : IsName w) (rest : List Char) : (w ++ rest).head?.any isWord = true := by
  obtain ⟨c, w, rfl⟩ := List.exists_cons_of_ne_nil hw.1
  exact hw.2 c List.mem_cons_self

private theorem wordMatcher_self (hname : IsName name) (hbefore : before.any isWord = false)
    (hrest : rest.head?.any isWord = false) : wordMatcher name before (name ++ rest) = some name.length := by
  have hprefix : afterPrefix? name (name ++ rest) = some rest := afterPrefix?_eq_some_iff.2 rfl
  simp only [wordMatcher, hprefix, isBoundary, hbefore, hrest, any_head? hname, any_getLast? hname]
  rfl

/-- There is no boundary inside a word. -/
private theorem wordMatcher_inside {c : Char} (hc : isWord c = true) (hs : s.head?.any isWord = true) :
    wordMatcher name (some c) s = none := by
  unfold wordMatcher
  cases afterPrefix? name s with
  | none => rfl
  | some rest => simp [isBoundary, hc, hs]

private theorem wordMatcher_other (hname : IsName name) (hs : s.head?.any isWord = false) :
    wordMatcher name before s = none := by
  unfold wordMatcher
  cases hprefix : afterPrefix? name s with
  | none => rfl
  | some rest =>
    rw [afterPrefix?_eq_some_iff.1 hprefix, any_head? hname] at hs
    cases hs

/-- A name does not match another word. -/
private theorem wordMatcher_word (hname : IsName name) (hw : IsName w) (hne : w ≠ name)
    (hrest : rest.head?.any isWord = false) : wordMatcher name before (w ++ rest) = none := by
  unfold wordMatcher
  cases hprefix : afterPrefix? name (w ++ rest) with
  | none => rfl
  | some tail =>
    rcases List.append_eq_append_iff.1 (afterPrefix?_eq_some_iff.1 hprefix) with ⟨x, rfl, rfl⟩ | ⟨x, rfl, rfl⟩
    · -- The name would go on behind the word, with a character that is none of a word.
      cases x with
      | nil => simp at hne
      | cons c x => simp [hname.2 c (by simp)] at hrest
    · -- The word goes on behind the name.
      have hx : IsName x := ⟨by rintro rfl; simp at hne, fun c hc => hw.2 c (by simp [hc])⟩
      simp only [isBoundary, any_getLast? hname, List.append_assoc, any_head? hx, bne_self_eq_false,
        Bool.and_false, Bool.false_eq_true, if_false]

/-! ## Replacing a name -/

theorem replaceFrom_skip {find : Matcher} (w s : List Char) (before : Option Char) :
    replaceFrom find new w.length before (w ++ s) = replaceFrom find new 0 (w.getLast?.or before) s := by
  induction w generalizing before with
  | nil => rfl
  | cons c w ih =>
    rw [List.length_cons, List.cons_append, replaceFrom, ih, List.getLast?_cons]
    cases w.getLast? <;> rfl

theorem replaceFrom_inside (hw : ∀ c ∈ w, isWord c = true) {c : Char} (hc : isWord c = true) :
    ∃ c', isWord c' = true ∧ replaceFrom (wordMatcher name) new 0 (some c) (w ++ rest) =
      w ++ replaceFrom (wordMatcher name) new 0 (some c') rest := by
  induction w generalizing c with
  | nil => exact ⟨c, hc, rfl⟩
  | cons c₁ w ih =>
    have hc₁ := hw c₁ List.mem_cons_self
    obtain ⟨c', hc', hrest⟩ := ih (fun c hmem => hw c (List.mem_cons_of_mem _ hmem)) hc₁
    refine ⟨c', hc', ?_⟩
    have hmatch : wordMatcher name (some c) (c₁ :: (w ++ rest)) = none := wordMatcher_inside hc hc₁
    rw [List.cons_append, replaceFrom, hmatch, hrest]
    rfl

/-- Replacing a name replaces the pieces that are this name. -/
private theorem replaceFrom_flatten (hname : IsName name) (hl : Cut l) {before : Option Char}
    (hbefore : before.any isWord = true → ∀ m ∈ l.head?, ¬IsName m) :
    replaceFrom (wordMatcher name) new 0 before l.flatten =
      (l.map fun m => if m = name then new else m).flatten := by
  induction hl generalizing before with
  | nil =>
    have hmatch : wordMatcher name before [] = none := wordMatcher_other hname rfl
    simp [replaceFrom, hmatch]
  | @other c l hc _ ih =>
    have hne : [c] ≠ name := by
      rintro rfl
      simp [isName_cons, hc] at hname
    have hmatch : wordMatcher name before (c :: l.flatten) = none := wordMatcher_other hname (by simpa using hc)
    have hrest := @ih (some c) (by simp [hc])
    simp [replaceFrom, hmatch, hrest, hne]
  | @word w l hw hword hl ih =>
    have hstart : before.any isWord = false := by
      by_contra h
      exact hbefore (by simpa using h) w rfl hw
    have hrest := hl.head_flatten hword
    rw [List.flatten_cons, List.map_cons, List.flatten_cons]
    obtain ⟨a, w, rfl⟩ := List.exists_cons_of_ne_nil hw.1
    obtain ⟨ha, hinner⟩ := isName_cons.1 hw
    by_cases hwname : a :: w = name
    · subst hwname
      have hmatch : wordMatcher (a :: w) before (a :: (w ++ l.flatten)) = some (w.length + 1) :=
        wordMatcher_self hw hstart hrest
      rw [if_pos rfl, List.cons_append, replaceFrom, hmatch]
      simp only
      rw [replaceFrom_skip, ih fun _ => hword]
    · have hmatch : wordMatcher name before (a :: (w ++ l.flatten)) = none := wordMatcher_word hname hw hwname hrest
      obtain ⟨c', -, hinside⟩ : ∃ c', isWord c' = true ∧
          replaceFrom (wordMatcher name) new 0 (some a) (w ++ l.flatten) =
            w ++ replaceFrom (wordMatcher name) new 0 (some c') l.flatten :=
        replaceFrom_inside hinner ha
      rw [if_neg hwname, List.cons_append, replaceFrom, hmatch]
      simp only
      rw [hinside, ih fun _ => hword, List.cons_append]

/-- To replace a name is to replace the pieces of a text that are this name. -/
theorem replaceMatches_wordMatcher (hname : IsName name) (new s : List Char) :
    replaceMatches (wordMatcher name) new s = ((pieces s).map fun m => if m = name then new else m).flatten := by
  have h : replaceFrom (wordMatcher name) new 0 none (pieces s).flatten = _ :=
    replaceFrom_flatten hname (cut_pieces s) (by simp)
  rwa [flatten_pieces] at h

/-! ## Finding a name -/

private theorem hasMatchFrom_inside (hw : ∀ c ∈ w, isWord c = true) {c : Char} (hc : isWord c = true) :
    ∃ c', isWord c' = true ∧ hasMatchFrom (wordMatcher name) (some c) (w ++ rest) =
      hasMatchFrom (wordMatcher name) (some c') rest := by
  induction w generalizing c with
  | nil => exact ⟨c, hc, rfl⟩
  | cons c₁ w ih =>
    have hc₁ := hw c₁ List.mem_cons_self
    obtain ⟨c', hc', hrest⟩ := ih (fun c hmem => hw c (List.mem_cons_of_mem _ hmem)) hc₁
    refine ⟨c', hc', ?_⟩
    have hmatch : wordMatcher name (some c) (c₁ :: (w ++ rest)) = none := wordMatcher_inside hc hc₁
    rw [List.cons_append, hasMatchFrom, hmatch, hrest]
    rfl

private theorem hasMatchFrom_flatten (hname : IsName name) (hl : Cut l) {before : Option Char}
    (hbefore : before.any isWord = true → ∀ m ∈ l.head?, ¬IsName m) :
    hasMatchFrom (wordMatcher name) before l.flatten = true ↔ name ∈ l := by
  induction hl generalizing before with
  | nil =>
    have hmatch : wordMatcher name before [] = none := wordMatcher_other hname rfl
    simp [hasMatchFrom, hmatch]
  | @other c l hc _ ih =>
    have hne : name ≠ [c] := by
      rintro rfl
      simp [isName_cons, hc] at hname
    have hmatch : wordMatcher name before (c :: l.flatten) = none := wordMatcher_other hname (by simpa using hc)
    have hrest := @ih (some c) (by simp [hc])
    simp [hasMatchFrom, hmatch, hrest, hne]
  | @word w l hw hword hl ih =>
    have hstart : before.any isWord = false := by
      by_contra h
      exact hbefore (by simpa using h) w rfl hw
    have hrest := hl.head_flatten hword
    obtain ⟨a, w, rfl⟩ := List.exists_cons_of_ne_nil hw.1
    obtain ⟨ha, hinner⟩ := isName_cons.1 hw
    rw [List.flatten_cons, List.cons_append, hasMatchFrom, Bool.or_eq_true, List.mem_cons]
    by_cases hwname : a :: w = name
    · subst hwname
      have hmatch : wordMatcher (a :: w) before (a :: (w ++ l.flatten)) = some (w.length + 1) :=
        wordMatcher_self hw hstart hrest
      simp [hmatch]
    · have hmatch : wordMatcher name before (a :: (w ++ l.flatten)) = none := wordMatcher_word hname hw hwname hrest
      obtain ⟨c', -, hinside⟩ : ∃ c', isWord c' = true ∧
          hasMatchFrom (wordMatcher name) (some a) (w ++ l.flatten) =
            hasMatchFrom (wordMatcher name) (some c') l.flatten :=
        hasMatchFrom_inside hinner ha
      rw [hmatch, hinside, ih fun _ => hword]
      simp [Ne.symm hwname]

theorem hasMatch_wordMatcher (hname : IsName name) (s : List Char) :
    hasMatch (wordMatcher name) s = true ↔ name ∈ pieces s := by
  have h : hasMatchFrom (wordMatcher name) none (pieces s).flatten = true ↔ name ∈ pieces s :=
    hasMatchFrom_flatten hname (cut_pieces s) (by simp)
  rwa [flatten_pieces] at h

/-- Where names take the place of names, words stay apart. -/
private theorem Cut.map_rename (hl : Cut l) (hnew : IsName new) (hname : IsName name) :
    Cut (l.map fun m => if m = name then new else m) := by
  have hiff : ∀ m : List Char, IsName (if m = name then new else m) ↔ IsName m := by
    intro m
    by_cases hm : m = name
    · subst hm
      simp [hnew, hname]
    · rw [if_neg hm]
  induction hl with
  | nil => exact .nil
  | @other c l hc _ ih =>
    have hne : [c] ≠ name := by
      rintro rfl
      simp [isName_cons, hc] at hname
    rw [List.map_cons, if_neg hne]
    exact .other hc ih
  | @word w l hw hword _ ih =>
    rw [List.map_cons]
    refine .word ((hiff w).2 hw) ?_ ih
    intro m hm
    rw [List.head?_map, Option.mem_def, Option.map_eq_some_iff] at hm
    obtain ⟨m, hm, rfl⟩ := hm
    exact fun h => hword m hm ((hiff m).1 h)

/-- The pieces of a text in which a name has taken the place of another. -/
theorem pieces_replaceMatches (hname : IsName name) (hnew : IsName new) (s : List Char) :
    pieces (replaceMatches (wordMatcher name) new s) = (pieces s).map fun m => if m = name then new else m := by
  rw [replaceMatches_wordMatcher hname]
  exact ((cut_pieces s).map_rename hnew hname).pieces_flatten

end Matches

/-! ## Strings -/

/-- A name stands in a text as a whole word if it is one of its pieces. -/
theorem hasWord_iff {name : String} (hname : IsName name.toList) (s : String) :
    hasWord name s = true ↔ name.toList ∈ pieces s.toList :=
  hasMatch_wordMatcher hname s.toList

theorem occursIn_of_hasWord {name s : String} (hname : IsName name.toList) (h : hasWord name s = true) :
    name.toList <:+: s.toList := by
  rw [← flatten_pieces s.toList]
  exact List.infix_of_mem_flatten ((hasWord_iff hname s).1 h)

theorem pieces_of_isName {name : List Char} (hname : IsName name) : pieces name = [name] := by
  simpa using (Cut.word hname (by simp) .nil).pieces_flatten

/-- A name has itself as its only word. -/
theorem hasWord_of_isName {name other : String} (hname : IsName name.toList) (hother : IsName other.toList) :
    hasWord other name = true ↔ other = name := by
  rw [hasWord_iff hother, pieces_of_isName hname, List.mem_singleton, String.toList_inj]

private theorem expand_of_isName {new : List Char} (hnew : IsName new) (whole : List Char) :
    expand whole new = new := by
  refine expand_eq_self fun hmem => ?_
  have hdollar : isWord '$' = false := by decide +kernel
  rw [hnew.2 _ hmem] at hdollar
  cases hdollar

/-- The words of a text in which a name has taken the place of another. -/
theorem hasWord_renameWord {name new other : String} (hname : IsName name.toList) (hnew : IsName new.toList)
    (hother : IsName other.toList) (s : String) :
    hasWord other (renameWord name new s) = true ↔
      other = new ∧ hasWord name s = true ∨ other ≠ name ∧ hasWord other s = true := by
  rw [hasWord_iff hother, hasWord_iff hother, hasWord_iff hname, renameWord, replaceWord, String.toList_ofList,
    expand_of_isName hnew, pieces_replaceMatches hname hnew, List.mem_map]
  constructor
  · rintro ⟨m, hm, heq⟩
    by_cases hmname : m = name.toList
    · subst hmname
      rw [if_pos rfl, String.toList_inj] at heq
      exact .inl ⟨heq.symm, hm⟩
    · rw [if_neg hmname] at heq
      subst heq
      exact .inr ⟨fun he => hmname (he ▸ rfl), hm⟩
  · rintro (⟨rfl, hm⟩ | ⟨hne, hm⟩)
    · exact ⟨_, hm, if_pos rfl⟩
    · exact ⟨_, hm, if_neg fun he => hne (String.toList_inj.1 he)⟩

end ObserverPattern.Text
