import Mathlib.Algebra.Order.BigOperators.Group.List
import Mathlib.Algebra.Order.Group.Nat
import Mathlib.Data.List.TakeWhile
import ObserverPattern.Proofs.Text.Words

/-!
# Texts reworded

To replace a name in a text is to replace it in each word of the text by itself, and what stands between the
words does not matter.

* `mapWords` replaces the words of a text, and `renameWord_eq_mapWords` says that `renameWord` does no more;
* `mapWords_mapWords`: to reword a text twice is to reword, in what takes the place of each word, the words once more;
* `expand_eq_self_iff`: a replacement text is taken literally if and only if it is plain, which is to say that
  none of its dollar signs starts a reference.
-/

namespace ObserverPattern.Text

section Runs

variable {f g : List Char → List Char} {name new w x y s : List Char} {c : Char}

/-- A text with each of its words replaced. The characters between the words stay. -/
def mapRuns (f : List Char → List Char) (s : List Char) : List Char :=
  (pieces s).flatMap fun m => if IsName m then f m else m

private theorem not_isName_other (hc : isWord c = false) : ¬IsName [c] := by
  simp [isName_cons, hc]

private theorem pieces_append_cons (hc : isWord c = false) (x y : List Char) :
    pieces (x ++ c :: y) = pieces x ++ [c] :: pieces y := by
  have hleft : ∀ a ∈ x.getLast?, joined a c = false := by simp [joined, hc]
  have hright : ∀ b ∈ y.head?, joined c b = false := by simp [joined, hc]
  have hcons : pieces (c :: y) = [c] :: pieces y := by
    have h := List.splitBy_append (l := [c]) (m := y) (by simpa using hright)
    exact h
  rw [← hcons]
  exact List.splitBy_append_cons y hleft

theorem mapRuns_append_cons (hc : isWord c = false) (x y : List Char) :
    mapRuns f (x ++ c :: y) = mapRuns f x ++ c :: mapRuns f y := by
  simp [mapRuns, pieces_append_cons hc, not_isName_other hc]

theorem mapRuns_nil : mapRuns f [] = [] := by
  simp [mapRuns, pieces]

theorem mapRuns_of_isName (hw : IsName w) : mapRuns f w = f w := by
  simp [mapRuns, pieces_of_isName hw, hw]

/-- A text is a run of word characters, or one and a text behind a character that is none. -/
private theorem runs_induction {P : List Char → Prop} (run : ∀ w, (∀ c ∈ w, isWord c = true) → P w)
    (step : ∀ w c s, (∀ c ∈ w, isWord c = true) → isWord c = false → P s → P (w ++ c :: s)) (s : List Char) :
    P s := by
  have hw : ∀ c ∈ s.takeWhile isWord, isWord c = true := fun c hc => List.mem_takeWhile_imp hc
  cases hrest : s.dropWhile isWord with
  | nil =>
    have hs := List.takeWhile_append_dropWhile (p := isWord) (l := s)
    rw [hrest, List.append_nil] at hs
    exact hs ▸ run _ hw
  | cons c rest =>
    have hs := List.takeWhile_append_dropWhile (p := isWord) (l := s)
    rw [hrest] at hs
    have hc : isWord c = false := by
      have hhead := List.head?_dropWhile_not isWord s
      rw [hrest] at hhead
      simpa using hhead
    have hlt : rest.length < s.length := by
      rw [← hs, List.length_append, List.length_cons]
      omega
    exact hs ▸ step _ c rest hw hc (runs_induction run step rest)
termination_by s.length

private theorem isName_or_nil (hw : ∀ c ∈ w, isWord c = true) : w = [] ∨ IsName w := by
  by_cases hnil : w = []
  · exact .inl hnil
  · exact .inr ⟨hnil, hw⟩

/-- To reword a text twice is to reword it once, with what takes the place of each word reworded. -/
theorem mapRuns_mapRuns (f g : List Char → List Char) (s : List Char) :
    mapRuns g (mapRuns f s) = mapRuns (fun w => mapRuns g (f w)) s := by
  have hrun : ∀ w, (∀ c ∈ w, isWord c = true) → mapRuns g (mapRuns f w) = mapRuns (fun w => mapRuns g (f w)) w := by
    intro w hw
    rcases isName_or_nil hw with rfl | hname
    · simp only [mapRuns_nil]
    · rw [mapRuns_of_isName hname, mapRuns_of_isName hname]
  induction s using runs_induction with
  | run w hw => exact hrun w hw
  | step w c s hw hc ih => simp only [mapRuns_append_cons hc, hrun w hw, ih]

theorem mapRuns_congr (h : ∀ w ∈ pieces s, IsName w → f w = g w) : mapRuns f s = mapRuns g s := by
  refine List.flatMap_congr fun m hm => ?_
  split
  · next hname => exact h m hm hname
  · rfl

theorem mapRuns_id (s : List Char) : mapRuns id s = s := by
  simp only [mapRuns, id, ite_self, List.flatMap_id']
  exact flatten_pieces s

private theorem append_word_inj (hx : ∀ a ∈ x, isWord a = true) (hy : ∀ a ∈ y, isWord a = true)
    (hc : isWord c = false) {x' y' : List Char} (h : x ++ c :: x' = y ++ c :: y') : x = y ∧ x' = y' := by
  have hruns : x = y := by
    have htake := congrArg (List.takeWhile isWord) h
    simpa [List.takeWhile_append_of_pos hx, List.takeWhile_append_of_pos hy, hc] using htake
  subst hruns
  exact ⟨rfl, (List.cons.inj (List.append_cancel_left h)).2⟩

private theorem mapRuns_inj (hf : ∀ w ∈ pieces s, IsName w →
      f w = g w ∨ (∀ c ∈ f w, isWord c = true) ∧ ∀ c ∈ g w, isWord c = true)
    (h : mapRuns f s = mapRuns g s) : ∀ w ∈ pieces s, IsName w → f w = g w := by
  induction s using runs_induction with
  | run w hw =>
    intro m hm _
    rcases isName_or_nil hw with rfl | hname
    · cases hm
    · rw [pieces_of_isName hname, List.mem_singleton] at hm
      subst hm
      rwa [mapRuns_of_isName hname, mapRuns_of_isName hname] at h
  | step w c s hw hc ih =>
    rw [pieces_append_cons hc] at hf ⊢
    rw [mapRuns_append_cons hc, mapRuns_append_cons hc] at h
    have hboth : mapRuns f w = mapRuns g w ∧ mapRuns f s = mapRuns g s := by
      rcases isName_or_nil hw with rfl | hname
      · exact ⟨rfl, (List.cons.inj h).2⟩
      · rw [mapRuns_of_isName hname, mapRuns_of_isName hname] at h ⊢
        rcases hf w (by simp [pieces_of_isName hname]) hname with heq | ⟨hfw, hgw⟩
        · rw [heq] at h
          exact ⟨heq, (List.cons.inj (List.append_cancel_left h)).2⟩
        · exact append_word_inj hfw hgw hc h
    intro m hm hmname
    rcases List.mem_append.1 hm with hm | hm
    · rcases isName_or_nil hw with rfl | hname
      · cases hm
      · rw [pieces_of_isName hname, List.mem_singleton] at hm
        subst hm
        rw [← mapRuns_of_isName hmname (f := f), hboth.1, mapRuns_of_isName hmname]
    · rcases List.mem_cons.1 hm with rfl | hm
      · exact absurd hmname (not_isName_other hc)
      · exact ih (fun m hm => hf m (List.mem_append_right _ (List.mem_cons_of_mem _ hm))) hboth.2 m hm hmname

/-! ## Replacing a name -/

theorem replaceMatches_eq_mapRuns (hname : IsName name) (new s : List Char) :
    replaceMatches (wordMatcher name) new s = mapRuns (fun w => if w = name then new else w) s := by
  rw [replaceMatches_wordMatcher hname, mapRuns, List.flatMap]
  congr 1
  refine List.map_congr_left fun m _ => ?_
  by_cases hm : m = name
  · subst hm
    rw [if_pos hname]
  · simp only [if_neg hm, ite_self]

private theorem wordMatcher_nil (before : Option Char) (s : List Char) :
    wordMatcher [] before s = if isBoundary before s.head? then some 0 else none := by
  simp [wordMatcher, afterPrefix?]

/-- The empty name matches before and behind a word. -/
private theorem replaceFrom_nil_run (new : List Char) (hw : ∀ c ∈ w, isWord c = true) {before : Option Char}
    (hbefore : before.any isWord = false) (rest : List Char) :
    ∃ last : Option Char, last.any isWord = !w.isEmpty ∧ replaceFrom (wordMatcher []) new 0 before (w ++ rest) =
      (if w = [] then [] else new ++ w) ++ replaceFrom (wordMatcher []) new 0 last rest := by
  cases w with
  | nil => exact ⟨before, hbefore, rfl⟩
  | cons a w =>
    obtain ⟨ha, hw⟩ := isName_cons.1 ⟨List.cons_ne_nil a w, hw⟩
    obtain ⟨last, hlast, hinside⟩ : ∃ last, isWord last = true ∧
        replaceFrom (wordMatcher []) new 0 (some a) (w ++ rest) =
          w ++ replaceFrom (wordMatcher []) new 0 (some last) rest :=
      replaceFrom_inside hw ha
    have hmatch : wordMatcher [] before (a :: (w ++ rest)) = some 0 := by
      simp [wordMatcher_nil, isBoundary, hbefore, ha]
    refine ⟨some last, by simp [hlast], ?_⟩
    rw [List.cons_append, replaceFrom, hmatch]
    simp [hinside]

/-- To replace the empty name is to put the replacement before and behind each word. -/
theorem replaceMatches_nil (new s : List Char) :
    replaceMatches (wordMatcher []) new s = mapRuns (fun w => new ++ w ++ new) s := by
  suffices h : ∀ before : Option Char, before.any isWord = false →
      replaceFrom (wordMatcher []) new 0 before s = mapRuns (fun w => new ++ w ++ new) s from h none rfl
  have hrun : ∀ w, (∀ c ∈ w, isWord c = true) →
      mapRuns (fun w => new ++ w ++ new) w = if w = [] then [] else new ++ w ++ new := by
    intro w hw
    rcases isName_or_nil hw with rfl | hname
    · rfl
    · rw [mapRuns_of_isName hname, if_neg hname.1]
  induction s using runs_induction with
  | run w hw =>
    intro before hbefore
    obtain ⟨last, hlast, hreplace⟩ := replaceFrom_nil_run new hw hbefore []
    rw [List.append_nil] at hreplace
    rw [hreplace, hrun w hw, replaceFrom, wordMatcher_nil]
    cases w <;> simp_all [isBoundary]
  | step w c s hw hc ih =>
    intro before hbefore
    obtain ⟨last, hlast, hreplace⟩ := replaceFrom_nil_run new hw hbefore (c :: s)
    rw [hreplace, mapRuns_append_cons hc, hrun w hw, replaceFrom, wordMatcher_nil]
    have hrest := ih (some c) (by simpa using hc)
    cases w <;> simp_all [isBoundary]

end Runs

/-! ## Strings -/

/-- A text with each of its words replaced. The characters between the words stay. -/
def mapWords (f : String → String) (s : String) : String :=
  String.ofList (mapRuns (fun w => (f (String.ofList w)).toList) s.toList)

/-- The replacement text for a name, with its references expanded. -/
def expanded (name new : String) : String := String.ofList (expand name.toList new.toList)

/-- What a word becomes where a name is replaced. The empty name stands before and behind every word. -/
def renamed (name new w : String) : String :=
  if name = "" then expanded name new ++ w ++ expanded name new
  else if w = name then expanded name new else w

section Strings

variable {f g : String → String} {name new w s : String}

theorem mapWords_congr (h : ∀ w, IsName w.toList → hasWord w s = true → f w = g w) : mapWords f s = mapWords g s := by
  refine congrArg String.ofList (mapRuns_congr fun w hw hname => ?_)
  rw [← String.toList_ofList (l := w)] at hname hw
  rw [h _ hname ((hasWord_iff hname s).2 hw)]

theorem mapWords_of_isName (hw : IsName w.toList) : mapWords f w = f w := by
  rw [mapWords, mapRuns_of_isName hw, String.ofList_toList, String.ofList_toList]

theorem mapWords_mapWords (f g : String → String) (s : String) :
    mapWords g (mapWords f s) = mapWords (fun w => mapWords g (f w)) s := by
  simp only [mapWords, String.toList_ofList, mapRuns_mapRuns]

theorem mapWords_id (s : String) : mapWords id s = s := by
  rw [mapWords]
  simp only [id, String.toList_ofList]
  exact (congrArg String.ofList (mapRuns_id s.toList)).trans String.ofList_toList

/-- To replace a name in a text is to replace it in each of its words. -/
theorem renameWord_eq_mapWords (hname : ∀ c ∈ name.toList, isWord c = true) (new s : String) :
    renameWord name new s = mapWords (renamed name new) s := by
  by_cases hempty : name = ""
  · subst hempty
    have h := replaceMatches_nil (expand "".toList new.toList) s.toList
    simp only [renameWord, replaceWord, mapWords, renamed, if_true, String.toList_append, String.toList_ofList,
      expanded]
    exact congrArg String.ofList h
  · have hne : name.toList ≠ [] := fun h => hempty (String.toList_inj.1 h)
    have hreplace := replaceMatches_eq_mapRuns ⟨hne, hname⟩ (expand name.toList new.toList) s.toList
    rw [renameWord, replaceWord, hreplace, mapWords]
    refine congrArg String.ofList (mapRuns_congr fun w _ _ => ?_)
    by_cases hw : w = name.toList
    · subst hw
      simp only [renamed, if_neg hempty, if_true, String.ofList_toList, expanded, String.toList_ofList]
    · have hword : String.ofList w ≠ name := fun h => hw (h ▸ String.toList_ofList.symm)
      rw [renamed, if_neg hempty, if_neg hword, if_neg hw, String.toList_ofList]

theorem renameWord_of_isName (hname : IsName name.toList) (hw : IsName w.toList) (new : String) :
    renameWord name new w = if w = name then expanded name new else w := by
  have hne : name ≠ "" := by
    rintro rfl
    exact hname.1 rfl
  rw [renameWord_eq_mapWords hname.2, mapWords_of_isName hw, renamed, if_neg hne]

theorem renameWord_eq_self (h : hasWord name s = false) (new : String) : renameWord name new s = s := by
  rw [renameWord, replaceWord, replaceMatches_eq_self h, String.ofList_toList]

/-- Rewordings that agree on a text agree on its words, if they give word characters only where they differ. -/
theorem mapWords_inj (hf : ∀ w, IsName w.toList → hasWord w s = true →
      f w = g w ∨ (∀ c ∈ (f w).toList, isWord c = true) ∧ ∀ c ∈ (g w).toList, isWord c = true)
    (h : mapWords f s = mapWords g s) (hw : IsName w.toList) (hword : hasWord w s = true) : f w = g w := by
  have hruns := mapRuns_inj (s := s.toList) (f := fun w => (f (String.ofList w)).toList)
    (g := fun w => (g (String.ofList w)).toList) (by
      intro m hm hname
      rw [← String.toList_ofList (l := m)] at hm hname
      exact (hf _ hname ((hasWord_iff hname s).2 hm)).imp_left (congrArg String.toList))
    (String.ofList_injective h) w.toList ((hasWord_iff hw s).1 hword) hw
  rwa [String.ofList_toList, String.toList_inj] at hruns

/-- If one word of a text gets more characters of a kind by another rewording, and none fewer, so does the text. -/
theorem countP_mapWords_lt {p : Char → Bool}
    (hle : ∀ w, IsName w.toList → (f w).toList.countP p ≤ (g w).toList.countP p) (hw : IsName w.toList)
    (hword : hasWord w s = true) (hlt : (f w).toList.countP p < (g w).toList.countP p) :
    (mapWords f s).toList.countP p < (mapWords g s).toList.countP p := by
  have hpiece : w.toList ∈ pieces s.toList := (hasWord_iff hw s).1 hword
  simp only [mapWords, String.toList_ofList, mapRuns, List.countP_flatMap, Function.comp_def]
  refine List.sum_lt_sum _ _ (fun m _ => ?_) ⟨w.toList, hpiece, ?_⟩
  · split
    · next hname => exact hle (String.ofList m) (String.toList_ofList.symm ▸ hname)
    · exact Nat.le_refl _
  · simpa only [if_pos hw, String.ofList_toList] using hlt

end Strings

/-! ## Letters, digits and underscores -/

theorem isAscii_of_isGroupChar {c : Char} (h : isGroupChar c = true) : c.toNat < 128 := by
  have hranges : (decide ('A'.val ≤ c.val ∧ c.val ≤ 'Z'.val) || ('a'.val ≤ c.val && c.val ≤ 'z'.val) ||
      ('0'.val ≤ c.val && c.val ≤ '9'.val)) || c == '_' := h
  simp only [Bool.or_eq_true, Bool.and_eq_true, decide_eq_true_eq, beq_iff_eq] at hranges
  have hval : c.val < 128 := by
    rcases hranges with ((⟨-, h⟩ | ⟨-, h⟩) | ⟨-, h⟩) | rfl
    · exact UInt32.lt_of_le_of_lt h (by decide)
    · exact UInt32.lt_of_le_of_lt h (by decide)
    · exact UInt32.lt_of_le_of_lt h (by decide)
    · decide
  exact hval

theorem isWord_of_isGroupChar {c : Char} (h : isGroupChar c = true) : isWord c = true := by
  have hall : ∀ n < 128, isGroupChar (Char.ofNat n) = true → isWord (Char.ofNat n) = true := by decide +kernel
  have hc := hall c.toNat (isAscii_of_isGroupChar h)
  rw [Char.ofNat_toNat] at hc
  exact hc h

/-- A text of ASCII letters, digits and underscores consists of word characters. -/
theorem isWord_of_all {s : String} (h : s.toList.all isGroupChar = true) : ∀ c ∈ s.toList, isWord c = true :=
  fun c hc => isWord_of_isGroupChar (List.all_eq_true.1 h c hc)

/-! ## Plain replacement texts -/

/-- No dollar sign of a replacement text starts a reference. -/
def isPlain : List Char → Bool
  | [] => true
  | c :: cs => !(c == '$' && (reference? [] cs).isSome) && isPlain cs

section Plain

variable {whole new cs : List Char}

theorem isPlain_of_notMem (h : '$' ∉ new) : isPlain new = true := by
  induction new with
  | nil => rfl
  | cons c cs ih =>
    simp only [List.mem_cons, not_or] at h
    simp [isPlain, Ne.symm h.1, ih h.2]

/-- What is a reference does not depend on the match. -/
private theorem isSome_reference? (whole cs : List Char) :
    (reference? whole cs).isSome = (reference? [] cs).isSome := by
  unfold reference?
  split
  · rfl
  · split <;> rfl
  · simp only
    split <;> rfl

/-- A reference spends its dollar sign, and another one if it stands for one. -/
private theorem count_reference (hwhole : '$' ∉ whole) {text : List Char} {length : Nat}
    (h : reference? whole cs = some (text, length)) :
    text.count '$' + (cs.drop length).count '$' ≤ cs.count '$' := by
  have hgroup : ∀ name, (groupText whole name).count '$' = 0 := by
    intro name
    unfold groupText
    split
    · exact List.count_eq_zero.2 hwhole
    · rfl
  have hdrop : ∀ n, (cs.drop n).count '$' ≤ cs.count '$' := fun n => (List.drop_sublist n cs).count_le '$'
  unfold reference? at h
  split at h
  · obtain ⟨rfl, rfl⟩ := Prod.mk.inj (Option.some.inj h)
    simp [Nat.add_comm]
  · split at h
    · obtain ⟨rfl, rfl⟩ := Prod.mk.inj (Option.some.inj h)
      rw [hgroup, Nat.zero_add]
      exact hdrop _
    · cases h
  · simp only at h
    split at h
    · cases h
    · obtain ⟨rfl, rfl⟩ := Prod.mk.inj (Option.some.inj h)
      rw [hgroup, Nat.zero_add]
      exact hdrop _

private theorem count_expandFrom (hwhole : '$' ∉ whole) (skip : Nat) (s : List Char) :
    (expandFrom whole skip s).count '$' ≤ (s.drop skip).count '$' := by
  induction s generalizing skip with
  | nil => simp [expandFrom]
  | cons c cs ih =>
    cases skip with
    | succ skip => simpa [expandFrom] using ih skip
    | zero =>
      rw [expandFrom, List.drop_zero]
      split
      · next hc =>
        subst hc
        split
        · next text length href =>
          have htext := count_reference hwhole href
          have hrest := ih length
          rw [List.count_append, List.count_cons_self]
          omega
        · simpa using ih 0
      · next hc =>
        rw [List.count_cons_of_ne hc, List.count_cons_of_ne hc]
        exact ih 0

/-- A replacement text that is not plain loses a dollar sign. -/
private theorem count_expandFrom_lt (hwhole : '$' ∉ whole) (h : isPlain new = false) :
    (expandFrom whole 0 new).count '$' < new.count '$' := by
  induction new with
  | nil => cases h
  | cons c cs ih =>
    rw [expandFrom]
    split
    · next hc =>
      subst hc
      split
      · next text length href =>
        have htext := count_reference hwhole href
        have hrest := count_expandFrom hwhole length cs
        rw [List.count_append, List.count_cons_self]
        omega
      · next href =>
        have hplain : isPlain cs = false := by
          have hnone : (reference? [] cs).isSome = false := by rw [← isSome_reference? whole, href]; rfl
          simpa [isPlain, hnone] using h
        rw [List.count_cons_self, List.count_cons_self]
        exact Nat.add_lt_add_right (ih hplain) 1
    · next hc =>
      have hplain : isPlain cs = false := by simpa [isPlain, hc] using h
      rw [List.count_cons_of_ne hc, List.count_cons_of_ne hc]
      exact ih hplain

/-- A replacement text is taken literally if and only if it is plain. -/
theorem expand_eq_self_iff (hwhole : '$' ∉ whole) : expand whole new = new ↔ isPlain new = true := by
  constructor
  · intro h
    by_contra hplain
    have hlt := count_expandFrom_lt hwhole (Bool.eq_false_iff.2 hplain)
    rw [← expand, h] at hlt
    exact Nat.lt_irrefl _ hlt
  · intro h
    unfold expand
    induction new with
    | nil => rfl
    | cons c cs ih =>
      rw [isPlain, Bool.and_eq_true] at h
      rw [expandFrom, ih h.2]
      split
      · next hc =>
        subst hc
        have hnone : reference? whole cs = none := by
          rw [← Option.not_isSome_iff_eq_none, isSome_reference?]
          simpa using h.1
        rw [hnone]
      · rfl

theorem dollar_notMem_of_isWord (h : ∀ c ∈ cs, isWord c = true) : '$' ∉ cs := by
  intro hmem
  have hdollar : isWord '$' = false := by decide +kernel
  rw [h _ hmem] at hdollar
  cases hdollar

theorem count_expanded_le {name : String} (hname : ∀ c ∈ name.toList, isWord c = true) (new : String) :
    (expanded name new).toList.count '$' ≤ new.toList.count '$' := by
  rw [expanded, String.toList_ofList, expand]
  simpa using count_expandFrom (dollar_notMem_of_isWord hname) 0 new.toList

theorem count_expanded_lt {name new : String} (hname : ∀ c ∈ name.toList, isWord c = true)
    (hplain : isPlain new.toList = false) : (expanded name new).toList.count '$' < new.toList.count '$' := by
  rw [expanded, String.toList_ofList, expand]
  exact count_expandFrom_lt (dollar_notMem_of_isWord hname) hplain

theorem expanded_eq_self_iff {name new : String} (hname : ∀ c ∈ name.toList, isWord c = true) :
    expanded name new = new ↔ isPlain new.toList = true := by
  rw [← expand_eq_self_iff (dollar_notMem_of_isWord hname), expanded, ← String.toList_inj, String.toList_ofList]

end Plain

end ObserverPattern.Text
