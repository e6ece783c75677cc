import ObserverPattern.Conventions
import ObserverPattern.Proofs.Success
import ObserverPattern.Proofs.Trace.Receivers

/-!
# Comparisons

A payload may have several operators between blanks and several dots, so there may be several ways to read it as a
comparison of two paths.

* `IsComparison` is one way to read it, and `comparison?_eq_some` tells which one is taken: the one with the longest
  left side;
* `fact?_commutes`: it does not matter whether the receivers are replaced in the payload or in the two sides;
* `fact?_text`: the text of a fact tells this fact.
-/

namespace ObserverPattern.Payload

open Text (isWord)

/-- Two sides with an operator and blanks between them. -/
def between (left : List Char) (op : Operator) (right : List Char) : List Char :=
  left ++ ' ' :: (op.symbol.toList ++ ' ' :: right)

/-- A way to read a text as a comparison of two paths. -/
structure IsComparison (s left : List Char) (op : Operator) (right : List Char) : Prop where
  text : s = between left op right
  relation : op ∈ relations
  left_path : isPath left = true
  right_path : isPath right = true

section Reading

variable {s left left' right right' before after : List Char} {op op' : Operator}

/-- A path has a dot with something on either side, and no line feed. -/
theorem isPath_iff : isPath s = true ↔ (∃ a b, s = a ++ '.' :: b ∧ a ≠ [] ∧ b ≠ []) ∧ '\n' ∉ s := by
  have hdot : '.' ∈ s.tail.dropLast ↔ ∃ a b, s = a ++ '.' :: b ∧ a ≠ [] ∧ b ≠ [] := by
    constructor
    · intro h
      obtain ⟨a, b, hab⟩ := List.append_of_mem h
      cases s with
      | nil => cases h
      | cons c s =>
        have hne : s ≠ [] := by
          rintro rfl
          cases h
        refine ⟨c :: a, b ++ [s.getLast hne], ?_, by simp, by simp⟩
        have hsplit : a ++ '.' :: b ++ [s.getLast hne] = s := by
          rw [← hab]
          exact List.dropLast_append_getLast hne
        exact (congrArg (List.cons c) hsplit.symm).trans (by simp)
    · rintro ⟨a, b, rfl, ha, hb⟩
      obtain ⟨c, a, rfl⟩ := List.exists_cons_of_ne_nil ha
      rw [List.cons_append, List.tail_cons, List.dropLast_append_of_ne_nil (by simp),
        List.dropLast_cons_of_ne_nil hb]
      simp
  simp [isPath, hdot]

private theorem blank_notMem_symbol (op : Operator) : ' ' ∉ op.symbol.toList := by
  cases op <;> decide

private theorem feed_notMem_symbol (op : Operator) : '\n' ∉ op.symbol.toList := by
  cases op <;> decide

private theorem symbol_append_inj (h : op.symbol.toList ++ ' ' :: right = op'.symbol.toList ++ ' ' :: right') :
    op = op' ∧ right = right' := by
  obtain ⟨hsymbol, hright⟩ := Text.append_cons_inj (blank_notMem_symbol op) (blank_notMem_symbol op') h
  refine ⟨Option.some.inj ?_, hright⟩
  rw [← Operator.ofSymbol?_symbol op, ← Operator.ofSymbol?_symbol op', String.toList_inj.1 hsymbol]

theorem between_inj (hlength : left.length = left'.length) (h : between left op right = between left' op' right') :
    left = left' ∧ op = op' ∧ right = right' := by
  obtain ⟨hleft, hrest⟩ := List.append_inj h hlength
  exact ⟨hleft, symbol_append_inj (List.tail_eq_of_cons_eq hrest)⟩

/-! ## The last dot and the last operator -/

private theorem afterSymbol?_eq_some {pair : Operator × List Char} :
    ((Text.afterPrefix? (op.symbol.toList ++ [' ']) s).map (op, ·)) = some pair ↔
      pair.1 = op ∧ s = op.symbol.toList ++ ' ' :: pair.2 := by
  rw [Option.map_eq_some_iff]
  constructor
  · rintro ⟨rest, hrest, rfl⟩
    exact ⟨rfl, by simpa using Text.afterPrefix?_eq_some_iff.1 hrest⟩
  · rintro ⟨rfl, rfl⟩
    exact ⟨pair.2, Text.afterPrefix?_eq_some_iff.2 (by simp), rfl⟩

theorem relation?_eq_some :
    relation? s = some (op, right) ↔ s = ' ' :: (op.symbol.toList ++ ' ' :: right) ∧ op ∈ relations := by
  constructor
  · intro h
    unfold relation? at h
    split at h
    · obtain ⟨op', hmem, hop⟩ := List.exists_of_findSome?_eq_some h
      obtain ⟨rfl, rfl⟩ := afterSymbol?_eq_some.1 hop
      exact ⟨rfl, hmem⟩
    · cases h
  · rintro ⟨rfl, hmem⟩
    refine Text.findSome?_eq_some_of_unique hmem (afterSymbol?_eq_some.2 ⟨rfl, rfl⟩) fun op' _ pair hpair => ?_
    obtain ⟨rfl, heq⟩ := afterSymbol?_eq_some.1 hpair
    obtain ⟨rfl, rfl⟩ := symbol_append_inj heq
    rfl

private def dotAt? : List Char → Option (List Char)
  | [] => none
  | c :: rest => if c = '.' ∧ rest ≠ [] then some rest else none

private def relationAt? (s : List Char) : Option (Operator × List Char) := (relation? s).filter (·.2 ≠ [])

private theorem dotAt?_eq_some : dotAt? s = some after ↔ s = '.' :: after ∧ after ≠ [] := by
  cases s with
  | nil => simp [dotAt?]
  | cons c s =>
    simp only [dotAt?, Option.ite_none_right_eq_some, Option.some.injEq, List.cons.injEq]
    constructor
    · rintro ⟨⟨rfl, hne⟩, rfl⟩
      exact ⟨⟨rfl, rfl⟩, hne⟩
    · rintro ⟨⟨rfl, rfl⟩, hne⟩
      exact ⟨⟨rfl, hne⟩, rfl⟩

private theorem relationAt?_eq_some : relationAt? s = some (op, right) ↔
    s = ' ' :: (op.symbol.toList ++ ' ' :: right) ∧ op ∈ relations ∧ right ≠ [] := by
  simp [relationAt?, Option.filter_eq_some_iff, relation?_eq_some, and_assoc]

/-- The search for the last dot is one for the last place where there is one. -/
private theorem splitLastDot?_eq (s : List Char) : splitLastDot? s = Text.lastCut? dotAt? s := by
  induction s with
  | nil => rfl
  | cons c s ih =>
    rw [splitLastDot?, Text.lastCut?, ih, dotAt?]
    cases Text.lastCut? dotAt? s with
    | some pair => rfl
    | none => split <;> simp_all

/-- So is the search for the last operator. -/
private theorem splitRelation?_eq (s : List Char) : splitRelation? s = Text.lastCut? relationAt? s := by
  induction s with
  | nil => rfl
  | cons c s ih =>
    rw [splitRelation?, Text.lastCut?, ih, relationAt?]
    cases Text.lastCut? relationAt? s with
    | some pair => rfl
    | none =>
      cases relation? (c :: s) with
      | none => rfl
      | some pair => by_cases hright : pair.2 = [] <;> simp [hright, Option.filter]

private theorem splitLastDot?_eq_some (h : splitLastDot? s = some (before, after)) :
    s = before ++ '.' :: after ∧ after ≠ [] := by
  rw [splitLastDot?_eq] at h
  obtain ⟨rest, rfl, hdot⟩ := Text.lastCut?_eq_some h
  obtain ⟨rfl, hne⟩ := dotAt?_eq_some.1 hdot
  exact ⟨rfl, hne⟩

/-- A dot that is not at the end is the last one or stands before it. -/
private theorem exists_splitLastDot? (hright : right ≠ []) (left : List Char) :
    ∃ before after, splitLastDot? (left ++ '.' :: right) = some (before, after) ∧ left.length ≤ before.length := by
  rw [splitLastDot?_eq]
  exact Text.exists_lastCut? (List.cons_ne_nil _ _) (dotAt?_eq_some.2 ⟨rfl, hright⟩) left

private theorem splitRelation?_eq_some (h : splitRelation? s = some (left, op, right)) :
    s = between left op right ∧ op ∈ relations ∧ right ≠ [] := by
  rw [splitRelation?_eq] at h
  obtain ⟨rest, rfl, hrelation⟩ := Text.lastCut?_eq_some h
  obtain ⟨rfl, hrest⟩ := relationAt?_eq_some.1 hrelation
  exact ⟨rfl, hrest⟩

/-- An operator that is not at the end is the last one or stands before it. -/
private theorem exists_splitRelation? (hop : op ∈ relations) (hright : right ≠ []) (left : List Char) :
    ∃ left' op' right', splitRelation? (between left op right) = some (left', op', right') ∧
      left.length ≤ left'.length := by
  rw [splitRelation?_eq]
  obtain ⟨left', pair, hcut⟩ :=
    Text.exists_lastCut? (List.cons_ne_nil _ _) (relationAt?_eq_some.2 ⟨rfl, hop, hright⟩) left
  exact ⟨left', pair.1, pair.2, hcut⟩

/-! ## The comparison that is read -/

private theorem comparison?_eq_some_iff : comparison? s = some (left, op, right) ↔
    ∃ before after start, splitLastDot? s = some (before, after) ∧ splitRelation? before = some (left, op, start) ∧
      right = start ++ '.' :: after ∧ isPath left = true ∧ isPath right = true := by
  simp only [comparison?, Option.bind_eq_bind, Option.bind_eq_some_iff, Prod.exists]
  constructor
  · rintro ⟨before, after, hdot, left', op', start, hrelation, h⟩
    split at h
    · next hpaths =>
      obtain ⟨rfl, rfl, rfl⟩ : left' = left ∧ op' = op ∧ start ++ '.' :: after = right := by simpa using h
      rw [Bool.and_eq_true] at hpaths
      exact ⟨before, after, start, hdot, hrelation, rfl, hpaths⟩
    · cases h
  · rintro ⟨before, after, start, hdot, hrelation, rfl, hleft, hright⟩
    exact ⟨before, after, hdot, left, op, start, hrelation, by simp [hleft, hright]⟩

private theorem isComparison_of_comparison? (h : comparison? s = some (left, op, right)) :
    IsComparison s left op right := by
  obtain ⟨before, after, start, hdot, hrelation, rfl, hleft, hright⟩ := comparison?_eq_some_iff.1 h
  obtain ⟨rfl, -⟩ := splitLastDot?_eq_some hdot
  obtain ⟨rfl, hmem, -⟩ := splitRelation?_eq_some hrelation
  exact ⟨by simp [between], hmem, hleft, hright⟩

/-- If there is a way to read a text, one is found, with as long a left side. -/
private theorem IsComparison.exists_comparison? (h : IsComparison s left op right) :
    ∃ left' op' right', comparison? s = some (left', op', right') ∧ left.length ≤ left'.length := by
  obtain ⟨rfl, hop, hleft, hright⟩ := h
  obtain ⟨⟨a, b, hab, ha, hb⟩, hleftFeed⟩ := isPath_iff.1 hleft
  obtain ⟨⟨start, tail, rfl, hstart, htail⟩, hrightFeed⟩ := isPath_iff.1 hright
  have hfeed : '\n' ∉ between left op (start ++ '.' :: tail) := by
    simpa [between, feed_notMem_symbol, hleftFeed] using hrightFeed
  -- The last dot stands in the right side, behind its start.
  have hs : between left op (start ++ '.' :: tail) = between left op start ++ '.' :: tail := by simp [between]
  obtain ⟨before, after, hdot, hle⟩ := exists_splitLastDot? htail (between left op start)
  rw [← hs] at hdot
  obtain ⟨heq, hafter⟩ := splitLastDot?_eq_some hdot
  obtain ⟨x, hx⟩ : between left op start <+: before :=
    List.prefix_of_prefix_length_le ⟨_, hs.symm⟩ ⟨_, heq.symm⟩ hle
  have hbefore : before = between left op (start ++ x) := by simp [← hx, between]
  -- So the last operator before it is this one or stands behind it.
  have hne : start ++ x ≠ [] := by simp [hstart]
  obtain ⟨left', op', start', hrelation, hlength⟩ := exists_splitRelation? hop hne left
  rw [← hbefore] at hrelation
  obtain ⟨hbetween, -, hstart'⟩ := splitRelation?_eq_some hrelation
  rw [heq, hbetween] at hfeed
  refine ⟨left', op', start' ++ '.' :: after, comparison?_eq_some_iff.2
    ⟨before, after, start', hdot, hrelation, rfl, isPath_iff.2 ⟨?_, ?_⟩, isPath_iff.2 ⟨?_, ?_⟩⟩, hlength⟩
  · obtain ⟨y, hy⟩ : left <+: left' :=
      List.prefix_of_prefix_length_le ⟨_, hbefore.symm⟩ ⟨_, hbetween.symm⟩ hlength
    exact ⟨a, b ++ y, by simp [← hy, hab], ha, by simp [hb]⟩
  · exact fun hmem => hfeed (by simp [between, hmem])
  · exact ⟨start', after, rfl, hstart', hafter⟩
  · exact fun hmem => hfeed (by simpa [between] using .inr (.inr (by simpa using hmem)))

/-- Of several ways to read a text as a comparison, the one with the longest left side is taken. -/
theorem comparison?_eq_some : comparison? s = some (left, op, right) ↔ IsComparison s left op right ∧
    ∀ left' op' right', IsComparison s left' op' right' → left'.length ≤ left.length := by
  constructor
  · intro h
    refine ⟨isComparison_of_comparison? h, fun left' op' right' h' => ?_⟩
    obtain ⟨left'', op'', right'', hread, hle⟩ := h'.exists_comparison?
    obtain ⟨rfl, -⟩ := Prod.mk.inj (Option.some.inj (h.symm.trans hread))
    exact hle
  · rintro ⟨h, hlongest⟩
    obtain ⟨left', op', right', hread, hle⟩ := h.exists_comparison?
    have h' := isComparison_of_comparison? hread
    obtain ⟨rfl, rfl, rfl⟩ := between_inj (Nat.le_antisymm hle (hlongest _ _ _ h')) (h.text.symm.trans h'.text)
    exact hread

/-- A text is taken for no comparison only if there is no way to read it as one. -/
theorem comparison?_eq_none : comparison? s = none ↔ ∀ left op right, ¬IsComparison s left op right := by
  constructor
  · intro h left op right h'
    obtain ⟨left', op', right', hread, -⟩ := h'.exists_comparison?
    rw [h] at hread
    cases hread
  · intro h
    cases hread : comparison? s with
    | none => rfl
    | some c => exact absurd (isComparison_of_comparison? hread) (h c.1 c.2.1 c.2.2)

end Reading

/-! ## Comparisons without receivers -/

section Receivers

variable {marker : String} {s u left left' right right' x y : List Char} {op : Operator}

private theorem isWord_symbol (op : Operator) : ∀ c ∈ op.symbol.toList ++ [' '], isWord c = false := by
  have hnone : (op.symbol.toList ++ [' ']).all (!isWord ·) = true := by cases op <;> decide +kernel
  intro c hc
  simpa using List.all_eq_true.1 hnone c hc

private theorem withoutReceivers_append (hmarker : ∀ c ∈ marker.toList, isWord c = true)
    (hu : ∀ c ∈ u, isWord c = false) (s : List Char) :
    withoutReceivers marker (u ++ s) = u ++ withoutReceivers marker s := by
  induction u with
  | nil => rfl
  | cons c u ih =>
    rw [List.cons_append, withoutReceivers_cons hmarker (hu c List.mem_cons_self),
      ih fun c hc => hu c (List.mem_cons_of_mem _ hc), List.cons_append]

private theorem exists_append_of_withoutReceivers_eq (hmarker : ∀ c ∈ marker.toList, isWord c = true)
    (hu : ∀ c ∈ u, isWord c = false) (h : withoutReceivers marker s = u ++ y) :
    ∃ x, s = u ++ x ∧ withoutReceivers marker x = y := by
  induction u generalizing s with
  | nil => exact ⟨s, rfl, h⟩
  | cons c u ih =>
    rw [List.cons_append, ← List.nil_append (c :: _)] at h
    obtain ⟨z, t, rfl, hz, ht⟩ := exists_of_withoutReceivers_eq hmarker (hu c List.mem_cons_self) h
    obtain rfl := (withoutReceivers_eq_nil hmarker).1 hz
    obtain ⟨x, rfl, hx⟩ := ih (fun c hc => hu c (List.mem_cons_of_mem _ hc)) ht
    exact ⟨x, rfl, hx⟩

private theorem isWord_blank : isWord ' ' = false := by decide +kernel

theorem withoutReceivers_between (hmarker : ∀ c ∈ marker.toList, isWord c = true) (left right : List Char)
    (op : Operator) : withoutReceivers marker (between left op right) =
      between (withoutReceivers marker left) op (withoutReceivers marker right) := by
  have hright := withoutReceivers_append hmarker (isWord_symbol op) right
  simp only [List.append_assoc, List.singleton_append] at hright
  rw [between, withoutReceivers_append_cons hmarker isWord_blank, hright, between]

private theorem exists_between_of_withoutReceivers_eq (hmarker : ∀ c ∈ marker.toList, isWord c = true)
    (h : withoutReceivers marker s = between left' op right') : ∃ left right, s = between left op right ∧
      withoutReceivers marker left = left' ∧ withoutReceivers marker right = right' := by
  obtain ⟨left, rest, rfl, hleft, hrest⟩ := exists_of_withoutReceivers_eq hmarker isWord_blank h
  obtain ⟨right, rfl, hright⟩ := exists_append_of_withoutReceivers_eq (y := right') hmarker (isWord_symbol op)
    (by simpa using hrest)
  exact ⟨left, right, by simp [between], hleft, hright⟩

/-- Replacing receivers makes no path and spoils none. -/
theorem isPath_withoutReceivers (hmarker : ∀ c ∈ marker.toList, isWord c = true) :
    isPath (withoutReceivers marker s) = true ↔ isPath s = true := by
  have hdot : isWord '.' = false := by decide +kernel
  have hfeed : isWord '\n' = false := by decide +kernel
  rw [isPath_iff, isPath_iff, mem_withoutReceivers hmarker hfeed]
  refine and_congr_left fun _ => ⟨?_, ?_⟩
  · rintro ⟨a', b', h, ha, hb⟩
    obtain ⟨a, b, rfl, rfl, rfl⟩ := exists_of_withoutReceivers_eq hmarker hdot h
    exact ⟨a, b, rfl, mt (withoutReceivers_eq_nil hmarker).2 ha, mt (withoutReceivers_eq_nil hmarker).2 hb⟩
  · rintro ⟨a, b, rfl, ha, hb⟩
    exact ⟨_, _, withoutReceivers_append_cons hmarker hdot a b, mt (withoutReceivers_eq_nil hmarker).1 ha,
      mt (withoutReceivers_eq_nil hmarker).1 hb⟩

theorem IsComparison.withoutReceivers (hmarker : ∀ c ∈ marker.toList, isWord c = true)
    (h : IsComparison s left op right) :
    IsComparison (withoutReceivers marker s) (withoutReceivers marker left) op (withoutReceivers marker right) where
  text := by rw [h.text, withoutReceivers_between hmarker]
  relation := h.relation
  left_path := (isPath_withoutReceivers hmarker).2 h.left_path
  right_path := (isPath_withoutReceivers hmarker).2 h.right_path

/-- Every way to read the payload without receivers comes from one to read the payload itself. -/
theorem IsComparison.exists_withReceivers (hmarker : ∀ c ∈ marker.toList, isWord c = true)
    (h : IsComparison (Payload.withoutReceivers marker s) left' op right') : ∃ left right,
      IsComparison s left op right ∧ Payload.withoutReceivers marker left = left' ∧
        Payload.withoutReceivers marker right = right' := by
  obtain ⟨left, right, hs, rfl, rfl⟩ := exists_between_of_withoutReceivers_eq hmarker h.text
  exact ⟨left, right, ⟨hs, h.relation, (isPath_withoutReceivers hmarker).1 h.left_path,
    (isPath_withoutReceivers hmarker).1 h.right_path⟩, rfl, rfl⟩

private theorem length_withoutReceivers_le (hmarker : ∀ c ∈ marker.toList, isWord c = true)
    (h : left ++ ' ' :: x = left' ++ ' ' :: y) (hle : left.length ≤ left'.length) :
    (withoutReceivers marker left).length ≤ (withoutReceivers marker left').length := by
  rcases Text.eq_or_exists_of_append_cons h hle with rfl | ⟨z, rfl⟩
  · exact Nat.le_refl _
  · rw [withoutReceivers_append_cons hmarker isWord_blank]
    simp

/-- Left sides that become the same are the same. -/
private theorem length_le_of_withoutReceivers_eq (hmarker : ∀ c ∈ marker.toList, isWord c = true)
    (h : left ++ ' ' :: x = left' ++ ' ' :: y)
    (heq : withoutReceivers marker left = withoutReceivers marker left') : left'.length ≤ left.length := by
  by_contra hlt
  rcases Text.eq_or_exists_of_append_cons h (by omega) with rfl | ⟨z, rfl⟩
  · omega
  · rw [withoutReceivers_append_cons hmarker isWord_blank] at heq
    simp at heq

/-- What is read from a payload without receivers is what is read from the payload, without receivers. -/
theorem comparison?_withoutReceivers (hmarker : ∀ c ∈ marker.toList, isWord c = true) (s : List Char) :
    comparison? (withoutReceivers marker s) =
      (comparison? s).map fun c => (withoutReceivers marker c.1, c.2.1, withoutReceivers marker c.2.2) := by
  cases hread : comparison? s with
  | none =>
    refine comparison?_eq_none.2 fun left' op right' h' => ?_
    obtain ⟨left, right, h, -, -⟩ := h'.exists_withReceivers hmarker
    exact comparison?_eq_none.1 hread left op right h
  | some c =>
    obtain ⟨left, op, right⟩ := c
    obtain ⟨h, hlongest⟩ := comparison?_eq_some.1 hread
    refine comparison?_eq_some.2 ⟨h.withoutReceivers hmarker, fun left' op' right' h' => ?_⟩
    obtain ⟨left₁, right₁, h₁, rfl, rfl⟩ := h'.exists_withReceivers hmarker
    exact length_withoutReceivers_le hmarker (h₁.text.symm.trans h.text) (hlongest _ _ _ h₁)

end Receivers

/-! ## Facts -/

private theorem direction?_text (d : Direction) : direction? d.text.toList = some d := by
  cases d <;> decide

private theorem direction?_eq_none {s : List Char} (h : '.' ∈ s) : direction? s = none := by
  have hdot : ∀ d : Direction, s ≠ d.text.toList := by
    rintro d rfl
    cases d <;> revert h <;> decide
  simp [direction?, hdot]

private theorem IsComparison.dot_mem {s left right : List Char} {op : Operator}
    (h : IsComparison s left op right) : '.' ∈ s := by
  obtain ⟨⟨a, b, hab, -, -⟩, -⟩ := isPath_iff.1 h.left_path
  rw [h.text, hab]
  simp [between]

section Facts

variable {marker : String} {payload : String} {left right : List Char} {op : Operator}

/-- A comparison that is read from a payload tells its sides without receivers. -/
theorem fact?_of_comparison (hmarker : ∀ c ∈ marker.toList, isWord c = true)
    (hread : comparison? payload.toList = some (left, op, right)) :
    fact? marker payload = .ok (some (.compare (String.ofList (withoutReceivers marker left)) op
      (String.ofList (withoutReceivers marker right)))) := by
  have hnone := direction?_eq_none (comparison?_eq_some.1 hread).1.dot_mem
  simp only [fact?, hnone, comparison?_withoutReceivers hmarker, hread, Option.map_some]

theorem fact?_of_no_comparison (hmarker : ∀ c ∈ marker.toList, isWord c = true)
    (hread : comparison? payload.toList = none) :
    fact? marker payload = .ok ((direction? payload.toList).map Fact.direction) := by
  simp only [fact?, comparison?_withoutReceivers hmarker, hread, Option.map_none]
  cases direction? payload.toList <;> rfl

/-- Two sides of a payload are the ones that are read exactly if they are so without receivers. -/
theorem comparison?_withoutReceivers_iff (hmarker : ∀ c ∈ marker.toList, isWord c = true) {s : List Char}
    (hs : s = between left op right) : comparison? s = some (left, op, right) ↔
      comparison? (withoutReceivers marker s) =
        some (withoutReceivers marker left, op, withoutReceivers marker right) := by
  rw [comparison?_withoutReceivers hmarker, Option.map_eq_some_iff]
  constructor
  · exact fun hread => ⟨_, hread, rfl⟩
  · rintro ⟨⟨left', op', right'⟩, hread, heq⟩
    obtain ⟨hleft, -⟩ := Prod.mk.inj heq
    have hsame := hs.symm.trans (comparison?_eq_some.1 hread).1.text
    have hlength := Nat.le_antisymm (length_le_of_withoutReceivers_eq hmarker hsame.symm hleft)
      (length_le_of_withoutReceivers_eq hmarker hsame hleft.symm)
    obtain ⟨rfl, rfl, rfl⟩ := between_inj hlength hsame
    exact hread

/-- Where the marker is made of word characters, reading the fact of a payload does not fail: a comparison that is
read from the payload tells the two sides without receivers, and the same operator. It does not matter whether the
receivers are replaced in the payload or in the two sides. -/
theorem fact?_commutes (hmarker : ∀ c ∈ marker.toList, isWord c = true) (payload : String) :
    (∀ left op right, payload.toList = between left op right →
      (comparison? payload.toList = some (left, op, right) ↔
        comparison? (withoutReceivers marker payload.toList) =
          some (withoutReceivers marker left, op, withoutReceivers marker right))) ∧
    comparison? (withoutReceivers marker payload.toList) = (comparison? payload.toList).map
      (fun c => (withoutReceivers marker c.1, c.2.1, withoutReceivers marker c.2.2)) ∧
    (∀ left op right, comparison? payload.toList = some (left, op, right) → op ∈ relations ∧
      fact? marker payload = .ok (some (.compare (String.ofList (withoutReceivers marker left)) op
        (String.ofList (withoutReceivers marker right))))) ∧
    (comparison? payload.toList = none →
      fact? marker payload = .ok ((direction? payload.toList).map Fact.direction)) := by
  refine ⟨fun left op right => comparison?_withoutReceivers_iff hmarker, comparison?_withoutReceivers hmarker _,
    fun left op right hread => ⟨?_, fact?_of_comparison hmarker hread⟩, fact?_of_no_comparison hmarker⟩
  exact (comparison?_eq_some.1 hread).1.relation

/-- Several dots, two operators and receivers beside other words. -/
theorem fact?_commutes_alarm :
    (∀ c ∈ "AuxObserver".toList, isWord c = true) ∧
    comparison? "rcv_AuxObserverAlarm.level <= (evt.level == xrcv_AuxObserver_2.rcv_AuxObserver)".toList =
      some ("rcv_AuxObserverAlarm.level <= (evt.level".toList, .eq, "xrcv_AuxObserver_2.rcv_AuxObserver)".toList) ∧
    comparison? (withoutReceivers "AuxObserver"
        "rcv_AuxObserverAlarm.level <= (evt.level == xrcv_AuxObserver_2.rcv_AuxObserver)".toList) =
      some ("this.level <= (evt.level".toList, .eq, "xthis.this)".toList) ∧
    fact? "AuxObserver" "rcv_AuxObserverAlarm.level <= (evt.level == xrcv_AuxObserver_2.rcv_AuxObserver)" =
      .ok (some (.compare "this.level <= (evt.level" .eq "xthis.this)")) := by
  have hmarker : ∀ c ∈ "AuxObserver".toList, isWord c = true := List.all_eq_true.1 (by decide +kernel)
  have hread :
      comparison? "rcv_AuxObserverAlarm.level <= (evt.level == xrcv_AuxObserver_2.rcv_AuxObserver)".toList =
        some ("rcv_AuxObserverAlarm.level <= (evt.level".toList, .eq,
          "xrcv_AuxObserver_2.rcv_AuxObserver)".toList) := by
    decide +kernel
  have hleft : withoutReceivers "AuxObserver" "rcv_AuxObserverAlarm.level <= (evt.level".toList =
      "this.level <= (evt.level".toList := by decide +kernel
  have hright : withoutReceivers "AuxObserver" "xrcv_AuxObserver_2.rcv_AuxObserver)".toList =
      "xthis.this)".toList := by
    decide +kernel
  obtain ⟨hiff, -, hfact, -⟩ := fact?_commutes hmarker
    "rcv_AuxObserverAlarm.level <= (evt.level == xrcv_AuxObserver_2.rcv_AuxObserver)"
  have hagain := (hiff _ _ _ (comparison?_eq_some.1 hread).1.text).1 hread
  have hcompare := (hfact _ _ _ hread).2
  rw [hleft, hright] at hagain
  rw [hleft, hright, String.ofList_toList, String.ofList_toList] at hcompare
  exact ⟨hmarker, hread, hagain, hcompare⟩

/-- The text of a fact tells the fact, if the marker does not end in a letter of `this`. -/
theorem fact?_text_of_marker (hmarker : ∀ c ∈ marker.toList, isWord c = true)
    (hlast : ∀ c ∈ marker.toList.getLast?, c ∉ thisText) {fact : Fact} (h : fact? marker payload = .ok (some fact)) :
    fact? marker fact.text = .ok (some fact) := by
  cases hread : comparison? payload.toList with
  | none =>
    rw [fact?_of_no_comparison hmarker hread] at h
    obtain ⟨d, -, rfl⟩ := Option.map_eq_some_iff.1 (Except.ok.inj h)
    simp [fact?, Fact.text, direction?_text]
  | some c =>
    obtain ⟨left, op, right⟩ := c
    rw [fact?_of_comparison hmarker hread] at h
    obtain rfl := Option.some.inj (Except.ok.inj h)
    -- The text of the fact is the payload without receivers.
    have htext : (Fact.compare (String.ofList (withoutReceivers marker left)) op
        (String.ofList (withoutReceivers marker right))).text.toList = withoutReceivers marker payload.toList := by
      rw [(comparison?_eq_some.1 hread).1.text, withoutReceivers_between hmarker]
      simp [Fact.text, between]
    have hagain := comparison?_withoutReceivers hmarker payload.toList
    rw [hread, Option.map_some, ← htext] at hagain
    rw [fact?_of_comparison hmarker hagain, withoutReceivers_idem hmarker hlast, withoutReceivers_idem hmarker hlast]

/-- With the usual marker, the text of a fact that a payload tells is a payload that tells this fact. -/
theorem fact?_text {payload : String} {fact : Fact}
    (h : fact? Conventions.default.auxMarker payload = .ok (some fact)) :
    fact? Conventions.default.auxMarker fact.text = .ok (some fact) :=
  fact?_text_of_marker (List.all_eq_true.1 (by decide +kernel)) (by simp [Conventions.default, thisText]) h

theorem fact?_text_alarm :
    fact? Conventions.default.auxMarker "rcv_AuxObserverAlarm.level < evt.high >= rcv_AuxObserver.low" =
      .ok (some (.compare "this.level < evt.high" .ge "this.low")) ∧
    fact? Conventions.default.auxMarker "this.level < evt.high >= this.low" =
      .ok (some (.compare "this.level < evt.high" .ge "this.low")) := by
  have hfact : fact? Conventions.default.auxMarker "rcv_AuxObserverAlarm.level < evt.high >= rcv_AuxObserver.low" =
      .ok (some (.compare "this.level < evt.high" .ge "this.low")) := by decide +kernel
  exact ⟨hfact, fact?_text hfact⟩

end Facts

end ObserverPattern.Payload
