import Mathlib.Data.List.Forall2
import ObserverPattern.Text.Reference

/-!
# Texts with gaps

What stays of a text in which pieces make room for other ones: its characters in order, and a gap for each piece.

* `Fills`: a text is one with gaps in which each gap has been filled by some piece;
* `Fills.infix`: what stands between two gaps stands in every text that fills them;
* `cutWord`: a text with a gap wherever a name is a whole word, as every replacement of the name fills it
  (`fills_cutWord`).
-/

namespace ObserverPattern.Text

/-- A text with gaps. -/
abbrev Gapped := List (Option Char)

/-- A text without gaps. -/
def whole (s : List Char) : Gapped := s.map some

/-- A text takes the place of one with gaps: the characters stay, and each gap is filled by a piece. -/
inductive Fills : Gapped → List Char → Prop
  | nil : Fills [] []
  | char (c : Char) {g : Gapped} {s : List Char} (h : Fills g s) : Fills (some c :: g) (c :: s)
  | gap (piece : List Char) {g : Gapped} {s : List Char} (h : Fills g s) : Fills (none :: g) (piece ++ s)

variable {g g' : Gapped} {s s' x : List Char}

theorem fills_whole (s : List Char) : Fills (whole s) s := by
  induction s with
  | nil => exact .nil
  | cons c s ih => exact .char c ih

theorem fills_gap (s : List Char) : Fills [none] s := by
  have h : Fills [none] (s ++ []) := .gap s .nil
  rwa [List.append_nil] at h

theorem Fills.append (h : Fills g s) (h' : Fills g' s') : Fills (g ++ g') (s ++ s') := by
  induction h with
  | nil => exact h'
  | char c _ ih => exact .char c ih
  | gap piece _ ih => exact List.append_assoc .. ▸ .gap piece ih

theorem Fills.of_append (h : Fills (g ++ g') s) : ∃ x x', s = x ++ x' ∧ Fills g x ∧ Fills g' x' := by
  induction g generalizing s with
  | nil => exact ⟨[], s, rfl, .nil, h⟩
  | cons c g ih =>
    cases h with
    | char c h =>
      obtain ⟨x, x', rfl, hx, hx'⟩ := ih h
      exact ⟨c :: x, x', rfl, .char c hx, hx'⟩
    | gap piece h =>
      obtain ⟨x, x', rfl, hx, hx'⟩ := ih h
      exact ⟨piece ++ x, x', (List.append_assoc ..).symm, .gap piece hx, hx'⟩

theorem Fills.eq_of_whole (h : Fills (whole x) s) : s = x := by
  induction x generalizing s with
  | nil => cases h; rfl
  | cons c x ih =>
    cases h with
    | char c h => rw [ih h]

/-- What stands in a text without a gap in it stands in every text that fills the gaps. -/
theorem Fills.infix (h : Fills g s) (hx : whole x <:+: g) : x <:+: s := by
  obtain ⟨before, behind, rfl⟩ := hx
  obtain ⟨y, _, rfl, hy, -⟩ := h.of_append
  obtain ⟨a, x', rfl, -, hx'⟩ := hy.of_append
  obtain rfl := hx'.eq_of_whole
  exact ⟨a, _, rfl⟩

theorem Fills.intercalate {gs : List Gapped} {ss : List (List Char)} (h : List.Forall₂ Fills gs ss)
    (sep : List Char) :
    Fills ((whole sep).intercalate gs) (sep.intercalate ss) := by
  induction h with
  | nil => exact .nil
  | @cons g s gs ss hg hgs ih =>
    cases hgs with
    | nil => simpa using hg
    | cons hg' hgs =>
      rw [List.intercalate_cons_cons, List.intercalate_cons_cons]
      exact (hg.append (fills_whole sep)).append ih

/-! ## Names cut out -/

/-- A text with its matches cut out, after passing over `skip` characters of the last match. -/
def cutFrom (find : Matcher) : Nat → Option Char → List Char → Gapped
  | 0, before, [] => if (find before []).isSome then [none] else []
  | _ + 1, _, [] => []
  | skip + 1, _, c :: cs => cutFrom find skip (some c) cs
  | 0, before, c :: cs =>
    match find before (c :: cs) with
    | none => some c :: cutFrom find 0 (some c) cs
    | some 0 => none :: some c :: cutFrom find 0 (some c) cs
    | some (n + 1) => none :: cutFrom find n (some c) cs

private theorem fills_cutFrom (find : Matcher) (new : List Char) (skip : Nat) (before : Option Char) (s : List Char) :
    Fills (cutFrom find skip before s) (replaceFrom find new skip before s) := by
  induction s generalizing skip before with
  | nil =>
    cases skip with
    | succ skip => exact .nil
    | zero =>
      unfold cutFrom replaceFrom
      split
      · exact fills_gap new
      · exact .nil
  | cons c cs ih =>
    cases skip with
    | succ skip => exact ih skip (some c)
    | zero =>
      rw [cutFrom, replaceFrom]
      rcases find before (c :: cs) with _ | _ | n
      · exact .char c (ih 0 (some c))
      · exact .gap new (.char c (ih 0 (some c)))
      · exact .gap new (ih n (some c))

/-- A text with a name cut out, wherever it stands as a whole word. -/
def cutWord (name s : String) : Gapped := cutFrom (wordMatcher name.toList) 0 none s.toList

theorem fills_cutWord (name new s : String) : Fills (cutWord name s) (renameWord name new s).toList := by
  rw [renameWord, replaceWord, String.toList_ofList]
  exact fills_cutFrom _ _ 0 none s.toList

example : cutWord "AuxObserver" "List<AuxObserver>" = whole "List<".toList ++ none :: whole ">".toList := by
  decide +kernel

end ObserverPattern.Text
