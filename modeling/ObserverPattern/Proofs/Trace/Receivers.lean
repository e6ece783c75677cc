import Mathlib.Data.List.TakeWhile
import ObserverPattern.Proofs.Text.Cuts
import ObserverPattern.Proofs.Text.Words
import ObserverPattern.Trace.Payload

/-!
# Receivers

The receivers in a payload are replaced by `this` before the sides of a comparison are taken from it. Where the marker
of the dispatchers is made of word characters, a receiver lies inside a word.

* `Replaced` tells, step by step, what becomes of a text (`replaced_iff`);
* `withoutReceivers_append_cons`, `exists_of_withoutReceivers_eq`: a character that is none of a word cuts a text and
  what becomes of it at the same place;
* `withoutReceivers_idem`: no receiver comes up beside a `this`, if none ends in a letter of it.
-/

namespace ObserverPattern.Payload

open Text (IsName isWord)

def thisText : List Char := "this".toList

/-- What becomes of a text in which a receiver, with the word characters behind it, is replaced by `this`. -/
inductive Replaced (receiver : List Char) : List Char → List Char → Prop
  | nil : Replaced receiver [] []
  | keep {c : Char} {s t : List Char} (hc : ¬receiver <+: c :: s) (h : Replaced receiver s t) :
      Replaced receiver (c :: s) (c :: t)
  | swap {w s t : List Char} (hw : ∀ c ∈ w, isWord c = true) (hs : s.head?.any isWord = false)
      (h : Replaced receiver s t) : Replaced receiver (receiver ++ (w ++ s)) (thisText ++ t)

section Receiver

variable {receiver s t x y x' y' : List Char} {c : Char}

private theorem isWord_thisText : ∀ c ∈ thisText, isWord c = true := List.all_eq_true.1 (by decide +kernel)

private theorem receiverMatcher_eq_none {before : Option Char} (h : ¬receiver <+: s) :
    receiverMatcher receiver before s = none := by
  cases hrest : Text.afterPrefix? receiver s with
  | none => simp [receiverMatcher, hrest]
  | some rest => exact absurd ⟨rest, (Text.afterPrefix?_eq_some_iff.1 hrest).symm⟩ h

private theorem receiverMatcher_append {before : Option Char} {w : List Char} (hw : ∀ c ∈ w, isWord c = true)
    (hs : s.head?.any isWord = false) :
    receiverMatcher receiver before (receiver ++ (w ++ s)) = some (receiver ++ w).length := by
  have hrest : Text.afterPrefix? receiver (receiver ++ (w ++ s)) = some (w ++ s) :=
    Text.afterPrefix?_eq_some_iff.2 rfl
  have htake : s.takeWhile isWord = [] := by
    cases s with
    | nil => rfl
    | cons c s => exact List.takeWhile_cons_of_neg (by simpa using hs)
  simp [receiverMatcher, hrest, List.takeWhile_append_of_pos hw, htake]

/-- A text is replaced step by step. -/
private theorem Replaced.replaceFrom_eq (hreceiver : IsName receiver) (h : Replaced receiver s t)
    (before : Option Char) : Text.replaceFrom (receiverMatcher receiver) thisText 0 before s = t := by
  induction h generalizing before with
  | nil =>
    have hnone : receiverMatcher receiver before [] = none :=
      receiverMatcher_eq_none fun h => hreceiver.1 (List.prefix_nil.1 h)
    simp [Text.replaceFrom, hnone]
  | keep hc _ ih => simp only [Text.replaceFrom, receiverMatcher_eq_none hc, ih]
  | @swap w s t hw hs _ ih =>
    obtain ⟨a, tail, rfl⟩ := List.exists_cons_of_ne_nil hreceiver.1
    have hmatch : receiverMatcher (a :: tail) before (a :: tail ++ (w ++ s)) = some (a :: tail ++ w).length :=
      receiverMatcher_append hw hs
    rw [List.cons_append, ← List.append_assoc, List.cons_append, List.length_cons] at hmatch
    rw [List.cons_append, ← List.append_assoc, Text.replaceFrom, hmatch]
    simp only
    rw [Text.replaceFrom_skip, ih]

private theorem exists_replaced (hreceiver : IsName receiver) (s : List Char) : ∃ t, Replaced receiver s t := by
  -- A receiver is replaced as a whole, so the rest is shorter but no tail.
  induction hn : s.length using Nat.strong_induction_on generalizing s with
  | _ n ih =>
    subst hn
    cases s with
    | nil => exact ⟨[], .nil⟩
    | cons c s =>
      by_cases hc : receiver <+: c :: s
      · obtain ⟨rest, hrest⟩ := hc
        have hlt : (rest.dropWhile isWord).length < (c :: s).length := by
          have hle := (List.dropWhile_sublist (l := rest) isWord).length_le
          have hpos := List.length_pos_iff.2 hreceiver.1
          rw [← hrest, List.length_append]
          omega
        obtain ⟨t, ht⟩ := ih _ hlt _ rfl
        have hhead : (rest.dropWhile isWord).head?.any isWord = false := by
          rw [Bool.eq_false_iff]
          intro h
          obtain ⟨a, ha, hword⟩ := (Option.any_eq_true ..).1 h
          have := List.head?_dropWhile_not isWord rest
          simp [ha, hword] at this
        rw [← hrest, ← List.takeWhile_append_dropWhile (p := isWord) (l := rest)]
        exact ⟨_, .swap (fun _ => List.mem_takeWhile_imp) hhead ht⟩
      · obtain ⟨t, ht⟩ := ih s.length (by simp) s rfl
        exact ⟨_, .keep hc ht⟩

/-- The relation is the replacement of all receivers. -/
theorem replaced_iff (hreceiver : IsName receiver) :
    Replaced receiver s t ↔ Text.replaceMatches (receiverMatcher receiver) thisText s = t := by
  constructor
  · exact fun h => h.replaceFrom_eq hreceiver none
  · rintro rfl
    obtain ⟨t, ht⟩ := exists_replaced hreceiver s
    rw [Text.replaceMatches, ht.replaceFrom_eq hreceiver none]
    exact ht

/-! ## Characters between words -/

private theorem isWord_of_isPrefix (hreceiver : IsName receiver) (h : receiver <+: c :: s) : isWord c = true := by
  obtain ⟨a, tail, rfl⟩ := List.exists_cons_of_ne_nil hreceiver.1
  obtain ⟨rfl, -⟩ := List.cons_prefix_cons.1 h
  exact hreceiver.2 a List.mem_cons_self

/-- A receiver does not reach over a character that is none of a word. -/
private theorem prefix_of_prefix_append (hreceiver : IsName receiver) (hc : isWord c = false)
    (h : receiver <+: x ++ c :: y) : receiver <+: x := by
  rcases List.prefix_or_prefix_of_prefix h (List.prefix_append x (c :: y)) with hx | ⟨z, rfl⟩
  · exact hx
  · rw [List.prefix_append_right_inj] at h
    cases z with
    | nil => simp
    | cons a z =>
      obtain ⟨rfl, -⟩ := List.cons_prefix_cons.1 h
      rw [hreceiver.2 a (by simp)] at hc
      cases hc

/-- The sides of a character that is none of a word are replaced apart. -/
theorem Replaced.append_cons (hreceiver : IsName receiver) (hc : isWord c = false) (hx : Replaced receiver x x')
    (hy : Replaced receiver y y') : Replaced receiver (x ++ c :: y) (x' ++ c :: y') := by
  induction hx with
  | nil =>
    refine .keep (fun h => ?_) hy
    rw [isWord_of_isPrefix hreceiver h] at hc
    cases hc
  | keep ha _ ih => exact .keep (fun h => ha (prefix_of_prefix_append hreceiver hc h)) ih
  | @swap w s t hw hs _ ih =>
    have hhead : (s ++ c :: y).head?.any isWord = false := by
      cases s with
      | nil => simpa using hc
      | cons a s => exact hs
    simpa using Replaced.swap hw hhead ih

/-- A character that is none of a word stands in what a text becomes only where it stood in the text. -/
theorem Replaced.exists_append_cons (hc : isWord c = false) (h : Replaced receiver s t) (ht : t = x' ++ c :: y') :
    ∃ x y, s = x ++ c :: y ∧ Replaced receiver x x' ∧ Replaced receiver y y' := by
  induction h generalizing x' with
  | nil => simp at ht
  | @keep a s t ha hs ih =>
    cases x' with
    | nil =>
      obtain ⟨rfl, rfl⟩ := List.cons_eq_cons.1 ht
      exact ⟨[], s, rfl, .nil, hs⟩
    | cons b x' =>
      obtain ⟨rfl, rfl⟩ := List.cons_eq_cons.1 ht
      obtain ⟨x, y, rfl, hx, hy⟩ := ih rfl
      exact ⟨a :: x, y, rfl, .keep (fun h => ha (h.trans (List.prefix_append (a :: x) (c :: y)))) hx, hy⟩
  | @swap w s t hw hs _ ih =>
    -- The character is no letter of `this`.
    have hthis : c ∉ thisText := fun hmem => by
      rw [isWord_thisText c hmem] at hc
      cases hc
    obtain ⟨z, rfl, rfl⟩ := Text.exists_of_append_eq hthis ht
    obtain ⟨x, y, rfl, hx, hy⟩ := ih rfl
    have hhead : x.head?.any isWord = false := by
      cases x with
      | nil => rfl
      | cons a x => exact hs
    exact ⟨receiver ++ (w ++ x), y, by simp, .swap hw hhead hx, hy⟩

/-! ## Replacing twice -/

/-- A text that does not start with a word starts with the same character after the replacement. -/
private theorem Replaced.head?_eq (hreceiver : IsName receiver) (h : Replaced receiver s t)
    (hs : s.head?.any isWord = false) : t.head? = s.head? := by
  cases h with
  | nil | keep => rfl
  | swap =>
    obtain ⟨a, tail, rfl⟩ := List.exists_cons_of_ne_nil hreceiver.1
    have ha : isWord a = false := hs
    rw [hreceiver.2 a List.mem_cons_self] at ha
    cases ha

/-- What a text becomes starts with the text's own characters, up to a letter of `this` or the end of a word. -/
private theorem Replaced.isPrefix (hreceiver : IsName receiver) (h : Replaced receiver s t)
    (hx : ∀ c ∈ x, isWord c = true) (hlast : ∀ c ∈ x.getLast?, c ∉ thisText) (hpre : x <+: t) : x <+: s := by
  induction h generalizing x with
  | nil => exact hpre
  | @keep a s t _ _ ih =>
    cases x with
    | nil => exact List.nil_prefix
    | cons b x =>
      obtain ⟨rfl, htail⟩ := List.cons_prefix_cons.1 hpre
      refine List.cons_prefix_cons.2 ⟨rfl, ih (fun c hc => hx c (List.mem_cons_of_mem _ hc)) ?_ htail⟩
      intro c hc
      exact hlast c (by rw [List.getLast?_cons, Option.mem_def.1 hc]; rfl)
  | @swap w s t hw hs hst _ =>
    -- It does not reach past `this`, where no word goes on, and so it would end in it.
    have hthis : x <+: thisText := by
      rcases List.prefix_or_prefix_of_prefix hpre (List.prefix_append thisText t) with hthis | ⟨z, rfl⟩
      · exact hthis
      · rw [List.prefix_append_right_inj] at hpre
        cases z with
        | nil => simp
        | cons a z =>
          obtain ⟨t, rfl⟩ := hpre
          have ha : isWord a = false := by
            rw [← hst.head?_eq hreceiver hs] at hs
            simpa using hs
          rw [hx a (by simp)] at ha
          cases ha
    cases hlast? : x.getLast? with
    | none => simp [List.getLast?_eq_none_iff.1 hlast?]
    | some c => exact absurd (hthis.subset (List.mem_of_getLast? hlast?)) (hlast c hlast?)

/-- In what a text becomes there is nothing left to replace, if receivers do not end in a letter of `this` or start
with one. -/
theorem Replaced.again (hreceiver : IsName receiver) (hhead : ∀ c ∈ receiver.head?, c ∉ thisText)
    (hlast : ∀ c ∈ receiver.getLast?, c ∉ thisText) (h : Replaced receiver s t) : Replaced receiver t t := by
  induction h with
  | nil => exact .nil
  | keep hc hst ih =>
    refine .keep (fun h => hc ?_) ih
    exact (Replaced.keep hc hst).isPrefix hreceiver hreceiver.2 hlast h
  | @swap w s t hw hs _ ih =>
    have hkeep : ∀ c ∈ thisText, ∀ u, ¬receiver <+: c :: u := by
      rintro c hc u h
      obtain ⟨a, tail, rfl⟩ := List.exists_cons_of_ne_nil hreceiver.1
      obtain ⟨rfl, -⟩ := List.cons_prefix_cons.1 h
      exact hhead a rfl hc
    exact .keep (hkeep 't' (by decide) _) (.keep (hkeep 'h' (by decide) _)
      (.keep (hkeep 'i' (by decide) _) (.keep (hkeep 's' (by decide) _) ih)))

end Receiver

/-! ## The receivers of a marker -/

section Marker

variable {marker : String} {s x' y' : List Char} {c : Char}

private theorem isName_receiver (hmarker : ∀ c ∈ marker.toList, isWord c = true) :
    IsName ("rcv_" ++ marker).toList := by
  have hrcv : ∀ c ∈ "rcv_".toList, isWord c = true := List.all_eq_true.1 (by decide +kernel)
  rw [String.toList_append]
  refine ⟨by simp, fun c hc => ?_⟩
  rcases List.mem_append.1 hc with hc | hc
  · exact hrcv c hc
  · exact hmarker c hc

theorem replaced_withoutReceivers (hmarker : ∀ c ∈ marker.toList, isWord c = true) (s : List Char) :
    Replaced ("rcv_" ++ marker).toList s (withoutReceivers marker s) :=
  (replaced_iff (isName_receiver hmarker)).2 rfl

theorem withoutReceivers_eq (hmarker : ∀ c ∈ marker.toList, isWord c = true) {t : List Char}
    (h : Replaced ("rcv_" ++ marker).toList s t) : withoutReceivers marker s = t :=
  (replaced_iff (isName_receiver hmarker)).1 h

/-- The receivers on the two sides of a character that is none of a word are replaced apart. -/
theorem withoutReceivers_append_cons (hmarker : ∀ c ∈ marker.toList, isWord c = true) (hc : isWord c = false)
    (x y : List Char) :
    withoutReceivers marker (x ++ c :: y) = withoutReceivers marker x ++ c :: withoutReceivers marker y :=
  withoutReceivers_eq hmarker ((replaced_withoutReceivers hmarker x).append_cons (isName_receiver hmarker) hc
    (replaced_withoutReceivers hmarker y))

theorem withoutReceivers_nil (hmarker : ∀ c ∈ marker.toList, isWord c = true) : withoutReceivers marker [] = [] :=
  withoutReceivers_eq hmarker .nil

theorem withoutReceivers_cons (hmarker : ∀ c ∈ marker.toList, isWord c = true) (hc : isWord c = false)
    (s : List Char) : withoutReceivers marker (c :: s) = c :: withoutReceivers marker s := by
  simpa [withoutReceivers_nil hmarker] using withoutReceivers_append_cons hmarker hc [] s

/-- A character that is none of a word cuts the text where it cuts what the text becomes. -/
theorem exists_of_withoutReceivers_eq (hmarker : ∀ c ∈ marker.toList, isWord c = true) (hc : isWord c = false)
    (h : withoutReceivers marker s = x' ++ c :: y') :
    ∃ x y, s = x ++ c :: y ∧ withoutReceivers marker x = x' ∧ withoutReceivers marker y = y' := by
  obtain ⟨x, y, rfl, hx, hy⟩ := (replaced_withoutReceivers hmarker s).exists_append_cons hc h
  exact ⟨x, y, rfl, withoutReceivers_eq hmarker hx, withoutReceivers_eq hmarker hy⟩

theorem mem_withoutReceivers (hmarker : ∀ c ∈ marker.toList, isWord c = true) (hc : isWord c = false) :
    c ∈ withoutReceivers marker s ↔ c ∈ s := by
  constructor
  · intro h
    obtain ⟨x', y', h⟩ := List.append_of_mem h
    obtain ⟨x, y, rfl, -⟩ := exists_of_withoutReceivers_eq hmarker hc h
    simp
  · intro h
    obtain ⟨x, y, rfl⟩ := List.append_of_mem h
    rw [withoutReceivers_append_cons hmarker hc]
    simp

theorem withoutReceivers_eq_nil (hmarker : ∀ c ∈ marker.toList, isWord c = true) :
    withoutReceivers marker s = [] ↔ s = [] := by
  constructor
  · intro h
    have hs := replaced_withoutReceivers hmarker s
    rw [h] at hs
    cases hs with
    | nil => rfl
  · rintro rfl
    exact withoutReceivers_nil hmarker

/-- No receiver is left, and none has come up, if the marker does not end in a letter of `this`. -/
theorem withoutReceivers_idem (hmarker : ∀ c ∈ marker.toList, isWord c = true)
    (hlast : ∀ c ∈ marker.toList.getLast?, c ∉ thisText) (s : List Char) :
    withoutReceivers marker (withoutReceivers marker s) = withoutReceivers marker s := by
  refine withoutReceivers_eq hmarker
    ((replaced_withoutReceivers hmarker s).again (isName_receiver hmarker) ?_ ?_)
  · intro c hc
    obtain rfl : 'r' = c := by simpa using hc
    decide
  · intro c hc
    rw [String.toList_append, List.getLast?_append] at hc
    cases hmarkerLast : marker.toList.getLast? with
    | none =>
      obtain rfl : '_' = c := by simpa [hmarkerLast] using hc
      decide
    | some a =>
      obtain rfl : a = c := by simpa [hmarkerLast] using hc
      exact hlast a hmarkerLast

end Marker

end ObserverPattern.Payload
