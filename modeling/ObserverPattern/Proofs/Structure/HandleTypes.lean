import ObserverPattern.Proofs.Structure.GenericNames
import ObserverPattern.Proofs.Text.Rewording

/-!
# The types of a handle body

Types are rewritten word by word (`Names.typeWord`). The observer takes the place of the dispatcher first and then
that of `Object`, also where this has come in with the observer, and each time its name is read as a replacement text.

* `typeName_words`: what becomes of each word of a type. The name of the observer is put in literally in all types if
  and only if it is plain and does not have `Object` as a word.
-/

namespace ObserverPattern.HandleBody

namespace Names

variable {n : Names}

/-- What a word of a type becomes. -/
def typeWord (n : Names) (w : String) : String :=
  Text.renameWord "Object" n.observer (Text.renamed n.aux n.observer w)

/-- A word with the name of the observer in the place of the generic ones. -/
def observerWord (n : Names) (w : String) : String := if w = n.aux ∨ w = "Object" then n.observer else w

private theorem isName_object : Text.IsName "Object".toList := by decide +kernel

theorem typeName_eq_mapWords (haux : ∀ c ∈ n.aux.toList, Text.isWord c = true) (ty : String) :
    n.typeName ty = Text.mapWords n.typeWord ty := by
  rw [typeName, Text.renameWord_eq_mapWords haux, Text.renameWord_eq_mapWords isName_object.2,
    Text.mapWords_mapWords]
  refine Text.mapWords_congr fun w _ _ => ?_
  rw [typeWord, Text.renameWord_eq_mapWords isName_object.2]

/-- A name with `Object` among its words grows where it takes the place of this word in itself. -/
private theorem renameWord_object_ne (hplain : Text.isPlain n.observer.toList = true) (hne : n.observer ≠ "Object")
    (hobject : Text.hasWord "Object" n.observer = true) :
    Text.renameWord "Object" n.observer n.observer ≠ n.observer := by
  have hoccurs := Text.occursIn_of_hasWord isName_object hobject
  have hlt : "Object".toList.length < n.observer.toList.length := by
    refine Nat.lt_of_le_of_ne hoccurs.length_le fun h => ?_
    exact hne (String.toList_inj.1 (hoccurs.eq_of_length h)).symm
  have hrenamed : ∀ w, Text.renamed "Object" n.observer w = if w = "Object" then n.observer else w := by
    intro w
    rw [Text.renamed, if_neg (by decide), (Text.expanded_eq_self_iff isName_object.2).2 hplain]
  have hgrows := Text.countP_mapWords_lt (f := id) (g := Text.renamed "Object" n.observer) (p := fun _ => true) (by
    intro w _
    rw [hrenamed, List.countP_true]
    split
    · next hw => exact hw ▸ Nat.le_of_lt hlt
    · exact Nat.le_refl _) isName_object hobject (by
    rw [hrenamed, if_pos rfl, List.countP_true]
    exact hlt)
  rw [Text.mapWords_id, ← Text.renameWord_eq_mapWords isName_object.2] at hgrows
  intro h
  rw [h] at hgrows
  exact Nat.lt_irrefl _ hgrows

section

variable (haux : Text.IsName n.aux.toList)

include haux

theorem typeWord_eq {w : String} (hw : Text.IsName w.toList) : n.typeWord w =
    if w = n.aux then Text.renameWord "Object" n.observer (Text.expanded n.aux n.observer)
    else if w = "Object" then Text.expanded "Object" n.observer else w := by
  have hne : n.aux ≠ "" := by
    intro h
    exact haux.1 (by rw [h]; rfl)
  rw [typeWord, Text.renamed, if_neg hne]
  split
  · rfl
  · exact Text.renameWord_of_isName isName_object hw n.observer

private theorem typeWord_of_plain (hplain : Text.isPlain n.observer.toList = true)
    (hobject : Text.hasWord "Object" n.observer = false) {w : String} (hw : Text.IsName w.toList) :
    n.typeWord w = n.observerWord w := by
  rw [typeWord_eq haux hw, (Text.expanded_eq_self_iff haux.2).2 hplain,
    (Text.expanded_eq_self_iff isName_object.2).2 hplain, Text.renameWord_eq_self hobject, observerWord]
  by_cases hwaux : w = n.aux
  · rw [if_pos hwaux, if_pos (.inl hwaux)]
  · rw [if_neg hwaux]
    simp only [hwaux, false_or]

/-- If all types have the name of the observer literally, it is plain and does not have `Object` as a word. -/
private theorem plain_of_literal (hauxObject : n.aux ≠ "Object") (hobserver : n.observer ≠ "Object")
    (h : ∀ ty, n.typeName ty = Text.mapWords n.observerWord ty) :
    Text.isPlain n.observer.toList = true ∧ Text.hasWord "Object" n.observer = false := by
  have hword : ∀ w : String, Text.IsName w.toList → n.typeWord w = n.observerWord w := by
    intro w hw
    have hw' := h w
    rwa [typeName_eq_mapWords haux.2, Text.mapWords_of_isName hw, Text.mapWords_of_isName hw] at hw'
  have hplain : Text.isPlain n.observer.toList = true := by
    have hobject := hword "Object" isName_object
    rw [typeWord_eq haux isName_object, if_neg (Ne.symm hauxObject), if_pos rfl, observerWord,
      if_pos (.inr rfl)] at hobject
    exact (Text.expanded_eq_self_iff isName_object.2).1 hobject
  refine ⟨hplain, Bool.eq_false_iff.2 fun hobject => ?_⟩
  have hself := hword n.aux haux
  rw [typeWord_eq haux haux, if_pos rfl, observerWord, if_pos (.inl rfl),
    (Text.expanded_eq_self_iff haux.2).2 hplain] at hself
  exact renameWord_object_ne hplain hobserver hobject hself

end

/-- A type is rewritten word by word. Of its words only the dispatcher and `Object` change, unless the name of the
dispatcher is empty. All types get the name of the observer literally and once if it is plain and does not have
`Object` as a word, and only then. -/
theorem typeName_words (haux : ∀ c ∈ n.aux.toList, Text.isWord c = true) :
    (∀ ty, n.typeName ty = Text.mapWords n.typeWord ty) ∧
    (n.aux ≠ "" →
      (∀ w, Text.IsName w.toList → n.typeWord w =
        if w = n.aux then Text.renameWord "Object" n.observer (Text.expanded n.aux n.observer)
        else if w = "Object" then Text.expanded "Object" n.observer else w) ∧
      (Text.isPlain n.observer.toList = true → Text.hasWord "Object" n.observer = false →
        ∀ ty, n.typeName ty = Text.mapWords n.observerWord ty) ∧
      (n.aux ≠ "Object" → n.observer ≠ "Object" → (∀ ty, n.typeName ty = Text.mapWords n.observerWord ty) →
        Text.isPlain n.observer.toList = true ∧ Text.hasWord "Object" n.observer = false)) := by
  refine ⟨typeName_eq_mapWords haux, fun hempty => ?_⟩
  have hname : Text.IsName n.aux.toList := ⟨fun h => hempty (String.toList_inj.1 h), haux⟩
  refine ⟨fun w hw => typeWord_eq hname hw, ?_, plain_of_literal hname⟩
  intro hplain hobject ty
  rw [typeName_eq_mapWords haux]
  exact Text.mapWords_congr fun w hw _ => typeWord_of_plain hname hplain hobject hw

end Names

/-- The names at a door for an opening, with the bell of any name. -/
def Door.names (observer : String) : Names where
  aux := "AuxObserverOpening"
  genericCollection := "_obs"
  collection := "_bells"
  eventParam := "opening"
  observer := observer
  update := "ring"
  omitted := none
  location := "Door"

theorem Names.typeName_words_door :
    (∀ ty, (Door.names "Bell").typeName ty = Text.mapWords (Door.names "Bell").observerWord ty) ∧
    ¬∀ ty, (Door.names "Hand$Bell").typeName ty = Text.mapWords (Door.names "Hand$Bell").observerWord ty := by
  constructor
  · obtain ⟨-, h⟩ := Names.typeName_words (n := Door.names "Bell") (Text.isWord_of_all (by decide +kernel))
    exact (h (by decide)).2.1 (by decide +kernel) (by decide +kernel)
  · obtain ⟨-, h⟩ := Names.typeName_words (n := Door.names "Hand$Bell") (Text.isWord_of_all (by decide +kernel))
    intro hall
    have hplain := ((h (by decide)).2.2 (by decide) (by decide) hall).1
    revert hplain
    decide +kernel

end ObserverPattern.HandleBody
