import ObserverPattern.Proofs.Decoder.Naming
import ObserverPattern.Proofs.Text.Rewording

/-!
# Types word by word

A type is rewritten for one dispatcher: the longest that is a word of it. Other dispatchers in the type stay, and the
name of the subject is read as a replacement text.

* `concreteType_words`: what a type becomes. It gets, word by word and literally, the subjects of all its dispatchers
  if the name of the subject is plain and no other dispatcher is a word of the type, and otherwise not.
-/

namespace ObserverPattern.Decoder

variable {d : Decoder} {r r₀ : Registry} {aux ty ty' : String} {subject : ClassDecl}

/-- A word with the name of its subject in the place of a dispatcher. -/
def subjectWord (d : Decoder) (r : Registry) (w : String) : String :=
  match d.boundSubject r w with
  | .ok subject => subject.name
  | .error _ => w

theorem subjectWord_of_boundSubject (h : d.boundSubject r aux = .ok subject) :
    d.subjectWord r aux = subject.name := by
  rw [subjectWord, h]

private theorem mem_of_boundSubject (h : d.boundSubject r aux = .ok subject) : subject ∈ r.classes := by
  unfold boundSubject at h
  split at h
  · exact List.mem_of_getElem? (Registry.getClass_eq_ok.1 h)
  · cases h

/-- Words that are no dispatchers stay. -/
theorem subjectWord_of_notMem {w : String} (h : w ∉ d.resolved.keys) : d.subjectWord r w = w := by
  have hnone : d.resolved.get? w = none := by
    rwa [← Option.not_isSome_iff_eq_none, Table.isSome_get?]
  rw [subjectWord, boundSubject, hnone]

/-- No word of a type but the given one is to be replaced. -/
def Alone (d : Decoder) (r : Registry) (aux ty : String) : Prop :=
  ∀ w, Text.IsName w.toList → Text.hasWord w ty = true → w ≠ aux → d.subjectWord r w = w

theorem alone_of_keys (h : ∀ other ∈ d.resolved.keys, other ≠ aux → Text.hasWord other ty = false) :
    d.Alone r aux ty := by
  intro w _ hword hne
  refine subjectWord_of_notMem fun hmem => ?_
  rw [h w hmem hne] at hword
  cases hword

/-- A type is rewritten for the first dispatcher in it, if this has a subject. -/
theorem concreteType_eq_ok : d.concreteType r ty = .ok ty' ↔ ∃ aux subject,
    d.auxNames.find? (Text.hasWord · ty) = some aux ∧ d.boundSubject r aux = .ok subject ∧
      Text.renameWord aux subject.name ty = ty' := by
  unfold concreteType
  cases hfind : d.auxNames.find? (Text.hasWord · ty) with
  | none => simp
  | some aux => simp only [bind_eq_ok, pure_eq_ok, Option.some.injEq, exists_and_left, exists_eq_left']

/-! ## When the subjects are put in literally -/

section

variable (haux : Text.IsName aux.toList)

include haux

private theorem renamed_of_isName (new w : String) :
    Text.renamed aux new w = if w = aux then Text.expanded aux new else w := by
  rw [Text.renamed, if_neg]
  rintro rfl
  exact haux.1 rfl

/-- A plain subject whose dispatcher is alone in a type is put in literally. -/
private theorem mapWords_eq_of_plain (hsubject : d.boundSubject r aux = .ok subject)
    (hplain : Text.isPlain subject.name.toList = true) (halone : d.Alone r aux ty) :
    Text.mapWords (Text.renamed aux subject.name) ty = Text.mapWords (d.subjectWord r) ty := by
  refine Text.mapWords_congr fun w hw hword => ?_
  rw [renamed_of_isName haux]
  split
  · next heq =>
    subst heq
    rw [subjectWord_of_boundSubject hsubject, (Text.expanded_eq_self_iff haux.2).2 hplain]
  · next hne => exact (halone w hw hword hne).symm

/-- No word gets more dollar signs than the subject has. -/
private theorem count_renamed_le (hsubject : d.boundSubject r aux = .ok subject) {w : String}
    (hw : Text.IsName w.toList) :
    (Text.renamed aux subject.name w).toList.count '$' ≤ (d.subjectWord r w).toList.count '$' := by
  rw [renamed_of_isName haux]
  split
  · next heq =>
    subst heq
    rw [subjectWord_of_boundSubject hsubject]
    exact Text.count_expanded_le haux.2 subject.name
  · rw [List.count_eq_zero.2 (Text.dollar_notMem_of_isWord hw.2)]
    exact Nat.zero_le _

/-- If the subjects are put in literally, they keep their dollar signs. So the name of the one is plain and the others
have no dollar signs, and then words can be told apart in the result. -/
private theorem plain_of_mapWords_eq (hword : Text.hasWord aux ty = true)
    (hsubject : d.boundSubject r aux = .ok subject)
    (hidentifier : ∀ k ∈ r.classes, ∀ c ∈ k.name.toList, Text.isWord c = true ∨ c = '$')
    (h : Text.mapWords (Text.renamed aux subject.name) ty = Text.mapWords (d.subjectWord r) ty) :
    Text.isPlain subject.name.toList = true ∧ d.Alone r aux ty := by
  have hnever : ∀ w, Text.IsName w.toList → Text.hasWord w ty = true →
      ¬(Text.renamed aux subject.name w).toList.count '$' < (d.subjectWord r w).toList.count '$' := by
    intro w hw hword hlt
    have hmore := Text.countP_mapWords_lt (fun _ => count_renamed_le haux hsubject) hw hword hlt
    rw [h] at hmore
    exact Nat.lt_irrefl _ hmore
  have hplain : Text.isPlain subject.name.toList = true := by
    by_contra hplain
    refine hnever aux haux hword ?_
    rw [renamed_of_isName haux, if_pos rfl, subjectWord_of_boundSubject hsubject]
    exact Text.count_expanded_lt haux.2 (Bool.eq_false_iff.2 hplain)
  have hwords : ∀ w, Text.IsName w.toList → Text.hasWord w ty = true →
      Text.renamed aux subject.name w = d.subjectWord r w := by
    refine fun w => Text.mapWords_inj (fun w hw hword => ?_) h
    by_cases hwaux : w = aux
    · subst hwaux
      rw [renamed_of_isName haux, if_pos rfl, subjectWord_of_boundSubject hsubject]
      exact .inl ((Text.expanded_eq_self_iff haux.2).2 hplain)
    · have hnone := hnever w hw hword
      rw [renamed_of_isName haux, if_neg hwaux] at hnone ⊢
      refine .inr ⟨hw.2, fun c hc => ?_⟩
      cases hbound : d.boundSubject r w with
      | error e =>
        rw [subjectWord, hbound] at hc
        exact hw.2 c hc
      | ok other =>
        rw [subjectWord_of_boundSubject hbound] at hc hnone
        refine (hidentifier other (mem_of_boundSubject hbound) c hc).resolve_right ?_
        rintro rfl
        rw [List.count_eq_zero.2 (Text.dollar_notMem_of_isWord hw.2)] at hnone
        exact hnone (List.count_pos_iff.2 hc)
  refine ⟨hplain, fun w hw hword hne => ?_⟩
  rw [← hwords w hw hword, renamed_of_isName haux, if_neg hne]

end

/-- What a type becomes: of its words only the longest dispatcher is replaced, by the name of its subject as a
replacement text. With a plain name and no other dispatcher in the type this puts in the subjects of all dispatchers
literally, and if the names of classes are identifiers, nothing else does. -/
theorem concreteType_words (hauxs : ∀ aux ∈ d.resolved.keys, ∀ c ∈ aux.toList, Text.isWord c = true)
    (h : (d.prepare r₀).concreteType r ty = .ok ty') : ∃ aux subject,
    (longestFirst d.resolved.keys).find? (Text.hasWord · ty) = some aux ∧
    (∀ other ∈ d.resolved.keys, Text.hasWord other ty = true → other.utf8ByteSize ≤ aux.utf8ByteSize) ∧
    d.boundSubject r aux = .ok subject ∧
    ty' = Text.mapWords (Text.renamed aux subject.name) ty ∧
    (aux ≠ "" →
      (Text.isPlain subject.name.toList = true → d.Alone r aux ty → ty' = Text.mapWords (d.subjectWord r) ty) ∧
      ((∀ k ∈ r.classes, ∀ c ∈ k.name.toList, Text.isWord c = true ∨ c = '$') →
        ty' = Text.mapWords (d.subjectWord r) ty → Text.isPlain subject.name.toList = true ∧ d.Alone r aux ty)) := by
  obtain ⟨aux, subject, hfind, hsubject, rfl⟩ := concreteType_eq_ok.1 h
  have hword : Text.hasWord aux ty = true := by simpa using List.find?_some hfind
  have hmem : aux ∈ d.resolved.keys := mem_longestFirst.1 (List.mem_of_find?_eq_some hfind)
  have hlongest : ∀ other ∈ d.resolved.keys, Text.hasWord other ty = true →
      other.utf8ByteSize ≤ aux.utf8ByteSize := by
    intro other hother hword
    rcases find?_pairwise (pairwise_longestFirst _) hfind (mem_longestFirst.2 hother) hword with rfl | hle
    · exact Nat.le_refl _
    · exact hle
  refine ⟨aux, subject, hfind, hlongest, hsubject, Text.renameWord_eq_mapWords (hauxs aux hmem) _ _, fun hempty => ?_⟩
  have haux : Text.IsName aux.toList := ⟨fun h => hempty (String.toList_inj.1 h), hauxs aux hmem⟩
  rw [Text.renameWord_eq_mapWords haux.2]
  exact ⟨mapWords_eq_of_plain haux hsubject, plain_of_mapWords_eq haux hword hsubject⟩

/-- At the station a list of one dispatcher gets the subject literally, and a map between two does not. -/
theorem concreteType_words_station :
    let d := Station.decoder.recordAll [("AuxObserverReading", readings), ("AuxObserverAlarm", alarms)]
    let r := Station.program.registry
    (∃ ty', (d.prepare r).concreteType r "List<AuxObserverReading>" = .ok ty' ∧
      ty' = Text.mapWords (d.subjectWord r) "List<AuxObserverReading>") ∧
    ∃ ty', (d.prepare r).concreteType r "Map<AuxObserverReading, AuxObserverAlarm>" = .ok ty' ∧
      ty' ≠ Text.mapWords (d.subjectWord r) "Map<AuxObserverReading, AuxObserverAlarm>" := by
  intro d r
  have hall : ∀ aux ∈ d.resolved.keys, aux.toList.all Text.isGroupChar = true := by decide +kernel
  have hauxs : ∀ aux ∈ d.resolved.keys, ∀ c ∈ aux.toList, Text.isWord c = true := fun aux haux =>
    Text.isWord_of_all (hall aux haux)
  have hsubject : (d.boundSubject r "AuxObserverReading").map (·.name) = .ok "Station" := by decide +kernel
  constructor
  · have h : (d.prepare r).concreteType r "List<AuxObserverReading>" = .ok "List<Station>" := by decide +kernel
    have hfind : (longestFirst d.resolved.keys).find? (Text.hasWord · "List<AuxObserverReading>") =
        some "AuxObserverReading" := by decide +kernel
    obtain ⟨aux, subject, haux, -, hbound, -, hliteral⟩ := concreteType_words hauxs h
    obtain rfl := Option.some.inj (hfind.symm.trans haux)
    rw [hbound] at hsubject
    have hname : subject.name = "Station" := Except.ok.inj hsubject
    refine ⟨_, h, (hliteral (by decide)).1 (hname ▸ by decide +kernel) (alone_of_keys (by decide +kernel))⟩
  · have h : (d.prepare r).concreteType r "Map<AuxObserverReading, AuxObserverAlarm>" =
        .ok "Map<Station, AuxObserverAlarm>" := by decide +kernel
    have hfind : (longestFirst d.resolved.keys).find? (Text.hasWord · "Map<AuxObserverReading, AuxObserverAlarm>") =
        some "AuxObserverReading" := by decide +kernel
    have hclasses : ∀ k ∈ r.classes, k.name.toList.all Text.isGroupChar = true := by decide +kernel
    have hidentifier : ∀ k ∈ r.classes, ∀ c ∈ k.name.toList, Text.isWord c = true ∨ c = '$' := fun k hk c hc =>
      .inl (Text.isWord_of_all (hclasses k hk) c hc)
    obtain ⟨aux, subject, haux, -, -, -, hliteral⟩ := concreteType_words hauxs h
    obtain rfl := Option.some.inj (hfind.symm.trans haux)
    refine ⟨_, h, fun hall => ?_⟩
    have halone := ((hliteral (by decide)).2 hidentifier hall).2 "AuxObserverAlarm" (by decide +kernel)
      (by decide +kernel) (by decide)
    revert halone
    decide +kernel

end ObserverPattern.Decoder
