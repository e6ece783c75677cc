import ObserverPattern.Proofs.Decoder.Commuting
import ObserverPattern.Proofs.Decoder.Retyping
import ObserverPattern.Proofs.Decoder.Types
import ObserverPattern.Proofs.Program.Inside

/-!
# The names of one dispatcher

Names are looked up in three ways: a field by its type, a variable or member by the dispatchers that occur in it, a
type by the dispatchers among its words. All of them find the dispatcher that the name is made of, also where one
dispatcher is part of another one.

* `decode_ownNames`: after a decode, what is called after a dispatcher is called after its own subject.
-/

namespace ObserverPattern

namespace Decoder

variable {c : Conventions} {events : EventTable} {t : Trace} {d d' : Decoder} {q q' : Program} {s : Summary}
  {p : Position} {r : Registry} {aux : String} {subject : ClassDecl}

/-- Dispatchers with names of ASCII letters, digits and underscores, which have the marker and differ in lower case,
and subjects with such names. -/
structure AsciiNames (q : Program) (d' : Decoder) : Prop where
  nonempty : ∀ aux ∈ q.template.auxs, aux ≠ ""
  auxs : ∀ aux ∈ q.template.auxs, aux.toList.all Text.isGroupChar = true
  marked : ∀ aux ∈ q.template.auxs, d'.isMarked aux = true
  distinct : ∀ aux ∈ q.template.auxs, ∀ other ∈ q.template.auxs, Text.lower aux = Text.lower other → aux = other
  subjects : ∀ row ∈ d'.subjects, ∀ k ∈ q.registry.class? row.2, k.name.toList.all Text.isGroupChar = true

instance (q : Program) (d' : Decoder) : Decidable (AsciiNames q d') :=
  decidable_of_iff
    ((∀ aux ∈ q.template.auxs, aux ≠ "") ∧ (∀ aux ∈ q.template.auxs, aux.toList.all Text.isGroupChar = true) ∧
      (∀ aux ∈ q.template.auxs, d'.isMarked aux = true) ∧
        (∀ aux ∈ q.template.auxs, ∀ other ∈ q.template.auxs, Text.lower aux = Text.lower other → aux = other) ∧
          ∀ row ∈ d'.subjects, ∀ k ∈ q.registry.class? row.2, k.name.toList.all Text.isGroupChar = true)
    ⟨fun h => ⟨h.1, h.2.1, h.2.2.1, h.2.2.2.1, h.2.2.2.2⟩,
      fun h => ⟨h.nonempty, h.auxs, h.marked, h.distinct, h.subjects⟩⟩

/-- What is called after a dispatcher at a place is called after a class. -/
structure CalledAfter (d : Decoder) (p : Position) (aux name : String) : Prop where
  field : ∀ init, d.onField p ⟨aux, Text.lower aux, init⟩ = .ok [⟨name, Text.lower name, init⟩]
  used : d.UsedAs p (Text.lower aux) (Text.lower name)
  declared : ∀ target value, d.onStmt p (.assign (some aux) target value) = .ok [.assign (some name) target value]
  cast : ∀ e, d.onExpr p (.cast aux e) = .ok (.cast name e)

/-- A dispatcher that is marked and finds itself gives its names to its subject. -/
theorem calledAfter_of_own (hmarked : d.isMarked aux = true) (hsubject : d.boundSubject p.registry aux = .ok subject)
    (hname : d.concreteName p.registry (Text.lower aux) = .ok (Text.lower subject.name))
    (htype : d.concreteType p.registry aux = .ok subject.name) : d.CalledAfter p aux subject.name where
  field init := by
    simp only [onField, hmarked, Bool.true_and, beq_self_eq_true, if_true, hsubject]
    rfl
  used := usedAs_iff.2 (concreteName_eq_ok.1 hname)
  declared target value := by
    simp only [onStmt, hmarked, if_true, htype]
    rfl
  cast e := by
    simp only [onExpr, hmarked, if_true, htype]
    rfl

/-- Among names, only a name itself is a word of it. -/
theorem concreteType_self (hnames : ∀ other ∈ d.auxNames, Text.IsName other.toList) (hknown : aux ∈ d.auxNames)
    (hsubject : d.boundSubject r aux = .ok subject) (hplain : Text.isPlain subject.name.toList = true) :
    d.concreteType r aux = .ok subject.name := by
  have haux := hnames aux hknown
  have hself : Text.hasWord aux aux = true := (Text.hasWord_of_isName haux haux).2 rfl
  have hfind : d.auxNames.find? (Text.hasWord · aux) = some aux := by
    obtain ⟨other, hother⟩ := Option.isSome_iff_exists.1
      (List.find?_isSome.2 ⟨aux, hknown, hself⟩ : (d.auxNames.find? (Text.hasWord · aux)).isSome = true)
    have hword : Text.hasWord other aux = true := by simpa using List.find?_some hother
    rwa [(Text.hasWord_of_isName haux (hnames other (List.mem_of_find?_eq_some hother))).1 hword] at hother
  refine concreteType_eq_ok.2 ⟨aux, subject, hfind, hsubject, ?_⟩
  rw [Text.renameWord_of_isName haux haux, if_pos rfl, (Text.expanded_eq_self_iff haux.2).2 hplain]

/-! ## After a decode -/

/-- A decode leaves each name once, the longest first. -/
private theorem auxNames_of_decode (h : d.decode q = .ok (d', q', s)) :
    (d'.auxNames.Pairwise fun a b => b.utf8ByteSize ≤ a.utf8ByteSize) ∧ d'.auxNames.Nodup := by
  obtain ⟨d₁, q₁, -, -, rfl, -, -⟩ := decode_eq_ok h
  exact ⟨pairwise_longestFirst _, (perm_longestFirst d₁.resolved.keys).nodup_iff.2 d₁.resolved.nodup⟩

/-- The subject of a decoded dispatcher is a class of the program. -/
theorem decode_boundSubject (h : d.decode q = .ok (d', q', s)) (haux : aux ∈ q.template.auxs) :
    ∃ participants subject, d'.resolved.get? aux = some participants ∧
      q.registry.class? participants.subject = some subject ∧ d'.boundSubject q.registry aux = .ok subject := by
  obtain ⟨casting, hcasts, hget⟩ := decode_resolved h haux
  obtain ⟨d₁, q₁, hvalid, -, -, -, -⟩ := decode_eq_ok h
  have hclosed := (Program.validate_eq_ok_iff.1 hvalid).closed
  have hevent : (q.registry.class? casting.dispatcher.event).isSome := by
    obtain ⟨k, hk, -⟩ := Registry.className_eq_ok.1 hcasts.event
    exact Option.isSome_iff_exists.2 ⟨k, hk⟩
  have hinside := Participants.resolve_inside hclosed d.bindings aux hevent (d.events.counts casting.event)
  rw [hcasts.participants] at hinside
  obtain ⟨subject, hsubject⟩ := Option.isSome_iff_exists.1 hinside.subject
  refine ⟨casting.participants, subject, hget, hsubject, ?_⟩
  rw [boundSubject, hget]
  exact Registry.getClass_eq_ok.2 hsubject

/-- What is called after a decoded dispatcher, as a field, a variable, a member or a type, is called after the subject
of this dispatcher, whatever other dispatchers have been decoded. -/
theorem decode_ownNames (h : (ofTrace c events t).decode q = .ok (d', q', s)) (hnames : AsciiNames q d') :
    ∀ aux ∈ q.template.auxs, ∃ participants subject, d'.resolved.get? aux = some participants ∧
      q.registry.class? participants.subject = some subject ∧
        ∀ p : Position, p.registry.skeleton = q.registry.skeleton → d'.CalledAfter p aux subject.name := by
  have hchars : ∀ other ∈ d'.auxNames, ∀ x ∈ other.toList, Text.isGroupChar x = true := fun other hother =>
    List.all_eq_true.1 (hnames.auxs other ((mem_auxNames h).1 hother))
  have hname : ∀ other ∈ d'.auxNames, Text.IsName other.toList := by
    intro other hother
    refine ⟨fun hnil => ?_, fun x hx => Text.isWord_of_isGroupChar (hchars other hother x hx)⟩
    exact hnames.nonempty other ((mem_auxNames h).1 hother) (String.toList_inj.1 hnil)
  have hascii : ∀ other ∈ d'.auxNames, Text.IsAscii other.toList := fun other hother x hx =>
    Text.isAscii_of_isGroupChar (hchars other hother x hx)
  obtain ⟨hsorted, hnodup⟩ := auxNames_of_decode h
  have hdistinct : (d'.auxNames.map Text.lower).Nodup := hnodup.map_on fun other hother another hanother =>
    hnames.distinct other ((mem_auxNames h).1 hother) another ((mem_auxNames h).1 hanother)
  intro aux haux
  obtain ⟨participants, subject, hget, hclass, hbound⟩ := decode_boundSubject h haux
  refine ⟨participants, subject, hget, hclass, fun p hp => ?_⟩
  obtain ⟨subject', hsubject', hsame⟩ := boundSubject_of_skeleton_eq hp hbound
  have hmem : aux ∈ d'.auxNames := (mem_auxNames h).2 haux
  have hmarked := hnames.marked aux haux
  rw [← hsame]
  refine calledAfter_of_own hmarked hsubject' ?_ (concreteType_self hname hmem hsubject' ?_)
  · have hcalled : d'.calledAfterType ⟨aux, Text.lower aux, none⟩ = true := by
      rw [calledAfterType, hmarked, Bool.true_and, beq_self_eq_true]
    refine concreteName_eq_ok.2 (uses_called hsorted hascii hdistinct hcalled hmem ?_)
    rw [Declares, if_pos hcalled]
    exact ⟨subject', hsubject', rfl⟩
  · have hrow : (aux, participants.subject) ∈ d'.subjects :=
      List.mem_map.2 ⟨(aux, participants), Table.mem_entries_of_get? hget, rfl⟩
    have hall := List.all_eq_true.1 (hnames.subjects _ hrow subject hclass)
    rw [hsame]
    exact Text.isPlain_of_notMem (Text.dollar_notMem_of_isWord fun x hx => Text.isWord_of_isGroupChar (hall x hx))

end Decoder

/-! ## A dispatcher in the name of another one -/

namespace Station

/-- The station and the tower, with a dispatcher for readings and one for alarms about readings. -/
def nested : Program where
  template := { withTower.template with auxs := ["AuxObserverReading", "AuxObserverReadingAlarm"] }
  registry := (withTower.registry.modifyClass ⟨1⟩ fun k =>
    { k with name := "AuxObserverReadingAlarm" }).modifyMethod ⟨1⟩ fun _ =>
      genericHandle ⟨1⟩ "AuxObserverReadingAlarm" "Alarm"

def nestedDecoder : Decoder :=
  .ofTrace .default (Table.ofList [("Reading", ⟨1, 0, 0⟩), ("Alarm", ⟨1, 0, 0⟩)])
    ⟨.empty, Table.ofList [("subject_AuxObserverReading", 4), ("observer_AuxObserverReading", 5),
      ("handle_AuxObserverReading", 2), ("update_AuxObserverReading", 5), ("subject_AuxObserverReadingAlarm", 7),
      ("observer_AuxObserverReadingAlarm", 6), ("handle_AuxObserverReadingAlarm", 3),
      ("update_AuxObserverReadingAlarm", 6)]⟩

end Station

namespace Decoder

theorem decode_ownNames_nested : ∃ d' q' s, Station.nestedDecoder.decode Station.nested = .ok (d', q', s) ∧
    AsciiNames Station.nested d' ∧ d'.CalledAfter ⟨q'.registry, ⟨4⟩, none, 0, 256⟩ "AuxObserverReading" "Station" ∧
      d'.CalledAfter ⟨q'.registry, ⟨4⟩, none, 0, 256⟩ "AuxObserverReadingAlarm" "Tower" := by
  have hdecode : okAnd (Station.nestedDecoder.decode Station.nested) (fun x => AsciiNames Station.nested x.1 ∧
      (x.1.resolved.get? "AuxObserverReading").map (·.subject) = some ⟨4⟩ ∧
        (x.1.resolved.get? "AuxObserverReadingAlarm").map (·.subject) = some ⟨7⟩) = true := by
    decide +kernel
  obtain ⟨⟨d', q', s⟩, h, hresult⟩ := okAnd_eq_true.1 hdecode
  obtain ⟨hnames, hstation, htower⟩ := of_decide_eq_true hresult
  have hown := decode_ownNames h hnames
  have hskeleton := (decode_later h).skeleton
  refine ⟨d', q', s, h, hnames, ?_, ?_⟩
  · obtain ⟨participants, subject, hget, hclass, hcalled⟩ := hown "AuxObserverReading" (by decide)
    have hsubject : participants.subject = ⟨4⟩ := Option.some.inj (by rwa [hget] at hstation)
    rw [hsubject] at hclass
    have hname : subject.name = "Station" := congrArg ClassDecl.name (Option.some.inj hclass).symm
    exact hname ▸ hcalled _ hskeleton
  · obtain ⟨participants, subject, hget, hclass, hcalled⟩ := hown "AuxObserverReadingAlarm" (by decide)
    have hsubject : participants.subject = ⟨7⟩ := Option.some.inj (by rwa [hget] at htower)
    rw [hsubject] at hclass
    have hname : subject.name = "Tower" := congrArg ClassDecl.name (Option.some.inj hclass).symm
    exact hname ▸ hcalled _ hskeleton

end Decoder

end ObserverPattern
