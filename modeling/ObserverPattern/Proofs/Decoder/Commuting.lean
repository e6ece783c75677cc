import ObserverPattern.Proofs.Decoder.Skeleton
import ObserverPattern.Proofs.Structure.Footprint

/-!
# Independent dispatchers

The order in which dispatchers are decoded matters only where one reads or writes what another one
writes. Two dispatchers are independent (`Independent`) if they have different subjects, write different
methods, neither writes the generic handle of the other, and they move facts between different keys.

* `transplant_comm`: the registry that independent dispatchers leave does not depend on their order;
* `decodeDispatchers_swap`: neighbours in a row that are independent can be decoded in either order.
-/

namespace ObserverPattern

/-- A registry is known by its look-ups. -/
theorem Registry.ext_lookup {r s : Registry} (hclass : ∀ id, r.class? id = s.class? id)
    (hmethod : ∀ id, r.method? id = s.method? id) : r = s := by
  obtain ⟨classes, methods⟩ := r
  obtain ⟨classes', methods'⟩ := s
  obtain rfl : classes = classes' := List.ext_getElem? fun i => hclass ⟨i⟩
  obtain rfl : methods = methods' := List.ext_getElem? fun i => hmethod ⟨i⟩
  rfl

namespace Decoder

variable {d d' : Decoder} {p p' : Program} {aux other : String} {a b : Casting}

/-- The dispatchers of different names are different classes. -/
theorem Casts.id_ne {r : Registry} (ha : d.Casts r aux a) (hb : d.Casts r other b) (hne : aux ≠ other) :
    a.id ≠ b.id := by
  intro heq
  obtain ⟨c, hc, rfl⟩ := Registry.classNamed?_eq_some ha.classNamed
  obtain ⟨c', hc', rfl⟩ := Registry.classNamed?_eq_some hb.classNamed
  rw [heq] at hc
  exact hne (congrArg ClassDecl.name (Option.some.inj (hc.symm.trans hc')))

/-- The keys of the facts that are moved for a dispatcher. -/
def factKeys (aux : String) (c : Casting) : List String := [genericKey aux c.event, c.key]

/-- Two dispatchers that do not read or write what the other one writes. -/
structure Independent (r : Registry) (aux : String) (a : Casting) (other : String) (b : Casting) : Prop where
  subject : a.participants.subject ≠ b.participants.subject
  writes : ∀ k, a.participants.Writes r k → ¬ b.participants.Writes r k
  generic : ¬ b.participants.Writes r a.dispatcher.handle
  generic' : ¬ a.participants.Writes r b.dispatcher.handle
  facts : ∀ key ∈ factKeys aux a, key ∉ factKeys other b

private theorem Independent.of_skeleton_eq {r r' : Registry} (h : Independent r aux a other b)
    (hr : r'.skeleton = r.skeleton) : Independent r' aux a other b where
  subject := h.subject
  writes k hk hk' := h.writes k ((Participants.writes_congr hr _ k).1 hk) ((Participants.writes_congr hr _ k).1 hk')
  generic hk := h.generic ((Participants.writes_congr hr _ _).1 hk)
  generic' hk := h.generic' ((Participants.writes_congr hr _ _).1 hk)
  facts := h.facts

/-! ## The registry -/

/-- What is read for one dispatcher stays as it is when the code of another one is written elsewhere. -/
private theorem agreeOn_transplant {c : Conventions} {r s : Registry} {q q' : Participants}
    {generic generic' : MethodId} (h : transplant c r other q' generic' = .ok s) (hsubject : q.subject ≠ q'.subject)
    (hwrites : ∀ k, q.Writes r k → ¬ q'.Writes r k) (hgeneric : ¬ q'.Writes r generic) :
    Registry.AgreeOn (· = q.subject) (fun k => q.Writes r k ∨ k = generic) r s := by
  have hkeeps := (transplant_eq_ok h).1
  refine ⟨hkeeps.skeleton, ?_, ?_⟩
  · rintro _ rfl
    exact hkeeps.classes _ hsubject
  · rintro k (hk | rfl)
    · exact hkeeps.methods k (hwrites k hk)
    · exact hkeeps.methods k hgeneric

/-- If no participants of one dispatcher are written for the other, either can be given its code first. -/
theorem transplant_comm {c : Conventions} {r r₁ r₂ : Registry} {q q' : Participants} {generic generic' : MethodId}
    (h₁ : transplant c r aux q generic = .ok r₁) (h₂ : transplant c r₁ other q' generic' = .ok r₂)
    (hsubject : q.subject ≠ q'.subject) (hwrites : ∀ k, q.Writes r k → ¬ q'.Writes r k)
    (hgeneric : ¬ q'.Writes r generic) (hgeneric' : ¬ q.Writes r generic') :
    ∃ s₁, transplant c r other q' generic' = .ok s₁ ∧ transplant c s₁ aux q generic = .ok r₂ := by
  -- Each dispatcher sees the same before the other one is decoded and after.
  have hseen' := agreeOn_transplant h₁ (Ne.symm hsubject) (fun k hk' hk => hwrites k hk hk') hgeneric'
  obtain ⟨s₁, hs₁, hagree₁⟩ := hseen'.symm.transplant_follows c other q' (.inr rfl) r₂ h₂
  have hseen := agreeOn_transplant hs₁ hsubject hwrites hgeneric
  obtain ⟨s₂, hs₂, hagree₂⟩ := hseen.transplant_follows c aux q (.inr rfl) r₁ h₁
  refine ⟨s₁, hs₁, ?_⟩
  rw [hs₂]
  congr 1
  have hkeeps₁ := (transplant_eq_ok h₁).1
  have hkeeps₂ := (transplant_eq_ok h₂).1
  have hkeeps₁' := (transplant_eq_ok hs₁).1
  have hkeeps₂' := (transplant_eq_ok hs₂).1
  have hmethods₂ : ∀ k, ¬ q'.Writes r k → r₂.method? k = r₁.method? k := fun k hk =>
    hkeeps₂.methods k fun hk' => hk ((q'.writes_congr hkeeps₁.skeleton k).1 hk')
  have hmethods₂' : ∀ k, ¬ q.Writes r k → s₂.method? k = s₁.method? k := fun k hk =>
    hkeeps₂'.methods k fun hk' => hk ((q.writes_congr hkeeps₁'.skeleton k).1 hk')
  refine Registry.ext_lookup (fun k => ?_) fun k => ?_
  · by_cases hk : k = q.subject
    · rw [hagree₂.class?_eq k hk, hkeeps₂.classes k (hk ▸ hsubject)]
    · rw [hkeeps₂'.classes k hk]
      by_cases hk' : k = q'.subject
      · exact hagree₁.class?_eq k hk'
      · rw [hkeeps₁'.classes k hk', hkeeps₂.classes k hk', hkeeps₁.classes k hk]
  · by_cases hk : q.Writes r k
    · rw [hagree₂.method?_eq k (.inl hk), hmethods₂ k (hwrites k hk)]
    · rw [hmethods₂' k hk]
      by_cases hk' : q'.Writes r k
      · exact hagree₁.method?_eq k (.inl hk')
      · rw [hkeeps₁'.methods k hk', hmethods₂ k hk', hkeeps₁.methods k hk]

/-! ## The decoder -/

/-- Decoders with the same facts and participants, whatever the order in which they learned them. -/
structure SameKnowledge (d e : Decoder) : Prop where
  facts : ∀ key, e.facts.get? key = d.facts.get? key
  resolved : ∀ name, e.resolved.get? name = d.resolved.get? name

theorem SameKnowledge.recordAll {e : Decoder} (h : d.SameKnowledge e) (rows : List (String × Casting)) :
    (d.recordAll rows).SameKnowledge (e.recordAll rows) where
  facts key := by
    rw [facts_recordAll, facts_recordAll, Facts.get?_moveAll_congr h.facts]
  resolved name := by
    obtain ⟨o, ho⟩ := exists_get?_recordAll rows name
    rw [ho, ho, h.resolved]

/-- Castings with different names and keys can be recorded in either order. -/
theorem record_comm (d : Decoder) (hne : aux ≠ other) (hkeys : ∀ key ∈ factKeys aux a, key ∉ factKeys other b) :
    ((d.record aux a).record other b).SameKnowledge ((d.record other b).record aux a) where
  facts key := by
    simp only [factKeys, List.mem_cons, List.not_mem_nil, or_false, forall_eq_or_imp, forall_eq, not_or] at hkeys
    obtain ⟨⟨h₁, h₂⟩, h₃, h₄⟩ := hkeys
    exact (Facts.get?_move_comm d.facts h₁ h₂ h₃ h₄ key).symm
  resolved name := by
    simp only [get?_resolved_record]
    by_cases h : name = aux
    · rw [if_pos h, if_neg (h ▸ hne), if_pos h]
    · rw [if_neg h, if_neg h]

/-- Two neighbours in a row of dispatchers that are independent can be decoded in either order: if one
order succeeds, so does the other, with the same program and the same facts and participants under every
key and name. -/
theorem decodeDispatchers_swap (pre post : List String)
    (h : d.decodeDispatchers p (pre ++ aux :: other :: post) = .ok (d', p')) (hne : aux ≠ other)
    (ha : d.Casts p.registry aux a) (hb : d.Casts p.registry other b)
    (hind : Independent p.registry aux a other b) :
    ∃ e', d.decodeDispatchers p (pre ++ other :: aux :: post) = .ok (e', p') ∧
      (∀ key, e'.facts.get? key = d'.facts.get? key) ∧ ∀ name, e'.resolved.get? name = d'.resolved.get? name := by
  obtain ⟨d₁, p₁, h₁, h⟩ := decodeDispatchers_append.1 h
  obtain ⟨a', r₂, ha', htransplant₁, hlisted₁, h⟩ := decodeDispatchers_cons.1 h
  obtain ⟨b', r₃, hb', htransplant₂, hlisted₂, h⟩ := decodeDispatchers_cons.1 h
  have hlater₁ := decodeDispatchers_later h₁
  have hkeeps := (transplant_eq_ok htransplant₁).1
  have hlater₂ : Later d₁ p₁.registry (d₁.record aux a') r₂ := ⟨rfl, rfl, rfl, hkeeps.skeleton⟩
  have hb₁ := hlater₂.casts_iff.1 hb'
  obtain rfl := ha.unique (hlater₁.casts_iff.1 ha')
  obtain rfl := hb.unique (hlater₁.casts_iff.1 hb₁)
  have hid := ha.id_ne hb hne
  have hind₁ := hind.of_skeleton_eq hlater₁.skeleton
  obtain ⟨s₂, hs₂, hs₃⟩ := transplant_comm htransplant₁ htransplant₂ hind₁.subject hind₁.writes hind₁.generic
    hind₁.generic'
  have hlater₂' : Later d₁ p₁.registry (d₁.record other b) s₂ :=
    ⟨rfl, rfl, rfl, (transplant_eq_ok hs₂).1.skeleton⟩
  have hlisted₁' : a.id ∈ p₁.template.classes.erase b.id := (List.mem_erase_of_ne hid).2 hlisted₁
  -- The others come after both, and find what they would find in the first order.
  rcases decodeDispatchers_congr (d := (d₁.record aux a).record other b) (e := (d₁.record other b).record aux a)
    ⟨rfl, rfl, rfl, rfl⟩ post with ⟨fault, hfault, -⟩ | ⟨rows, p₂, -, -, hd, he⟩
  · rw [hfault] at h
    cases h
  · rw [hd] at h
    obtain ⟨rfl, rfl⟩ := Prod.mk.inj (Except.ok.inj h)
    have hsame := (record_comm d₁ hne hind.facts).recordAll rows
    refine ⟨_, decodeDispatchers_append.2 ⟨d₁, p₁, h₁, ?_⟩, hsame.facts, hsame.resolved⟩
    refine decodeDispatchers_cons.2 ⟨b, s₂, hb₁, hs₂, List.mem_of_mem_erase hlisted₂, ?_⟩
    refine decodeDispatchers_cons.2 ⟨a, r₃, hlater₂'.casts_iff.2 ha', hs₃, hlisted₁', ?_⟩
    simp only [List.erase_comm b.id a.id]
    exact he

end Decoder

/-! ## A station with a tower -/

namespace Station

/-- A station that publishes readings and leaves it to a tower to raise the alarms. -/
def withTower : Program where
  template := { program.template with classes := program.template.classes ++ [⟨7⟩] }
  registry.classes := program.registry.classes.set 4 { ClassDecl.empty "Station" with methods := [⟨2⟩, ⟨4⟩] } ++
    [{ ClassDecl.empty "Tower" with methods := [⟨3⟩, ⟨7⟩] }]
  registry.methods := program.registry.methods.set 3 ⟨"raise", ⟨7⟩, [⟨"Alarm", "alarm"⟩], "void", false, []⟩ ++
    [⟨"Tower", ⟨7⟩, [], "Tower", true, []⟩]

/-- The decoder for the station with a tower. -/
def towerDecoder : Decoder :=
  { decoder with bindings := decoder.bindings.insert "subject_AuxObserverAlarm" 7 }

end Station

namespace Decoder

/-- The casting for the alarms of the tower. -/
def towerAlarms : Casting :=
  { alarms with participants := { alarms.participants with subject := ⟨7⟩ }, key := "raise_Tower_Alarm" }

private theorem independent_tower : Independent Station.withTower.registry "AuxObserverReading" readings
    "AuxObserverAlarm" towerAlarms where
  subject := by decide
  writes := by
    rintro k (hk | hk | hk | ⟨hk, hinit⟩)
    · cases hk
    · cases hk
    · obtain rfl : ⟨2⟩ = k := hk
      decide
    · have hcases : k = ⟨2⟩ ∨ k = ⟨4⟩ := by simpa using (show k ∈ [⟨2⟩, ⟨4⟩] from hk)
      rcases hcases with rfl | rfl <;> exact absurd hinit (by decide)
  generic := by decide
  generic' := by decide
  facts := by decide

/-- The readings of the station and the alarms of the tower can be decoded in either order. -/
theorem decodeDispatchers_swap_tower : ∃ d' p' e',
    Station.towerDecoder.decodeDispatchers Station.withTower ["AuxObserverReading", "AuxObserverAlarm"] =
      .ok (d', p') ∧
    Station.towerDecoder.decodeDispatchers Station.withTower ["AuxObserverAlarm", "AuxObserverReading"] =
      .ok (e', p') ∧
    e'.facts.get? "raise_Tower_Alarm" = d'.facts.get? "raise_Tower_Alarm" := by
  have hdecode : okAnd (Station.towerDecoder.decodeDispatchers Station.withTower
      ["AuxObserverReading", "AuxObserverAlarm"]) (fun _ => true) = true := by
    decide +kernel
  have hcasts : Station.towerDecoder.Casts Station.withTower.registry "AuxObserverReading" readings ∧
      Station.towerDecoder.Casts Station.withTower.registry "AuxObserverAlarm" towerAlarms := by
    decide +kernel
  obtain ⟨⟨d', p'⟩, h, -⟩ := okAnd_eq_true.1 hdecode
  obtain ⟨e', he, hfacts, -⟩ := decodeDispatchers_swap [] [] h (by decide) hcasts.1 hcasts.2 independent_tower
  exact ⟨d', p', e', h, he, hfacts _⟩

end Decoder

end ObserverPattern
