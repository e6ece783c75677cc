import ObserverPattern.Proofs.Decoder.Skeleton

/-!
# The facts of the handles

A trace records facts under the generic handle of a dispatcher, and a decode moves them to the handle
that the solver chose. If no two dispatchers share a key, each handle has exactly the facts of its own
generic handle in the end (`decode_facts`), however many dispatchers there are.
-/

namespace ObserverPattern.Decoder

variable {d d' : Decoder} {p p' : Program}

/-- The dispatchers of a program have keys of their own: no two generic handles have one name, nor two
handles, and no handle has the name of a generic one. -/
structure KeysApart (d : Decoder) (p : Program) : Prop where
  generic : ∀ aux ∈ p.template.auxs, ∀ a, d.Casts p.registry aux a → ∀ other ∈ p.template.auxs, ∀ o,
    d.Casts p.registry other o → genericKey aux a.event = genericKey other o.event → aux = other
  handle : ∀ aux ∈ p.template.auxs, ∀ a, d.Casts p.registry aux a → ∀ other ∈ p.template.auxs, ∀ o,
    d.Casts p.registry other o → a.key = o.key → aux = other
  apart : ∀ aux ∈ p.template.auxs, ∀ a, d.Casts p.registry aux a → ∀ other ∈ p.template.auxs, ∀ o,
    d.Casts p.registry other o → a.key ≠ genericKey other o.event

/-- The move for another dispatcher touches neither of the keys of a dispatcher. -/
private theorem KeysApart.move (h : d.KeysApart p) {rows : List (String × Casting)}
    (hauxs : rows.map Prod.fst = p.template.auxs) (hrows : ∀ row ∈ rows, d.Casts p.registry row.1 row.2)
    {aux : String} (haux : aux ∈ p.template.auxs) {a : Casting} (ha : d.Casts p.registry aux a) :
    ∀ m ∈ moves rows, m = (genericKey aux a.event, a.key) ∨
      (genericKey aux a.event ≠ m.1 ∧ genericKey aux a.event ≠ m.2) ∧ a.key ≠ m.1 ∧ a.key ≠ m.2 := by
  intro m hm
  obtain ⟨⟨other, o⟩, hrow, rfl⟩ := List.mem_map.1 hm
  have hother : other ∈ p.template.auxs := hauxs ▸ List.mem_map_of_mem hrow
  have ho : d.Casts p.registry other o := hrows _ hrow
  by_cases heq : aux = other
  · subst heq
    obtain rfl := ha.unique ho
    exact .inl rfl
  · refine .inr ⟨⟨?_, ?_⟩, ?_, ?_⟩
    · exact fun hkey => heq (h.generic aux haux a ha other hother o ho hkey)
    · exact Ne.symm (h.apart other hother o ho aux haux a ha)
    · exact h.apart aux haux a ha other hother o ho
    · exact fun hkey => heq (h.handle aux haux a ha other hother o ho hkey)

/-- If the dispatchers have keys of their own, a decode leaves the facts of each generic handle, in their
order, under the handle that plays its role, and none under the generic one. A handle whose generic one
has no facts keeps its own, and so does every key that belongs to no dispatcher. A new decoder
starts with the facts of its trace. -/
theorem decode_facts {s : Summary} (h : d.decode p = .ok (d', p', s)) (hkeys : d.KeysApart p) :
    (∀ aux ∈ p.template.auxs, ∃ a, d.Casts p.registry aux a ∧ d'.resolved.get? aux = some a.participants ∧
      p'.registry.signature a.participants.handle = .ok a.key ∧
      (∀ facts, d.facts.get? (genericKey aux a.event) = some facts →
        d'.facts.get? a.key = some facts ∧ genericKey aux a.event ∉ d'.facts.keys) ∧
      (d.facts.get? (genericKey aux a.event) = none → d'.facts.get? a.key = d.facts.get? a.key)) ∧
    ∀ key, (∀ aux ∈ p.template.auxs, ∀ a, d.Casts p.registry aux a → key ≠ genericKey aux a.event ∧ key ≠ a.key) →
      d'.facts.get? key = d.facts.get? key := by
  have hskeleton := (decode_later h).skeleton
  have hresolved := fun (aux : String) (haux : aux ∈ p.template.auxs) => decode_resolved h haux
  obtain ⟨d₁, p₁, -, hdispatchers, rfl, -, -⟩ := decode_eq_ok h
  obtain ⟨rows, hauxs, hrows, rfl⟩ := decodeDispatchers_record hdispatchers
  have hfacts : ((d.recordAll rows).prepare p₁.registry).facts = d.facts.moveAll (moves rows) :=
    facts_recordAll d rows
  rw [hfacts]
  refine ⟨?_, ?_⟩
  · intro aux haux
    obtain ⟨a, ha, hstored⟩ := hresolved aux haux
    have hmem : (genericKey aux a.event, a.key) ∈ moves rows := by
      rw [← hauxs, List.mem_map] at haux
      obtain ⟨⟨other, o⟩, hrow, rfl⟩ := haux
      obtain rfl := ha.unique (hrows _ hrow)
      exact List.mem_map.2 ⟨_, hrow, rfl⟩
    obtain ⟨hnew, hold⟩ := Facts.get?_moveAll_of_apart (hkeys.apart aux haux a ha aux haux a ha) (.inl hmem)
      (hkeys.move hauxs hrows haux ha)
    refine ⟨a, ha, hstored, ?_, ?_, ?_⟩
    · rw [← ha.key]
      exact Registry.congr_skeleton (·.signature a.participants.handle) (Registry.signature_skeleton _) hskeleton
    · intro facts hgeneric
      rw [hnew, hgeneric, ← Table.isSome_get?, hold]
      exact ⟨rfl, nofun⟩
    · intro hgeneric
      rw [hnew, hgeneric, Option.none_or]
  · intro key hkey
    refine Facts.get?_moveAll_of_ne fun m hm => ?_
    obtain ⟨⟨aux, a⟩, hrow, rfl⟩ := List.mem_map.1 hm
    exact hkey aux (hauxs ▸ List.mem_map_of_mem hrow) a (hrows _ hrow)

private theorem keysApart_station : Station.decoder.KeysApart Station.program := by
  refine ⟨?_, ?_, ?_⟩ <;> intro aux haux a ha other hother o ho
  all_goals
    rcases cast_of_mem haux ha with ⟨rfl, rfl⟩ | ⟨rfl, rfl⟩ <;>
      rcases cast_of_mem hother ho with ⟨rfl, rfl⟩ | ⟨rfl, rfl⟩ <;> decide

theorem decode_facts_station : ∃ d' p' s, Station.decoder.decode Station.program = .ok (d', p', s) ∧
    d'.facts.get? "publish_Station_Reading" = some [.direction .forward] ∧
    d'.facts.get? "raise_Station_Alarm" = some [.direction .reverse] ∧
    genericKey "AuxObserverAlarm" "Alarm" ∉ d'.facts.keys ∧ d'.facts.get? "describe_Station" = none := by
  have hdecode : okAnd (Station.decoder.decode Station.program) (fun _ => true) = true := by decide +kernel
  obtain ⟨⟨d', p', s⟩, h, -⟩ := okAnd_eq_true.1 hdecode
  obtain ⟨hlisted, hother⟩ := decode_facts h keysApart_station
  obtain ⟨a, ha, -, -, hreadings, -⟩ := hlisted "AuxObserverReading" (by decide)
  obtain rfl := ha.unique casts_station.1
  obtain ⟨b, hb, -, -, halarms, -⟩ := hlisted "AuxObserverAlarm" (by decide)
  obtain rfl := hb.unique casts_station.2
  obtain ⟨hpublish, -⟩ := hreadings [.direction .forward] (by decide +kernel)
  obtain ⟨hraise, hgeneric⟩ := halarms [.direction .reverse] (by decide +kernel)
  refine ⟨d', p', s, h, hpublish, hraise, hgeneric, ?_⟩
  refine (hother "describe_Station" fun aux haux a ha => ?_).trans (by decide +kernel)
  rcases cast_of_mem haux ha with ⟨rfl, rfl⟩ | ⟨rfl, rfl⟩ <;> decide

end ObserverPattern.Decoder
