import ObserverPattern.Proofs.Decoder.Phases
import ObserverPattern.Proofs.Program.InRange

/-!
# Decoding keeps the skeleton

The indices that a solver chooses point into the registry, and the names under which facts are
recorded are made from it. A decode changes fields, collections and bodies only, so both stay
meaningful.

* `decode_skeleton`: the registry keeps its skeleton, the template loses the dispatchers and nothing
  else, and the participants stored for a dispatcher are those chosen in the registry before;
* `decodeDispatchers_resolved`, `decodeDispatchers_struck`: the same for a row of dispatchers.
-/

namespace ObserverPattern

/-- Classes from which the first class of each of some names has been struck, one after the other: of
the occurrences that remain at each time the first. -/
inductive Registry.Struck (r : Registry) : List ClassId → List String → List ClassId → Prop
  | nil {classes : List ClassId} : Struck r classes [] classes
  | cons {pre post rest : List ClassId} {aux : String} {auxs : List String} {id : ClassId}
      (named : r.classNamed? aux = some id) (first : id ∉ pre) (struck : Struck r (pre ++ post) auxs rest) :
      Struck r (pre ++ id :: post) (aux :: auxs) rest

namespace Registry.Struck

variable {r r' : Registry} {classes rest : List ClassId} {auxs : List String}

theorem of_skeleton_eq (h : r'.Struck classes auxs rest) (hr : r'.skeleton = r.skeleton) :
    r.Struck classes auxs rest := by
  induction h with
  | nil => exact .nil
  | cons named first _ ih =>
    refine .cons ?_ first ih
    rw [← named]
    exact (congr_skeleton (·.classNamed? _) (classNamed?_skeleton _) hr).symm

theorem sublist (h : r.Struck classes auxs rest) : rest.Sublist classes := by
  induction h with
  | nil => exact List.Sublist.refl _
  | @cons pre post rest _ _ id _ _ _ ih =>
    exact ih.trans (List.Sublist.append_left (List.sublist_cons_self id post) pre)

/-- A class that is listed once is struck for good. -/
theorem notMem (h : r.Struck classes auxs rest) (hclasses : classes.Nodup) {aux : String} (haux : aux ∈ auxs)
    {id : ClassId} (hid : r.classNamed? aux = some id) : id ∉ rest := by
  induction h with
  | nil => cases haux
  | cons named _ struck ih =>
    rw [List.perm_middle.nodup_iff, List.nodup_cons] at hclasses
    rcases List.mem_cons.1 haux with rfl | haux
    · obtain rfl := Option.some.inj (named.symm.trans hid)
      exact fun hmem => hclasses.1 (struck.sublist.subset hmem)
    · exact ih hclasses.2 haux

end Registry.Struck

namespace Decoder

variable {d d' : Decoder} {p p' : Program} {auxs : List String}

theorem Casts.classNamed {r : Registry} {aux : String} {c : Casting} (h : d.Casts r aux c) :
    r.classNamed? aux = some c.id := by
  have hfound := h.found
  unfold findDispatcher at hfound
  cases hid : r.classNamed? aux with
  | none =>
    rw [hid] at hfound
    cases hfound
  | some id =>
    simp only [hid, bind_eq_ok] at hfound
    obtain ⟨cls, -, hfound⟩ := hfound
    cases hdispatcher : cls.dispatcher with
    | none =>
      rw [hdispatcher] at hfound
      cases hfound
    | some dispatcher =>
      simp only [hdispatcher, pure_eq_ok, Prod.mk.injEq] at hfound
      rw [hfound.1]

/-! ## A row of dispatchers -/

/-- The template loses the dispatchers and nothing else. -/
theorem decodeDispatchers_struck (h : d.decodeDispatchers p auxs = .ok (d', p')) :
    p'.template.auxs = p.template.auxs ∧ p.registry.Struck p.template.classes auxs p'.template.classes := by
  induction auxs generalizing d p with
  | nil =>
    cases h
    exact ⟨rfl, .nil⟩
  | cons aux auxs ih =>
    rw [decodeDispatchers, bind_eq_ok] at h
    obtain ⟨⟨d₁, p₁⟩, h₁, h⟩ := h
    obtain ⟨hauxs, hstruck⟩ := ih h
    have hlater := decodeDispatcher_later h₁
    obtain ⟨c, r', hcasts, -, hlisted, rfl, rfl⟩ := decodeDispatcher_eq_ok.1 h₁
    refine ⟨hauxs, ?_⟩
    obtain ⟨pre, post, hsplit, hfirst⟩ := List.eq_append_cons_of_mem hlisted
    rw [hsplit]
    refine .cons hcasts.classNamed hfirst ?_
    have hstruck := hstruck.of_skeleton_eq hlater.skeleton
    rwa [hsplit, List.erase_append_right _ hfirst, List.erase_cons_head] at hstruck

/-- Every dispatcher of the row has a casting. -/
theorem decodeDispatchers_casts (h : d.decodeDispatchers p auxs = .ok (d', p')) {aux : String} (haux : aux ∈ auxs) :
    ∃ c, d.Casts p.registry aux c := by
  obtain ⟨pre, post, rfl⟩ := List.append_of_mem haux
  obtain ⟨d₁, p₁, h₁, h⟩ := decodeDispatchers_append.1 h
  obtain ⟨c, -, hcasts, -⟩ := decodeDispatchers_cons.1 h
  exact ⟨c, (decodeDispatchers_later h₁).casts_iff.1 hcasts⟩

/-- The participants stored for a dispatcher are those of its casting. -/
theorem decodeDispatchers_resolved (h : d.decodeDispatchers p auxs = .ok (d', p')) {aux : String} {c : Casting}
    (hc : d.Casts p.registry aux c) (haux : aux ∈ auxs ∨ d.resolved.get? aux = some c.participants) :
    d'.resolved.get? aux = some c.participants := by
  induction auxs generalizing d p with
  | nil =>
    cases h
    simpa using haux
  | cons aux₁ auxs ih =>
    rw [decodeDispatchers, bind_eq_ok] at h
    obtain ⟨⟨d₁, p₁⟩, h₁, h⟩ := h
    refine ih h ((decodeDispatcher_later h₁).casts_iff.2 hc) ?_
    obtain ⟨c₁, r', hc₁, -, -, rfl, rfl⟩ := decodeDispatcher_eq_ok.1 h₁
    -- A name that is decoded again gets the same casting, so what is stored stays right.
    by_cases heq : aux = aux₁
    · subst heq
      obtain rfl := hc.unique hc₁
      exact .inr (by rw [get?_resolved_record, if_pos rfl])
    · rcases haux with haux | haux
      · exact .inl ((List.mem_cons.1 haux).resolve_left heq)
      · exact .inr (by rw [get?_resolved_record, if_neg heq, haux])

end Decoder

/-! ## A station with two kinds of events -/

namespace Station

/-- The loop of a generic handle that notifies the observers. -/
def notifyAll (aux : String) : Block :=
  [.forEach "Object" "o" (.field (.id ("rcv_" ++ aux)) "_obs")
    [.expr (.methodCall (.id aux) "reflect" [.id ("update_" ++ aux), .id "o", .id ("rcv_" ++ aux), .id "evt"])]]

/-- A generic handle. -/
def genericHandle (owner : ClassId) (aux event : String) : MethodDecl :=
  ⟨"handleCode", owner, [⟨aux, "rcv"⟩, ⟨event, "evt"⟩], "void", false, notifyAll aux⟩

/-- A station publishes readings, which a display shows, and raises alarms, which a siren sounds. -/
def program : Program where
  template := ⟨[⟨0⟩, ⟨1⟩, ⟨2⟩, ⟨3⟩, ⟨4⟩, ⟨5⟩, ⟨6⟩], ["AuxObserverReading", "AuxObserverAlarm"]⟩
  registry.classes :=
    [{ ClassDecl.empty "AuxObserverReading" with methods := [⟨0⟩], dispatcher := some ⟨⟨2⟩, ⟨0⟩⟩ },
      { ClassDecl.empty "AuxObserverAlarm" with methods := [⟨1⟩], dispatcher := some ⟨⟨3⟩, ⟨1⟩⟩ },
      ClassDecl.empty "Reading",
      ClassDecl.empty "Alarm",
      { ClassDecl.empty "Station" with methods := [⟨2⟩, ⟨3⟩, ⟨4⟩] },
      { ClassDecl.empty "Display" with methods := [⟨5⟩] },
      { ClassDecl.empty "Siren" with methods := [⟨6⟩] }]
  registry.methods :=
    [genericHandle ⟨0⟩ "AuxObserverReading" "Reading",
      genericHandle ⟨1⟩ "AuxObserverAlarm" "Alarm",
      ⟨"publish", ⟨4⟩, [⟨"Reading", "reading"⟩], "void", false, []⟩,
      ⟨"raise", ⟨4⟩, [⟨"Alarm", "alarm"⟩], "void", false, []⟩,
      ⟨"describe", ⟨4⟩, [], "String", false,
        [.forEach "Room" "room" (.id "rooms") [.expr (.methodCall (.id "room") "print" [])],
          .ret (some (.id "name"))]⟩,
      ⟨"show", ⟨5⟩, [⟨"Station", "station"⟩, ⟨"Reading", "reading"⟩], "void", false,
        [.ifElse (.call (.id "subcls") [.literal (.int 4), .id "subject_AuxObserverReading"])
          [.expr (.methodCall (.id "station") "describe" [])] []]⟩,
      ⟨"sound", ⟨6⟩, [⟨"Station", "station"⟩, ⟨"Alarm", "alarm"⟩], "void", false,
        [.ifElse (.placeholder "CompareString" [.id "kind", .literal (.str "fire")])
          [.expr (.call (.id "ring") [])] []]⟩]

/-- What a solver found for the station: alarms go to the last observer first. -/
def trace : Trace where
  facts := Table.ofList
    [("handleCode_AuxObserverReading_AuxObserverReading_AuxObserverReading_Reading", [.direction .forward]),
      ("handleCode_AuxObserverAlarm_AuxObserverAlarm_AuxObserverAlarm_Alarm", [.direction .reverse])]
  bindings := Table.ofList
    [("subject_AuxObserverReading", 4), ("observer_AuxObserverReading", 5), ("handle_AuxObserverReading", 2),
      ("update_AuxObserverReading", 5), ("subject_AuxObserverAlarm", 4), ("observer_AuxObserverAlarm", 6),
      ("handle_AuxObserverAlarm", 3), ("update_AuxObserverAlarm", 6)]

/-- The decoder for the station, where nothing attaches or detaches. -/
def decoder : Decoder :=
  .ofTrace .default (Table.ofList [("Reading", ⟨1, 0, 0⟩), ("Alarm", ⟨1, 0, 0⟩)]) trace

end Station

namespace Decoder

/-- The casting for the readings of the station. -/
def readings : Casting where
  id := ⟨0⟩
  dispatcher := ⟨⟨2⟩, ⟨0⟩⟩
  event := "Reading"
  participants := ⟨⟨4⟩, ⟨5⟩, ⟨2⟩, none, none, ⟨2⟩, ⟨5⟩⟩
  key := "publish_Station_Reading"

/-- The casting for the alarms of the station, which has the same subject. -/
def alarms : Casting where
  id := ⟨1⟩
  dispatcher := ⟨⟨3⟩, ⟨1⟩⟩
  event := "Alarm"
  participants := ⟨⟨4⟩, ⟨6⟩, ⟨3⟩, none, none, ⟨3⟩, ⟨6⟩⟩
  key := "raise_Station_Alarm"

theorem casts_station : Station.decoder.Casts Station.program.registry "AuxObserverReading" readings ∧
    Station.decoder.Casts Station.program.registry "AuxObserverAlarm" alarms := by
  decide +kernel

theorem cast_of_mem {other : String} (hother : other ∈ Station.program.template.auxs) {o : Casting}
    (ho : Station.decoder.Casts Station.program.registry other o) :
    other = "AuxObserverReading" ∧ o = readings ∨ other = "AuxObserverAlarm" ∧ o = alarms := by
  have hcases : other = "AuxObserverReading" ∨ other = "AuxObserverAlarm" := by simpa [Station.program] using hother
  rcases hcases with rfl | rfl
  · exact .inl ⟨rfl, ho.unique casts_station.1⟩
  · exact .inr ⟨rfl, ho.unique casts_station.2⟩

/-! ## The whole decode -/

variable {d d' : Decoder} {p p' : Program}

theorem decode_later {s : Summary} (h : d.decode p = .ok (d', p', s)) : Later d p.registry d' p'.registry := by
  obtain ⟨d₁, p₁, -, hdispatchers, rfl, hwalk, -⟩ := decode_eq_ok h
  have hlater := decodeDispatchers_later hdispatchers
  exact ⟨hlater.conventions, hlater.events, hlater.bindings,
    (Registry.skeleton_eq_of_outline_eq (Walk.outline_walk hwalk)).trans hlater.skeleton⟩

/-- The participants stored for a decoded dispatcher are those of its casting. -/
theorem decode_resolved {s : Summary} (h : d.decode p = .ok (d', p', s)) {aux : String}
    (haux : aux ∈ p.template.auxs) :
    ∃ c, d.Casts p.registry aux c ∧ d'.resolved.get? aux = some c.participants := by
  obtain ⟨d₁, p₁, -, hdispatchers, rfl, -, -⟩ := decode_eq_ok h
  obtain ⟨c, hc⟩ := decodeDispatchers_casts hdispatchers haux
  exact ⟨c, hc, decodeDispatchers_resolved hdispatchers hc (.inl haux)⟩

/-- The template loses the dispatchers. -/
theorem decode_struck {s : Summary} (h : d.decode p = .ok (d', p', s)) : p'.template.auxs = p.template.auxs ∧
    p.registry.Struck p.template.classes p.template.auxs p'.template.classes := by
  obtain ⟨d₁, p₁, -, hdispatchers, -, -, htemplate⟩ := decode_eq_ok h
  rw [htemplate]
  exact decodeDispatchers_struck hdispatchers

theorem decode_inRange {s : Summary} (h : d.decode p = .ok (d', p', s)) : p'.InRange := by
  obtain ⟨d₁, p₁, hvalid, -, -, -, -⟩ := decode_eq_ok h
  have hrange := Program.validate_eq_ok_iff.1 hvalid
  exact hrange.of_skeleton_eq (decode_later h).skeleton (decode_struck h).2.sublist.subset

/-- A decode keeps the skeleton of the registry, and with it signatures and the hierarchy. The
template loses the dispatchers and nothing else, the program stays one that is accepted, and the
participants stored for a dispatcher are those that the bindings choose in the registry before. -/
theorem decode_skeleton {s : Summary} (h : d.decode p = .ok (d', p', s)) :
    p'.registry.skeleton = p.registry.skeleton ∧
      p'.template.auxs = p.template.auxs ∧
      p.registry.Struck p.template.classes p.template.auxs p'.template.classes ∧
      p'.validate = .ok () ∧
      (∀ id, p'.registry.signature id = p.registry.signature id) ∧
      Hierarchy.ofRegistry p'.registry = Hierarchy.ofRegistry p.registry ∧
      ∀ aux ∈ p.template.auxs, ∃ id dispatcher event participants,
        findDispatcher p.registry aux = .ok (id, dispatcher) ∧ p.registry.className dispatcher.event = .ok event ∧
          Participants.resolve p.registry d.bindings aux dispatcher (d.events.counts event) = .ok participants ∧
            d'.resolved.get? aux = some participants := by
  have hskeleton := (decode_later h).skeleton
  obtain ⟨hauxs, hstruck⟩ := decode_struck h
  refine ⟨hskeleton, hauxs, hstruck, Program.validate_eq_ok_iff.2 (decode_inRange h), ?_, ?_, ?_⟩
  · intro id
    exact Registry.congr_skeleton (·.signature id) (Registry.signature_skeleton id) hskeleton
  · exact Registry.congr_skeleton Hierarchy.ofRegistry Hierarchy.ofRegistry_skeleton hskeleton
  · intro aux haux
    obtain ⟨c, hc, hresolved⟩ := decode_resolved h haux
    exact ⟨c.id, c.dispatcher, c.event, c.participants, hc.found, hc.event, hc.participants, hresolved⟩

theorem decode_skeleton_station : ∃ d' p' s, Station.decoder.decode Station.program = .ok (d', p', s) ∧
    p'.registry.skeleton = Station.program.registry.skeleton ∧ p'.template.classes = [⟨2⟩, ⟨3⟩, ⟨4⟩, ⟨5⟩, ⟨6⟩] ∧
      d'.subjects = [("AuxObserverReading", ⟨4⟩), ("AuxObserverAlarm", ⟨4⟩)] := by
  have hdecode : okAnd (Station.decoder.decode Station.program) (fun x =>
      x.2.1.template.classes = [⟨2⟩, ⟨3⟩, ⟨4⟩, ⟨5⟩, ⟨6⟩] ∧
        x.1.subjects = [("AuxObserverReading", ⟨4⟩), ("AuxObserverAlarm", ⟨4⟩)]) = true := by
    decide +kernel
  obtain ⟨⟨d', p', s⟩, h, hresult⟩ := okAnd_eq_true.1 hdecode
  obtain ⟨hclasses, hsubjects⟩ := of_decide_eq_true hresult
  exact ⟨d', p', s, h, (decode_skeleton h).1, hclasses, hsubjects⟩

end Decoder

end ObserverPattern
