import Mathlib.Data.List.Nodup
import Mathlib.Logic.Function.Iterate
import ObserverPattern.Proofs.Decoder.Types
import ObserverPattern.Proofs.Text.Lower

/-!
# The fields after a decode

The names of fields change in two ways. Each dispatcher adds a collection to its subject
(`decodeDispatchers_fields`), and each visit of a class renames the fields that are called after a
dispatcher which is their type (`walk_fieldNames`).

* `decode_fields`: the names of the fields of a class after a decode, in order;
* `decode_fieldNames`: so names that were different stay different, unless two of the new ones are
  the same. Collections that a subject has for observers of one name are the case that remains for a new
  decoder.
-/

namespace ObserverPattern

/-- A field without its value. -/
def Field.header (f : Field) : Field := { f with init := none }

namespace Decoder

variable {d d' : Decoder} {p p' : Program} {r r' : Registry}

/-! ## The rule for fields -/

/-- A field that has a marked type and is called after it. -/
def calledAfterType (d : Decoder) (f : Field) : Bool := d.isMarked f.ty && f.name == Text.lower f.ty

/-- The field that takes the place of a field. -/
def concreteField (d : Decoder) (r : Registry) (f : Field) : Field :=
  if d.calledAfterType f then
    match d.boundSubject r f.ty with
    | .ok subject => { f with ty := subject.name, name := Text.lower subject.name }
    | .error _ => f
  else f

theorem concreteField_of_not_called {f : Field} (hf : d.calledAfterType f = false) : d.concreteField r f = f := by
  rw [concreteField, hf]
  rfl

theorem concreteField_header (f : Field) : d.concreteField r f.header = (d.concreteField r f).header := by
  have hcalled : d.calledAfterType f.header = d.calledAfterType f := rfl
  unfold concreteField
  rw [hcalled]
  cases d.calledAfterType f with
  | false => rfl
  | true =>
    show (match d.boundSubject r f.ty with | .ok _ => _ | .error _ => _) = _
    cases d.boundSubject r f.ty <;> rfl

theorem concreteField_congr (h : r'.skeleton = r.skeleton) : d.concreteField r' = d.concreteField r := by
  funext f
  refine Registry.congr_skeleton (fun r => d.concreteField r f) ?_ h
  intro r
  unfold concreteField
  rw [boundSubject_skeleton]
  cases d.boundSubject r f.ty <;> rfl

/-- A field keeps its name or gets that of a class in lower case. -/
theorem concreteField_name (f : Field) :
    d.concreteField r f = f ∨ ∃ k ∈ r.classes, (d.concreteField r f).name = Text.lower k.name := by
  unfold concreteField
  cases d.calledAfterType f with
  | false => exact .inl rfl
  | true =>
    cases hbound : d.boundSubject r f.ty with
    | error e => exact .inl rfl
    | ok subject =>
      refine .inr ⟨subject, ?_, rfl⟩
      unfold boundSubject at hbound
      split at hbound
      · exact List.mem_of_getElem? (Registry.getClass_eq_ok.1 hbound)
      · cases hbound

/-- However often a field is visited, it has its own name or that of a class in lower case. -/
theorem iterate_concreteField_name (f : Field) (n : Nat) :
    ((d.concreteField r)^[n] f).name = f.name ∨
      ∃ k ∈ r.classes, ((d.concreteField r)^[n] f).name = Text.lower k.name := by
  induction n with
  | zero => exact .inl rfl
  | succ n ih =>
    rw [Function.iterate_succ_apply']
    rcases concreteField_name ((d.concreteField r)^[n] f) with hsame | hclass
    · rw [hsame]
      exact ih
    · exact .inr hclass

theorem onField_eq {q : Position} {f : Field} {fs : List Field} (h : d.onField q f = .ok fs) :
    fs = [d.concreteField q.registry f] := by
  unfold onField at h
  unfold concreteField calledAfterType
  split at h
  · next hcalled =>
    simp only [bind_eq_ok, pure_eq_ok] at h
    obtain ⟨subject, hsubject, rfl⟩ := h
    rw [if_pos hcalled, hsubject]
  · next hcalled =>
    rw [if_neg hcalled]
    exact (Except.ok.inj h).symm

/-- A visit of a class takes the rule to each field. -/
theorem walkFields_headers {q : Position} {fs fs' : List Field} (h : Walk.walkFields d.pass q fs = .ok fs') :
    fs'.map Field.header = (fs.map Field.header).map (d.concreteField q.registry) := by
  induction fs generalizing fs' with
  | nil =>
    rw [Walk.walkFields, pure_eq_ok] at h
    subst h
    rfl
  | cons f fs ih =>
    simp only [Walk.walkFields, Walk.walkField, bind_eq_ok, pure_eq_ok] at h
    obtain ⟨new, ⟨init, -, hnew⟩, rest, hrest, rfl⟩ := h
    have hnew : new = [d.concreteField q.registry { f with init }] := onField_eq hnew
    have hheader : (d.concreteField q.registry { f with init }).header = d.concreteField q.registry f.header := by
      rw [← concreteField_header]
      rfl
    rw [List.map_append, ih hrest, hnew, List.map_singleton, hheader]
    rfl

/-- The names of the fields of a class after the traversal. -/
theorem walk_fieldNames {maxDepth : Nat} {t : Template} (h : Walk.walk d.pass maxDepth t r = .ok r') {id : ClassId}
    {k k' : ClassDecl} (hk : r.class? id = some k) (hk' : r'.class? id = some k') :
    k'.fields.map (·.name) = k.fields.map fun f => ((d.concreteField r)^[t.classes.count id] f).name := by
  -- The values of fields change from visit to visit too, so the visits are followed on the fields without them.
  obtain ⟨fs, hfs, hheaders⟩ := Walk.walk_fieldSteps
    (P := fun n fs => fs.map Field.header = (k.fields.map Field.header).map ((d.concreteField r)^[n])) (by
      intro n r₁ fs fs' houtline hfields hfs
      rw [walkFields_headers hfields, hfs, concreteField_congr (Registry.skeleton_eq_of_outline_eq houtline),
        List.map_map, ← Function.iterate_succ']) h hk (by simp)
  obtain rfl := Option.some.inj (hk'.symm.trans hfs)
  have hheader : Function.Semiconj Field.header (d.concreteField r) (d.concreteField r) :=
    fun f => (concreteField_header f).symm
  have hname : (fun f : Field => f.name) = (fun f => f.name) ∘ Field.header := rfl
  rw [hname, ← List.map_map, hheaders, List.map_map, List.map_map]
  refine List.map_congr_left fun f _ => ?_
  show ((d.concreteField r)^[t.classes.count id] f.header).name = _
  rw [← hheader.iterate_right (t.classes.count id) f]
  rfl

/-! ## The collections of a row of dispatchers -/

/-- The names of the collections that a row of castings gives to a class, in order. -/
def collections (c : Conventions) (r : Registry) (rows : List (String × Casting)) (id : ClassId) : List String :=
  rows.filterMap fun row =>
    if row.2.participants.subject = id then
      (r.class? row.2.participants.observer).map fun observer => c.collectionFor observer.name
    else none

theorem collections_congr (h : r'.skeleton = r.skeleton) (c : Conventions) (rows : List (String × Casting))
    (id : ClassId) : collections c r' rows id = collections c r rows id := by
  refine Registry.congr_skeleton (fun r => collections c r rows id) ?_ h
  intro r
  unfold collections
  simp only [Registry.class?_skeleton, Option.map_map]
  rfl

/-- A row of dispatchers adds these collections to the fields of a class, and no field else. -/
theorem decodeDispatchers_fields {auxs : List String} (h : d.decodeDispatchers p auxs = .ok (d', p')) :
    ∃ rows, rows.map Prod.fst = auxs ∧ (∀ row ∈ rows, d.Casts p.registry row.1 row.2) ∧
      ∀ id k, p.registry.class? id = some k → ∃ k' added, p'.registry.class? id = some k' ∧
        k'.fields = k.fields ++ added ∧ added.map (·.name) = collections d.conventions p.registry rows id ∧
          ∀ f ∈ added, ∃ observer, f.ty = d.conventions.collectionTypeFor observer ∧
            f.name = d.conventions.collectionFor observer := by
  induction auxs generalizing d p with
  | nil =>
    cases h
    exact ⟨[], rfl, by simp, fun id k hk => ⟨k, [], hk, (List.append_nil _).symm, rfl, by simp⟩⟩
  | cons aux auxs ih =>
    obtain ⟨c, r₁, hc, htransplant, -, h⟩ := decodeDispatchers_cons.1 h
    have hskeleton : r₁.skeleton = p.registry.skeleton := (transplant_eq_ok htransplant).1.skeleton
    have hlater : Later d p.registry (d.record aux c) r₁ := ⟨rfl, rfl, rfl, hskeleton⟩
    obtain ⟨observer, init, hobserver, hfields⟩ := transplant_fields htransplant
    obtain ⟨rows, hauxs, hrows, hrest⟩ := ih h
    refine ⟨(aux, c) :: rows, by rw [List.map_cons, hauxs], ?_, ?_⟩
    · intro row hrow
      rcases List.mem_cons.1 hrow with rfl | hrow
      · exact hc
      · exact hlater.casts_iff.1 (hrows row hrow)
    · intro id k hk
      obtain ⟨k₁, hk₁, hk₁fields⟩ := hfields id k hk
      obtain ⟨k', added, hk', hk'fields, hnames, hadded⟩ := hrest id k₁ hk₁
      obtain ⟨o, ho, rfl⟩ := Registry.className_eq_ok.1 hobserver
      rw [hk₁fields, List.append_assoc] at hk'fields
      refine ⟨k', _, hk', hk'fields, ?_, ?_⟩
      · rw [List.map_append, hnames, collections_congr hskeleton, collections, collections, List.filterMap_cons]
        by_cases hid : c.participants.subject = id
        · simp only [if_pos hid, ho]
          rfl
        · simp only [if_neg hid]
          rfl
      · intro f hf
        rcases List.mem_append.1 hf with hf | hf
        · split at hf
          · obtain rfl := List.mem_singleton.1 hf
            exact ⟨o.name, rfl, rfl⟩
          · cases hf
        · exact hadded f hf

/-- A collection is not called after its type. -/
theorem calledAfterType_collection {f : Field} {observer : String}
    (hty : f.ty = d.conventions.collectionTypeFor observer) (hname : f.name = d.conventions.collectionFor observer) :
    d.calledAfterType f = false := by
  have hne := d.conventions.collectionFor_ne_lower observer
  rw [← hty, ← hname] at hne
  simp [calledAfterType, hne]

/-! ## The whole decode -/

/-- The names of the fields of a class after a decode: the fields that it had, each visited as often as the
template lists the class, and the collections of its observers. -/
theorem decode_fields {s : Summary} (h : d.decode p = .ok (d', p', s)) :
    ∃ rows, rows.map Prod.fst = p.template.auxs ∧ (∀ row ∈ rows, d.Casts p.registry row.1 row.2) ∧
      ∀ id k k', p.registry.class? id = some k → p'.registry.class? id = some k' →
        k'.fields.map (·.name) =
          k.fields.map (fun f => ((d'.concreteField p.registry)^[p'.template.classes.count id] f).name) ++
            collections d.conventions p.registry rows id := by
  obtain ⟨d₁, q, -, hdispatchers, rfl, hwalk, htemplate⟩ := decode_eq_ok h
  have hlater := decodeDispatchers_later hdispatchers
  obtain ⟨rows, hauxs, hrows, hfields⟩ := decodeDispatchers_fields hdispatchers
  refine ⟨rows, hauxs, hrows, fun id k k' hk hk' => ?_⟩
  obtain ⟨k₁, added, hk₁, hk₁fields, hnames, hadded⟩ := hfields id k hk
  rw [walk_fieldNames hwalk hk₁ hk', htemplate, ← concreteField_congr hlater.skeleton, hk₁fields, List.map_append,
    ← hnames]
  congr 1
  refine List.map_congr_left fun f hf => ?_
  obtain ⟨observer, hty, hname⟩ := hadded f hf
  rw [← hlater.conventions] at hty hname
  have hfixed := concreteField_of_not_called (r := q.registry)
    (calledAfterType_collection (d := d₁.prepare q.registry) hty hname)
  rw [Function.iterate_fixed hfixed]

/-- Of a list of which some names are distinct from one another and from all others, only the others matter. -/
private theorem nodup_map_append_iff {α : Type} {l : List α} {called : α → Bool} {name : α → String}
    {new : List String} (hrest : ((l.filter (!called ·)).map name).Nodup)
    (hapart : ∀ a ∈ l, called a = false → name a ∉ (l.filter called).map name ∧ name a ∉ new) :
    (l.map name ++ new).Nodup ↔ ((l.filter called).map name ++ new).Nodup := by
  have hperm : (l.map name ++ new).Perm
      ((l.filter (!called ·)).map name ++ ((l.filter called).map name ++ new)) := by
    rw [← List.append_assoc, ← List.map_append]
    refine (List.Perm.map name ?_).append_right new
    exact (List.filter_append_perm called l).symm.trans List.perm_append_comm
  rw [hperm.nodup_iff, List.nodup_append]
  constructor
  · exact fun h => h.2.1
  · intro h
    refine ⟨hrest, h, ?_⟩
    rintro x hx _ hy rfl
    obtain ⟨a, ha, rfl⟩ := List.mem_map.1 hx
    obtain ⟨hmem, hcalled⟩ := List.mem_filter.1 ha
    obtain ⟨hfiltered, hnew⟩ := hapart a hmem (by simpa using hcalled)
    rcases List.mem_append.1 hy with hy | hy
    · exact hfiltered hy
    · exact hnew hy

/-- Of fields with different names, none of them that of a class in lower case, only those that are called after
their type can come to share a name. -/
private theorem nodup_fieldNames_iff (n : Nat) {fs : List Field} {new : List String}
    (hunique : (fs.map (·.name)).Nodup)
    (hlower : ∀ f ∈ fs, ∀ x ∈ r.classes, f.name ≠ Text.lower x.name) (hnew : ∀ f ∈ fs, f.name ∉ new) :
    (fs.map (fun f => ((d.concreteField r)^[n] f).name) ++ new).Nodup ↔
      ((fs.filter d.calledAfterType).map (fun f => ((d.concreteField r)^[n] f).name) ++ new).Nodup := by
  have hkept : ∀ f, d.calledAfterType f = false → ((d.concreteField r)^[n] f).name = f.name := by
    intro f hcalled
    rw [Function.iterate_fixed (concreteField_of_not_called hcalled)]
  refine nodup_map_append_iff ?_ ?_
  · have hrest : (fs.filter (!d.calledAfterType ·)).map (fun f => ((d.concreteField r)^[n] f).name) =
        (fs.filter (!d.calledAfterType ·)).map (·.name) := by
      refine List.map_congr_left fun f hf => hkept f ?_
      simpa using (List.mem_filter.1 hf).2
    rw [hrest]
    exact (List.filter_sublist.map _).nodup hunique
  · intro f hf hcalled
    rw [hkept f hcalled]
    refine ⟨?_, hnew f hf⟩
    intro hrenamed
    obtain ⟨f', hf', hname⟩ := List.mem_map.1 hrenamed
    obtain ⟨hf', hcalled'⟩ := List.mem_filter.1 hf'
    rcases iterate_concreteField_name (d := d) (r := r) f' n with hsame | ⟨x, hx, hclass⟩
    · obtain rfl := List.inj_on_of_nodup_map hunique hf' hf (hsame.symm.trans hname)
      rw [hcalled] at hcalled'
      cases hcalled'
    · exact hlower f hf x hx (hname.symm.trans hclass)

/-- Collections have different names, unless they are for observers of one name. -/
theorem nodup_collections_iff (c : Conventions) (r : Registry) (rows : List (String × Casting)) (id : ClassId) :
    (collections c r rows id).Nodup ↔ rows.Pairwise fun row row' => row.2.participants.subject = id →
      row'.2.participants.subject = id → ∀ o o', r.class? row.2.participants.observer = some o →
        r.class? row'.2.participants.observer = some o' → o.name ≠ o'.name := by
  rw [List.Nodup, collections, List.pairwise_filterMap]
  refine List.Pairwise.iff fun row row' => ?_
  constructor
  · intro h hrow hrow' o o' ho ho' hname
    refine h (c.collectionFor o.name) ?_ (c.collectionFor o'.name) ?_ (by rw [hname])
    · simp only [if_pos hrow, ho, Option.map_some]
    · simp only [if_pos hrow', ho', Option.map_some]
  · intro h x hx x' hx' heq
    split at hx
    · next hrow =>
      split at hx'
      · next hrow' =>
        obtain ⟨o, ho, rfl⟩ := Option.map_eq_some_iff.1 hx
        obtain ⟨o', ho', rfl⟩ := Option.map_eq_some_iff.1 hx'
        refine h hrow hrow' o o' ho ho' ?_
        simpa [Conventions.collectionFor] using heq
      · cases hx'
    · cases hx

/-- A new decoder renames no field whose name is that of no class in lower case. -/
private theorem concreteField_of_new {auxs : List String} (hnew : d.resolved = .empty)
    (h : d.decodeDispatchers p auxs = .ok (d', p')) {f : Field}
    (hf : ∀ k ∈ p.registry.classes, f.name ≠ Text.lower k.name) :
    d'.concreteField p.registry f = f := by
  rcases concreteField_name (d := d') (r := p.registry) f with hsame | ⟨k, hk, hname⟩
  · exact hsame
  · unfold concreteField
    split
    · next hcalled =>
      cases hbound : d'.boundSubject p.registry f.ty with
      | error e => rfl
      | ok subject =>
        exfalso
        have hmem : f.ty ∈ d'.resolved.keys := by
          rw [← Table.isSome_get?]
          unfold boundSubject at hbound
          split at hbound
          · next hget => rw [hget]; rfl
          · cases hbound
        obtain ⟨rows, hauxs, hrows, rfl⟩ := decodeDispatchers_record h
        rw [mem_keys_recordAll, hnew] at hmem
        obtain ⟨row, hrow, hty⟩ := List.mem_map.1 (hmem.resolve_left (by simp [Table.keys, Table.empty]))
        obtain ⟨x, hx, hxname⟩ := Registry.classNamed?_eq_some (hrows row hrow).classNamed
        refine hf x (List.mem_of_getElem? hx) ?_
        rw [hxname, hty]
        rw [calledAfterType, Bool.and_eq_true, beq_iff_eq] at hcalled
        exact hcalled.2
    · rfl

/-- In a program whose fields have different names, and none of them that of a collection or of a class in lower
case, the fields of a class have different names after a decode if and only if the new ones among them have: those
of the fields that are called after their type, and those of the collections. With a new decoder only the
collections count, and they have different names unless the class is the subject of two dispatchers
with observers of one name. -/
theorem decode_fieldNames {s : Summary} (h : d.decode p = .ok (d', p', s))
    (hunique : ∀ k ∈ p.registry.classes, (k.fields.map (·.name)).Nodup)
    (hfree : ∀ k ∈ p.registry.classes, ∀ f ∈ k.fields, ∀ x ∈ p.registry.classes,
      f.name ≠ d.conventions.collectionFor x.name ∧ f.name ≠ Text.lower x.name) :
    ∃ rows, rows.map Prod.fst = p.template.auxs ∧ (∀ row ∈ rows, d.Casts p.registry row.1 row.2) ∧
      ∀ id k k', p.registry.class? id = some k → p'.registry.class? id = some k' →
        ((k'.fields.map (·.name)).Nodup ↔
          ((k.fields.filter d'.calledAfterType).map
              (fun f => ((d'.concreteField p.registry)^[p'.template.classes.count id] f).name) ++
            collections d.conventions p.registry rows id).Nodup) ∧
        (d.resolved = .empty → ((k'.fields.map (·.name)).Nodup ↔
          rows.Pairwise fun row row' => row.2.participants.subject = id → row'.2.participants.subject = id →
            ∀ o o', p.registry.class? row.2.participants.observer = some o →
              p.registry.class? row'.2.participants.observer = some o' → o.name ≠ o'.name)) := by
  obtain ⟨rows, hauxs, hrows, hnames⟩ := decode_fields h
  refine ⟨rows, hauxs, hrows, fun id k k' hk hk' => ?_⟩
  have hmem : k ∈ p.registry.classes := List.mem_of_getElem? hk
  have hcollection : ∀ f ∈ k.fields, f.name ∉ collections d.conventions p.registry rows id := by
    intro f hf hcollected
    obtain ⟨row, -, hrow⟩ := List.mem_filterMap.1 hcollected
    split at hrow
    · obtain ⟨o, ho, hname⟩ := Option.map_eq_some_iff.1 hrow
      exact (hfree k hmem f hf o (List.mem_of_getElem? ho)).1 hname.symm
    · cases hrow
  rw [hnames id k k' hk hk']
  constructor
  · exact nodup_fieldNames_iff _ (hunique k hmem) (fun f hf x hx => (hfree k hmem f hf x hx).2) hcollection
  · intro hnew
    obtain ⟨d₁, q, -, hdispatchers, rfl, -, -⟩ := decode_eq_ok h
    have hkept : ∀ f ∈ k.fields,
        (((d₁.prepare q.registry).concreteField p.registry)^[p'.template.classes.count id] f).name = f.name := by
      intro f hf
      have hfixed := concreteField_of_new hnew hdispatchers fun x hx => (hfree k hmem f hf x hx).2
      have hprepared : (d₁.prepare q.registry).concreteField p.registry f = f := hfixed
      rw [Function.iterate_fixed hprepared]
    rw [List.map_congr_left hkept, ← nodup_collections_iff d.conventions, List.nodup_append]
    constructor
    · exact fun h => h.2.1
    · intro hcollections
      refine ⟨hunique k hmem, hcollections, ?_⟩
      rintro _ hx _ hy rfl
      obtain ⟨f, hf, rfl⟩ := List.mem_map.1 hx
      exact hcollection f hf hy

end Decoder

/-! ## A station with fields -/

namespace Station

/-- The station with a name and rooms. -/
def furnished : Program :=
  { program with
    registry := program.registry.modifyClass ⟨4⟩ fun k =>
      { k with fields := [⟨"String", "name", none⟩, ⟨"List<Room>", "rooms", none⟩] } }

/-- The decoder for a station that shows its alarms too. -/
def showing : Decoder :=
  { decoder with
    bindings := (decoder.bindings.insert "observer_AuxObserverAlarm" 5).insert "update_AuxObserverAlarm" 5 }

theorem furnished_unique : ∀ k ∈ furnished.registry.classes, (k.fields.map (·.name)).Nodup := by
  decide +kernel

theorem furnished_free : ∀ k ∈ furnished.registry.classes, ∀ f ∈ k.fields, ∀ x ∈ furnished.registry.classes,
    f.name ≠ Conventions.default.collectionFor x.name ∧ f.name ≠ Text.lower x.name := by
  decide +kernel

end Station

namespace Decoder

/-- The station has different fields for its displays and its sirens. -/
theorem decode_fieldNames_station : ∃ d' p' s k, Station.decoder.decode Station.furnished = .ok (d', p', s) ∧
    p'.registry.class? ⟨4⟩ = some k ∧ (k.fields.map (·.name)).Nodup := by
  have hdecode : okAnd (Station.decoder.decode Station.furnished) (fun x =>
      (x.2.1.registry.class? ⟨4⟩).isSome) = true := by
    decide +kernel
  have hcasts : ∀ row ∈ [("AuxObserverReading", readings), ("AuxObserverAlarm", alarms)],
      Station.decoder.Casts Station.furnished.registry row.1 row.2 := by
    decide +kernel
  obtain ⟨⟨d', p', s⟩, h, hk⟩ := okAnd_eq_true.1 hdecode
  obtain ⟨k, hk⟩ := Option.isSome_iff_exists.1 hk
  obtain ⟨rows, hauxs, hrows, hnames⟩ := decode_fieldNames h Station.furnished_unique Station.furnished_free
  obtain rfl := Casts.unique_row hauxs hrows hcasts
  refine ⟨d', p', s, k, h, hk, ((hnames ⟨4⟩ _ k rfl hk).2 rfl).2 ?_⟩
  rw [List.pairwise_pair]
  intro _ _ o o' ho ho'
  obtain rfl := Option.some.inj ho
  obtain rfl := Option.some.inj ho'
  decide

/-- A station that shows its readings and its alarms on displays gets two collections of one name. -/
theorem fieldNames_clash_station : ∃ d' p' s k, Station.showing.decode Station.furnished = .ok (d', p', s) ∧
    Station.furnished.template.auxs.Nodup ∧
      (∀ k ∈ Station.furnished.registry.classes, (k.fields.map (·.name)).Nodup) ∧
      (∀ k ∈ Station.furnished.registry.classes, ∀ f ∈ k.fields, ∀ x ∈ Station.furnished.registry.classes,
        f.name ≠ Station.showing.conventions.collectionFor x.name ∧ f.name ≠ Text.lower x.name) ∧
        p'.registry.class? ⟨4⟩ = some k ∧ ¬ (k.fields.map (·.name)).Nodup := by
  have hdecode : okAnd (Station.showing.decode Station.furnished) (fun x =>
      (x.2.1.registry.class? ⟨4⟩).any fun k => ¬ (k.fields.map (·.name)).Nodup) = true := by
    decide +kernel
  obtain ⟨⟨d', p', s⟩, h, hresult⟩ := okAnd_eq_true.1 hdecode
  obtain ⟨k, hk, hclash⟩ := (Option.any_eq_true _ _).1 hresult
  exact ⟨d', p', s, k, h, by decide, Station.furnished_unique, Station.furnished_free, hk, of_decide_eq_true hclash⟩

end Decoder

end ObserverPattern
