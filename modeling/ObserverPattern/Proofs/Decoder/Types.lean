import Mathlib.Logic.Relation
import ObserverPattern.Proofs.Decoder.Places
import ObserverPattern.Proofs.Decoder.Reuse
import ObserverPattern.Proofs.Decoder.TypeRules
import ObserverPattern.Proofs.Text.Words

/-!
# Dispatchers in the types of decoded code

A decode strikes the dispatchers from the template and puts their subjects in their place where code
casts, where it declares a variable, and in fields that are called after their type. Types that stand
elsewhere stay: of parameters and results, of the variables of loops, and of objects that are created.

* `concreteType_namesNone`: a type that names one dispatcher names none once the subject has taken its place;
* `Stems`, `Traced`: from which types of the code a type comes, before and after a visit (`traced_rules`);
* `walk_bodyTypes`, `walkFields_fieldTypes`: the types in a method and in the fields of a class after a traversal;
* `decode_types`: which types of the classes that are left name no dispatcher, and where the others come from.
-/

namespace ObserverPattern

/-! ## Names in a type -/

/-- Of some names, none stands in a type as a whole word. -/
def NamesNone (auxs : List String) (ty : String) : Prop := ∀ a ∈ auxs, Text.hasWord a ty = false

/-- Of some names, at most one stands in a type as a whole word. -/
def NamesAtMostOne (auxs : List String) (ty : String) : Prop :=
  ∀ a ∈ auxs, ∀ b ∈ auxs, Text.hasWord a ty = true → Text.hasWord b ty = true → a = b

instance (auxs : List String) (ty : String) : Decidable (NamesNone auxs ty) :=
  inferInstanceAs (Decidable (∀ a ∈ auxs, _))

instance (auxs : List String) (ty : String) : Decidable (NamesAtMostOne auxs ty) :=
  inferInstanceAs (Decidable (∀ a ∈ auxs, _))

/-- The names with the marker, which are those that are looked for in types. -/
def Conventions.marked (c : Conventions) (auxs : List String) : List String :=
  auxs.filter (Text.occursIn c.auxMarker)

section Names

variable {auxs auxs' : List String} {ty : String}

theorem NamesNone.subset (h : NamesNone auxs ty) (hsub : auxs' ⊆ auxs) : NamesNone auxs' ty :=
  fun a ha => h a (hsub ha)

theorem NamesNone.atMostOne (h : NamesNone auxs ty) : NamesAtMostOne auxs ty := by
  intro a ha b _ hword _
  rw [h a ha] at hword
  cases hword

theorem Conventions.marked_subset (c : Conventions) (auxs : List String) : c.marked auxs ⊆ auxs :=
  List.filter_subset_self _

variable (hauxs : ∀ a ∈ auxs, Text.IsName a.toList)

include hauxs

/-- A type that is another name. -/
theorem namesNone_of_isName (hty : Text.IsName ty.toList) (hne : ty ∉ auxs) : NamesNone auxs ty := by
  intro a ha
  rw [Bool.eq_false_iff, ne_eq, Text.hasWord_of_isName hty (hauxs a ha)]
  rintro rfl
  exact hne ha

theorem namesAtMostOne_of_isName (hty : Text.IsName ty.toList) : NamesAtMostOne auxs ty := by
  intro a ha b hb hword hword'
  rw [(Text.hasWord_of_isName hty (hauxs a ha)).1 hword, (Text.hasWord_of_isName hty (hauxs b hb)).1 hword']

/-- A type without the marker. -/
theorem namesNone_marked {c : Conventions} (hty : Text.occursIn c.auxMarker ty = false) :
    NamesNone (c.marked auxs) ty := by
  intro a ha
  obtain ⟨ha, hmarker⟩ := List.mem_filter.1 ha
  rw [Bool.eq_false_iff, ne_eq]
  intro hword
  have hinfix := (Text.occurs_iff.1 hmarker).trans (Text.occursIn_of_hasWord (hauxs a ha) hword)
  rw [Text.occursIn, Text.occurs_iff.2 hinfix] at hty
  cases hty

/-- The one name in a type makes room for a name that is none of them. -/
theorem namesNone_renameWord {aux subject : String} (haux : aux ∈ auxs) (hword : Text.hasWord aux ty = true)
    (hone : NamesAtMostOne auxs ty) (hsubject : Text.IsName subject.toList) (hne : subject ∉ auxs) :
    NamesNone auxs (Text.renameWord aux subject ty) := by
  intro a ha
  rw [Bool.eq_false_iff, ne_eq, Text.hasWord_renameWord (hauxs aux haux) hsubject (hauxs a ha)]
  rintro (⟨rfl, -⟩ | ⟨hother, hword'⟩)
  · exact hne ha
  · exact hother (hone a ha aux haux hword' hword)

example : NamesNone ["AuxObserverReading", "AuxObserver"]
    (Text.renameWord "AuxObserverReading" "Station" "List<AuxObserverReading>") := by decide +kernel

end Names

namespace Decoder

variable {d : Decoder} {auxs : List String} {r : Registry} {p : Position}

/-! ## One type -/

/-- A decoder that knows dispatchers of some names only puts names of other classes in their place. -/
structure NamesApart (d : Decoder) (auxs : List String) (r : Registry) : Prop where
  known : d.auxNames ⊆ auxs
  auxIsName : ∀ aux ∈ auxs, Text.IsName aux.toList
  subjectIsName : ∀ aux subject, d.boundSubject r aux = .ok subject → Text.IsName subject.name.toList
  subjectNotAux : ∀ aux subject, d.boundSubject r aux = .ok subject → subject.name ∉ auxs

theorem NamesApart.of_skeleton_eq {r' : Registry} (h : d.NamesApart auxs r) (hr : r'.skeleton = r.skeleton) :
    d.NamesApart auxs r' := by
  refine ⟨h.known, h.auxIsName, ?_, ?_⟩
  · intro aux subject hsubject
    obtain ⟨subject', hsubject', hname⟩ := boundSubject_of_skeleton_eq hr.symm hsubject
    exact hname ▸ h.subjectIsName aux subject' hsubject'
  · intro aux subject hsubject
    obtain ⟨subject', hsubject', hname⟩ := boundSubject_of_skeleton_eq hr.symm hsubject
    exact hname ▸ h.subjectNotAux aux subject' hsubject'

/-- What takes the place of a type that names one dispatcher names none. -/
theorem concreteType_namesNone (hapart : d.NamesApart auxs r) {ty ty' : String} (h : d.concreteType r ty = .ok ty')
    (hone : NamesAtMostOne auxs ty) : NamesNone auxs ty' := by
  unfold concreteType at h
  split at h
  · cases h
  · next aux hfind =>
    simp only [bind_eq_ok, pure_eq_ok] at h
    obtain ⟨subject, hsubject, rfl⟩ := h
    have haux := hapart.known (List.mem_of_find?_eq_some hfind)
    have hword : Text.hasWord aux ty = true := by simpa using List.find?_some hfind
    exact namesNone_renameWord hapart.auxIsName haux hword hone (hapart.subjectIsName aux subject hsubject)
      (hapart.subjectNotAux aux subject hsubject)

theorem Retypes.namesNone (hapart : d.NamesApart auxs r) {ty ty' : String} (h : d.Retypes r ty ty')
    (hone : NamesAtMostOne auxs ty) :
    NamesAtMostOne auxs ty' ∧ NamesNone (d.conventions.marked auxs) ty' := by
  rcases h with ⟨-, htype⟩ | ⟨hunmarked, rfl⟩
  · have hnone := concreteType_namesNone hapart htype hone
    exact ⟨hnone.atMostOne, hnone.subset (Conventions.marked_subset _ _)⟩
  · exact ⟨hone, namesNone_marked hapart.auxIsName hunmarked⟩

/-- What becomes of a type depends on the skeleton only. -/
theorem Retypes.of_skeleton_eq {r' : Registry} {ty ty' : String} (h : d.Retypes r' ty ty')
    (hr : r'.skeleton = r.skeleton) : d.Retypes r ty ty' := by
  have htype : d.concreteType r' ty = d.concreteType r ty :=
    Registry.congr_skeleton (d.concreteType · ty) (concreteType_skeleton ty) hr
  unfold Retypes at h ⊢
  rwa [← htype]

/-- However often it is visited, a type that names one dispatcher names none with the marker then. -/
theorem namesNone_of_transGen (hapart : d.NamesApart auxs r) {ty ty' : String}
    (h : Relation.TransGen (d.Retypes r) ty ty') (hone : NamesAtMostOne auxs ty) :
    NamesAtMostOne auxs ty' ∧ NamesNone (d.conventions.marked auxs) ty' := by
  induction h with
  | single hretypes => exact hretypes.namesNone hapart hone
  | tail _ hretypes ih => exact hretypes.namesNone hapart ih.1

/-! ## Before and after a visit -/

/-- The types that a type of code may come from, given those that stand there at first: a loop over the collection
makes a declaration and a cast of the type of its variable, and declares an iterator. -/
def sources (first : TypePlace → List String) : TypePlace → List String
  | .declared => "Iterator" :: first .declared ++ first .loop
  | .cast => first .cast ++ first .loop
  | .created => first .created
  | .loop => first .loop

/-- Types of casts and declarations come from a source by some visits; the others stand there from the first. -/
def Stems (d : Decoder) (r : Registry) (first : TypePlace → List String) : TypePlace → String → Prop
  | .declared, ty => ∃ ty₀ ∈ sources first .declared, Relation.ReflTransGen (d.Retypes r) ty₀ ty
  | .cast, ty => ∃ ty₀ ∈ sources first .cast, Relation.ReflTransGen (d.Retypes r) ty₀ ty
  | .created, ty => ty ∈ first .created
  | .loop, ty => ty ∈ first .loop

/-- After a visit, types of casts and declarations have been retyped, unless the visit itself made them. -/
def Traced (d : Decoder) (r : Registry) (first : TypePlace → List String) : TypePlace → String → Prop
  | .declared, ty =>
    ty ∈ "Iterator" :: first .loop ∨ ∃ ty₀ ∈ sources first .declared, Relation.TransGen (d.Retypes r) ty₀ ty
  | .cast, ty => ty ∈ first .loop ∨ ∃ ty₀ ∈ sources first .cast, Relation.TransGen (d.Retypes r) ty₀ ty
  | .created, ty => ty ∈ first .created
  | .loop, ty => ty ∈ first .loop

theorem traced_rules {r₁ : Registry} (hr : r₁.skeleton = r.skeleton) (first : TypePlace → List String) :
    d.TypeRules r₁ (Stems d r first) (Traced d r first) where
  cast := by
    rintro ty ty' ⟨ty₀, hty₀, hpath⟩ hretypes
    exact .inr ⟨ty₀, hty₀, .tail' hpath (hretypes.of_skeleton_eq hr)⟩
  declared := by
    rintro ty ty' ⟨ty₀, hty₀, hpath⟩ hretypes
    exact .inr ⟨ty₀, hty₀, .tail' hpath (hretypes.of_skeleton_eq hr)⟩
  created _ h := h
  loop _ h := h
  element _ h := ⟨.inl (List.mem_cons_of_mem _ h), .inl h⟩
  iterator := .inl List.mem_cons_self

/-- After a visit the types are as the next one needs them. -/
theorem Traced.stems {first : TypePlace → List String} {place : TypePlace} {ty : String}
    (h : Traced d r first place ty) : Stems d r first place ty := by
  cases place with
  | declared =>
    rcases h with hmade | ⟨ty₀, hty₀, hpath⟩
    · refine ⟨ty, ?_, .refl⟩
      rcases List.mem_cons.1 hmade with rfl | hloop
      · exact List.mem_cons_self
      · exact List.mem_append_right _ hloop
    · exact ⟨ty₀, hty₀, hpath.to_reflTransGen⟩
  | cast =>
    rcases h with hloop | ⟨ty₀, hty₀, hpath⟩
    · exact ⟨ty, List.mem_append_right _ hloop, .refl⟩
    · exact ⟨ty₀, hty₀, hpath.to_reflTransGen⟩
  | created => exact h
  | loop => exact h

/-- At first every type stands where it stems from. -/
theorem stems_first {first : TypePlace → List String} {place : TypePlace} {ty : String} (hty : ty ∈ first place) :
    Stems d r first place ty := by
  cases place with
  | declared => exact ⟨ty, List.mem_append_left _ (List.mem_cons_of_mem _ hty), .refl⟩
  | cast => exact ⟨ty, List.mem_append_left _ hty, .refl⟩
  | created => exact hty
  | loop => exact hty

/-! ## A method and a class -/

/-- A type comes from one of some types, which visits have retyped. If that type names no more than one dispatcher,
what comes from it names none with the marker. -/
def ComesFrom (c : Conventions) (d : Decoder) (r : Registry) (auxs types : List String) (ty : String) : Prop :=
  ∃ ty₀ ∈ types, Relation.TransGen (d.Retypes r) ty₀ ty ∧
    (NamesAtMostOne auxs ty₀ → NamesNone (c.marked auxs) ty)

/-- What a decode with some dispatchers makes of the types in a body. Each type of a cast or a declaration is one
that a loop over the collection puts there, or comes from such a type or from one of the body. -/
structure BodyTypes (c : Conventions) (d : Decoder) (r : Registry) (auxs : List String) (b b' : Block) : Prop where
  created : ∀ ty ∈ Stmt.listTypes .created b', ty ∈ Stmt.listTypes .created b
  loops : ∀ ty ∈ Stmt.listTypes .loop b', ty ∈ Stmt.listTypes .loop b
  casts : ∀ ty ∈ Stmt.listTypes .cast b',
    ty ∈ Stmt.listTypes .loop b ∨ ComesFrom c d r auxs (Stmt.listTypes .cast b ++ Stmt.listTypes .loop b) ty
  declared : ∀ ty ∈ Stmt.listTypes .declared b',
    ty ∈ "Iterator" :: Stmt.listTypes .loop b ∨ NamesNone (c.marked auxs) ty ∨
      ComesFrom c d r auxs (Stmt.listTypes .declared b ++ Stmt.listTypes .loop b) ty

/-- What a decode with some dispatchers makes of the types in fields: of the fields themselves, and where
they are initialised. -/
structure FieldTypes (c : Conventions) (d : Decoder) (r : Registry) (auxs : List String) (fs fs' : List Field) :
    Prop where
  own : ∀ f ∈ fs', NamesNone (c.marked auxs) f.ty ∨
    f.name ≠ Text.lower f.ty ∧ ∃ f₀ ∈ fs, f₀.ty = f.ty ∧ f₀.name = f.name
  created : ∀ ty ∈ Field.listTypes .created fs', ty ∈ Field.listTypes .created fs
  casts : ∀ ty ∈ Field.listTypes .cast fs', ComesFrom c d r auxs (Field.listTypes .cast fs) ty

theorem comesFrom_of_transGen (hapart : d.NamesApart auxs r) {types : List String} {ty : String}
    (h : ∃ ty₀ ∈ types, Relation.TransGen (d.Retypes r) ty₀ ty) : ComesFrom d.conventions d r auxs types ty := by
  obtain ⟨ty₀, hty₀, hpath⟩ := h
  exact ⟨ty₀, hty₀, hpath, fun hone => (namesNone_of_transGen hapart hpath hone).2⟩

/-- The types in the body of a method that a traversal visits, however often. -/
theorem walk_bodyTypes {maxDepth : Nat} {t : Template} {r₁ r' : Registry} (hapart : d.NamesApart auxs r)
    (hr : r₁.skeleton = r.skeleton) (h : Walk.walk d.pass maxDepth t r₁ = .ok r') {id : ClassId}
    (hid : id ∈ t.classes) {k : MethodId} (hk : k ∈ r₁.methodsOf id) {m m' : MethodDecl}
    (hm : r₁.method? k = some m) (hm' : r'.method? k = some m') :
    BodyTypes d.conventions d r auxs m.body m'.body := by
  have hvisit : Walk.Establish d.pass maxDepth r₁ k
      (Stmt.ListTyped (Stems d r fun place => Stmt.listTypes place m.body))
      (Stmt.ListTyped (Traced d r fun place => Stmt.listTypes place m.body)) := by
    intro r₂ owner b body new houtline hbody hnew hb
    exact walkBlock_types (traced_rules ((Registry.skeleton_eq_of_outline_eq houtline).trans hr) _) hb hbody hnew
  have hfirst : ∀ m₁, r₁.method? k = some m₁ →
      Stmt.ListTyped (Stems d r fun place => Stmt.listTypes place m.body) m₁.body := by
    intro m₁ hm₁
    obtain rfl := Option.some.inj (hm.symm.trans hm₁)
    exact fun place ty hty => stems_first hty
  have htraced := Walk.walk_bodies hvisit (fun _ hb place ty hty => (hb place ty hty).stems) h hid hk hfirst m' hm'
  refine ⟨htraced .created, htraced .loop, fun ty hty => ?_, fun ty hty => ?_⟩
  · exact (htraced .cast ty hty).imp_right (comesFrom_of_transGen hapart)
  · refine (htraced .declared ty hty).imp_right ?_
    rintro ⟨ty₀, hty₀, hpath⟩
    rw [sources, List.cons_append, List.mem_cons] at hty₀
    rcases hty₀ with rfl | hty₀
    -- The type of an iterator is a name, so it names no more than one dispatcher.
    · exact .inl (namesNone_of_transGen hapart hpath (namesAtMostOne_of_isName hapart.auxIsName (by decide))).2
    · exact .inr (comesFrom_of_transGen hapart ⟨ty₀, hty₀, hpath⟩)

/-- Fields hold no statements. -/
private theorem listTypes_loop_eq_nil (fs : List Field) : Field.listTypes .loop fs = [] := by
  refine List.eq_nil_iff_forall_not_mem.2 fun ty hty => ?_
  obtain ⟨f, -, e, -, hown⟩ := Field.mem_listTypes.1 hty
  cases e <;> cases hown

private theorem onField_own (hapart : d.NamesApart auxs p.registry) {f : Field} {fs : List Field}
    (h : d.onField p f = .ok fs) : ∀ f' ∈ fs, NamesNone (d.conventions.marked auxs) f'.ty ∨
      f'.name ≠ Text.lower f'.ty ∧ f'.ty = f.ty ∧ f'.name = f.name := by
  rcases onField_types h with ⟨subject, hsubject, rfl⟩ | ⟨hrule, rfl⟩
  · intro f' hf'
    obtain rfl := List.mem_singleton.1 hf'
    have hname := hapart.subjectIsName _ _ hsubject
    have hnone := namesNone_of_isName hapart.auxIsName hname (hapart.subjectNotAux _ _ hsubject)
    exact .inl (hnone.subset (Conventions.marked_subset _ _))
  · intro f' hf'
    obtain rfl := List.mem_singleton.1 hf'
    by_cases hmarked : d.isMarked f'.ty = true
    · exact .inr ⟨fun hname => hrule ⟨hmarked, hname⟩, rfl, rfl⟩
    · exact .inl (namesNone_marked hapart.auxIsName (Bool.eq_false_iff.2 hmarked))

private theorem walkFields_own {fs fs' : List Field} (hapart : d.NamesApart auxs p.registry)
    (h : Walk.walkFields d.pass p fs = .ok fs') :
    ∀ f' ∈ fs', NamesNone (d.conventions.marked auxs) f'.ty ∨
      f'.name ≠ Text.lower f'.ty ∧ ∃ f ∈ fs, f.ty = f'.ty ∧ f.name = f'.name := by
  induction fs generalizing fs' with
  | nil =>
    rw [Walk.walkFields, pure_eq_ok] at h
    subst h
    simp
  | cons f fs ih =>
    simp only [Walk.walkFields, Walk.walkField, bind_eq_ok, pure_eq_ok] at h
    obtain ⟨new, ⟨init, -, hnew⟩, rest, hrest, rfl⟩ := h
    intro f' hf'
    rcases List.mem_append.1 hf' with hf' | hf'
    · refine (onField_own hapart hnew f' hf').imp_right ?_
      rintro ⟨hname, hty, hsame⟩
      exact ⟨hname, f, List.mem_cons_self, hty.symm, hsame.symm⟩
    · refine (ih hrest f' hf').imp_right ?_
      rintro ⟨hname, f₀, hf₀, hsame⟩
      exact ⟨hname, f₀, List.mem_cons_of_mem f hf₀, hsame⟩

/-- The types in the fields of a class after a visit of the class. -/
theorem walkFields_fieldTypes {fs fs' : List Field} (hapart : d.NamesApart auxs r)
    (hr : p.registry.skeleton = r.skeleton) (h : Walk.walkFields d.pass p fs = .ok fs') :
    FieldTypes d.conventions d r auxs fs fs' := by
  have htraced := walkFields_types (traced_rules hr fun place => Field.listTypes place fs)
    (fun place ty hty => stems_first hty) h
  refine ⟨walkFields_own (hapart.of_skeleton_eq hr) h, htraced .created, fun ty hty => ?_⟩
  have hcast := htraced .cast ty hty
  simp only [Traced, sources, listTypes_loop_eq_nil, List.not_mem_nil, false_or, List.append_nil] at hcast
  exact comesFrom_of_transGen hapart hcast

/-! ## The whole decode -/

section Decode

variable {c : Conventions} {events : EventTable} {t : Trace} {q q' : Program} {d' : Decoder} {s : Summary}

theorem mem_keys_recordAll {rows : List (String × Casting)} {aux : String} :
    aux ∈ (d.recordAll rows).resolved.keys ↔ aux ∈ d.resolved.keys ∨ aux ∈ rows.map Prod.fst := by
  induction rows generalizing d with
  | nil => simp [recordAll]
  | cons row rows ih =>
    rw [recordAll, List.foldl_cons, ← recordAll, ih, List.map_cons, List.mem_cons, record, Table.keys_insert]
    split
    · next hmem =>
      constructor
      · exact Or.imp_right .inr
      · rintro (h | rfl | h)
        · exact .inl h
        · exact .inl hmem
        · exact .inr h
    · rw [List.mem_append, List.mem_singleton, or_assoc]

/-- A new decoder knows the dispatchers of the program it has decoded, and no others. -/
theorem mem_auxNames (h : (ofTrace c events t).decode q = .ok (d', q', s)) {aux : String} :
    aux ∈ d'.auxNames ↔ aux ∈ q.template.auxs := by
  obtain ⟨d₁, q₁, -, hdispatchers, rfl, -, -⟩ := decode_eq_ok h
  obtain ⟨rows, hauxs, -, rfl⟩ := decodeDispatchers_record hdispatchers
  rw [prepare, mem_longestFirst, mem_keys_recordAll, hauxs]
  exact or_iff_right (by simp [ofTrace, Table.keys, Table.empty])

/-- The names of a program are unique, and those that a decode puts in the place of dispatchers are names of
other classes. -/
structure DistinctNames (q : Program) (d' : Decoder) : Prop where
  classes : q.template.classes.Nodup
  names : (q.registry.classes.map (·.name)).Nodup
  auxs : ∀ aux ∈ q.template.auxs, Text.IsName aux.toList
  subjects : ∀ row ∈ d'.subjects, ∀ k ∈ q.registry.class? row.2,
    Text.IsName k.name.toList ∧ k.name ∉ q.template.auxs

instance (q : Program) (d' : Decoder) : Decidable (DistinctNames q d') :=
  decidable_of_iff
    (q.template.classes.Nodup ∧ (q.registry.classes.map (·.name)).Nodup ∧
      (∀ aux ∈ q.template.auxs, Text.IsName aux.toList) ∧
        ∀ row ∈ d'.subjects, ∀ k ∈ q.registry.class? row.2, Text.IsName k.name.toList ∧ k.name ∉ q.template.auxs)
    ⟨fun h => ⟨h.1, h.2.1, h.2.2.1, h.2.2.2⟩, fun h => ⟨h.classes, h.names, h.auxs, h.subjects⟩⟩

private theorem namesApart_of_decode (h : (ofTrace c events t).decode q = .ok (d', q', s))
    (hnames : DistinctNames q d') : d'.NamesApart q.template.auxs q.registry := by
  have hsubject : ∀ aux subject, d'.boundSubject q.registry aux = .ok subject →
      Text.IsName subject.name.toList ∧ subject.name ∉ q.template.auxs := by
    intro aux subject hbound
    unfold boundSubject at hbound
    split at hbound
    · next participants hget =>
      have hrow : (aux, participants.subject) ∈ d'.subjects :=
        List.mem_map.2 ⟨(aux, participants), Table.mem_entries_of_get? hget, rfl⟩
      exact hnames.subjects _ hrow subject (Registry.getClass_eq_ok.1 hbound)
    · cases hbound
  have hknown : d'.auxNames ⊆ q.template.auxs := fun aux haux => (mem_auxNames h).1 haux
  exact ⟨hknown, hnames.auxs, fun aux subject hbound => (hsubject aux subject hbound).1,
    fun aux subject hbound => (hsubject aux subject hbound).2⟩

/-- No class that a decode leaves is called like a dispatcher. -/
private theorem name_notMem_auxs (h : (ofTrace c events t).decode q = .ok (d', q', s)) (hnames : DistinctNames q d')
    {id : ClassId} (hid : id ∈ q'.template.classes) {k : ClassDecl} (hk : q'.registry.class? id = some k) :
    k.name ∉ q.template.auxs := by
  have hskeleton := (decode_later h).skeleton
  have hstruck := (decode_struck h).2
  intro haux
  have hclass := congrArg (·.class? id) hskeleton
  simp only [Registry.class?_skeleton, hk] at hclass
  obtain ⟨k₀, hk₀, hsame⟩ := Option.map_eq_some_iff.1 hclass.symm
  have hname : k₀.name = k.name := by
    show k₀.skeleton.name = k.skeleton.name
    rw [hsame]
  have hnamed : q.registry.classNamed? k.name = some id := hname ▸ Registry.classNamed?_of_nodup hnames.names hk₀
  exact hstruck.notMem hnames.classes haux hnamed hid

end Decode

end Decoder

/-! ## A console for a station -/

namespace Console

/-- A display and a console show the readings of a station, which has a name of its choice as its dispatcher has.
In the console a type stands in every kind of place. -/
def program (aux station ty : String) : Program where
  template := ⟨[⟨0⟩, ⟨1⟩, ⟨2⟩, ⟨3⟩, ⟨4⟩], [aux]⟩
  registry.classes :=
    [{ ClassDecl.empty aux with methods := [⟨0⟩], dispatcher := some ⟨⟨1⟩, ⟨0⟩⟩ },
      ClassDecl.empty "Reading",
      { ClassDecl.empty station with methods := [⟨1⟩] },
      { ClassDecl.empty "Display" with methods := [⟨2⟩] },
      { ClassDecl.empty "Console" with
        fields := [⟨ty, "source", none⟩, ⟨aux, Text.lower aux, some (.cast ty .null)⟩]
        methods := [⟨3⟩] }]
  registry.methods :=
    [Station.genericHandle ⟨0⟩ aux "Reading",
      ⟨"publish", ⟨2⟩, [⟨"Reading", "reading"⟩], "void", false, []⟩,
      ⟨"show", ⟨3⟩, [⟨station, "sender"⟩, ⟨"Reading", "reading"⟩], "void", false, []⟩,
      ⟨"follow", ⟨4⟩, [⟨ty, "first"⟩], ty, false,
        [.declare ty "second" (.cast ty (.id "first")),
          .forEach ty "other" (.id "others") [.expr (.methodCall (.id "other") "poll" [])],
          .ret (some (.new ty []))]⟩]

/-- A new decoder for the readings, which nothing attaches to. -/
def decoder (aux : String) : Decoder :=
  .ofTrace .default (Table.ofList [("Reading", ⟨1, 0, 0⟩)])
    ⟨.empty, Table.ofList [(Role.subject.hole aux, 2), (Role.observer.hole aux, 3), (Role.handle.hole aux, 1),
      (Role.update.hole aux, 2)]⟩

end Console

namespace Decoder

/-- A decode of the console, where names are unique and neither the station nor the display is called like the
dispatcher, leaves the console and its method with some property. -/
def LeavesConsole (aux station ty : String) (P : ClassDecl → MethodDecl → Bool) : Prop :=
  ∃ d' q' s k m, (Console.decoder aux).decode (Console.program aux station ty) = .ok (d', q', s) ∧
    (Console.program aux station ty).template.classes.Nodup ∧
      ((Console.program aux station ty).registry.classes.map (·.name)).Nodup ∧
        station ≠ aux ∧ "Display" ≠ aux ∧ ⟨4⟩ ∈ q'.template.classes ∧ q'.registry.class? ⟨4⟩ = some k ∧
          ⟨3⟩ ∈ k.methods ∧ q'.registry.method? ⟨3⟩ = some m ∧ P k m = true

private theorem leavesConsole_of_okAnd {aux station ty : String} {P : ClassDecl → MethodDecl → Bool}
    (hunique : (Console.program aux station ty).template.classes.Nodup ∧
      ((Console.program aux station ty).registry.classes.map (·.name)).Nodup ∧ station ≠ aux ∧ "Display" ≠ aux)
    (hdecode : okAnd ((Console.decoder aux).decode (Console.program aux station ty)) (fun x =>
      ⟨4⟩ ∈ x.2.1.template.classes ∧ ∃ k ∈ x.2.1.registry.class? ⟨4⟩, ⟨3⟩ ∈ k.methods ∧
        ∃ m ∈ x.2.1.registry.method? ⟨3⟩, P k m = true) = true) : LeavesConsole aux station ty P := by
  obtain ⟨hclasses, hnames, hstation, hdisplay⟩ := hunique
  obtain ⟨⟨d', q', s⟩, h, hresult⟩ := okAnd_eq_true.1 hdecode
  obtain ⟨hlisted, k, hk, hmethod, m, hm, hP⟩ := of_decide_eq_true hresult
  exact ⟨d', q', s, k, m, h, hclasses, hnames, hstation, hdisplay, hlisted, hk, hmethod, hm, hP⟩

/-- Whether a name stands in one of some types as a whole word. -/
def namesIn (aux : String) (types : List String) : Bool := types.any (Text.hasWord aux)

end Decoder

end ObserverPattern
