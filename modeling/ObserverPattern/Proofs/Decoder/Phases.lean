import ObserverPattern.Proofs.Participants
import ObserverPattern.Proofs.Structure.Frame
import ObserverPattern.Proofs.Trace.Moves
import ObserverPattern.Proofs.Walk.Counting

/-!
# The two phases of a decode

A decode that succeeds has decoded every dispatcher and then taken the pass of the decoder through
the classes that remain (`decode_eq_ok`).

* `Casting`: a dispatcher with those who play its roles. Which casting a decoder finds for a name
  depends on the skeleton of the registry, the bindings and the events (`Later.casts_iff`), and none
  of these changes while dispatchers are decoded (`decodeDispatchers_later`);
* `decodeDispatcher_eq_ok`: what the decode of one dispatcher did; `decodeDispatchers_record`: what the
  decoder knows after a row of them;
* `decodeDispatchers_preserves`, `decodeDispatchers_append`: what each decode of a dispatcher keeps is
  kept, and a row of dispatchers can be split at any of them.
-/

namespace ObserverPattern

/-- A dispatcher, and those who play its roles. -/
structure Casting where
  id : ClassId
  dispatcher : Dispatcher
  /-- The name of the event class. -/
  event : String
  participants : Participants
  /-- The signature of the handle method. -/
  key : String

namespace Decoder

variable {d d' : Decoder} {p p' : Program} {r r' : Registry} {aux : String}

/-- The casting that a decoder finds for the dispatcher of a name. -/
structure Casts (d : Decoder) (r : Registry) (aux : String) (c : Casting) : Prop where
  found : findDispatcher r aux = .ok (c.id, c.dispatcher)
  event : r.className c.dispatcher.event = .ok c.event
  participants : Participants.resolve r d.bindings aux c.dispatcher (d.events.counts c.event) = .ok c.participants
  key : r.signature c.participants.handle = .ok c.key

instance (d : Decoder) (r : Registry) (aux : String) (c : Casting) : Decidable (d.Casts r aux c) :=
  decidable_of_iff
    (findDispatcher r aux = .ok (c.id, c.dispatcher) ∧ r.className c.dispatcher.event = .ok c.event ∧
      Participants.resolve r d.bindings aux c.dispatcher (d.events.counts c.event) = .ok c.participants ∧
        r.signature c.participants.handle = .ok c.key)
    ⟨fun h => ⟨h.1, h.2.1, h.2.2.1, h.2.2.2⟩, fun h => ⟨h.found, h.event, h.participants, h.key⟩⟩

theorem findDispatcher_skeleton (aux : String) (r : Registry) :
    findDispatcher r.skeleton aux = findDispatcher r aux := by
  unfold findDispatcher
  rw [Registry.classNamed?_skeleton]
  cases r.classNamed? aux with
  | none => rfl
  | some id =>
    simp only [Registry.getClass_skeleton]
    cases r.getClass id <;> rfl

/-- A dispatcher has one casting. -/
theorem Casts.unique {c c' : Casting} (h : d.Casts r aux c) (h' : d.Casts r aux c') : c = c' := by
  obtain ⟨id, dispatcher, event, participants, key⟩ := c
  obtain ⟨id', dispatcher', event', participants', key'⟩ := c'
  obtain ⟨rfl, rfl⟩ := Prod.mk.inj (Except.ok.inj (h.found.symm.trans h'.found))
  obtain rfl := Except.ok.inj (h.event.symm.trans h'.event)
  obtain rfl := Except.ok.inj (h.participants.symm.trans h'.participants)
  obtain rfl := Except.ok.inj (h.key.symm.trans h'.key)
  rfl

/-- A decoder and a registry further on in a decode: what the castings depend on is the same. -/
structure Later (d : Decoder) (r : Registry) (d' : Decoder) (r' : Registry) : Prop where
  conventions : d'.conventions = d.conventions
  events : d'.events = d.events
  bindings : d'.bindings = d.bindings
  skeleton : r'.skeleton = r.skeleton

theorem Later.refl (d : Decoder) (r : Registry) : Later d r d r := ⟨rfl, rfl, rfl, rfl⟩

theorem Later.trans {d₁ d₂ d₃ : Decoder} {r₁ r₂ r₃ : Registry} (h : Later d₁ r₁ d₂ r₂) (h' : Later d₂ r₂ d₃ r₃) :
    Later d₁ r₁ d₃ r₃ where
  conventions := h'.conventions.trans h.conventions
  events := h'.events.trans h.events
  bindings := h'.bindings.trans h.bindings
  skeleton := h'.skeleton.trans h.skeleton

/-- Castings stay the same throughout a decode. -/
theorem Later.casts_iff (h : Later d r d' r') {aux : String} {c : Casting} : d'.Casts r' aux c ↔ d.Casts r aux c := by
  have hfound := Registry.congr_skeleton (findDispatcher · aux) (findDispatcher_skeleton aux) h.skeleton
  have hname := fun id => Registry.congr_skeleton (·.className id) (Registry.className_skeleton id) h.skeleton
  have hkey := fun id => Registry.congr_skeleton (·.signature id) (Registry.signature_skeleton id) h.skeleton
  -- Each of the four equations of a casting can be read off the skeleton.
  have hresolve := fun b dispatcher counts => Registry.congr_skeleton
    (fun r => Participants.resolve r b aux dispatcher counts)
    (fun r => Participants.resolve_skeleton r b aux dispatcher counts) h.skeleton
  constructor
  · rintro ⟨h₁, h₂, h₃, h₄⟩
    refine ⟨hfound.symm.trans h₁, (hname _).symm.trans h₂, ?_, (hkey _).symm.trans h₄⟩
    rw [← h₃, h.bindings, h.events]
    exact (hresolve _ _ _).symm
  · rintro ⟨h₁, h₂, h₃, h₄⟩
    refine ⟨hfound.trans h₁, (hname _).trans h₂, ?_, (hkey _).trans h₄⟩
    rw [← h₃, h.bindings, h.events]
    exact hresolve _ _ _

/-! ## The dispatchers -/

/-- What the decode of one dispatcher finds out and does to the program. -/
def cast (d : Decoder) (p : Program) (aux : String) : Except DecodeFault (Casting × Program) := do
  let (id, dispatcher) ← findDispatcher p.registry aux
  let event ← p.registry.className dispatcher.event
  let participants ← Participants.resolve p.registry d.bindings aux dispatcher (d.events.counts event)
  let registry ← transplant d.conventions p.registry aux participants dispatcher.handle
  let key ← registry.signature participants.handle
  if !p.template.classes.contains id then
    throw (.contract aux .notListed)
  return (⟨id, dispatcher, event, participants, key⟩,
    { template := { p.template with classes := p.template.classes.erase id }, registry })

/-- What a decoder knows once the dispatcher of a name has been decoded: the facts of the generic handle
belong to the handle, and the participants are stored. -/
def record (d : Decoder) (aux : String) (c : Casting) : Decoder :=
  { d with
    facts := (d.facts.move (genericKey aux c.event) c.key).1
    resolved := d.resolved.insert aux c.participants }

theorem get?_resolved_record (d : Decoder) (aux : String) (c : Casting) (name : String) :
    (d.record aux c).resolved.get? name = if name = aux then some c.participants else d.resolved.get? name :=
  Table.get?_insert _ _ _ _

/-- The decode of a dispatcher casts it and records the casting. -/
theorem decodeDispatcher_eq (d : Decoder) (p : Program) (aux : String) :
    d.decodeDispatcher p aux = (d.cast p aux).map fun x => (d.record aux x.1, x.2) := by
  simp only [decodeDispatcher, cast, map_bind]
  congr 1
  funext found
  congr 1
  funext event
  congr 1
  funext participants
  congr 1
  funext registry
  congr 1
  funext key
  split <;> rfl

/-- A dispatcher is cast if it has a casting, the participants get their code, and the template lists it. -/
theorem cast_eq_ok {c : Casting} :
    d.cast p aux = .ok (c, p') ↔ d.Casts p.registry aux c ∧ ∃ r',
      transplant d.conventions p.registry aux c.participants c.dispatcher.handle = .ok r' ∧
        c.id ∈ p.template.classes ∧
          p' = { template := { p.template with classes := p.template.classes.erase c.id }, registry := r' } := by
  have hsignature : ∀ {c : Casting} {r' : Registry},
      transplant d.conventions p.registry aux c.participants c.dispatcher.handle = .ok r' →
        r'.signature c.participants.handle = p.registry.signature c.participants.handle :=
    fun h => Registry.congr_skeleton (·.signature _) (Registry.signature_skeleton _) (transplant_eq_ok h).1.skeleton
  constructor
  · intro h
    simp only [cast, bind_eq_ok] at h
    obtain ⟨⟨id, dispatcher⟩, hfound, event, hevent, participants, hparticipants, r', htransplant, key, hkey, h⟩ := h
    by_cases hlisted : id ∈ p.template.classes
    · simp only [List.contains_iff_mem.2 hlisted, Bool.not_true, Bool.false_eq_true, if_false, pure_eq_ok,
        Prod.mk.injEq] at h
      obtain ⟨rfl, rfl⟩ := h
      rw [hsignature (c := ⟨id, dispatcher, event, participants, key⟩) htransplant] at hkey
      exact ⟨⟨hfound, hevent, hparticipants, hkey⟩, r', htransplant, hlisted, rfl⟩
    · have hcontains : p.template.classes.contains id = false := by simpa using hlisted
      simp only [hcontains, Bool.not_false, if_true] at h
      cases h
  · rintro ⟨hc, r', htransplant, hlisted, rfl⟩
    have hkey := (hsignature htransplant).trans hc.key
    simp only [cast, hc.found, hc.event, hc.participants, htransplant, hkey, ok_bind,
      List.contains_iff_mem.2 hlisted, Bool.not_true, Bool.false_eq_true, if_false]
    rfl

/-- What the decode of one dispatcher did. -/
theorem decodeDispatcher_eq_ok : d.decodeDispatcher p aux = .ok (d', p') ↔
    ∃ c r', d.Casts p.registry aux c ∧
      transplant d.conventions p.registry aux c.participants c.dispatcher.handle = .ok r' ∧
        c.id ∈ p.template.classes ∧ d' = d.record aux c ∧
          p' = { template := { p.template with classes := p.template.classes.erase c.id }, registry := r' } := by
  rw [decodeDispatcher_eq]
  constructor
  · intro h
    cases hcast : d.cast p aux with
    | error e =>
      rw [hcast] at h
      cases h
    | ok x =>
      rw [hcast] at h
      obtain ⟨rfl, rfl⟩ := Prod.mk.inj (Except.ok.inj h)
      obtain ⟨hc, r', htransplant, hlisted, hp'⟩ := cast_eq_ok.1 hcast
      exact ⟨x.1, r', hc, htransplant, hlisted, rfl, hp'⟩
  · rintro ⟨c, r', hc, htransplant, hlisted, rfl, hp'⟩
    rw [cast_eq_ok.2 ⟨hc, r', htransplant, hlisted, hp'⟩]
    rfl

theorem decodeDispatcher_later (h : d.decodeDispatcher p aux = .ok (d', p')) : Later d p.registry d' p'.registry := by
  obtain ⟨c, r', -, htransplant, -, rfl, rfl⟩ := decodeDispatcher_eq_ok.1 h
  exact ⟨rfl, rfl, rfl, (transplant_eq_ok htransplant).1.skeleton⟩

/-- What each decode of a dispatcher keeps, the decode of a row of dispatchers keeps. -/
theorem decodeDispatchers_preserves {P : Decoder → Program → Prop} {auxs : List String}
    (h : d.decodeDispatchers p auxs = .ok (d', p')) (hinit : P d p)
    (hstep : ∀ aux ∈ auxs, ∀ d₁ p₁ d₂ p₂, d₁.decodeDispatcher p₁ aux = .ok (d₂, p₂) →
      Later d p.registry d₁ p₁.registry → P d₁ p₁ → P d₂ p₂) : P d' p' := by
  induction auxs generalizing d p with
  | nil =>
    cases h
    exact hinit
  | cons aux auxs ih =>
    rw [decodeDispatchers, bind_eq_ok] at h
    obtain ⟨⟨d₁, p₁⟩, h₁, h⟩ := h
    refine ih h (hstep aux (by simp) d p d₁ p₁ h₁ (.refl d p.registry) hinit) ?_
    intro aux' haux' d₂ p₂ d₃ p₃ h₂ hlater
    exact hstep aux' (by simp [haux']) d₂ p₂ d₃ p₃ h₂ ((decodeDispatcher_later h₁).trans hlater)

theorem decodeDispatchers_later {auxs : List String} (h : d.decodeDispatchers p auxs = .ok (d', p')) :
    Later d p.registry d' p'.registry :=
  decodeDispatchers_preserves (P := fun d₁ p₁ => Later d p.registry d₁ p₁.registry) h (.refl d p.registry)
    fun _ _ _ _ _ _ hstep _ hlater => hlater.trans (decodeDispatcher_later hstep)

/-- A row of dispatchers is decoded by decoding the first one and then the others. -/
theorem decodeDispatchers_cons {auxs : List String} :
    d.decodeDispatchers p (aux :: auxs) = .ok (d', p') ↔ ∃ c r', d.Casts p.registry aux c ∧
      transplant d.conventions p.registry aux c.participants c.dispatcher.handle = .ok r' ∧
        c.id ∈ p.template.classes ∧
          (d.record aux c).decodeDispatchers
            { template := { p.template with classes := p.template.classes.erase c.id }, registry := r' } auxs =
              .ok (d', p') := by
  rw [decodeDispatchers, bind_eq_ok]
  constructor
  · rintro ⟨⟨d₁, p₁⟩, h₁, h⟩
    obtain ⟨c, r', hc, htransplant, hlisted, rfl, rfl⟩ := decodeDispatcher_eq_ok.1 h₁
    exact ⟨c, r', hc, htransplant, hlisted, h⟩
  · rintro ⟨c, r', hc, htransplant, hlisted, h⟩
    exact ⟨_, decodeDispatcher_eq_ok.2 ⟨c, r', hc, htransplant, hlisted, rfl, rfl⟩, h⟩

/-- A row of dispatchers can be split. -/
theorem decodeDispatchers_append {pre post : List String} : d.decodeDispatchers p (pre ++ post) = .ok (d', p') ↔
    ∃ d₁ p₁, d.decodeDispatchers p pre = .ok (d₁, p₁) ∧ d₁.decodeDispatchers p₁ post = .ok (d', p') := by
  induction pre generalizing d p with
  | nil =>
    constructor
    · exact fun h => ⟨d, p, rfl, h⟩
    · rintro ⟨d₁, p₁, h₁, h⟩
      cases h₁
      exact h
  | cons aux pre ih =>
    rw [List.cons_append, decodeDispatchers, bind_eq_ok]
    simp only [ih, decodeDispatchers, bind_eq_ok]
    constructor
    · rintro ⟨x, hx, d₂, p₂, h₂, h₃⟩
      exact ⟨d₂, p₂, ⟨x, hx, h₂⟩, h₃⟩
    · rintro ⟨d₂, p₂, ⟨x, hx, h₂⟩, h₃⟩
      exact ⟨x, hx, d₂, p₂, h₂, h₃⟩

/-- A row of dispatchers can be split at one of them, whose casting is known. -/
theorem decodeDispatchers_split {pre post : List String} {c : Casting}
    (h : d.decodeDispatchers p (pre ++ aux :: post) = .ok (d', p')) (hc : d.Casts p.registry aux c) :
    ∃ d₁ p₁ r', d.decodeDispatchers p pre = .ok (d₁, p₁) ∧ Later d p.registry d₁ p₁.registry ∧
      transplant d₁.conventions p₁.registry aux c.participants c.dispatcher.handle = .ok r' ∧
        Later d p.registry (d₁.record aux c) r' ∧
          (d₁.record aux c).decodeDispatchers
            { template := { p₁.template with classes := p₁.template.classes.erase c.id }, registry := r' } post =
              .ok (d', p') := by
  obtain ⟨d₁, p₁, h₁, h⟩ := decodeDispatchers_append.1 h
  obtain ⟨c₁, r', hc₁, htransplant, -, h⟩ := decodeDispatchers_cons.1 h
  have hlater := decodeDispatchers_later h₁
  obtain rfl := hc.unique (hlater.casts_iff.1 hc₁)
  exact ⟨d₁, p₁, r', h₁, hlater, htransplant,
    hlater.trans ⟨rfl, rfl, rfl, (transplant_eq_ok htransplant).1.skeleton⟩, h⟩

/-- What a decoder knows after a row of dispatchers. -/
def recordAll (d : Decoder) (rows : List (String × Casting)) : Decoder :=
  rows.foldl (fun d row => d.record row.1 row.2) d

/-- The moves of facts that the castings of a row of dispatchers ask for. -/
def moves (rows : List (String × Casting)) : List (String × String) :=
  rows.map fun row => (genericKey row.1 row.2.event, row.2.key)

/-- A row of dispatchers has one row of castings. -/
theorem Casts.unique_row {rows rows' : List (String × Casting)} (hnames : rows.map Prod.fst = rows'.map Prod.fst)
    (h : ∀ row ∈ rows, d.Casts r row.1 row.2) (h' : ∀ row ∈ rows', d.Casts r row.1 row.2) : rows = rows' := by
  induction rows generalizing rows' with
  | nil => exact (List.map_eq_nil_iff.1 hnames.symm).symm
  | cons row rows ih =>
    cases rows' with
    | nil => cases hnames
    | cons row' rows' =>
      obtain ⟨name, c⟩ := row
      obtain ⟨name', c'⟩ := row'
      obtain ⟨hname, hrest⟩ := List.cons_eq_cons.1 hnames
      obtain rfl : name = name' := hname
      obtain rfl := (h (name, c) (by simp)).unique (h' (name, c') (by simp))
      rw [ih hrest (fun row hrow => h row (by simp [hrow])) fun row hrow => h' row (by simp [hrow])]

theorem facts_recordAll (d : Decoder) (rows : List (String × Casting)) :
    (d.recordAll rows).facts = d.facts.moveAll (moves rows) := by
  induction rows generalizing d with
  | nil => rfl
  | cons row rows ih => exact ih (d.record row.1 row.2)

theorem later_recordAll (d : Decoder) (r : Registry) (rows : List (String × Casting)) :
    Later d r (d.recordAll rows) r := by
  induction rows generalizing d with
  | nil => exact .refl d r
  | cons row rows ih =>
    have hrecord : Later d r (d.record row.1 row.2) r := ⟨rfl, rfl, rfl, rfl⟩
    exact hrecord.trans (ih (d.record row.1 row.2))

/-- For each name, the castings of a row decide alone what is stored for it, or leave what is there. -/
theorem exists_get?_recordAll (rows : List (String × Casting)) (name : String) :
    ∃ o : Option Participants, ∀ d : Decoder,
      (d.recordAll rows).resolved.get? name = o.or (d.resolved.get? name) := by
  induction rows with
  | nil => exact ⟨none, fun _ => rfl⟩
  | cons row rows ih =>
    obtain ⟨o, ho⟩ := ih
    refine ⟨o.or (if name = row.1 then some row.2.participants else none), fun d => ?_⟩
    rw [recordAll, List.foldl_cons, ← recordAll, ho, get?_resolved_record]
    cases o <;> by_cases hname : name = row.1 <;> simp [hname]

theorem cast_congr {e : Decoder} (h : Later d p.registry e p.registry) (aux : String) :
    e.cast p aux = d.cast p aux := by
  unfold cast
  rw [h.conventions, h.events, h.bindings]

/-- Decoders of the same settings fail alike, or find the same castings and do the same to the program. -/
theorem decodeDispatchers_congr {e : Decoder} (h : Later d p.registry e p.registry) (auxs : List String) :
    (∃ fault, d.decodeDispatchers p auxs = .error fault ∧ e.decodeDispatchers p auxs = .error fault) ∨
      ∃ rows p', rows.map Prod.fst = auxs ∧ (∀ row ∈ rows, d.Casts p.registry row.1 row.2) ∧
        d.decodeDispatchers p auxs = .ok (d.recordAll rows, p') ∧
          e.decodeDispatchers p auxs = .ok (e.recordAll rows, p') := by
  induction auxs generalizing d e p with
  | nil => exact .inr ⟨[], p, rfl, by simp, rfl, rfl⟩
  | cons aux auxs ih =>
    simp only [decodeDispatchers, decodeDispatcher_eq, cast_congr h]
    cases hcast : d.cast p aux with
    | error fault => exact .inl ⟨fault, rfl, rfl⟩
    | ok x =>
      obtain ⟨c, p₁⟩ := x
      obtain ⟨hc, r', htransplant, -, rfl⟩ := cast_eq_ok.1 hcast
      have hlater : Later d p.registry (d.record aux c) r' :=
        ⟨rfl, rfl, rfl, (transplant_eq_ok htransplant).1.skeleton⟩
      have hrest : Later (d.record aux c) r' (e.record aux c) r' := ⟨h.conventions, h.events, h.bindings, rfl⟩
      rcases ih (p := ⟨_, r'⟩) hrest with ⟨fault, hd, he⟩ | ⟨rows, p', rfl, hrows, hd, he⟩
      · exact .inl ⟨fault, hd, he⟩
      · refine .inr ⟨(aux, c) :: rows, p', rfl, ?_, hd, he⟩
        intro row hrow
        rcases List.mem_cons.1 hrow with rfl | hrow
        · exact hc
        · exact hlater.casts_iff.1 (hrows row hrow)

/-- A row of dispatchers leaves the decoder with what their castings tell it. -/
theorem decodeDispatchers_record {auxs : List String} (h : d.decodeDispatchers p auxs = .ok (d', p')) :
    ∃ rows, rows.map Prod.fst = auxs ∧ (∀ row ∈ rows, d.Casts p.registry row.1 row.2) ∧
      d' = d.recordAll rows := by
  rcases decodeDispatchers_congr (.refl d p.registry) auxs with ⟨fault, hfault, -⟩ | ⟨rows, p₁, hauxs, hrows, hd, -⟩
  · rw [hfault] at h
    cases h
  · rw [hd] at h
    cases h
    exact ⟨rows, hauxs, hrows, rfl⟩

/-- Methods that no casting writes keep their bodies while dispatchers are decoded. -/
theorem decodeDispatchers_method {auxs : List String} (h : d.decodeDispatchers p auxs = .ok (d', p')) {k : MethodId}
    (hk : ∀ aux ∈ auxs, ∀ c, d.Casts p.registry aux c → ¬ c.participants.Writes p.registry k) :
    p'.registry.method? k = p.registry.method? k := by
  refine decodeDispatchers_preserves (P := fun _ p₁ => p₁.registry.method? k = p.registry.method? k) h rfl ?_
  intro aux haux d₁ p₁ d₂ p₂ hstep hlater hmethod
  obtain ⟨c, r', hcasts, htransplant, -, -, rfl⟩ := decodeDispatcher_eq_ok.1 hstep
  have hc := hk aux haux c (hlater.casts_iff.1 hcasts)
  rw [← Participants.writes_congr hlater.skeleton] at hc
  exact ((transplant_eq_ok htransplant).1.methods k hc).trans hmethod

/-- A body that no dispatcher replaces stays, except that constructors create collections. -/
theorem decodeDispatchers_body {auxs : List String} (h : d.decodeDispatchers p auxs = .ok (d', p')) {k : MethodId}
    {m : MethodDecl} (hm : p.registry.method? k = some m)
    (hk : ∀ aux ∈ auxs, ∀ c, d.Casts p.registry aux c →
      c.participants.attach ≠ some k ∧ c.participants.detach ≠ some k ∧ c.participants.handle ≠ k) :
    ∃ b, p'.registry.method? k = some { m with body := b } ∧
      Stmt.withoutInitialisations b = Stmt.withoutInitialisations m.body := by
  refine decodeDispatchers_preserves (P := fun _ p₁ => ∃ b, p₁.registry.method? k = some { m with body := b } ∧
    Stmt.withoutInitialisations b = Stmt.withoutInitialisations m.body) h ⟨m.body, hm, rfl⟩ ?_
  rintro aux haux d₁ p₁ d₂ p₂ hstep hlater ⟨b₁, hb₁, hrest₁⟩
  obtain ⟨c, r', hcasts, htransplant, -, -, rfl⟩ := decodeDispatcher_eq_ok.1 hstep
  obtain ⟨hattach, hdetach, hhandle⟩ := hk aux haux c (hlater.casts_iff.1 hcasts)
  obtain ⟨b₂, hb₂, hrest₂⟩ := (transplant_eq_ok htransplant).1.bodies k _ hattach hdetach hhandle hb₁
  exact ⟨b₂, hb₂, hrest₂.trans hrest₁⟩

/-- A class that no casting has as its subject stays. -/
theorem decodeDispatchers_class {auxs : List String} (h : d.decodeDispatchers p auxs = .ok (d', p')) {k : ClassId}
    (hk : ∀ aux ∈ auxs, ∀ c, d.Casts p.registry aux c → c.participants.subject ≠ k) :
    p'.registry.class? k = p.registry.class? k := by
  refine decodeDispatchers_preserves (P := fun _ p₁ => p₁.registry.class? k = p.registry.class? k) h rfl ?_
  intro aux haux d₁ p₁ d₂ p₂ hstep hlater hclass
  obtain ⟨c, r', hcasts, htransplant, -, -, rfl⟩ := decodeDispatcher_eq_ok.1 hstep
  have hne := hk aux haux c (hlater.casts_iff.1 hcasts)
  exact ((transplant_eq_ok htransplant).1.classes k (Ne.symm hne)).trans hclass

/-- Facts under a key that is no generic key and no signature of a handle stay. -/
theorem decodeDispatchers_facts {auxs : List String} (h : d.decodeDispatchers p auxs = .ok (d', p')) {key : String}
    (hkey : ∀ aux ∈ auxs, ∀ c, d.Casts p.registry aux c → genericKey aux c.event ≠ key ∧ c.key ≠ key) :
    d'.facts.get? key = d.facts.get? key := by
  refine decodeDispatchers_preserves (P := fun d₁ _ => d₁.facts.get? key = d.facts.get? key) h rfl ?_
  intro aux haux d₁ p₁ d₂ p₂ hstep hlater hfacts
  obtain ⟨c, r', hcasts, -, -, rfl, rfl⟩ := decodeDispatcher_eq_ok.1 hstep
  obtain ⟨hgeneric, hconcrete⟩ := hkey aux haux c (hlater.casts_iff.1 hcasts)
  exact (Facts.get?_move_of_ne (Ne.symm hgeneric) (Ne.symm hconcrete)).trans hfacts

/-- Of the dispatchers with one subject, the last one tells the collection of the subject. -/
theorem decodeDispatchers_collection {pre post : List String}
    (h : d.decodeDispatchers p (pre ++ aux :: post) = .ok (d', p')) {c : Casting} (hc : d.Casts p.registry aux c)
    (hlast : ∀ later ∈ post, ∀ c', d.Casts p.registry later c' → c'.participants.subject ≠ c.participants.subject) :
    ∃ observer, p.registry.className c.participants.observer = .ok observer ∧
      ∀ cls, p'.registry.class? c.participants.subject = some cls →
        cls.collection = some (d.conventions.collectionFor observer) := by
  obtain ⟨d₁, p₁, r', h₁, hlater₁, htransplant, hlater₂, h₃⟩ := decodeDispatchers_split h hc
  obtain ⟨-, ⟨observer, hobserver, hcollection⟩, -⟩ := transplant_eq_ok htransplant
  refine ⟨observer, ?_, ?_⟩
  · rw [← hobserver]
    exact (Registry.congr_skeleton (·.className _) (Registry.className_skeleton _) hlater₁.skeleton).symm
  · intro cls hcls
    rw [← hlater₁.conventions]
    refine hcollection cls ?_
    rw [← hcls]
    refine (decodeDispatchers_class h₃ ?_).symm
    intro later hmem c' hc'
    exact hlast later hmem c' (hlater₂.casts_iff.1 hc')

/-! ## The whole decode -/

/-- What a decode that succeeds did. -/
theorem decode_eq_ok {s : Summary} (h : d.decode p = .ok (d', p', s)) :
    ∃ d₁ p₁, p.validate = .ok () ∧ d.decodeDispatchers p p.template.auxs = .ok (d₁, p₁) ∧
      d' = d₁.prepare p₁.registry ∧
        Walk.walk d'.pass d'.conventions.maxDepth p₁.template p₁.registry = .ok p'.registry ∧
          p'.template = p₁.template := by
  simp only [decode, bind_eq_ok, pure_eq_ok, Prod.mk.injEq] at h
  obtain ⟨⟨⟩, hvalid, ⟨d₁, p₁⟩, hdispatchers, ⟨registry, tally⟩, hwalk, rfl, rfl, rfl⟩ := h
  refine ⟨d₁, p₁, hvalid, hdispatchers, rfl, ?_, rfl⟩
  rw [← Walk.fst_walkCounted, hwalk]
  rfl

end Decoder

end ObserverPattern
