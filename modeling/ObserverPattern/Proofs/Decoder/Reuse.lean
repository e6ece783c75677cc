import ObserverPattern.Proofs.Decoder.Skeleton

/-!
# Decoding with a used decoder

A decode changes the decoder: facts are moved to the handles, and the participants of each dispatcher
are stored. A later decode of another program can tell a used decoder from a new one by these two, and
by nothing else.

* `SameView.agreeAt_pass`: what the pass of a decoder depends on. It looks facts up under the signatures of
  methods and the names of classes only;
* `outcome_congr`: decoders whose memory is the same for a program decode it to the same outcome;
* `outcome_used`: a decoder that has decoded a program decodes another one as a new decoder does to which
  the moved facts and the participants of the first program have been given.
-/

namespace ObserverPattern

/-- The keys under which facts are looked up in a registry: the signatures of its methods, and the names of
its classes, which stand for their fields. -/
def Registry.IsFactKey (r : Registry) (key : String) : Prop :=
  (∃ id, r.signature id = .ok key) ∨ ∃ id, r.className id = .ok key

theorem Registry.isFactKey_congr {r r' : Registry} (h : r'.skeleton = r.skeleton) (key : String) :
    r'.IsFactKey key ↔ r.IsFactKey key := by
  have hsignature := fun id => congr_skeleton (·.signature id) (signature_skeleton id) h
  have hname := fun id => congr_skeleton (·.className id) (className_skeleton id) h
  simp only [IsFactKey, hsignature, hname]

theorem perm_insertByLength (name : String) (names : List String) :
    (insertByLength name names).Perm (name :: names) := by
  induction names with
  | nil => exact .refl _
  | cons other names ih =>
    unfold insertByLength
    split
    · exact .refl _
    · exact (ih.cons other).trans (.swap name other names)

theorem perm_longestFirst (names : List String) : (longestFirst names).Perm names := by
  induction names with
  | nil => exact .refl _
  | cons name names ih => exact (perm_insertByLength name _).trans (ih.cons name)

theorem mem_longestFirst {name : String} {names : List String} : name ∈ longestFirst names ↔ name ∈ names :=
  (perm_longestFirst names).mem_iff

namespace Decoder

variable {d e : Decoder} {p : Position} {r : Registry}

/-! ## What the pass depends on -/

/-- Decoders that the pass cannot tell apart in a registry. -/
structure SameView (d e : Decoder) (r : Registry) : Prop where
  conventions : e.conventions = d.conventions
  bindings : e.bindings = d.bindings
  hierarchy : e.hierarchy = d.hierarchy
  auxNames : e.auxNames = d.auxNames
  resolved : ∀ aux, e.resolved.get? aux = d.resolved.get? aux
  facts : ∀ key, r.IsFactKey key → e.facts.get? key = d.facts.get? key

namespace SameView

variable (h : d.SameView e r)

include h

private theorem boundSubject (r' : Registry) (aux : String) : e.boundSubject r' aux = d.boundSubject r' aux := by
  unfold Decoder.boundSubject
  rw [h.resolved]

private theorem concreteType (r' : Registry) (ty : String) : e.concreteType r' ty = d.concreteType r' ty := by
  unfold Decoder.concreteType
  simp only [h.auxNames, h.boundSubject]

private theorem concreteName (r' : Registry) (name : String) : e.concreteName r' name = d.concreteName r' name := by
  unfold Decoder.concreteName
  simp only [h.conventions, h.auxNames, h.boundSubject]

private theorem isMarked (name : String) : e.isMarked name = d.isMarked name := by
  unfold Decoder.isMarked
  rw [h.conventions]

private theorem startsMarked (name : String) : e.startsMarked name = d.startsMarked name := by
  unfold Decoder.startsMarked
  rw [h.conventions]

private theorem onField (f : Field) : d.onField p f = e.onField p f := by
  unfold Decoder.onField
  simp only [h.isMarked, h.boundSubject]

private theorem onMethod (b : Block) : d.onMethod p b = e.onMethod p b := by
  have hcalls : e.callsSubject = d.callsSubject := by
    funext s
    unfold callsSubject
    simp only [h.startsMarked]
  unfold Decoder.onMethod
  simp only [h.conventions, hcalls]

/-- The facts under a key that a place can ask for. -/
private theorem factsOf (hp : p.Within r) {key : String} (hkey : p.registry.IsFactKey key) :
    e.facts.factsOf key = d.facts.factsOf key := by
  unfold Facts.factsOf
  rw [h.facts key ((Registry.isFactKey_congr (Registry.skeleton_eq_of_outline_eq hp.outline) key).1 hkey)]

private theorem directionAt (hp : p.Within r) : d.directionAt p = e.directionAt p := by
  unfold Decoder.directionAt
  cases p.method with
  | none => rfl
  | some id =>
    cases hkey : p.registry.signature id with
    | error fault => simp only [hkey]; rfl
    | ok key => simp only [hkey, ok_bind, Facts.direction?, h.factsOf hp (.inl ⟨id, hkey⟩)]

private theorem onStmt (hp : p.Within r) (s : Stmt) : d.onStmt p s = e.onStmt p s := by
  have hdispatch : ∀ x, d.resolveDispatch p x = e.resolveDispatch p x := by
    intro x
    unfold resolveDispatch reflected?
    simp only [h.startsMarked, h.bindings]
  unfold Decoder.onStmt
  simp only [hdispatch, h.isMarked, h.concreteType, h.directionAt hp]

private theorem resolvePlaceholder (hp : p.Within r) (name : String) (operands : List Expr) :
    d.resolvePlaceholder p name operands = e.resolvePlaceholder p name operands := by
  have hkey : ∀ key, factKey p = .ok key → p.registry.IsFactKey key := by
    intro key hkey
    unfold factKey Position.location at hkey
    cases hmethod : p.method with
    | none =>
      simp only [hmethod, bind_eq_ok, pure_eq_ok] at hkey
      obtain ⟨_, hname, rfl⟩ := hkey
      exact .inr ⟨p.owner, hname⟩
    | some id =>
      simp only [hmethod] at hkey
      exact .inl ⟨id, hkey⟩
  unfold Decoder.resolvePlaceholder
  cases hfact : factKey p with
  | error fault => rfl
  | ok key => simp only [ok_bind, Facts.comparison?, h.factsOf hp (hkey key hfact)]

private theorem onExpr (hp : p.Within r) (x : Expr) : d.onExpr p x = e.onExpr p x := by
  cases x with
  | placeholder name operands => exact h.resolvePlaceholder hp name operands
  | call callee args =>
    unfold Decoder.onExpr resolveCall
    simp only [h.bindings, h.hierarchy]
  | id name => simp only [Decoder.onExpr, h.concreteName]
  | field receiver name => simp only [Decoder.onExpr, h.concreteName]
  | cast ty inner => simp only [Decoder.onExpr, h.isMarked, h.concreteType]
  | literal l => rfl
  | new ty args => rfl
  | binary op left right => rfl

/-- Such decoders do the same wherever a traversal of the registry can stand. -/
theorem agreeAt_pass (hp : p.Within r) : d.pass.AgreeAt e.pass p where
  onClass _ := rfl
  onField := h.onField
  onMethod := h.onMethod
  onStmt := h.onStmt hp
  onExpr := h.onExpr hp

end SameView

/-! ## The whole decode -/

/-- What a decode gives: the decoded program and the summary, or the fault. -/
def outcome (d : Decoder) (p : Program) : Except DecodeFault (Program × Summary) := (d.decode p).map (·.2)

/-- Decoders that know the same dispatchers, in one order, with the same participants, and the same facts
under the keys of a registry. -/
structure SameMemory (d e : Decoder) (r : Registry) : Prop where
  names : longestFirst e.resolved.keys = longestFirst d.resolved.keys
  resolved : ∀ aux, e.resolved.get? aux = d.resolved.get? aux
  facts : ∀ key, r.IsFactKey key → e.facts.get? key = d.facts.get? key

private theorem SameMemory.view (h : d.SameMemory e r) (hlater : Later d r e r) {r' : Registry}
    (hr : r'.skeleton = r.skeleton) : (d.prepare r').SameView (e.prepare r') r' where
  conventions := hlater.conventions
  bindings := hlater.bindings
  hierarchy := rfl
  auxNames := h.names
  resolved := h.resolved
  facts key hkey := h.facts key ((Registry.isFactKey_congr hr key).1 hkey)

/-- Decoders of the same settings decode a program to the same outcome, if their memory for it is the
same once its dispatchers have been decoded. -/
theorem outcome_congr {p : Program} (hlater : Later d p.registry e p.registry)
    (hmemory : ∀ rows, rows.map Prod.fst = p.template.auxs → (∀ row ∈ rows, d.Casts p.registry row.1 row.2) →
      (d.recordAll rows).SameMemory (e.recordAll rows) p.registry) :
    e.outcome p = d.outcome p := by
  unfold outcome decode
  cases p.validate with
  | error fault => rfl
  | ok u =>
    simp only [ok_bind]
    rcases decodeDispatchers_congr hlater p.template.auxs with
      ⟨fault, hd, he⟩ | ⟨rows, p₁, hauxs, hrows, hd, he⟩
    · rw [hd, he]
    · rw [hd, he]
      have hlater' : Later (d.recordAll rows) p.registry (e.recordAll rows) p.registry := by
        have hd' := later_recordAll d p.registry rows
        have he' := later_recordAll e p.registry rows
        exact ⟨he'.conventions.trans (hlater.conventions.trans hd'.conventions.symm),
          he'.events.trans (hlater.events.trans hd'.events.symm),
          he'.bindings.trans (hlater.bindings.trans hd'.bindings.symm), rfl⟩
      have hview := (hmemory rows hauxs hrows).view hlater' (decodeDispatchers_later hd).skeleton
      simp only [ok_bind]
      rw [← Walk.walkCounted_congr (fun q hq => hview.agreeAt_pass hq), hview.conventions]
      cases Walk.walkCounted ((d.recordAll rows).prepare p₁.registry).pass
        ((d.recordAll rows).prepare p₁.registry).conventions.maxDepth p₁.template p₁.registry with
      | error fault => rfl
      | ok x => rfl

/-- What was prepared for an earlier traversal plays no part while dispatchers are decoded. -/
private theorem recordAll_prepare (d : Decoder) (r : Registry) (rows : List (String × Casting)) :
    (d.prepare r).recordAll rows =
      { d.recordAll rows with hierarchy := .ofRegistry r, auxNames := longestFirst d.resolved.keys } := by
  have hkeep : ∀ (d : Decoder) (hierarchy : Hierarchy) (auxNames : List String),
      ({ d with hierarchy, auxNames } : Decoder).recordAll rows = { d.recordAll rows with hierarchy, auxNames } := by
    intro d hierarchy auxNames
    induction rows generalizing d with
    | nil => rfl
    | cons row rows ih => exact ih (d.record row.1 row.2)
  exact hkeep d _ _

/-- What a decoder remembers of some castings does not show in a program: once the dispatchers of the
program have been decoded, the decoder knows the names that it would know anyway, in one order, and the
facts that it would know anyway under the keys of the program. -/
def Unseen (d : Decoder) (rows : List (String × Casting)) (p : Program) : Prop :=
  ∀ own, own.map Prod.fst = p.template.auxs → (∀ row ∈ own, d.Casts p.registry row.1 row.2) →
    longestFirst ((d.recordAll rows).recordAll own).resolved.keys = longestFirst (d.recordAll own).resolved.keys ∧
      ∀ key, p.registry.IsFactKey key →
        ((d.recordAll rows).recordAll own).facts.get? key = (d.recordAll own).facts.get? key

/-- Names that a decoder would know anyway have the participants that it would store anyway. -/
private theorem resolved_of_keys {rows own : List (String × Casting)} (hd : d.resolved = .empty)
    (hkeys : longestFirst ((d.recordAll rows).recordAll own).resolved.keys =
      longestFirst (d.recordAll own).resolved.keys) (aux : String) :
    ((d.recordAll rows).recordAll own).resolved.get? aux = (d.recordAll own).resolved.get? aux := by
  have hmem : aux ∈ ((d.recordAll rows).recordAll own).resolved.keys ↔ aux ∈ (d.recordAll own).resolved.keys := by
    rw [← mem_longestFirst, hkeys, mem_longestFirst]
  rw [← Table.isSome_get?, ← Table.isSome_get?] at hmem
  obtain ⟨o, ho⟩ := exists_get?_recordAll own aux
  rw [ho, ho, hd] at hmem ⊢
  cases o with
  | some participants => rfl
  | none => simpa using hmem

/-- A used decoder decodes a program as a new one does to which the moves of facts and the participants of
the first program have been given, and as a new one itself if these do not show in the program. -/
theorem outcome_used {c : Conventions} {events : EventTable} {t : Trace} {first q : Program} {used : Decoder}
    {s : Summary} (h : (ofTrace c events t).decode first = .ok (used, q, s)) :
    ∃ rows, rows.map Prod.fst = first.template.auxs ∧
      (∀ row ∈ rows, (ofTrace c events t).Casts first.registry row.1 row.2) ∧
        ∀ p, used.outcome p = ((ofTrace c events t).recordAll rows).outcome p ∧
          ((ofTrace c events t).Unseen rows p → used.outcome p = (ofTrace c events t).outcome p) := by
  obtain ⟨d₁, p₁, -, hdispatchers, rfl, -, -⟩ := decode_eq_ok h
  obtain ⟨rows, hauxs, hrows, rfl⟩ := decodeDispatchers_record hdispatchers
  refine ⟨rows, hauxs, hrows, fun p => ?_⟩
  have hrecorded := later_recordAll (ofTrace c events t) p.registry rows
  have hused : (((ofTrace c events t).recordAll rows).prepare p₁.registry).outcome p =
      ((ofTrace c events t).recordAll rows).outcome p := by
    refine outcome_congr ⟨rfl, rfl, rfl, rfl⟩ fun own _ _ => ?_
    rw [recordAll_prepare]
    exact ⟨rfl, fun _ => rfl, fun _ _ => rfl⟩
  refine ⟨hused, fun hunseen => ?_⟩
  rw [hused]
  refine outcome_congr hrecorded fun own hown hcasts => ?_
  obtain ⟨hnames, hfacts⟩ := hunseen own hown hcasts
  exact ⟨hnames, resolved_of_keys rfl hnames, hfacts⟩

/-- The castings of the station, in the order of the template. -/
def castings : List (String × Casting) := [("AuxObserverReading", readings), ("AuxObserverAlarm", alarms)]

private theorem eq_castings {rows : List (String × Casting)}
    (hauxs : rows.map Prod.fst = Station.program.template.auxs)
    (hrows : ∀ row ∈ rows, Station.decoder.Casts Station.program.registry row.1 row.2) : rows = castings := by
  refine Casts.unique_row hauxs hrows fun row hrow => ?_
  have hcases : row = ("AuxObserverReading", readings) ∨ row = ("AuxObserverAlarm", alarms) := by
    simpa [castings] using hrow
  rcases hcases with rfl | rfl
  · exact casts_station.1
  · exact casts_station.2

private theorem unseen_station : Station.decoder.Unseen castings Station.program := by
  intro own hown hcasts
  obtain rfl := eq_castings hown hcasts
  -- The facts have been moved away from the generic handles, so the second moves find none.
  have hfacts : ((Station.decoder.recordAll castings).recordAll castings).facts =
      (Station.decoder.recordAll castings).facts := by
    decide +kernel
  exact ⟨by decide +kernel, fun key _ => by rw [hfacts]⟩

/-- The station can be decoded a second time with one decoder. -/
theorem outcome_used_station : ∃ used q s, Station.decoder.decode Station.program = .ok (used, q, s) ∧
    used.outcome Station.program = .ok (q, s) := by
  have hdecode : okAnd (Station.decoder.decode Station.program) (fun _ => true) = true := by decide +kernel
  obtain ⟨⟨used, q, s⟩, h, -⟩ := okAnd_eq_true.1 hdecode
  obtain ⟨rows, hauxs, hrows, hused⟩ := outcome_used h
  obtain rfl := eq_castings hauxs hrows
  have hnew : Station.decoder.outcome Station.program = .ok (q, s) := by
    rw [outcome, h]
    rfl
  exact ⟨used, q, s, h, ((hused Station.program).2 unseen_station).trans hnew⟩

end Decoder

namespace Station

/-- The station with another name for the method that raises alarms. -/
def renamed : Program :=
  { program with registry := program.registry.modifyMethod ⟨3⟩ fun m => { m with name := "alert" } }

/-- A station that only publishes readings and still mentions the dispatcher of the alarms. -/
def readingsOnly : Program where
  template := { program.template with auxs := ["AuxObserverReading"] }
  registry := program.registry.setBody ⟨4⟩ [.declare "AuxObserverAlarm" "alarm" .null]

end Station

/-- A decoder that has decoded the station decodes other programs differently from a new one: it has no
facts left for the renamed handle, and it knows a dispatcher that the program does not list. -/
theorem Decoder.outcome_used_ne : ∃ used q s, Station.decoder.decode Station.program = .ok (used, q, s) ∧
    used.outcome Station.renamed ≠ Station.decoder.outcome Station.renamed ∧
      Station.decoder.outcome Station.readingsOnly = .error (.unknownAux "AuxObserverAlarm") ∧
        ∃ q' s', used.outcome Station.readingsOnly = .ok (q', s') := by
  have hdecode : okAnd (Station.decoder.decode Station.program) (fun x =>
      x.1.outcome Station.renamed ≠ Station.decoder.outcome Station.renamed ∧
        Station.decoder.outcome Station.readingsOnly = .error (.unknownAux "AuxObserverAlarm") ∧
          okAnd (x.1.outcome Station.readingsOnly) (fun _ => true) = true) = true := by
    decide +kernel
  obtain ⟨⟨used, q, s⟩, h, hresult⟩ := okAnd_eq_true.1 hdecode
  obtain ⟨hrenamed, hnew, hused⟩ := of_decide_eq_true hresult
  obtain ⟨⟨q', s'⟩, hused, -⟩ := okAnd_eq_true.1 hused
  exact ⟨used, q, s, h, hrenamed, hnew, q', s', hused⟩

end ObserverPattern
