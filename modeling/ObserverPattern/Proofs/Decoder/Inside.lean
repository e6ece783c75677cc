import ObserverPattern.Proofs.Decoder.Skeleton
import ObserverPattern.Proofs.Structure.Inside

/-!
# A decode looks up what is there

A program that is accepted stores no index that points outside its registry, and the indices that a
solver chose are checked. The decode of such a program looks up and changes only classes and methods of
the registry, whether it succeeds or not (`decode_inside`).

* `decodeDispatchers_inside`: the dispatchers, where indices come from the template, from dispatchers,
  methods and bindings;
* `InsideAt`: the places of a traversal, and one lemma for each rule of the pass, where the indices of
  stored participants come in.
-/

namespace ObserverPattern.Decoder

variable {d : Decoder} {p : Program} {r : Registry}

/-! ## The dispatchers -/

/-- All participants that a decoder has stored belong to a registry. -/
def ResolvedInside (d : Decoder) (r : Registry) : Prop := ∀ aux q, d.resolved.get? aux = some q → q.InRange r

private theorem findDispatcher_inside (h : r.Closed) (aux : String) :
    Inside (fun x => (r.class? x.2.event).isSome ∧ (r.method? x.2.handle).isSome) (findDispatcher r aux) := by
  unfold findDispatcher
  cases hid : r.classNamed? aux with
  | none => rfl
  | some id =>
    obtain ⟨c, hc, -⟩ := Registry.classNamed?_eq_some hid
    simp only [Registry.getClass_eq_ok.2 hc, ok_bind]
    cases hdispatcher : c.dispatcher with
    | none => rfl
    | some dispatcher => exact h.dispatchers c (Registry.mem_of_class? hc) dispatcher hdispatcher

private theorem cast_inside (h : p.registry.Closed) (aux : String) :
    Inside (fun x => x.1.participants.InRange p.registry ∧ x.2.registry.skeleton = p.registry.skeleton)
      (d.cast p aux) := by
  refine (findDispatcher_inside h aux).bind ?_
  rintro ⟨id, dispatcher⟩ ⟨hevent, hhandle⟩
  refine (Registry.className_inside hevent).bind fun event _ => ?_
  refine (Participants.resolve_inside h d.bindings aux hevent _).bind fun participants hparticipants => ?_
  refine (transplant_inside h d.conventions aux hparticipants hhandle).bind fun registry hregistry => ?_
  have hhandle' := (hparticipants.of_skeleton_eq hregistry).handle
  refine ((h.of_skeleton_eq hregistry).signature hhandle').bind fun key _ => ?_
  split
  · rfl
  · exact ⟨hparticipants, hregistry⟩

/-- Dispatchers are decoded inside the registry, and the participants that are stored belong to it. -/
theorem decodeDispatchers_inside (h : p.registry.Closed) (hd : d.ResolvedInside p.registry) (auxs : List String) :
    Inside (fun x => x.1.ResolvedInside x.2.registry) (d.decodeDispatchers p auxs) := by
  induction auxs generalizing d p with
  | nil => exact hd
  | cons aux auxs ih =>
    have hcast := cast_inside (d := d) h aux
    rw [decodeDispatchers, decodeDispatcher_eq]
    cases hx : d.cast p aux with
    | error e =>
      rw [hx] at hcast
      exact hcast
    | ok x =>
      obtain ⟨c, p₁⟩ := x
      rw [hx] at hcast
      obtain ⟨hc, hskeleton⟩ := hcast
      refine ih (h.of_skeleton_eq hskeleton) fun name q hq => ?_
      rw [get?_resolved_record] at hq
      split at hq
      · exact (Option.some.inj hq) ▸ hc.of_skeleton_eq hskeleton
      · exact (hd name q hq).of_skeleton_eq hskeleton

/-! ## The pass -/

/-- A place of a closed registry, to which all stored participants belong. -/
structure InsideAt (d : Decoder) (r : Registry) (q : Position) : Prop where
  closed : r.Closed
  resolved : d.ResolvedInside r
  within : q.Within r

namespace InsideAt

variable {q : Position} (h : d.InsideAt r q)

include h

private theorem skeleton : q.registry.skeleton = r.skeleton := Registry.skeleton_eq_of_outline_eq h.within.outline

private theorem owner : (q.registry.class? q.owner).isSome :=
  (Registry.class?_isSome_congr h.skeleton q.owner).trans h.within.owner

private theorem method {id : MethodId} (hid : q.method = some id) : (q.registry.method? id).isSome :=
  (Registry.method?_isSome_congr h.skeleton id).trans (h.within.method id hid)

private theorem signature {id : MethodId} (hid : q.method = some id) :
    Inside (fun _ => True) (q.registry.signature id) :=
  (h.closed.of_skeleton_eq h.skeleton).signature (h.method hid)

theorem location : Inside (fun _ => True) q.location := by
  refine (Registry.className_inside h.owner).bind fun owner _ => ?_
  cases hmethod : q.method with
  | none => trivial
  | some id => exact (Registry.methodName_inside (h.method hmethod)).bind fun _ _ => trivial

/-! ### Names -/

private theorem boundSubject (aux : String) : Inside (fun _ => True) (d.boundSubject q.registry aux) := by
  unfold Decoder.boundSubject
  cases haux : d.resolved.get? aux with
  | none => rfl
  | some participants =>
    have hsubject := ((h.resolved aux participants haux).of_skeleton_eq h.skeleton).subject
    exact (Registry.getClass_inside hsubject).mono fun _ _ => trivial

private theorem concreteType (ty : String) : Inside (fun _ => True) (d.concreteType q.registry ty) := by
  unfold Decoder.concreteType
  split
  · rfl
  · exact (h.boundSubject _).bind fun _ _ => trivial

private theorem concreteName (name : String) : Inside (fun _ => True) (d.concreteName q.registry name) := by
  unfold Decoder.concreteName
  split
  · split
    · rfl
    · exact (h.boundSubject _).bind fun _ _ => trivial
  · trivial

/-! ### Expressions -/

private theorem twoOperands (name : String) (operands : List Expr) :
    Inside (fun _ => True) (twoOperands q name operands) := by
  unfold Decoder.twoOperands
  split
  · trivial
  · exact h.location.bind fun _ _ => rfl

private theorem factKey : Inside (fun _ => True) (factKey q) := by
  unfold Decoder.factKey
  split
  · next id hmethod => exact h.signature hmethod
  · exact h.location

private theorem resolvePlaceholder (name : String) (operands : List Expr) :
    Inside (fun _ => True) (d.resolvePlaceholder q name operands) := by
  unfold Decoder.resolvePlaceholder
  split
  · exact (h.twoOperands name operands).bind fun _ _ => trivial
  · split
    · refine (h.twoOperands name operands).bind fun _ _ => h.factKey.bind fun key _ => ?_
      split
      · trivial
      · rfl
    · trivial

private theorem resolveCall (callee : Expr) (args : List Expr) :
    Inside (fun _ => True) (d.resolveCall q callee args) := by
  unfold Decoder.resolveCall
  split
  · trivial
  · simp only
    split
    · split
      · exact h.location.bind fun _ _ => rfl
      · exact (Participants.classOf_inside _ _ _ _).bind fun _ _ =>
          (Participants.classOf_inside _ _ _ _).bind fun _ _ => trivial
    · rfl

theorem onExpr (e : Expr) : Inside (fun _ => True) (d.onExpr q e) := by
  cases e with
  | placeholder name operands => exact h.resolvePlaceholder name operands
  | call callee args => exact h.resolveCall callee args
  | id name => exact (h.concreteName name).bind fun _ _ => trivial
  | field receiver name => exact (h.concreteName name).bind fun _ _ => trivial
  | cast ty inner =>
    simp only [Decoder.onExpr]
    split
    · exact (h.concreteType ty).bind fun _ _ => trivial
    · trivial
  | literal l => trivial
  | new ty args => trivial
  | binary op left right => trivial

/-! ### Statements, fields and methods -/

omit h in
private theorem resolveDispatch (e : Expr) : Inside (fun _ => True) (d.resolveDispatch q e) := by
  unfold Decoder.resolveDispatch
  split
  · split
    · trivial
    · split
      · refine (Participants.chooseMethod_inside q.registry d.bindings _ .handle).bind fun handle hhandle => ?_
        exact (Registry.methodName_inside hhandle).bind fun _ _ => trivial
      · trivial
  · trivial

private theorem directionAt : Inside (fun _ => True) (d.directionAt q) := by
  unfold Decoder.directionAt
  split
  · trivial
  · next id hmethod => exact (h.signature hmethod).bind fun _ _ => trivial

theorem onStmt (s : Stmt) : Inside (fun _ => True) (d.onStmt q s) := by
  cases s with
  | expr e => exact (resolveDispatch e).bind fun _ _ => trivial
  | assign ty target value =>
    cases ty with
    | none => trivial
    | some ty =>
      simp only [Decoder.onStmt]
      split
      · exact (h.concreteType ty).bind fun _ _ => trivial
      · trivial
  | ifElse cond thenBody elseBody =>
    simp only [Decoder.onStmt]
    split
    · trivial
    · split <;> trivial
  | forEach ty var source body =>
    have hwalks : Inside (fun _ => True) (walksCollection q source) :=
      (Registry.getClass_inside h.owner).bind fun _ _ => trivial
    simp only [Decoder.onStmt]
    refine hwalks.bind fun walks _ => ?_
    split
    · exact h.directionAt.bind fun _ _ => trivial
    · trivial
  | whileLoop cond body => trivial
  | ret value => trivial

theorem onField (f : Field) : Inside (fun _ => True) (d.onField q f) := by
  unfold Decoder.onField
  split
  · exact (h.boundSubject _).bind fun _ _ => trivial
  · trivial

theorem onMethod (b : Block) : Inside (fun _ => True) (d.onMethod q b) := by
  unfold Decoder.onMethod
  split
  · next id first rest hmethod =>
    refine (Registry.getMethod_inside (h.method hmethod)).bind fun m _ => ?_
    split <;> trivial
  · trivial

end InsideAt

/-! ## The whole decode -/

/-- A traversal, by itself, that looks nothing up outside the registry. -/
def lockstepInside : Lockstep (Except DecodeFault) (Except DecodeFault) where
  rel P x _ := Inside P x
  allows e := e.isMissing = false
  pure h := Inside.pure h
  throw h := h
  bind h hf := h.bind hf

/-- The traversal of a decoder goes through what is there. -/
private theorem walk_inside (h : p.InRange) (hd : d.ResolvedInside p.registry) (maxDepth : Nat) :
    Inside (fun r' => r'.outline = p.registry.outline) (Walk.walk d.pass maxDepth p.template p.registry) := by
  have hclosed := h.closed
  have hplace : ∀ q : Position, q.Within p.registry → d.InsideAt p.registry q := fun q hq => ⟨hclosed, hd, hq⟩
  have henter : ∀ q : Position, q.Within p.registry → ∀ e, q.enter = .error e → e.isMissing = false := by
    intro q hq e he
    have hinside : Inside (fun _ => True) q.enter := by
      unfold Position.enter
      split
      · trivial
      · exact (hplace q hq).location.bind fun _ _ => rfl
    rw [he] at hinside
    exact hinside
  have hpasses : lockstepInside.Passes d.pass d.pass p.registry := {
    blocks := fun q hq => {
      enter := fun k => henter _ (hq.atDepth k)
      onExpr := fun k => (hplace _ (hq.atDepth k)).onExpr
      onStmt := fun k => (hplace _ (hq.atDepth k)).onStmt }
    onClass := fun _ _ _ => trivial
    onField := fun q f hq => (hplace q hq).onField f
    onMethod := fun q b hq => (hplace q hq).onMethod b }
  refine Walk.walk_lockstep hpasses ⟨?_, ?_⟩
  · intro id hid hnone
    have hsome := h.listed id hid
    rw [hnone] at hsome
    cases hsome
  · intro id hid k hk hnone
    have hsome := h.methodOf hk
    rw [hnone] at hsome
    cases hsome

/-- A decoder whose stored participants belong to an accepted program decodes it inside the registry. -/
private theorem decode_inside_of_resolved (h : p.validate = .ok ()) (hd : d.ResolvedInside p.registry) :
    Inside (fun x => x.2.1.InRange ∧ x.1.ResolvedInside x.2.1.registry) (d.decode p) := by
  have hrange := Program.validate_eq_ok_iff.1 h
  have hclosed := hrange.closed
  unfold decode
  rw [h, ok_bind]
  have hrow : Inside (fun x => x.2.InRange ∧ x.1.ResolvedInside x.2.registry)
      (d.decodeDispatchers p p.template.auxs) := by
    refine (decodeDispatchers_inside hclosed hd p.template.auxs).mono_eq ?_
    rintro ⟨d₁, p₁⟩ hdispatchers hresolved
    have hstruck := (decodeDispatchers_struck hdispatchers).2.sublist.subset
    exact ⟨hrange.of_skeleton_eq (decodeDispatchers_later hdispatchers).skeleton hstruck, hresolved⟩
  refine hrow.bind ?_
  rintro ⟨d₁, p₁⟩ ⟨hrange₁, hresolved₁⟩
  have hwalk := walk_inside (d := d₁.prepare p₁.registry) hrange₁ hresolved₁
    (d₁.prepare p₁.registry).conventions.maxDepth
  rw [← Walk.fst_walkCounted] at hwalk
  refine hwalk.of_map.bind ?_
  rintro ⟨registry, tally⟩ houtline
  have hskeleton := Registry.skeleton_eq_of_outline_eq houtline
  exact ⟨hrange₁.of_skeleton_eq hskeleton (List.Subset.refl _),
    fun aux q hq => (hresolved₁ aux q hq).of_skeleton_eq hskeleton⟩

/-- The decode of an accepted program by a new decoder never looks up or changes a class or a method that
the registry does not have: no fault with which it ends tells of one. If it succeeds, the indices in the
program are in range again, and so are the participants that the decoder has stored. -/
theorem decode_inside {c : Conventions} {events : EventTable} {t : Trace} (h : p.validate = .ok ()) :
    (∀ e, (ofTrace c events t).decode p = .error e → e.isMissing = false) ∧
      ∀ d' p' s, (ofTrace c events t).decode p = .ok (d', p', s) → p'.InRange ∧ d'.ResolvedInside p'.registry := by
  have hnew : (ofTrace c events t).ResolvedInside p.registry := nofun
  have hinside := decode_inside_of_resolved h hnew
  constructor
  · intro e he
    rw [he] at hinside
    exact hinside
  · intro d' p' s hdecode
    rw [hdecode] at hinside
    exact hinside

/-- A trace for the station whose solver chose a method that the station does not have. -/
def outsideTrace : Trace :=
  { Station.trace with bindings := Station.trace.bindings.insert "handle_AuxObserverAlarm" 99 }

/-- The participants that are stored for the station are classes and methods of it; where the solver chose
a method outside, it is not looked up. -/
theorem decode_inside_station : Station.program.validate = .ok () ∧
    (∃ d' p' s, Station.decoder.decode Station.program = .ok (d', p', s) ∧ p'.InRange ∧
      readings.participants.InRange p'.registry ∧ alarms.participants.InRange p'.registry) ∧
    ∃ e, (ofTrace .default Station.decoder.events outsideTrace).decode Station.program = .error e ∧
      e.isMissing = false := by
  have hvalid : Station.program.validate = .ok () := by decide +kernel
  have hdecode : okAnd (Station.decoder.decode Station.program) (fun x =>
      x.1.resolved.get? "AuxObserverReading" = some readings.participants ∧
        x.1.resolved.get? "AuxObserverAlarm" = some alarms.participants) = true := by
    decide +kernel
  have herror : (ofTrace .default Station.decoder.events outsideTrace).decode Station.program =
      .error (.roleOutOfRange "AuxObserverAlarm" "handle_AuxObserverAlarm" 99 .methods 7) := by
    decide +kernel
  obtain ⟨⟨d', p', s⟩, h, hresult⟩ := okAnd_eq_true.1 hdecode
  obtain ⟨hreadings, halarms⟩ := of_decide_eq_true hresult
  obtain ⟨hrange, hresolved⟩ := (decode_inside hvalid).2 d' p' s h
  exact ⟨hvalid, ⟨d', p', s, h, hrange, hresolved _ _ hreadings, hresolved _ _ halarms⟩,
    _, herror, (decode_inside hvalid).1 _ herror⟩

/-- A note that mentions the dispatcher of the alarms, without any station. -/
def note : Program where
  template := ⟨[⟨0⟩], []⟩
  registry := ⟨[{ ClassDecl.empty "Note" with fields := [⟨"AuxObserverAlarm", "auxobserveralarm", none⟩] }], []⟩

/-- The decoder has to be a new one: the participants of another program can lie outside. -/
example : okAnd (Station.decoder.decode Station.program) (fun x =>
    (x.1.decode note).map (·.2) = .error (.noClass ⟨4⟩)) = true := by
  decide +kernel

end ObserverPattern.Decoder
