import ObserverPattern.Program.Hierarchy
import ObserverPattern.Proofs.Structure.Capture

/-!
# Update calls and the parameters of the update method

A generic handle body passes the receiver and the event on to every observer. In the concrete body the calls of the
update method do without the one of the two that it has no parameter for, which is told by the name of the subject.

* `omittedArgument_eq_ok`: what the calls do without;
* `Names.Makes.updates`: what becomes of a call through the dispatcher;
* `transplant_updates`: so the calls of a concrete body fit an update method with up to two parameters, and
  `updates_unfit_door` shows where they do not.
-/

namespace ObserverPattern.HandleBody

/-- A variable of a given name, possibly cast. -/
def isVariable (name : String) : Expr → Bool
  | .id x => x == name
  | .cast _ e => isVariable name e
  | _ => false

/-- A call of the update method through the dispatcher. -/
def dispatches (aux : String) : Expr → Bool
  | .call callee (target :: _ :: _) =>
    callee == .field (.id aux) "reflect" && target.lastName? == some ("update_" ++ aux)
  | _ => false

/-- A call through the dispatcher with the receiver and the event as the arguments of the update method. -/
def passesBoth (aux : String) : Expr → Bool
  | .call _ [_, _, receiver, event] => receiver == .id ("rcv_" ++ aux) && isVariable "evt" event
  | _ => false

theorem passesBoth_eq_true {aux : String} {d : Expr} : passesBoth aux d = true ↔ ∃ callee target observer event,
    d = .call callee [target, observer, .id ("rcv_" ++ aux), event] ∧ isVariable "evt" event = true := by
  constructor
  · intro h
    unfold passesBoth at h
    split at h
    · next callee target observer receiver event =>
      rw [Bool.and_eq_true, beq_iff_eq] at h
      obtain ⟨rfl, hevent⟩ := h
      exact ⟨callee, target, observer, event, rfl, hevent⟩
    · cases h
  · rintro ⟨callee, target, observer, event, rfl, hevent⟩
    simp [passesBoth, hevent]

/-- What the calls of an update method do without is told by the number of its parameters and, if there is one, by
whether its type is the name of the subject. -/
theorem omittedArgument_eq_ok {r : Registry} {update : MethodId} {subject : ClassId} {omitted : Option UpdateArgument}
    (h : omittedArgument r update subject = .ok omitted) : ∃ u, r.method? update = some u ∧
      ((∃ q name, u.params = [q] ∧ r.className subject = .ok name ∧
          omitted = some (if q.ty = name then .event else .receiver)) ∨ 2 ≤ u.params.length ∧ omitted = none) := by
  simp only [omittedArgument, bind_eq_ok, Registry.getMethod_eq_ok] at h
  obtain ⟨u, hu, h⟩ := h
  refine ⟨u, hu, ?_⟩
  cases hparams : u.params with
  | nil =>
    simp only [hparams, bind_eq_ok] at h
    obtain ⟨_, -, h⟩ := h
    exact absurd h throw_ne_ok
  | cons q rest =>
    cases rest with
    | nil =>
      simp only [hparams, bind_eq_ok, pure_eq_ok] at h
      obtain ⟨name, hname, rfl⟩ := h
      exact .inl ⟨q, name, rfl, hname, rfl⟩
    | cons _ _ =>
      simp only [hparams, pure_eq_ok] at h
      exact .inr ⟨by simp, h.symm⟩

theorem names_omitted {c : Conventions} {r : Registry} {aux : String} {p : Participants} {n : Names}
    (h : names c r aux p = .ok n) : omittedArgument r p.update p.subject = .ok n.omitted := by
  simp only [names, bind_eq_ok, pure_eq_ok] at h
  obtain ⟨_, -, _, -, _, -, _, -, omitted, homitted, _, -, rfl⟩ := h
  exact homitted

namespace Names

/-- Of the receiver and the event, the arguments for an update method with the given parameters. -/
structure Fits (n : Names) (r : Registry) (subject : ClassId) (params : List Param) (event : Expr)
    (args : List Expr) : Prop where
  isEvent : isVariable (n.variableName "evt") event = true
  length : args.length = params.length ↔ params.length ≤ 2
  one : ∀ q, params = [q] → ∃ name, r.className subject = .ok name ∧
    args = if q.ty = name ∧ n.eventParam ≠ "this" then [.id "this"] else [event]
  more : 2 ≤ params.length → args = [.id "this", event]

/-- What a call through the dispatcher with the receiver and the event becomes. -/
inductive Updates (n : Names) (r : Registry) (subject : ClassId) (params : List Param) : Expr → Expr → Prop
  | intro {callee target observer observer' receiver event event' : Expr} {args : List Expr}
      (hobserver : n.concreteExpr observer = .ok observer') (hevent : n.concreteExpr event = .ok event')
      (hargs : n.Fits r subject params event' args) :
      Updates n r subject params (.call callee [target, observer, receiver, event])
        (.methodCall observer' n.update args)

variable {n : Names}

theorem dispatchesUpdate_eq (callee target : Expr) : n.dispatchesUpdate callee target =
    (callee == .field (.id n.aux) "reflect" && target.lastName? == some ("update_" ++ n.aux)) := by
  rw [Bool.eq_iff_iff]
  cases callee with
  | field receiver method => cases receiver <;> simp [dispatchesUpdate, and_comm]
  | _ => simp [dispatchesUpdate]

theorem Makes.isVariable {name : String} : ∀ {e e' : Expr}, n.Makes e e' → isVariable name e = true →
    HandleBody.isVariable (n.variableName name) e' = true
  | _, _, .id _, h => by
    obtain rfl := eq_of_beq h
    exact beq_self_eq_true _
  | _, _, .cast _ he, h => he.isVariable h

theorem variableName_receiver (n : Names) : n.variableName ("rcv_" ++ n.aux) = "this" := by
  simp [variableName, Text.startsWith]

theorem adjust_receiver (h : n.omitted = some .receiver) (event : Expr) :
    n.adjust [.id "this", event] = .ok [event] := by
  simp [adjust, h, isArgument]

/-- The event is looked for from the left, so the receiver is taken for it if the two bear one name. -/
theorem adjust_event (h : n.omitted = some .event) {event : Expr} {args : List Expr}
    (hargs : n.adjust [.id "this", event] = .ok args) :
    args = if n.eventParam = "this" then [event] else [.id "this"] := by
  rw [adjust, h] at hargs
  by_cases hthis : n.eventParam = "this"
  · have hreceiver : n.isArgument .event (.id "this") = true := by simp [isArgument, isEvent, hthis]
    simpa [hreceiver, hthis, eq_comm] using hargs
  · have hreceiver : n.isArgument .event (.id "this") = false := by simp [isArgument, isEvent, Ne.symm hthis]
    simp only [List.any_cons, hreceiver, List.any_nil, Bool.false_or, Bool.or_false] at hargs
    split at hargs
    · next hevent => simpa [hreceiver, hevent, hthis, List.eraseP_cons, eq_comm] using hargs
    · cases hargs

/-- What is left of the receiver and the event fits the update method. -/
theorem Fits.of_adjust {r : Registry} {p : Participants} {u : MethodDecl} {event : Expr} {args : List Expr}
    (homitted : omittedArgument r p.update p.subject = .ok n.omitted) (hu : r.method? p.update = some u)
    (hevent : HandleBody.isVariable (n.variableName "evt") event = true)
    (hargs : n.adjust [.id "this", event] = .ok args) : n.Fits r p.subject u.params event args := by
  obtain ⟨u', hu', ⟨q, name, hq, hname, hone⟩ | ⟨hmore, hnone⟩⟩ := omittedArgument_eq_ok homitted
  · obtain rfl := Option.some.inj (hu'.symm.trans hu)
    have hargs' : args = if q.ty = name ∧ n.eventParam ≠ "this" then [.id "this"] else [event] := by
      by_cases hty : q.ty = name
      · rw [adjust_event (hone.trans (by rw [if_pos hty])) hargs]
        by_cases hthis : n.eventParam = "this" <;> simp [hty, hthis]
      · rw [adjust_receiver (hone.trans (by rw [if_neg hty])) event] at hargs
        simpa [hty, eq_comm] using hargs
    have hlength : args.length = 1 := by
      rw [hargs']
      split <;> rfl
    refine ⟨hevent, by simp [hq, hlength], ?_, by simp [hq]⟩
    intro q' hq'
    obtain rfl := List.singleton_inj.1 (hq.symm.trans hq')
    exact ⟨name, hname, hargs'⟩
  · obtain rfl := Option.some.inj (hu'.symm.trans hu)
    rw [adjust, hnone] at hargs
    obtain rfl := Except.ok.inj hargs
    refine ⟨hevent, ?_, ?_, fun _ => rfl⟩
    · simp only [List.length_cons, List.length_nil]
      omega
    · intro q hq
      simp [hq] at hmore

/-- A call through the dispatcher with the receiver and the event becomes a call of the update method. -/
theorem Makes.updates {r : Registry} {p : Participants} {u : MethodDecl} {d d' : Expr}
    (homitted : omittedArgument r p.update p.subject = .ok n.omitted) (hu : r.method? p.update = some u)
    (h : n.Makes d d') (hdispatches : dispatches n.aux d = true) (hboth : passesBoth n.aux d = true) :
    n.Updates r p.subject u.params d d' := by
  obtain ⟨callee, target, observer, event, rfl, hvariable⟩ := passesBoth_eq_true.1 hboth
  rw [dispatches, ← dispatchesUpdate_eq] at hdispatches
  cases h with
  | update hdispatch hobserver hrest hargs =>
    cases hrest with
    | cons hreceiver hrest =>
      cases hreceiver
      cases hrest with
      | cons hevent hnil =>
        cases hnil
        rw [variableName_receiver] at hargs
        exact .intro (concreteExpr_of_makes hobserver) (concreteExpr_of_makes hevent)
          (.of_adjust homitted hu (hevent.isVariable hvariable) hargs)
  | call hother hcallee hargs =>
    rw [hother _ _ _ rfl] at hdispatches
    cases hdispatches

/-- A call of a method in a concrete body is what a call of the generic body becomes. -/
theorem MakesBlock.calls {b b' : Block} (h : n.MakesBlock b b') {s' : Stmt} (hs : s' ∈ Stmt.listParts b')
    {callee' : Expr} {args' : List Expr} (hcall : .call callee' args' ∈ s'.exprs) :
    ∃ s ∈ Stmt.listParts b, ∃ d ∈ s.exprs, n.Makes d (.call callee' args') := by
  obtain ⟨s, hs, hstmt⟩ := h.parts s' hs
  obtain ⟨d, hd, hmakes⟩ | ⟨receiver, heq⟩ := hstmt.exprs _ hcall
  · exact ⟨s, hs, d, hd, hmakes⟩
  · cases heq

end Names

/-- The calls of the update method in the body that a handle method gets, if the generic body passes the receiver and
the event on. They come from the calls through the dispatcher, or are calls of the generic body that stay what they
are; those of the first kind fit an update method with up to two parameters. -/
theorem transplant_updates {c : Conventions} {r r' : Registry} {aux : String} {p : Participants} {generic : MethodId}
    (h : transplant c r aux p generic = .ok r')
    (hboth : ∀ g, r.method? generic = some g → ∀ s ∈ Stmt.listParts g.body, ∀ d ∈ s.exprs,
      dispatches aux d = true → passesBoth aux d = true) :
    ∃ n g m u, names c r aux p = .ok n ∧
      (∃ event, r.className p.event = .ok event ∧ Collection.parameterOfType r p.handle event = .ok n.eventParam ∧
        n.variableName "evt" = if c.collectionPrefix = "evt" then n.collection else n.eventParam) ∧
      r.method? generic = some g ∧ r'.method? p.handle = some m ∧ r.method? p.update = some u ∧ u.params ≠ [] ∧
        r.methodName p.update = .ok n.update ∧
          (∀ s ∈ Stmt.listParts g.body, ∀ d ∈ s.exprs, dispatches aux d = true →
            ∀ d', n.concreteExpr d = .ok d' → n.Updates r p.subject u.params d d') ∧
          ∀ s' ∈ Stmt.listParts m.body, ∀ observer' args', .methodCall observer' n.update args' ∈ s'.exprs →
            ∃ s ∈ Stmt.listParts g.body, ∃ d ∈ s.exprs,
              n.concreteExpr d = .ok (.methodCall observer' n.update args') ∧
                if dispatches aux d = true then
                  n.Updates r p.subject u.params d (.methodCall observer' n.update args')
                else ∃ callee args, d = .call callee args ∧ n.concreteExprs args = .ok args' := by
  obtain ⟨n, g, m, hn, hg, hm, hmakes⟩ := transplant_makes h
  obtain ⟨rfl, hgeneric, -, -, hupdate, event, hevent, hformal⟩ := names_eq_ok hn
  have homitted := names_omitted hn
  obtain ⟨u, hu, hparams⟩ := omittedArgument_eq_ok homitted
  have hnonempty : u.params ≠ [] := by
    obtain ⟨q, _, hone, -⟩ | ⟨hmore, -⟩ := hparams
    · simp [hone]
    · exact List.ne_nil_of_length_pos (by omega)
  have hboth := hboth g hg
  refine ⟨n, g, m, u, hn, ⟨event, hevent, hformal, ?_⟩, hg, hm, hu, hnonempty, hupdate, ?_, ?_⟩
  · rw [← hgeneric]
    split
    · next hcollection => exact Names.variableName_genericCollection hcollection
    · next hcollection => exact Names.variableName_event hcollection
  · intro s hs d hd hdispatches d' hd'
    exact (Names.makes_of_concreteExpr hd').updates homitted hu hdispatches (hboth s hs d hd hdispatches)
  · intro s' hs' observer' args' hcall
    obtain ⟨s, hs, d, hd, hdmakes⟩ := hmakes.calls hs' hcall
    refine ⟨s, hs, d, hd, Names.concreteExpr_of_makes hdmakes, ?_⟩
    split
    · next hdispatches => exact hdmakes.updates homitted hu hdispatches (hboth s hs d hd hdispatches)
    · next hdispatches =>
      cases hdmakes with
      | call hother hcallee hargs => exact ⟨_, _, rfl, Names.concreteExprs_of_makesAll hargs⟩
      | update hdispatch hobserver hrest hargs =>
        refine absurd ?_ hdispatches
        rw [dispatches, ← Names.dispatchesUpdate_eq]
        exact hdispatch

/-! ## Doors that can be opened -/

namespace Door

/-- A door tells its bells when it is opened. It implements an interface; the parameter of its handle method is called
as given, and the update method of a bell has the parameters given. -/
def openable (formal : String) (params : List Param) : Registry where
  classes :=
    [ClassDecl.empty "AuxObserverOpening", ClassDecl.empty "Opening",
      { ClassDecl.empty "Door" with interfaces := ["Openable"], methods := [⟨1⟩, ⟨3⟩] },
      { ClassDecl.empty "Bell" with methods := [⟨2⟩] }, { ClassDecl.empty "Openable" with isInterface := true }]
  methods :=
    [genericHandle, ⟨"open", ⟨2⟩, [⟨"Opening", formal⟩], "void", false, []⟩, ⟨"ring", ⟨3⟩, params, "void", false, []⟩,
      ⟨"addBell", ⟨2⟩, [⟨"Bell", "bell"⟩], "void", false, []⟩]

/-- The subject is bound to the interface. -/
def openableBindings : Bindings where
  entries :=
    [("subject_AuxObserverOpening", 4), ("observer_AuxObserverOpening", 3), ("attach_AuxObserverOpening", 3),
      ("handle_AuxObserverOpening", 1), ("update_AuxObserverOpening", 2)]
  nodup := by decide

/-- The door stands in for the interface. -/
def openableParticipants : Participants := ⟨⟨2⟩, ⟨3⟩, ⟨1⟩, some ⟨3⟩, none, ⟨1⟩, ⟨2⟩⟩

def dispatch : Expr :=
  .methodCall (.id "AuxObserverOpening") "reflect" [.id "update_AuxObserverOpening",
    .cast "AuxObserverOpening" (.id "o"), .id "rcv_AuxObserverOpening", .cast "Opening" (.id "evt")]

/-- The arguments with which the door rings its bells. -/
def ringArgs (c : Conventions) (r : Registry) : Except DecodeFault (List (List Expr)) := do
  let r' ← transplant c r "AuxObserverOpening" openableParticipants ⟨0⟩
  let m ← r'.getMethod openableParticipants.handle
  return (Stmt.listParts m.body).flatMap fun s => s.exprs.filterMap fun e =>
    match e.methodCall? with
    | some (_, "ring", args) => some args
    | _ => none

theorem genericHandle_passesBoth : ∀ s ∈ Stmt.listParts genericHandle.body, ∀ d ∈ s.exprs,
    dispatches "AuxObserverOpening" d = true → passesBoth "AuxObserverOpening" d = true := by
  decide +kernel

end Door

theorem transplant_updates_door : ∃ r' n observer,
    transplant .default (Door.openable "opening" [⟨"Door", "door"⟩]) "AuxObserverOpening" Door.openableParticipants
        ⟨0⟩ = .ok r' ∧
      names .default (Door.openable "opening" [⟨"Door", "door"⟩]) "AuxObserverOpening" Door.openableParticipants =
          .ok n ∧
        n.concreteExpr Door.dispatch = .ok (.methodCall observer n.update [.id "this"]) := by
  have hrun : okAnd (transplant .default (Door.openable "opening" [⟨"Door", "door"⟩]) "AuxObserverOpening"
      Door.openableParticipants ⟨0⟩) (fun _ => okAnd (names .default (Door.openable "opening" [⟨"Door", "door"⟩])
        "AuxObserverOpening" Door.openableParticipants) fun n =>
          n.eventParam = "opening" ∧ okAnd (n.concreteExpr Door.dispatch) fun _ => true) = true := by
    decide +kernel
  obtain ⟨r', h, hnames⟩ := okAnd_eq_true.1 hrun
  obtain ⟨n₁, hn₁, hresult⟩ := okAnd_eq_true.1 hnames
  obtain ⟨hformal, hdispatch⟩ := of_decide_eq_true hresult
  obtain ⟨d', hd', -⟩ := okAnd_eq_true.1 hdispatch
  have hboth : ∀ g, (Door.openable "opening" [⟨"Door", "door"⟩]).method? ⟨0⟩ = some g →
      ∀ s ∈ Stmt.listParts g.body, ∀ d ∈ s.exprs,
        dispatches "AuxObserverOpening" d = true → passesBoth "AuxObserverOpening" d = true := by
    intro g hg
    obtain rfl : Door.genericHandle = g := Option.some.inj hg
    exact Door.genericHandle_passesBoth
  obtain ⟨n, g, m, u, hn, -, hg, -, hu, -, -, hupdates, -⟩ := transplant_updates h hboth
  obtain rfl := Except.ok.inj (hn₁.symm.trans hn)
  obtain rfl : Door.genericHandle = g := Option.some.inj hg
  have hbody : ∃ s ∈ Stmt.listParts Door.genericHandle.body, Door.dispatch ∈ s.exprs := by decide +kernel
  obtain ⟨s, hs, hmem⟩ := hbody
  cases hupdates s hs Door.dispatch hmem (by decide +kernel) d' hd' with
  | intro hobserver hevent hargs =>
    obtain ⟨name, hname, hone⟩ := hargs.one ⟨"Door", "door"⟩ (Option.some.inj hu ▸ rfl)
    obtain rfl : "Door" = name := Except.ok.inj hname
    rw [if_pos ⟨rfl, by simp [hformal]⟩] at hone
    exact ⟨r', n₁, _, h, hn₁, hone ▸ hd'⟩

/-- Calls that do not fit. The subject was bound to an interface, which is the type of the only parameter, and the
door implements it; yet the argument that stays is the event. Two arguments stay for three parameters. The collection
goes in place of the event where it is called like it, and the receiver is dropped in place of the event where the
event is called like it. -/
theorem updates_unfit_door :
    (∀ s ∈ Stmt.listParts Door.genericHandle.body, ∀ d ∈ s.exprs,
      dispatches "AuxObserverOpening" d = true → passesBoth "AuxObserverOpening" d = true) ∧
    Participants.resolve (Door.openable "opening" [⟨"Openable", "door"⟩]) Door.openableBindings "AuxObserverOpening"
        ⟨⟨1⟩, ⟨0⟩⟩ ⟨1, 1, 0⟩ = .ok Door.openableParticipants ∧
    ((Door.openable "opening" [⟨"Openable", "door"⟩]).classes.map (·.name)).Nodup ∧
    (Door.openable "opening" [⟨"Openable", "door"⟩]).classNamed? "Openable" = some ⟨4⟩ ∧
    (Hierarchy.ofRegistry (Door.openable "opening" [⟨"Openable", "door"⟩])).le Door.openableParticipants.subject ⟨4⟩ =
        true ∧
    Door.ringArgs .default (Door.openable "opening" [⟨"Openable", "door"⟩]) =
      .ok [[.cast "Opening" (.id "opening")]] ∧
    Door.ringArgs .default (Door.openable "opening" [⟨"Door", "door"⟩, ⟨"Opening", "opening"⟩, ⟨"int", "times"⟩]) =
        .ok [[.id "this", .cast "Opening" (.id "opening")]] ∧
    Door.ringArgs { Conventions.default with collectionPrefix := "evt" }
        (Door.openable "opening" [⟨"Opening", "opening"⟩]) = .ok [[.cast "Opening" (.id "evt_Bell")]] ∧
    Door.ringArgs .default (Door.openable "this" [⟨"Door", "door"⟩]) = .ok [[.cast "Opening" (.id "this")]] := by
  refine ⟨Door.genericHandle_passesBoth, ?_, ?_, ?_, ?_, ?_, ?_, ?_, ?_⟩ <;> decide +kernel

end ObserverPattern.HandleBody
