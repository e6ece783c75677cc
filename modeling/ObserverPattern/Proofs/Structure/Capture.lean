import ObserverPattern.Proofs.Structure.GenericNames
import ObserverPattern.Proofs.Syntax.Scopes

/-!
# The event in a handle body

In a generic handle body `evt` stands for the event. In the concrete body the parameter of the handle method takes its
place, whose name is not chosen to keep clear of what the body declares.

* `Names.keptIds`: the identifiers of a generic expression that stay in the concrete one;
* `Names.MakesBlock.uses`: the identifiers of a concrete body, with what is declared around them;
* `transplant_event`: when the event refers to the parameter; `event_captured_door`: when it does not.
-/

namespace ObserverPattern.HandleBody

namespace Names

variable (n : Names)

/-- An argument that becomes the event. -/
def becomesEvent : Expr → Bool
  | .id name => n.variableName name == n.eventParam
  | .cast _ e => becomesEvent e
  | _ => false

/-- An argument that becomes one which an update call may do without. -/
def becomesArgument : UpdateArgument → Expr → Bool
  | .event, e => n.becomesEvent e
  | .receiver, .id name => n.variableName name == "this"
  | .receiver, _ => false

mutual

/-- The identifiers of a generic expression that stay in the concrete one: all but those of a dispatch, of the method
that it names and of the argument that the update call does without. -/
def keptIds : Expr → List String
  | .literal _ => []
  | .id name => [name]
  | .field receiver _ => keptIds receiver
  | .call callee (target :: receiver :: rest) =>
    if n.dispatchesUpdate callee target then keptIds receiver ++ keptArgs rest
    else keptIds callee ++ (keptIds target ++ (keptIds receiver ++ keptAll rest))
  | .call callee args => keptIds callee ++ keptAll args
  | .new _ args => keptAll args
  | .binary _ left right => keptIds left ++ keptIds right
  | .cast _ e => keptIds e
  | .placeholder _ operands => keptAll operands

def keptAll : List Expr → List String
  | [] => []
  | e :: rest => keptIds e ++ keptAll rest

/-- The identifiers of the arguments of an update call that stay. -/
def keptArgs : List Expr → List String
  | [] => []
  | e :: rest => if n.omitted.any (n.becomesArgument · e) then keptAll rest else keptIds e ++ keptArgs rest

end

def renameBinder : Binder → Binder
  | .loop name => .loop name
  | .declared name => .declared (n.variableName name)

def renameUse (u : Use) : Use := ⟨n.variableName u.name, u.scope.map n.renameBinder⟩

variable {n}

/-! ## Expressions -/

private theorem Makes.isEvent : ∀ {e e' : Expr}, n.Makes e e' → n.isEvent e' = n.becomesEvent e
  | _, _, .id _ => rfl
  | _, _, .cast _ he => he.isEvent
  | _, _, .literal _ | _, _, .field .. | _, _, .update .. | _, _, .call .. | _, _, .new .. | _, _, .binary ..
  | _, _, .placeholder .. => rfl

private theorem Makes.isArgument {e e' : Expr} (h : n.Makes e e') (argument : UpdateArgument) :
    n.isArgument argument e' = n.becomesArgument argument e := by
  cases argument with
  | event => exact h.isEvent
  | receiver =>
    cases h <;> simp [Names.isArgument, becomesArgument, Expr.methodCall]

private theorem adjust_eq_ok {args args' : List Expr} (h : n.adjust args = .ok args') :
    args' = args.eraseP fun e => n.omitted.any (n.isArgument · e) := by
  unfold adjust at h
  split at h
  · next homitted =>
    obtain rfl := Except.ok.inj h
    rw [homitted, List.eraseP_of_forall_not (by simp)]
  · next argument homitted =>
    split at h
    · rw [homitted]
      exact (Except.ok.inj h).symm
    · cases h

private theorem keptIds_call {callee : Expr} {args : List Expr}
    (h : ∀ target receiver rest, args = target :: receiver :: rest → n.dispatchesUpdate callee target = false) :
    n.keptIds (.call callee args) = n.keptIds callee ++ n.keptAll args := by
  match args with
  | [] => rfl
  | [arg] => rfl
  | target :: receiver :: rest =>
    have hother := h target receiver rest rfl
    simp [keptIds, keptAll, hother]

mutual

/-- The identifiers of a concrete expression are those that stay of the generic one, in order. -/
theorem Makes.ids : ∀ {e e' : Expr}, n.Makes e e' → e'.ids = (n.keptIds e).map n.variableName
  | _, _, .literal _ => rfl
  | _, _, .id _ => rfl
  | _, _, .field _ hreceiver => hreceiver.ids
  | _, _, .update hdispatch hreceiver hrest hargs => by
    simp [Expr.methodCall, Expr.ids, keptIds, hdispatch, adjust_eq_ok hargs, hreceiver.ids, hrest.ids_eraseP]
  | _, _, .call hother hcallee hargs => by
    rw [keptIds_call hother, Expr.ids, hcallee.ids, hargs.ids, List.map_append]
  | _, _, .new _ hargs => hargs.ids
  | _, _, .binary _ hleft hright => by
    rw [Expr.ids, keptIds, hleft.ids, hright.ids, List.map_append]
  | _, _, .cast _ he => he.ids
  | _, _, .placeholder _ hoperands => hoperands.ids

theorem MakesAll.ids : ∀ {es es' : List Expr}, n.MakesAll es es' →
    Expr.listIds es' = (n.keptAll es).map n.variableName
  | _, _, .nil => rfl
  | _, _, .cons he hes => by
    rw [Expr.listIds, keptAll, he.ids, hes.ids, List.map_append]

private theorem MakesAll.ids_eraseP : ∀ {es es' : List Expr}, n.MakesAll es es' →
    Expr.listIds (es'.eraseP fun e => n.omitted.any (n.isArgument · e)) = (n.keptArgs es).map n.variableName
  | _, _, .nil => rfl
  | _, _, @MakesAll.cons _ e e' _ _ he hes => by
    -- The argument is looked for among the renamed ones, but it can be told before.
    have hsame : n.omitted.any (n.isArgument · e') = n.omitted.any (n.becomesArgument · e) := by
      simp only [he.isArgument]
    rw [List.eraseP_cons, hsame, keptArgs]
    cases n.omitted.any (n.becomesArgument · e) with
    | true => exact hes.ids
    | false => simp [Expr.listIds, he.ids, hes.ids_eraseP]

end

/-! ## Statements -/

private theorem MakesStmt.declares {s s' : Stmt} (h : n.MakesStmt s s') :
    s'.declares = s.declares.map n.renameBinder := by
  cases h with
  | assign ty htarget hvalue =>
    cases ty with
    | none => rfl
    | some ty => cases htarget <;> rfl
  | _ => rfl

private theorem map_uses {ids : List String} {scope : List Binder} :
    (ids.map n.variableName).map (Use.mk · (scope.map n.renameBinder)) =
      (ids.map (Use.mk · scope)).map n.renameUse := by
  simp [renameUse, Function.comp_def]

mutual

theorem MakesStmt.uses : ∀ {s s' : Stmt}, n.MakesStmt s s' → ∀ scope,
    s'.usesOf Expr.ids (scope.map n.renameBinder) = (s.usesOf n.keptIds scope).map n.renameUse
  | _, _, .expr he, scope => by
    rw [Stmt.usesOf, Stmt.usesOf, he.ids, map_uses]
  | _, _, .assign ty htarget hvalue, scope => by
    rw [Stmt.usesOf, Stmt.usesOf, htarget.ids, hvalue.ids, ← List.map_append, map_uses]
  | _, _, .ifElse hcond hthen helse, scope => by
    rw [Stmt.usesOf, Stmt.usesOf, hcond.ids, map_uses, hthen.uses, helse.uses, List.map_append, List.map_append]
  | _, _, .forEach ty var hsource hbody, scope => by
    rw [Stmt.usesOf, Stmt.usesOf, hsource.ids, map_uses, List.map_append, ← hbody.uses]
    rfl
  | _, _, .whileLoop hcond hbody, scope => by
    rw [Stmt.usesOf, Stmt.usesOf, hcond.ids, map_uses, List.map_append, hbody.uses]
  | _, _, .retNone, scope => rfl
  | _, _, .ret he, scope => by
    rw [Stmt.usesOf, Stmt.usesOf, he.ids, map_uses]

/-- The identifiers of a concrete block are those that stay of the generic one, in order, in the scope of the same
declarations. -/
theorem MakesBlock.uses : ∀ {b b' : Block}, n.MakesBlock b b' → ∀ scope,
    Stmt.usesIn Expr.ids (scope.map n.renameBinder) b' = (Stmt.usesIn n.keptIds scope b).map n.renameUse
  | _, _, .nil, scope => rfl
  | _, _, .cons hs hb, scope => by
    rw [Stmt.usesIn, Stmt.usesIn, hs.uses, hs.declares, ← List.map_append, hb.uses, List.map_append]

end

/-! ## The event -/

/-- The event becomes the parameter of the handle method, unless the generic collection is called like it. -/
theorem variableName_event (h : n.genericCollection ≠ "evt") : n.variableName "evt" = n.eventParam := by
  have hreceiver : Text.startsWith "evt" ("rcv_" ++ n.aux) = false := by
    simp [Text.startsWith, List.isPrefixOf]
  simp [variableName, hreceiver, Ne.symm h]

/-- The generic collection takes precedence over the event. -/
theorem variableName_genericCollection (h : n.genericCollection = "evt") : n.variableName "evt" = n.collection := by
  have hreceiver : Text.startsWith "evt" ("rcv_" ++ n.aux) = false := by
    simp [Text.startsWith, List.isPrefixOf]
  simp [variableName, hreceiver, h]

/-- An identifier refers to what its new name stands for outside if no loop around it has a variable of that name and
no local before it has got that name. -/
theorem isFree_renameUse {u : Use} :
    (n.renameUse u).IsFree ↔ ∀ b ∈ u.scope, (n.renameBinder b).name ≠ n.variableName u.name := by
  simp [Use.IsFree, renameUse]

end Names

/-- The identifiers of the body that a handle method gets are those that stay of the generic body, renamed, in the
scope of the same declarations, of which locals are renamed and loop variables are not. The event becomes the
parameter of the handle method, if the generic collection is called otherwise; it refers to that parameter exactly if
no declaration around it has got the parameter's name. -/
theorem transplant_event {c : Conventions} {r r' : Registry} {aux : String} {p : Participants} {generic : MethodId}
    (h : transplant c r aux p generic = .ok r') : ∃ n g m, names c r aux p = .ok n ∧
      (∃ event, r.className p.event = .ok event ∧ Collection.parameterOfType r p.handle event = .ok n.eventParam) ∧
        r.method? generic = some g ∧ r'.method? p.handle = some m ∧
          Stmt.usesIn Expr.ids [] m.body = (Stmt.usesIn n.keptIds [] g.body).map n.renameUse ∧
            ∀ u ∈ Stmt.usesIn n.keptIds [] g.body, u.name = "evt" →
              if c.collectionPrefix = "evt" then (n.renameUse u).name = n.collection
              else (n.renameUse u).name = n.eventParam ∧
                ((n.renameUse u).IsFree ↔ ∀ b ∈ u.scope, (n.renameBinder b).name ≠ n.eventParam) := by
  obtain ⟨n, g, m, hn, hg, hm, hmakes⟩ := transplant_makes h
  obtain ⟨-, hgeneric, -, -, -, hevent⟩ := names_eq_ok hn
  refine ⟨n, g, m, hn, hevent, hg, hm, hmakes.uses [], ?_⟩
  intro u _ hu
  rw [← hgeneric, Names.isFree_renameUse, Names.renameUse, hu]
  split
  · next hcollection => exact Names.variableName_genericCollection hcollection
  · next hcollection =>
    rw [Names.variableName_event hcollection]
    exact ⟨rfl, .rfl⟩

theorem transplant_event_door : ∃ r' n m,
    transplant .default (Door.registry "opening") "AuxObserverOpening" Door.participants ⟨0⟩ = .ok r' ∧
      names .default (Door.registry "opening") "AuxObserverOpening" Door.participants = .ok n ∧
        r'.method? Door.participants.handle = some m ∧
          Use.mk "opening" [.loop "o"] ∈ Stmt.usesIn Expr.ids [] m.body := by
  obtain ⟨r', h⟩ := Door.transplant_opening
  have hnames : okAnd (names .default (Door.registry "opening") "AuxObserverOpening" Door.participants)
      (fun n => Use.mk "evt" [.loop "o"] ∈ Stmt.usesIn n.keptIds [] Door.genericHandle.body ∧
        n.eventParam = "opening") = true := by
    decide +kernel
  obtain ⟨n₁, hn₁, hresult⟩ := okAnd_eq_true.1 hnames
  obtain ⟨hmem, hparam⟩ := of_decide_eq_true hresult
  obtain ⟨n, g, m, hn, -, hg, hm, huses, hevent⟩ := transplant_event h
  obtain rfl := Except.ok.inj (hn₁.symm.trans hn)
  obtain rfl : Door.genericHandle = g := Option.some.inj hg
  have hrenamed : n₁.renameUse ⟨"evt", [.loop "o"]⟩ = ⟨"opening", [.loop "o"]⟩ := by
    have hname := hevent _ hmem rfl
    rw [if_neg (by decide)] at hname
    rw [← hparam, ← hname.1]
    rfl
  refine ⟨r', n₁, m, h, hn, hm, ?_⟩
  rw [huses, ← hrenamed]
  exact List.mem_map_of_mem hmem

/-- Where the parameter of the handle method is called like the variable of the loop over the observers, the event is
captured by that loop. -/
theorem event_captured_door : ∃ r' n g m,
    transplant .default (Door.registry "o") "AuxObserverOpening" Door.participants ⟨0⟩ = .ok r' ∧
      names .default (Door.registry "o") "AuxObserverOpening" Door.participants = .ok n ∧
        (Door.registry "o").method? ⟨0⟩ = some g ∧
          (∀ s ∈ Stmt.listParts g.body, ∀ b ∈ s.binders, b.name ≠ "evt") ∧
            r'.method? Door.participants.handle = some m ∧
              Stmt.usesIn Expr.ids [] m.body = (Stmt.usesIn n.keptIds [] g.body).map n.renameUse ∧
                ¬∀ u ∈ Stmt.usesIn n.keptIds [] g.body, u.name = "evt" → (n.renameUse u).IsFree := by
  have hrun : okAnd (transplant .default (Door.registry "o") "AuxObserverOpening" Door.participants ⟨0⟩)
      (fun r' => okAnd (names .default (Door.registry "o") "AuxObserverOpening" Door.participants) fun n =>
        (r'.method? Door.participants.handle).any fun m =>
          Stmt.usesIn Expr.ids [] m.body = (Stmt.usesIn n.keptIds [] Door.genericHandle.body).map n.renameUse ∧
            ¬∀ u ∈ Stmt.usesIn n.keptIds [] Door.genericHandle.body, u.name = "evt" → (n.renameUse u).IsFree) =
      true := by
    decide +kernel
  obtain ⟨r', h, hresult⟩ := okAnd_eq_true.1 hrun
  obtain ⟨n, hn, hresult⟩ := okAnd_eq_true.1 hresult
  obtain ⟨m, hm, hresult⟩ := (Option.any_eq_true ..).1 hresult
  obtain ⟨huses, hcaptured⟩ := of_decide_eq_true hresult
  exact ⟨r', n, Door.genericHandle, m, h, hn, rfl, by decide, hm, huses, hcaptured⟩

end ObserverPattern.HandleBody
