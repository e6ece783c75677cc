import ObserverPattern.Proofs.Program.Inside
import ObserverPattern.Proofs.Success

/-!
# Who plays the subject

The bindings of a trace choose the participants of a dispatcher. A class that they choose as the subject is taken as
it is, unless it is an interface: then the declaring class of the attach and the detach method stands in for it.

* `resolve_eq_ok`: participants are resolved exactly if the bindings choose them (`Chosen`), with an interface subject
  replaced by its stand-in (`StandsIn`);
* `resolve_subject`: the participants belong to the registry, and their subject is an interface exactly if the chosen
  one is an interface and the attach or the detach method is declared by an interface too. A stand-in is not asked
  whether it is one.
-/

namespace ObserverPattern

namespace Registry

/-- A class of the registry is an interface. -/
def IsInterface (r : Registry) (id : ClassId) : Prop := ∃ c, r.class? id = some c ∧ c.isInterface = true

/-- A class declares a method. -/
def Owns (r : Registry) (owner : ClassId) (id : MethodId) : Prop := ∃ m, r.method? id = some m ∧ m.owner = owner

variable {r : Registry}

theorem isInterface_iff {id : ClassId} {c : ClassDecl} (hc : r.class? id = some c) :
    r.IsInterface id ↔ c.isInterface = true := by
  refine ⟨fun ⟨c', hc', h⟩ => ?_, fun h => ⟨c, hc, h⟩⟩
  rwa [Option.some.inj (hc.symm.trans hc')]

theorem Owns.unique {owner owner' : ClassId} {id : MethodId} (h : r.Owns owner id) (h' : r.Owns owner' id) :
    owner = owner' := by
  obtain ⟨m, hm, rfl⟩ := h
  obtain ⟨m', hm', rfl⟩ := h'
  rw [Option.some.inj (hm.symm.trans hm')]

end Registry

namespace Participants

variable {r : Registry} {b : Bindings} {aux : String}

private theorem exists_className {id : ClassId} (hid : (r.class? id).isSome) : ∃ name, r.className id = .ok name := by
  obtain ⟨c, hc⟩ := Option.isSome_iff_exists.1 hid
  exact ⟨c.name, Registry.className_eq_ok.2 ⟨c, hc, rfl⟩⟩

/-! ## Choices -/

/-- The hole of a role is bound to the index of a class. -/
def BindsClass (r : Registry) (b : Bindings) (aux : String) (role : Role) (id : ClassId) : Prop :=
  b.get? (role.hole aux) = some id.index ∧ (r.class? id).isSome

/-- The hole of a role is bound to the index of a method. -/
def BindsMethod (r : Registry) (b : Bindings) (aux : String) (role : Role) (id : MethodId) : Prop :=
  b.get? (role.hole aux) = some id.index ∧ (r.method? id).isSome

/-- An index that points into a table is the one that is asked for. -/
private theorem pointer_eq_some {α β : Type} {l : List α} {f : Nat → β} (hf : ∀ i j, f i = f j → i = j)
    {index i : Nat} :
    (if index < l.length then some (f index) else none) = some (f i) ↔ index = i ∧ l[i]?.isSome := by
  by_cases hindex : index < l.length
  · rw [if_pos hindex, Option.some_inj, isSome_getElem?]
    constructor
    · intro h
      rw [← hf _ _ h]
      exact ⟨rfl, hindex⟩
    · rintro ⟨rfl, -⟩
      rfl
  · rw [if_neg hindex, isSome_getElem?]
    refine ⟨nofun, ?_⟩
    rintro ⟨rfl, h⟩
    exact absurd h hindex

private theorem chosenClass?_eq_some {index : Nat} {id : ClassId} :
    r.chosenClass? index = some id ↔ index = id.index ∧ (r.class? id).isSome :=
  pointer_eq_some fun _ _ h => ClassId.mk.inj h

private theorem chosenMethod?_eq_some {index : Nat} {id : MethodId} :
    r.chosenMethod? index = some id ↔ index = id.index ∧ (r.method? id).isSome :=
  pointer_eq_some fun _ _ h => MethodId.mk.inj h

theorem chooseClass_eq_ok {role : Role} {id : ClassId} :
    chooseClass r b aux role = .ok id ↔ BindsClass r b aux role id := by
  have hclass : ∀ index, classOf r aux (role.hole aux) index = .ok id ↔ index = id.index ∧ (r.class? id).isSome := by
    intro index
    rw [← chosenClass?_eq_some]
    unfold classOf
    cases r.chosenClass? index <;> simp
  unfold chooseClass boundIndex BindsClass
  cases b.get? (role.hole aux) with
  | none => simp [bind, Except.bind]
  | some index =>
    rw [Option.some_inj]
    exact hclass index

theorem chooseMethod_eq_ok {role : Role} {id : MethodId} :
    chooseMethod r b aux role = .ok id ↔ BindsMethod r b aux role id := by
  have hmethod : ∀ index, methodOf r aux (role.hole aux) index = .ok id ↔
      index = id.index ∧ (r.method? id).isSome := by
    intro index
    rw [← chosenMethod?_eq_some]
    unfold methodOf
    cases r.chosenMethod? index <;> simp
  unfold chooseMethod boundIndex BindsMethod
  cases b.get? (role.hole aux) with
  | none => simp [bind, Except.bind]
  | some index =>
    rw [Option.some_inj]
    exact hmethod index

theorem ownerOf_eq_ok {id : MethodId} {owner : ClassId} : ownerOf r id = .ok owner ↔ r.Owns owner id := by
  simp only [ownerOf, bind_eq_ok, Registry.getMethod_eq_ok, pure_eq_ok, Registry.Owns]

/-- What the log shows of a method of a closed registry can be looked up. -/
theorem exists_ownerName (hclosed : r.Closed) {id : MethodId} (hid : (r.method? id).isSome) :
    ∃ name, ownerName r id = .ok name := by
  obtain ⟨m, hm⟩ := Option.isSome_iff_exists.1 hid
  obtain ⟨name, hname⟩ := exists_className (hclosed.owner hm)
  exact ⟨name, bind_eq_ok.2 ⟨m.owner, ownerOf_eq_ok.2 ⟨m, hm, rfl⟩, hname⟩⟩

/-- A method is chosen if the event has such methods. -/
theorem chooseCounted_eq_ok (hclosed : r.Closed) {role : Role} {count : Nat} {chosen : Option MethodId} :
    chooseCounted r b aux role count = .ok chosen ↔
      (chosen.isSome ↔ count ≠ 0) ∧ ∀ id, chosen = some id → BindsMethod r b aux role id := by
  unfold chooseCounted
  by_cases hcount : count = 0
  · rw [if_pos hcount]
    cases chosen <;> simp [hcount]
  · simp only [if_neg hcount, bind_eq_ok, chooseMethod_eq_ok, pure_eq_ok]
    constructor
    · rintro ⟨id, hid, -, -, rfl⟩
      simpa [hcount] using hid
    · rintro ⟨hsome, hid⟩
      obtain ⟨id, rfl⟩ := Option.isSome_iff_exists.1 (hsome.2 hcount)
      obtain ⟨name, hname⟩ := exists_ownerName hclosed (hid id rfl).2
      exact ⟨id, hid id rfl, name, hname, rfl⟩

/-! ## Stand-ins -/

/-- There is an attach or a detach method, and a class declares what there is of them. -/
structure StandsIn (r : Registry) (attach detach : Option MethodId) (id : ClassId) : Prop where
  present : ∃ k, attach = some k ∨ detach = some k
  owns : ∀ k, attach = some k ∨ detach = some k → r.Owns id k

theorem commonOwner_eq_ok {c : ClassDecl} {attach detach : Option MethodId} {id : ClassId} :
    commonOwner r aux c attach detach = .ok id ↔ StandsIn r attach detach id := by
  cases attach with
  | none =>
    cases detach with
    | none =>
      refine ⟨nofun, fun h => ?_⟩
      obtain ⟨k, hk | hk⟩ := h.present <;> cases hk
    | some detach =>
      rw [commonOwner, ownerOf_eq_ok]
      refine ⟨fun howns => ⟨⟨detach, .inr rfl⟩, ?_⟩, fun h => h.owns detach (.inr rfl)⟩
      rintro k (hk | hk)
      · cases hk
      · exact Option.some.inj hk ▸ howns
  | some attach =>
    cases detach with
    | none =>
      rw [commonOwner, ownerOf_eq_ok]
      refine ⟨fun howns => ⟨⟨attach, .inl rfl⟩, ?_⟩, fun h => h.owns attach (.inl rfl)⟩
      rintro k (hk | hk)
      · exact Option.some.inj hk ▸ howns
      · cases hk
    | some detach =>
      simp only [commonOwner, bind_eq_ok, ownerOf_eq_ok]
      constructor
      · rintro ⟨a, hattach, d, hdetach, h⟩
        -- two owners that differ are the fault, whatever they are called
        by_cases hsame : a = d
        · rw [if_pos hsame, pure_eq_ok] at h
          subst hsame h
          refine ⟨⟨attach, .inl rfl⟩, ?_⟩
          rintro k (hk | hk)
          · exact Option.some.inj hk ▸ hattach
          · exact Option.some.inj hk ▸ hdetach
        · rw [if_neg hsame] at h
          simp only [bind_eq_ok] at h
          obtain ⟨attachClass, -, detachClass, -, h⟩ := h
          exact absurd h throw_ne_ok
      · intro h
        exact ⟨id, h.owns attach (.inl rfl), id, h.owns detach (.inr rfl), if_pos rfl⟩

theorem StandsIn.isSome (hclosed : r.Closed) {attach detach : Option MethodId} {id : ClassId}
    (h : StandsIn r attach detach id) : (r.class? id).isSome := by
  obtain ⟨k, hk⟩ := h.present
  obtain ⟨m, hm, rfl⟩ := h.owns k hk
  exact hclosed.owner hm

/-- The subject is the chosen class, or what stands in for it if that is an interface. -/
theorem actingSubject_eq_ok (hclosed : r.Closed) {bound subject : ClassId} {attach detach : Option MethodId}
    (hbound : (r.class? bound).isSome) : actingSubject r aux bound attach detach = .ok subject ↔
      (¬r.IsInterface bound → subject = bound) ∧ (r.IsInterface bound → StandsIn r attach detach subject) := by
  obtain ⟨c, hc⟩ := Option.isSome_iff_exists.1 hbound
  rw [actingSubject, Registry.getClass_eq_ok.2 hc, ok_bind, Registry.isInterface_iff hc]
  by_cases hinterface : c.isInterface = true
  · rw [if_pos hinterface]
    simp only [concreteSubject, bind_eq_ok, commonOwner_eq_ok, pure_eq_ok]
    constructor
    · rintro ⟨concrete, hstand, -, -, rfl⟩
      exact ⟨fun h => absurd hinterface h, fun _ => hstand⟩
    · rintro ⟨-, hstand⟩
      obtain ⟨name, hname⟩ := exists_className ((hstand hinterface).isSome hclosed)
      exact ⟨subject, hstand hinterface, name, hname, rfl⟩
  · rw [if_neg hinterface, pure_eq_ok]
    exact ⟨fun h => ⟨fun _ => h.symm, fun h => absurd h hinterface⟩, fun h => (h.1 hinterface).symm⟩

/-! ## Participants -/

/-- The participants that bindings choose, with the stand-in of an interface subject. -/
structure Chosen (r : Registry) (b : Bindings) (aux : String) (d : Dispatcher) (counts : RoleCounts)
    (p : Participants) : Prop where
  event : p.event = d.event
  observer : BindsClass r b aux .observer p.observer
  attach_isSome : p.attach.isSome ↔ counts.attach ≠ 0
  attach : ∀ id, p.attach = some id → BindsMethod r b aux .attach id
  detach_isSome : p.detach.isSome ↔ counts.detach ≠ 0
  detach : ∀ id, p.detach = some id → BindsMethod r b aux .detach id
  handle : BindsMethod r b aux .handle p.handle
  update : BindsMethod r b aux .update p.update
  subject : ∃ bound, BindsClass r b aux .subject bound ∧ (¬r.IsInterface bound → p.subject = bound) ∧
    (r.IsInterface bound → StandsIn r p.attach p.detach p.subject)

/-- Participants are resolved exactly if the bindings choose them. -/
theorem resolve_eq_ok (hclosed : r.Closed) {d : Dispatcher} (hevent : (r.class? d.event).isSome)
    {counts : RoleCounts} {p : Participants} :
    resolve r b aux d counts = .ok p ↔ Chosen r b aux d counts p := by
  simp only [resolve, bind_eq_ok, chooseClass_eq_ok, chooseMethod_eq_ok, chooseCounted_eq_ok hclosed, pure_eq_ok]
  constructor
  · rintro ⟨-, -, bound, hbound, observer, hobserver, -, -, -, -, attach, ⟨hattach, hattach'⟩, detach,
      ⟨hdetach, hdetach'⟩, handle, hhandle, update, hupdate, -, -, -, -, subject, hsubject, rfl⟩
    have hsubject := (actingSubject_eq_ok hclosed hbound.2).1 hsubject
    exact ⟨rfl, hobserver, hattach, hattach', hdetach, hdetach', hhandle, hupdate, bound, hbound, hsubject⟩
  · rintro ⟨hd, hobserver, hattach, hattach', hdetach, hdetach', hhandle, hupdate, bound, hbound, hsubject⟩
    obtain ⟨event, hevent⟩ := exists_className hevent
    obtain ⟨boundName, hboundName⟩ := exists_className hbound.2
    obtain ⟨observerName, hobserverName⟩ := exists_className hobserver.2
    obtain ⟨handleOwner, hhandleOwner⟩ := exists_ownerName hclosed hhandle.2
    obtain ⟨updateOwner, hupdateOwner⟩ := exists_ownerName hclosed hupdate.2
    refine ⟨event, hevent, bound, hbound, _, hobserver, boundName, hboundName, observerName, hobserverName,
      _, ⟨hattach, hattach'⟩, _, ⟨hdetach, hdetach'⟩, _, hhandle, _, hupdate, handleOwner, hhandleOwner,
      updateOwner, hupdateOwner, _, (actingSubject_eq_ok hclosed hbound.2).2 hsubject, ?_⟩
    rw [← hd]

/-- The subject is an interface exactly if the chosen class is one and so is the class that stands in for it. -/
theorem Chosen.isInterface_subject {d : Dispatcher} {counts : RoleCounts} {p : Participants}
    (h : Chosen r b aux d counts p) {bound : ClassId} (hbound : b.get? (Role.subject.hole aux) = some bound.index) :
    r.IsInterface p.subject ↔ r.IsInterface bound ∧
      ∃ k owner, (p.attach = some k ∨ p.detach = some k) ∧ r.Owns owner k ∧ r.IsInterface owner := by
  obtain ⟨⟨i⟩, ⟨hi, -⟩, hconcrete, hstand⟩ := h.subject
  obtain ⟨j⟩ := bound
  obtain rfl : i = j := Option.some.inj (hi.symm.trans hbound)
  by_cases hinterface : r.IsInterface ⟨i⟩
  · have hstand := hstand hinterface
    constructor
    · intro hsubject
      obtain ⟨k, hk⟩ := hstand.present
      exact ⟨hinterface, k, p.subject, hk, hstand.owns k hk, hsubject⟩
    · rintro ⟨-, k, owner, hk, howner, habstract⟩
      rwa [(hstand.owns k hk).unique howner]
  · rw [hconcrete hinterface]
    exact ⟨fun h => absurd h hinterface, fun h => h.1⟩

/-- The participants that are resolved belong to the registry and are those that the bindings choose. A chosen class
that is not an interface stays the subject; and where one is, nothing keeps its stand-in from being an interface: the
subject is one exactly if the attach or the detach method is declared by an interface too. -/
theorem resolve_subject (hclosed : r.Closed) {d : Dispatcher} (hevent : (r.class? d.event).isSome)
    {counts : RoleCounts} {p : Participants} (h : resolve r b aux d counts = .ok p) :
    p.InRange r ∧ Chosen r b aux d counts p ∧
      ∃ bound, BindsClass r b aux .subject bound ∧ (r.IsInterface p.subject ↔ r.IsInterface bound ∧
        ∃ k owner, (p.attach = some k ∨ p.detach = some k) ∧ r.Owns owner k ∧ r.IsInterface owner) := by
  have hchosen := (resolve_eq_ok hclosed hevent).1 h
  have hinside := resolve_inside hclosed b aux hevent counts
  rw [h] at hinside
  obtain ⟨bound, hbound, -⟩ := hchosen.subject
  exact ⟨hinside, hchosen, bound, hbound, hchosen.isInterface_subject hbound.1⟩

/-- An interface `Source` that declares the methods of its clients. -/
def sources : Registry where
  classes := [
    { ClassDecl.empty "Source" with isInterface := true, methods := [⟨0⟩, ⟨1⟩, ⟨2⟩] },
    { ClassDecl.empty "Client" with methods := [⟨3⟩] },
    ClassDecl.empty "Signal"]
  methods := [
    ⟨"listen", ⟨0⟩, [⟨"Client", "client"⟩], "void", false, []⟩,
    ⟨"ignore", ⟨0⟩, [⟨"Client", "client"⟩], "void", false, []⟩,
    ⟨"fire", ⟨0⟩, [⟨"Signal", "signal"⟩], "void", false, []⟩,
    ⟨"receive", ⟨1⟩, [⟨"Signal", "signal"⟩], "void", false, []⟩]

def sourceBindings : Bindings := Table.ofList [
  ("subject_AuxObserverSignal", 0), ("observer_AuxObserverSignal", 1), ("attach_AuxObserverSignal", 0),
  ("detach_AuxObserverSignal", 1), ("handle_AuxObserverSignal", 2), ("update_AuxObserverSignal", 3)]

/-- `Source` stands in for itself, and the subject stays an interface. -/
theorem resolve_subject_source : ∃ p,
    resolve sources sourceBindings "AuxObserverSignal" ⟨⟨2⟩, ⟨2⟩⟩ .default = .ok p ∧ p.InRange sources ∧
      p.subject = ⟨0⟩ ∧ sources.IsInterface p.subject := by
  have hok : resolve sources sourceBindings "AuxObserverSignal" ⟨⟨2⟩, ⟨2⟩⟩ .default =
      .ok ⟨⟨0⟩, ⟨1⟩, ⟨2⟩, some ⟨0⟩, some ⟨1⟩, ⟨2⟩, ⟨3⟩⟩ := by
    decide +kernel
  have hclosed : sources.Closed := Program.validate_eq_ok_iff.1 (by decide +kernel)
  have hsource : sourceBindings.get? (Role.subject.hole "AuxObserverSignal") = some 0 := by decide +kernel
  obtain ⟨hrange, -, ⟨i⟩, ⟨hbound, -⟩, hiff⟩ := resolve_subject hclosed (by decide) hok
  obtain rfl : i = 0 := Option.some.inj (hbound.symm.trans hsource)
  have hinterface : sources.IsInterface ⟨0⟩ := ⟨_, rfl, rfl⟩
  have howns : sources.Owns ⟨0⟩ ⟨0⟩ := ⟨_, rfl, rfl⟩
  exact ⟨_, hok, hrange, rfl, hiff.2 ⟨hinterface, ⟨0⟩, ⟨0⟩, .inl rfl, howns, hinterface⟩⟩

end Participants

end ObserverPattern
