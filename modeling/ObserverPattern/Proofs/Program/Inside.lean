import ObserverPattern.Participants
import ObserverPattern.Proofs.Program.InRange

/-!
# Look-ups inside the registry

A look-up of a class or a method that the registry does not have is a fault of its own, and no
computation catches a fault. So a computation that does not end in such a fault has looked nothing up
outside the registry (`Inside`).

* `Inside.bind`, `Inside.foldlM`: computations inside the registry can be put together;
* `Registry.Closed`: the indices stored in a registry point into it. The look-ups of a closed registry
  that follow these indices are inside, as are names, signatures and constructors;
* `Participants.resolve_inside`: the participants that a solver chose are inside.
-/

namespace ObserverPattern

/-- Whether a fault tells of a look-up outside the registry. -/
def DecodeFault.isMissing : DecodeFault → Bool
  | .noClass _ => true
  | .noMethod _ => true
  | _ => false

/-- A computation that looks nothing up outside the registry, and whose result has a property. -/
def Inside {α : Type} (P : α → Prop) (x : Except DecodeFault α) : Prop :=
  match x with
  | .ok a => P a
  | .error e => e.isMissing = false

namespace Inside

variable {α β : Type} {P : α → Prop} {Q : β → Prop}

theorem pure {a : α} (h : P a) : Inside P (Pure.pure a) := h

theorem bind {x : Except DecodeFault α} {f : α → Except DecodeFault β} (hx : Inside P x)
    (hf : ∀ a, P a → Inside Q (f a)) : Inside Q (x >>= f) := by
  cases x with
  | ok a => exact hf a hx
  | error e => exact hx

/-- The result has any property that follows for it. -/
theorem mono_eq {P' : α → Prop} {x : Except DecodeFault α} (hx : Inside P x) (h : ∀ a, x = .ok a → P a → P' a) :
    Inside P' x := by
  cases x with
  | ok a => exact h a rfl hx
  | error e => exact hx

theorem mono {P' : α → Prop} {x : Except DecodeFault α} (hx : Inside P x) (h : ∀ a, P a → P' a) : Inside P' x :=
  hx.mono_eq fun a _ ha => h a ha

theorem of_map {f : α → β} {x : Except DecodeFault α} (h : Inside Q (f <$> x)) : Inside (fun a => Q (f a)) x := by
  cases x with
  | ok a => exact h
  | error e => exact h

theorem foldlM {f : α → β → Except DecodeFault α} {xs : List β}
    (hstep : ∀ b ∈ xs, ∀ a, P a → Inside P (f a b)) {a : α} (ha : P a) : Inside P (xs.foldlM f a) := by
  induction xs generalizing a with
  | nil => exact ha
  | cons b xs ih =>
    rw [List.foldlM_cons]
    exact (hstep b (by simp) a ha).bind fun a' ha' => ih (fun b' hb' => hstep b' (by simp [hb'])) ha'

/-- Of some entries, those that a computation picks out. -/
theorem filterM {f : α → Except DecodeFault Bool} {xs : List α} (hf : ∀ a ∈ xs, Inside (fun _ => True) (f a)) :
    Inside (fun ys => ∀ y ∈ ys, y ∈ xs) (xs.filterM f) := by
  have hacc : ∀ (rest acc : List α), (∀ a ∈ rest, a ∈ xs) → (∀ a ∈ acc, a ∈ xs) →
      Inside (fun ys => ∀ y ∈ ys, y ∈ xs) (rest.filterAuxM f acc) := by
    intro rest
    induction rest with
    | nil => exact fun acc _ hacc => hacc
    | cons a rest ih =>
      intro acc hrest hacc
      have ha := hrest a (by simp)
      rw [List.filterAuxM]
      refine (hf a ha).bind fun b _ => ih _ (fun a' ha' => hrest a' (by simp [ha'])) ?_
      cases b with
      | true => simpa using ⟨ha, hacc⟩
      | false => exact hacc
  exact (hacc xs [] (fun _ ha => ha) (by simp)).bind fun ys hys => Inside.pure (by simpa using hys)

end Inside

namespace Registry

/-- The indices stored in the classes and methods of a registry point into it. -/
def Closed (r : Registry) : Prop := Program.InRange ⟨⟨[], []⟩, r⟩

theorem Closed.of_skeleton_eq {r r' : Registry} (h : r.Closed) (hr : r'.skeleton = r.skeleton) : r'.Closed :=
  Program.InRange.of_skeleton_eq h hr (List.Subset.refl _)

variable {r : Registry}

theorem mem_of_class? {id : ClassId} {c : ClassDecl} (h : r.class? id = some c) : c ∈ r.classes :=
  List.mem_of_getElem? h

theorem mem_of_method? {id : MethodId} {m : MethodDecl} (h : r.method? id = some m) : m ∈ r.methods :=
  List.mem_of_getElem? h

theorem getClass_inside {id : ClassId} (h : (r.class? id).isSome) :
    Inside (fun c => r.class? id = some c) (r.getClass id) := by
  obtain ⟨c, hc⟩ := Option.isSome_iff_exists.1 h
  rw [getClass_eq_ok.2 hc]
  exact hc

theorem getMethod_inside {id : MethodId} (h : (r.method? id).isSome) :
    Inside (fun m => r.method? id = some m) (r.getMethod id) := by
  obtain ⟨m, hm⟩ := Option.isSome_iff_exists.1 h
  rw [getMethod_eq_ok.2 hm]
  exact hm

theorem className_inside {id : ClassId} (h : (r.class? id).isSome) : Inside (fun _ => True) (r.className id) :=
  (getClass_inside h).bind fun _ _ => trivial

theorem methodName_inside {id : MethodId} (h : (r.method? id).isSome) : Inside (fun _ => True) (r.methodName id) :=
  (getMethod_inside h).bind fun _ _ => trivial

theorem updateClass_inside {id : ClassId} (h : (r.class? id).isSome) {f : ClassDecl → ClassDecl}
    (hf : ∀ c, (f c).skeleton = c.skeleton) : Inside (fun r' => r'.skeleton = r.skeleton) (r.updateClass id f) :=
  (getClass_inside h).bind fun _ _ => skeleton_modifyClass hf r id

theorem updateMethod_inside {id : MethodId} (h : (r.method? id).isSome) {f : MethodDecl → MethodDecl}
    (hf : ∀ m, (f m).header = m.header) : Inside (fun r' => r'.skeleton = r.skeleton) (r.updateMethod id f) :=
  (getMethod_inside h).bind fun _ _ => skeleton_modifyMethod hf r id

theorem putBody_inside {id : MethodId} (h : (r.method? id).isSome) (body : Block) :
    Inside (fun r' => r'.skeleton = r.skeleton) (r.putBody id body) :=
  updateMethod_inside h fun _ => rfl

namespace Closed

variable (h : r.Closed)

include h

theorem owner {id : MethodId} {m : MethodDecl} (hm : r.method? id = some m) : (r.class? m.owner).isSome :=
  h.owners m (mem_of_method? hm)

theorem signature {id : MethodId} (hid : (r.method? id).isSome) : Inside (fun _ => True) (r.signature id) :=
  (getMethod_inside hid).bind fun _ hm => (className_inside (h.owner hm)).bind fun _ _ => trivial

theorem initializers {id : ClassId} (hid : (r.class? id).isSome) :
    Inside (fun ids => ∀ k ∈ ids, (r.method? k).isSome) (r.initializers id) := by
  refine (getClass_inside hid).bind fun c hc => ?_
  have hmethods := h.methods c (mem_of_class? hc)
  refine (Inside.filterM fun k hk => ?_).mono fun ids hids k hk => hmethods k (hids k hk)
  exact (getMethod_inside (hmethods k hk)).bind fun _ _ => trivial

end Closed

end Registry

theorem Program.InRange.closed {p : Program} (h : p.InRange) : p.registry.Closed :=
  ⟨by simp, h.methods, h.dispatchers, h.owners⟩

/-! ## Participants -/

namespace Participants

variable {r : Registry}

/-- The participants are classes and methods of the registry. -/
structure InRange (r : Registry) (p : Participants) : Prop where
  subject : (r.class? p.subject).isSome
  observer : (r.class? p.observer).isSome
  event : (r.class? p.event).isSome
  attach : ∀ id ∈ p.attach, (r.method? id).isSome
  detach : ∀ id ∈ p.detach, (r.method? id).isSome
  handle : (r.method? p.handle).isSome
  update : (r.method? p.update).isSome

theorem InRange.of_skeleton_eq {r' : Registry} {p : Participants} (h : p.InRange r) (hr : r'.skeleton = r.skeleton) :
    p.InRange r' := by
  have hclass := Registry.class?_isSome_congr hr
  have hmethod := Registry.method?_isSome_congr hr
  constructor <;> simp only [hclass, hmethod]
  · exact h.subject
  · exact h.observer
  · exact h.event
  · exact h.attach
  · exact h.detach
  · exact h.handle
  · exact h.update

theorem classOf_inside (r : Registry) (aux hole : String) (index : Nat) :
    Inside (fun id => (r.class? id).isSome) (classOf r aux hole index) := by
  unfold classOf Registry.chosenClass?
  by_cases hindex : index < r.classes.length
  · rw [if_pos hindex]
    simpa [Inside, Registry.class?] using hindex
  · rw [if_neg hindex]
    rfl

private theorem chooseClass_inside (r : Registry) (b : Bindings) (aux : String) (role : Role) :
    Inside (fun id => (r.class? id).isSome) (chooseClass r b aux role) := by
  unfold chooseClass boundIndex
  cases b.get? (role.hole aux) with
  | none => rfl
  | some index => exact classOf_inside r aux _ index

theorem chooseMethod_inside (r : Registry) (b : Bindings) (aux : String) (role : Role) :
    Inside (fun id => (r.method? id).isSome) (chooseMethod r b aux role) := by
  unfold chooseMethod boundIndex
  cases b.get? (role.hole aux) with
  | none => rfl
  | some index =>
    show Inside _ (methodOf r aux _ index)
    unfold methodOf Registry.chosenMethod?
    by_cases hindex : index < r.methods.length
    · rw [if_pos hindex]
      simpa [Inside, Registry.method?] using hindex
    · rw [if_neg hindex]
      rfl

private theorem ownerOf_inside (h : r.Closed) {id : MethodId} (hid : (r.method? id).isSome) :
    Inside (fun id => (r.class? id).isSome) (ownerOf r id) :=
  (Registry.getMethod_inside hid).bind fun _ hm => h.owner hm

private theorem ownerName_inside (h : r.Closed) {id : MethodId} (hid : (r.method? id).isSome) :
    Inside (fun _ => True) (ownerName r id) :=
  (ownerOf_inside h hid).bind fun _ howner => Registry.className_inside howner

private theorem chooseCounted_inside (h : r.Closed) (b : Bindings) (aux : String) (role : Role) (count : Nat) :
    Inside (fun o => ∀ id ∈ o, (r.method? id).isSome) (chooseCounted r b aux role count) := by
  unfold chooseCounted
  split
  · simp [Inside]
  · refine (chooseMethod_inside r b aux role).bind fun id hid => ?_
    refine (ownerName_inside h hid).bind fun _ _ => Inside.pure ?_
    simpa using hid

private theorem commonOwner_inside (h : r.Closed) (aux : String) (c : ClassDecl) {attach detach : Option MethodId}
    (hattach : ∀ id ∈ attach, (r.method? id).isSome) (hdetach : ∀ id ∈ detach, (r.method? id).isSome) :
    Inside (fun id => (r.class? id).isSome) (commonOwner r aux c attach detach) := by
  unfold commonOwner
  cases attach with
  | none =>
    cases detach with
    | none => rfl
    | some detach => exact ownerOf_inside h (hdetach detach rfl)
  | some attach =>
    cases detach with
    | none => exact ownerOf_inside h (hattach attach rfl)
    | some detach =>
      refine (ownerOf_inside h (hattach attach rfl)).bind fun a ha => ?_
      refine (ownerOf_inside h (hdetach detach rfl)).bind fun d hd => ?_
      split
      · exact ha
      · exact (Registry.className_inside ha).bind fun _ _ => (Registry.className_inside hd).bind fun _ _ => rfl

private theorem actingSubject_inside (h : r.Closed) (aux : String) {bound : ClassId} {attach detach : Option MethodId}
    (hbound : (r.class? bound).isSome) (hattach : ∀ id ∈ attach, (r.method? id).isSome)
    (hdetach : ∀ id ∈ detach, (r.method? id).isSome) :
    Inside (fun id => (r.class? id).isSome) (actingSubject r aux bound attach detach) := by
  refine (Registry.getClass_inside hbound).bind fun c _ => ?_
  split
  · refine (commonOwner_inside h aux c hattach hdetach).bind fun concrete hconcrete => ?_
    exact (Registry.className_inside hconcrete).bind fun _ _ => hconcrete
  · exact hbound

/-- The participants that the bindings choose are looked up inside the registry and belong to it. -/
theorem resolve_inside (h : r.Closed) (b : Bindings) (aux : String) {d : Dispatcher}
    (hevent : (r.class? d.event).isSome) (counts : RoleCounts) : Inside (InRange r) (resolve r b aux d counts) := by
  refine (Registry.className_inside hevent).bind fun _ _ => ?_
  refine (chooseClass_inside r b aux .subject).bind fun bound hbound => ?_
  refine (chooseClass_inside r b aux .observer).bind fun observer hobserver => ?_
  refine (Registry.className_inside hbound).bind fun _ _ => ?_
  refine (Registry.className_inside hobserver).bind fun _ _ => ?_
  refine (chooseCounted_inside h b aux .attach counts.attach).bind fun attach hattach => ?_
  refine (chooseCounted_inside h b aux .detach counts.detach).bind fun detach hdetach => ?_
  refine (chooseMethod_inside r b aux .handle).bind fun handle hhandle => ?_
  refine (chooseMethod_inside r b aux .update).bind fun update hupdate => ?_
  refine (ownerName_inside h hhandle).bind fun _ _ => ?_
  refine (ownerName_inside h hupdate).bind fun _ _ => ?_
  refine (actingSubject_inside h aux hbound hattach hdetach).bind fun subject hsubject => ?_
  exact ⟨hsubject, hobserver, hevent, hattach, hdetach, hhandle, hupdate⟩

end Participants

end ObserverPattern
