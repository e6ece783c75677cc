import ObserverPattern.Decoder.Decode
import ObserverPattern.Proofs.Participants
import ObserverPattern.Proofs.Walk.Visit

/-!
# What the structural phase writes

Giving the participants of a dispatcher their code keeps the skeleton of the registry. It writes the
bodies of the attach, detach and handle method and of the constructors of the subject
(`Participants.Writes`), the fields of the subject and its collection.

* `Participants.Keeps` says what stays: everything else, and in the bodies of constructors all that
  does not create a collection;
* `Collection.install_bodies`: what adding a collection makes of each body (`Collection.started`);
* `transplant_eq_ok`: what is kept, which collection the subject knows afterwards, and which body the
  handle method gets.
-/

namespace ObserverPattern

/-- A method is a constructor. -/
def Registry.IsConstructor (r : Registry) (id : MethodId) : Prop := ∃ m, r.method? id = some m ∧ m.isInit = true

/-- A method whose body is written when a dispatcher with the given participants is decoded. -/
def Participants.Writes (r : Registry) (p : Participants) (id : MethodId) : Prop :=
  p.attach = some id ∨ p.detach = some id ∨ p.handle = id ∨ id ∈ r.methodsOf p.subject ∧ r.IsConstructor id

instance (r : Registry) (id : MethodId) : Decidable (r.IsConstructor id) :=
  decidable_of_iff ((r.method? id).any (·.isInit) = true) (by simp [Registry.IsConstructor, Option.any_eq_true])

instance (r : Registry) (p : Participants) (id : MethodId) : Decidable (p.Writes r id) :=
  inferInstanceAs (Decidable (_ ∨ _ ∨ _ ∨ _ ∧ _))

theorem Registry.isConstructor_congr {r r' : Registry} (h : r'.skeleton = r.skeleton) (id : MethodId) :
    r'.IsConstructor id ↔ r.IsConstructor id := by
  have hinit : (r'.method? id).map (·.isInit) = (r.method? id).map (·.isInit) := by
    refine congr_skeleton (fun r => (r.method? id).map (·.isInit)) ?_ h
    intro r
    simp only [method?_skeleton, Option.map_map]
    rfl
  unfold IsConstructor
  rw [← Option.map_eq_some_iff, ← Option.map_eq_some_iff, hinit]

theorem Participants.writes_congr {r r' : Registry} (h : r'.skeleton = r.skeleton) (p : Participants)
    (id : MethodId) : p.Writes r' id ↔ p.Writes r id := by
  unfold Writes
  rw [Registry.methodsOf_congr h, Registry.isConstructor_congr h]

/-- A statement that creates a collection in a field of the object. -/
def Stmt.isInitialisation : Stmt → Bool
  | .assign none (.field (.id "this") _) (.new _ []) => true
  | _ => false

/-- A body without the statements that create collections. -/
def Stmt.withoutInitialisations (b : Block) : Block := b.filter fun s => !s.isInitialisation

/-- What giving the participants of a dispatcher their code keeps of a registry. -/
structure Participants.Keeps (p : Participants) (r r' : Registry) : Prop where
  skeleton : r'.skeleton = r.skeleton
  methods : ∀ k, ¬ p.Writes r k → r'.method? k = r.method? k
  classes : ∀ k, k ≠ p.subject → r'.class? k = r.class? k
  bodies : ∀ k m, p.attach ≠ some k → p.detach ≠ some k → p.handle ≠ k → r.method? k = some m →
    ∃ b, r'.method? k = some { m with body := b } ∧
      Stmt.withoutInitialisations b = Stmt.withoutInitialisations m.body

namespace Participants.Keeps

variable {p : Participants} {r r₁ r₂ : Registry}

theorem refl (p : Participants) (r : Registry) : p.Keeps r r where
  skeleton := rfl
  methods _ _ := rfl
  classes _ _ := rfl
  bodies _ m _ _ _ hm := ⟨m.body, hm, rfl⟩

theorem trans (h₁ : p.Keeps r r₁) (h₂ : p.Keeps r₁ r₂) : p.Keeps r r₂ where
  skeleton := h₂.skeleton.trans h₁.skeleton
  methods k hk := by
    have hk₁ : ¬ p.Writes r₁ k := fun h => hk ((p.writes_congr h₁.skeleton k).1 h)
    rw [h₂.methods k hk₁, h₁.methods k hk]
  classes k hk := by
    rw [h₂.classes k hk, h₁.classes k hk]
  bodies k m hattach hdetach hhandle hm := by
    obtain ⟨b₁, hb₁, hrest₁⟩ := h₁.bodies k m hattach hdetach hhandle hm
    obtain ⟨b₂, hb₂, hrest₂⟩ := h₂.bodies k _ hattach hdetach hhandle hb₁
    exact ⟨b₂, hb₂, hrest₂.trans hrest₁⟩

/-- The body of a participant may change. -/
theorem setBody {id : MethodId} (hid : p.attach = some id ∨ p.detach = some id ∨ p.handle = id) (r : Registry)
    (b : Block) : p.Keeps r (r.setBody id b) where
  skeleton := r.skeleton_setBody id b
  methods k hk := by
    have hne : k ≠ id := by
      rintro rfl
      rcases hid with h | h | h
      · exact hk (.inl h)
      · exact hk (.inr (.inl h))
      · exact hk (.inr (.inr (.inl h)))
    rw [Registry.method?_setBody_of_ne hne]
  classes _ _ := rfl
  bodies k m hattach hdetach hhandle hm := by
    have hne : k ≠ id := by
      rintro rfl
      rcases hid with h | h | h
      · exact hattach h
      · exact hdetach h
      · exact hhandle h
    refine ⟨m.body, ?_, rfl⟩
    rw [Registry.method?_setBody_of_ne hne, hm]

end Participants.Keeps

/-! ## Constructors -/

/-- The constructors that a class lists, each as often as it is listed. -/
def Registry.constructorsOf (r : Registry) (id : ClassId) : List MethodId :=
  (r.methodsOf id).filter fun k => decide (r.IsConstructor k)

theorem Registry.mem_constructorsOf {r : Registry} {id : ClassId} {k : MethodId} :
    k ∈ r.constructorsOf id ↔ k ∈ r.methodsOf id ∧ r.IsConstructor k := by
  rw [constructorsOf, List.mem_filter, decide_eq_true_eq]

theorem Registry.constructorsOf_congr {r r' : Registry} (h : r'.skeleton = r.skeleton) (id : ClassId) :
    r'.constructorsOf id = r.constructorsOf id := by
  unfold constructorsOf
  rw [methodsOf_congr h]
  exact List.filter_congr fun k _ => decide_eq_decide.2 (isConstructor_congr h k)

/-- What a computation picks out of a list, if it always decides as a condition does. -/
private theorem filterAuxM_eq {α : Type} {f : α → Except DecodeFault Bool} {P : α → Bool}
    (hP : ∀ x b, f x = .ok b → P x = b) {xs acc ys : List α} (h : xs.filterAuxM f acc = .ok ys) :
    ys = (xs.filter P).reverse ++ acc := by
  induction xs generalizing acc with
  | nil =>
    rw [List.filterAuxM, pure_eq_ok] at h
    simp [h]
  | cons x xs ih =>
    rw [List.filterAuxM, bind_eq_ok] at h
    obtain ⟨b, hb, h⟩ := h
    rw [ih h, List.filter_cons, hP x b hb]
    cases b <;> simp

theorem Registry.initializers_eq {r : Registry} {id : ClassId} {ctors : List MethodId}
    (h : r.initializers id = .ok ctors) : ctors = r.constructorsOf id := by
  simp only [initializers, List.filterM, bind_eq_ok, pure_eq_ok, getClass_eq_ok] at h
  obtain ⟨c, hc, ys, hys, rfl⟩ := h
  have hdecides : ∀ k b, (do let m ← r.getMethod k; return m.isInit) = Except.ok b →
      decide (r.IsConstructor k) = b := by
    intro k b hb
    simp only [bind_eq_ok, pure_eq_ok, getMethod_eq_ok] at hb
    obtain ⟨m, hm, rfl⟩ := hb
    cases hinit : m.isInit <;> simp [IsConstructor, hm, hinit]
  rw [filterAuxM_eq hdecides hys, List.append_nil, List.reverse_reverse, constructorsOf, methodsOf_eq hc]

/-! ## The collection of the subject -/

namespace Collection

theorem withoutInitialisations_atStart {s : Stmt} (hs : s.isInitialisation = true) (b : Block) :
    Stmt.withoutInitialisations (atStart s b) = Stmt.withoutInitialisations b := by
  unfold Stmt.withoutInitialisations
  cases b with
  | nil => simp [atStart, hs]
  | cons first rest => by_cases h : isConstructorCall first <;> simp [atStart, h, hs, List.filter_cons]

/-- Puts statements at the start of a body one after another. -/
def allAtStart (ss : List Stmt) (b : Block) : Block := ss.foldl (fun b s => atStart s b) b

theorem allAtStart_append (ss ss' : List Stmt) (b : Block) :
    allAtStart (ss ++ ss') b = allAtStart ss' (allAtStart ss b) :=
  List.foldl_append

theorem withoutInitialisations_allAtStart {ss : List Stmt} (hss : ∀ s ∈ ss, s.isInitialisation = true) (b : Block) :
    Stmt.withoutInitialisations (allAtStart ss b) = Stmt.withoutInitialisations b := by
  induction ss generalizing b with
  | nil => rfl
  | cons s ss ih =>
    obtain ⟨hs, hss⟩ := List.forall_mem_cons.1 hss
    exact (ih hss (atStart s b)).trans (withoutInitialisations_atStart hs b)

/-- Putting a statement at the start of constructors leaves everything but their bodies. -/
private theorem initialiseAll_keep {s : Stmt} {ctors : List MethodId} {r r' : Registry}
    (h : ctors.foldlM (initialise s) r = .ok r') :
    r'.skeleton = r.skeleton ∧ r'.classes = r.classes ∧ ∀ k, r'.method? k = (r.method? k).map fun m =>
      { m with body := allAtStart (List.replicate (ctors.count k) s) m.body } := by
  induction ctors generalizing r with
  | nil =>
    rw [List.foldlM_nil, pure_eq_ok] at h
    exact h ▸ ⟨rfl, rfl, fun _ => (congrFun Option.map_id _).symm⟩
  | cons id ctors ih =>
    simp only [List.foldlM_cons, bind_eq_ok, initialise, Registry.updateMethod_eq_ok] at h
    obtain ⟨r₁, ⟨-, rfl⟩, h⟩ := h
    obtain ⟨hskeleton, hclasses, hbody⟩ := ih h
    refine ⟨hskeleton.trans (Registry.skeleton_modifyMethod (by intro _; rfl) r id), hclasses, fun k => ?_⟩
    rw [hbody, Registry.method?_modifyMethod]
    by_cases hk : k = id
    · subst hk
      rw [if_pos rfl, List.count_cons_self, List.replicate_succ, Option.map_map]
      rfl
    · rw [if_neg hk, List.count_cons_of_ne (Ne.symm hk)]

/-- What the body of a method becomes when a subject gets the collection for an observer: its creation is put at the
start, once for each time that the subject lists the method as a constructor. -/
def started (c : Conventions) (r : Registry) (subject : ClassId) (observer : String) (k : MethodId) (b : Block) :
    Block :=
  allAtStart (List.replicate ((r.constructorsOf subject).count k) (creation c observer)) b

theorem withoutInitialisations_started (c : Conventions) (r : Registry) (subject : ClassId) (observer : String)
    (k : MethodId) (b : Block) :
    Stmt.withoutInitialisations (started c r subject observer k b) = Stmt.withoutInitialisations b := by
  refine withoutInitialisations_allAtStart (fun s hs => ?_) b
  rw [List.eq_of_mem_replicate hs]
  rfl

/-- Adding a collection to a subject changes no body but by its creation. -/
theorem install_bodies {c : Conventions} {r r' : Registry} {subject observer : ClassId} {name : String}
    (h : install c r subject observer = .ok (r', name)) : ∃ o, r.className observer = .ok o ∧
      ∀ k, r'.method? k = (r.method? k).map fun m => { m with body := started c r subject o k m.body } := by
  simp only [install, bind_eq_ok, pure_eq_ok, Prod.mk.injEq, Registry.updateClass_eq_ok] at h
  obtain ⟨o, ho, ctors, hctors, r₁, hr₁, _, ⟨-, rfl⟩, rfl, -⟩ := h
  obtain rfl := Registry.initializers_eq hctors
  obtain ⟨-, -, hbodies⟩ := initialiseAll_keep hr₁
  exact ⟨o, ho, hbodies⟩

/-- Adding a collection to a subject gives its class one field more, and no other class. -/
theorem install_fields {c : Conventions} {r r' : Registry} {subject observer : ClassId} {name : String}
    (h : install c r subject observer = .ok (r', name)) : ∃ o init, r.className observer = .ok o ∧
      ∀ id k, r.class? id = some k → ∃ k', r'.class? id = some k' ∧
        k'.fields = k.fields ++ if subject = id then [⟨c.collectionTypeFor o, c.collectionFor o, init⟩] else [] := by
  simp only [install, bind_eq_ok, pure_eq_ok, Prod.mk.injEq, Registry.updateClass_eq_ok] at h
  obtain ⟨o, ho, ctors, -, r₁, hr₁, _, ⟨-, rfl⟩, rfl, -⟩ := h
  obtain ⟨-, hclasses, -⟩ := initialiseAll_keep hr₁
  refine ⟨o, if ctors.isEmpty then some (.new (c.collectionTypeFor o) []) else none, ho, fun id k hk => ?_⟩
  have hk₁ : r₁.class? id = some k := by rw [Registry.class?, hclasses, ← hk, Registry.class?]
  rw [Registry.class?_modifyClass, hk₁]
  by_cases hid : id = subject
  · rw [if_pos hid, if_pos hid.symm]
    exact ⟨_, rfl, rfl⟩
  · rw [if_neg hid, if_neg (Ne.symm hid), List.append_nil]
    exact ⟨k, rfl, rfl⟩

/-- Adding a collection to a subject: what it keeps, and the collection that the subject knows then. -/
theorem install_keeps {c : Conventions} {r r' : Registry} {p : Participants} {name : String}
    (h : install c r p.subject p.observer = .ok (r', name)) :
    p.Keeps r r' ∧ (∃ observer, r.className p.observer = .ok observer ∧ name = c.collectionFor observer) ∧
      ∀ cls, r'.class? p.subject = some cls → cls.collection = some name := by
  obtain ⟨o, -, hbodies⟩ := install_bodies h
  simp only [install, bind_eq_ok, pure_eq_ok, Prod.mk.injEq, Registry.updateClass_eq_ok] at h
  obtain ⟨observer, hobserver, ctors, -, r₁, hr₁, r₂, ⟨-, rfl⟩, rfl, rfl⟩ := h
  -- First the constructors, which keep every class; then the class of the subject, which keeps every method.
  obtain ⟨hskeleton, hclasses, -⟩ := initialiseAll_keep hr₁
  have hclass : ∀ k, r₁.class? k = r.class? k := fun k => by rw [Registry.class?, hclasses, Registry.class?]
  refine ⟨⟨?_, ?_, ?_, ?_⟩, ⟨observer, hobserver, rfl⟩, ?_⟩
  · exact (Registry.skeleton_modifyClass (by intro _; rfl) r₁ p.subject).trans hskeleton
  · intro k hk
    have hcount : (r.constructorsOf p.subject).count k = 0 :=
      List.count_eq_zero.2 fun hmem => hk (.inr (.inr (.inr (Registry.mem_constructorsOf.1 hmem))))
    simp only [hbodies, started, hcount, List.replicate_zero]
    exact congrFun Option.map_id _
  · intro k hk
    rw [Registry.class?_modifyClass, if_neg hk, hclass]
  · intro k m _ _ _ hm
    refine ⟨_, ?_, withoutInitialisations_started c r p.subject o k m.body⟩
    rw [hbodies, hm, Option.map_some]
  · intro cls hcls
    rw [Registry.class?_modifyClass, if_pos rfl, Option.map_eq_some_iff] at hcls
    obtain ⟨_, -, rfl⟩ := hcls
    rfl

theorem parameterOfType_eq_ok {r : Registry} {id : MethodId} {ty parameter : String} :
    parameterOfType r id ty = .ok parameter ↔
      ∃ m, r.method? id = some m ∧ (Param.namesOfTypes [ty] m.params).head? = some parameter := by
  simp only [parameterOfType, bind_eq_ok, Registry.getMethod_eq_ok]
  refine exists_congr fun m => and_congr_right fun _ => ?_
  cases Param.namesOfTypes [ty] m.params with
  | nil => simp [bind_eq_ok, throw_ne_ok]
  | cons name rest => simp [pure_eq_ok]

/-- The operation works on the first parameter of the observer's type. -/
theorem defineOperation_eq_ok {op : Operation} {r r' : Registry} {id : MethodId} {collection : String}
    {observer : ClassId} (h : defineOperation op r id collection observer = .ok r') :
    ∃ name parameter, r.className observer = .ok name ∧ parameterOfType r id name = .ok parameter ∧
      r' = r.setBody id (operationBody op collection parameter) := by
  simp only [defineOperation, bind_eq_ok, Registry.putBody_eq_ok] at h
  obtain ⟨name, hname, parameter, hparameter, -, rfl⟩ := h
  exact ⟨name, parameter, hname, hparameter, rfl⟩

/-- Gives the method for an operation its body, if there is such a method. -/
def defineOptional (op : Operation) (r : Registry) (id : Option MethodId) (collection : String)
    (observer : ClassId) : Except DecodeFault Registry :=
  match id with
  | some id => defineOperation op r id collection observer
  | none => .ok r

theorem defineOptional_keeps {p : Participants} {op : Operation} {r r' : Registry} {id : Option MethodId}
    (hid : p.attach = id ∨ p.detach = id) {collection : String} {observer : ClassId}
    (h : defineOptional op r id collection observer = .ok r') :
    p.Keeps r r' ∧ ∀ k, r'.class? k = r.class? k := by
  cases id with
  | none =>
    obtain rfl := Except.ok.inj h
    exact ⟨.refl p r, fun _ => rfl⟩
  | some id =>
    obtain ⟨_, _, -, -, rfl⟩ := defineOperation_eq_ok h
    refine ⟨.setBody ?_ r _, fun _ => rfl⟩
    rcases hid with hid | hid
    · exact .inl hid
    · exact .inr (.inl hid)

theorem parameterOfType_skeleton (id : MethodId) (ty : String) (r : Registry) :
    parameterOfType r.skeleton id ty = parameterOfType r id ty := by
  unfold parameterOfType
  rw [Registry.getMethod_skeleton]
  cases r.getMethod id with
  | error e => rfl
  | ok m => simp only [Except.map, ok_bind, Registry.signature_skeleton, MethodDecl.header]

end Collection

/-! ## The handle method -/

namespace HandleBody

theorem omittedArgument_skeleton (update : MethodId) (subject : ClassId) (r : Registry) :
    omittedArgument r.skeleton update subject = omittedArgument r update subject := by
  unfold omittedArgument
  rw [Registry.getMethod_skeleton]
  cases r.getMethod update with
  | error e => rfl
  | ok m =>
    simp only [Except.map, ok_bind, Registry.signature_skeleton, Registry.className_skeleton, MethodDecl.header]

/-- The names for a handle body depend on the skeleton only. -/
theorem names_skeleton (c : Conventions) (aux : String) (p : Participants) (r : Registry) :
    names c r.skeleton aux p = names c r aux p := by
  simp only [names, Registry.className_skeleton, Collection.parameterOfType_skeleton, Registry.methodName_skeleton,
    omittedArgument_skeleton, Registry.signature_skeleton]

theorem transplant_eq_ok {c : Conventions} {r r' : Registry} {aux : String} {p : Participants}
    {generic : MethodId} (h : transplant c r aux p generic = .ok r') :
    ∃ n g body, names c r aux p = .ok n ∧ r.method? generic = some g ∧ n.concreteBlock g.body = .ok body ∧
      (r.method? p.handle).isSome ∧ r' = r.setBody p.handle body := by
  simp only [transplant, bind_eq_ok, Registry.getMethod_eq_ok, Registry.putBody_eq_ok] at h
  obtain ⟨n, hn, g, hg, body, hbody, hsome, rfl⟩ := h
  exact ⟨n, g, body, hn, hg, hbody, hsome, rfl⟩

end HandleBody

namespace Decoder

variable {c : Conventions} {r r' : Registry} {aux : String} {p : Participants} {generic : MethodId}

theorem transplant_eq (c : Conventions) (r : Registry) (aux : String) (p : Participants)
    (generic : MethodId) :
    transplant c r aux p generic = (do
      let (r, collection) ← Collection.install c r p.subject p.observer
      let r ← Collection.defineOptional .add r p.attach collection p.observer
      let r ← Collection.defineOptional .remove r p.detach collection p.observer
      HandleBody.transplant c r aux p generic) := by
  unfold transplant
  cases p.attach <;> cases p.detach <;> rfl

/-- Giving the participants their code adds the collection to the fields of the subject, and no field else. -/
theorem transplant_fields (h : transplant c r aux p generic = .ok r') : ∃ o init, r.className p.observer = .ok o ∧
    ∀ id k, r.class? id = some k → ∃ k', r'.class? id = some k' ∧
      k'.fields = k.fields ++ if p.subject = id then [⟨c.collectionTypeFor o, c.collectionFor o, init⟩] else [] := by
  simp only [transplant_eq, bind_eq_ok] at h
  obtain ⟨⟨r₁, name⟩, h₁, r₂, h₂, r₃, h₃, h₄⟩ := h
  obtain ⟨o, init, ho, hfields⟩ := Collection.install_fields h₁
  obtain ⟨-, hclass₂⟩ := Collection.defineOptional_keeps (.inl rfl) h₂
  obtain ⟨-, hclass₃⟩ := Collection.defineOptional_keeps (.inr rfl) h₃
  obtain ⟨_, _, _, -, -, -, -, rfl⟩ := HandleBody.transplant_eq_ok h₄
  refine ⟨o, init, ho, fun id k hk => ?_⟩
  obtain ⟨k', hk', hk'fields⟩ := hfields id k hk
  refine ⟨k', ?_, hk'fields⟩
  rw [← hk', ← hclass₂, ← hclass₃]
  rfl

/-- Giving the participants their code keeps all that they do not write. The subject knows the
collection for the observer then, and the handle method has the generic body with the concrete names. -/
theorem transplant_eq_ok (h : transplant c r aux p generic = .ok r') :
    p.Keeps r r' ∧
      (∃ observer, r.className p.observer = .ok observer ∧
        ∀ cls, r'.class? p.subject = some cls → cls.collection = some (c.collectionFor observer)) ∧
      ∃ n r₁ g body, HandleBody.names c r aux p = .ok n ∧ p.Keeps r r₁ ∧ r₁.method? generic = some g ∧
        n.concreteBlock g.body = .ok body ∧ r' = r₁.setBody p.handle body := by
  simp only [transplant_eq, bind_eq_ok] at h
  obtain ⟨⟨r₁, name⟩, h₁, r₂, h₂, r₃, h₃, h₄⟩ := h
  obtain ⟨hkeeps₁, ⟨observer, hobserver, rfl⟩, hcollection⟩ := Collection.install_keeps h₁
  obtain ⟨hkeeps₂, hclass₂⟩ := Collection.defineOptional_keeps (.inl rfl) h₂
  obtain ⟨hkeeps₃, hclass₃⟩ := Collection.defineOptional_keeps (.inr rfl) h₃
  obtain ⟨n, g, body, hn, hg, hbody, -, rfl⟩ := HandleBody.transplant_eq_ok h₄
  have hkeeps := (hkeeps₁.trans hkeeps₂).trans hkeeps₃
  refine ⟨hkeeps.trans (.setBody (.inr (.inr rfl)) r₃ body), ⟨observer, hobserver, ?_⟩,
    n, r₃, g, body, ?_, hkeeps, hg, hbody, rfl⟩
  · intro cls hcls
    refine hcollection cls ?_
    rw [← hclass₂, ← hclass₃]
    exact hcls
  · rw [← hn]
    exact (Registry.congr_skeleton (fun r => HandleBody.names c r aux p) (HandleBody.names_skeleton c aux p)
      hkeeps.skeleton).symm

end Decoder

end ObserverPattern
