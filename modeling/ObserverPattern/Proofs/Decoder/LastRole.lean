import ObserverPattern.Proofs.Decoder.Skeleton

/-!
# The code of the roles

The roles of a dispatcher are chosen one by one, and no check keeps them apart: one method may play
several roles of a dispatcher, or roles of several dispatchers. Each role writes its code over what
is there, so a method ends the structural phase with the code of the last role that it plays.

* `RoleCode`: the code of the last role of one dispatcher. An attach or a detach method works on the
  collection for the observer, the handle method has the generic body with the concrete names;
* `transplant_roleCode` is the step, `decodeDispatchers_roleCode` the run, and `decode_lastRole` says it
  for the first phase of a decode.

Later dispatchers leave the code as it is, except that the constructors of their subjects create the collections.
Which statements that are is said by `Creations`, and where they stand by `Collection.allAtStart`; with these the
body of the method is given exactly (`LeftBy`).
-/

namespace ObserverPattern

namespace Participants

/-- A method with a role that has code of its own. -/
def Plays (p : Participants) (k : MethodId) : Prop := p.attach = some k ∨ p.detach = some k ∨ p.handle = k

instance (p : Participants) (k : MethodId) : Decidable (p.Plays k) := inferInstanceAs (Decidable (_ ∨ _ ∨ _))

end Participants

namespace Decoder

/-- The code of the last role that a method plays for a dispatcher: the handle comes last, then detach, then
attach. `taken` is the generic body that the handle method gets. -/
inductive RoleCode (c : Conventions) (r : Registry) (aux : String) (p : Participants) (taken : Block) :
    MethodId → Block → Prop
  | attach {k : MethodId} {m : MethodDecl} {observer o : String} (role : p.attach = some k)
      (detach : p.detach ≠ some k) (handle : p.handle ≠ k) (observer_eq : r.className p.observer = .ok observer)
      (method : r.method? k = some m) (parameter : (Param.namesOfTypes [observer] m.params).head? = some o) :
      RoleCode c r aux p taken k (Collection.operationBody .add (c.collectionFor observer) o)
  | detach {k : MethodId} {m : MethodDecl} {observer o : String} (role : p.detach = some k)
      (handle : p.handle ≠ k) (observer_eq : r.className p.observer = .ok observer)
      (method : r.method? k = some m) (parameter : (Param.namesOfTypes [observer] m.params).head? = some o) :
      RoleCode c r aux p taken k (Collection.operationBody .remove (c.collectionFor observer) o)
  | handle {n : HandleBody.Names} {code : Block} (names : HandleBody.names c r aux p = .ok n)
      (concrete : n.concreteBlock taken = .ok code) : RoleCode c r aux p taken p.handle code

/-- The code of a role depends on the skeleton only. -/
theorem RoleCode.of_skeleton_eq {c : Conventions} {r r' : Registry} {aux : String} {p : Participants} {taken : Block}
    {k : MethodId} {code : Block} (h : RoleCode c r' aux p taken k code) (hr : r'.skeleton = r.skeleton) :
    RoleCode c r aux p taken k code := by
  have hname := Registry.congr_skeleton (·.className p.observer) (Registry.className_skeleton _) hr
  cases h with
  | attach role detach handle observer method parameter =>
    obtain ⟨m, hm, hheader⟩ := Registry.method?_of_skeleton_eq hr.symm method
    refine .attach role detach handle (hname.symm.trans observer) hm ?_
    rw [← parameter]
    exact congrArg (fun m => (Param.namesOfTypes _ m.params).head?) hheader
  | detach role handle observer method parameter =>
    obtain ⟨m, hm, hheader⟩ := Registry.method?_of_skeleton_eq hr.symm method
    refine .detach role handle (hname.symm.trans observer) hm ?_
    rw [← parameter]
    exact congrArg (fun m => (Param.namesOfTypes _ m.params).head?) hheader
  | handle names concrete =>
    refine .handle (names ▸ ?_) concrete
    exact (Registry.congr_skeleton (HandleBody.names c · aux p) (HandleBody.names_skeleton c aux p) hr).symm

/-! ## One dispatcher -/

variable {c : Conventions} {r r' : Registry} {aux : String} {p : Participants} {generic : MethodId}

/-- Methods with one header are the same but for their bodies. -/
private theorem with_body_congr {m m' : MethodDecl} (h : m'.header = m.header) (b : Block) :
    { m' with body := b } = { m with body := b } := by
  have h' := congrArg (fun m : MethodDecl => { m with body := b }) h
  exact h'

/-- A role that is optional writes the code of its operation, and no other body. -/
private theorem defineOptional_eq_ok {op : Collection.Operation} {id : Option MethodId} {collection : String}
    {observer : ClassId} (h : Collection.defineOptional op r id collection observer = .ok r') :
    r'.skeleton = r.skeleton ∧ (∀ k, id ≠ some k → r'.method? k = r.method? k) ∧
      ∀ k, id = some k → ∃ m name o, r.className observer = .ok name ∧ r.method? k = some m ∧
        (Param.namesOfTypes [name] m.params).head? = some o ∧
          r'.method? k = some { m with body := Collection.operationBody op collection o } := by
  cases id with
  | none =>
    obtain rfl := Except.ok.inj h
    exact ⟨rfl, fun _ _ => rfl, nofun⟩
  | some id =>
    obtain ⟨name, o, hname, hparameter, rfl⟩ := Collection.defineOperation_eq_ok h
    obtain ⟨m, hm, hhead⟩ := Collection.parameterOfType_eq_ok.1 hparameter
    refine ⟨r.skeleton_setBody id _, ?_, ?_⟩
    · intro k hk
      have hne : k ≠ id := by
        rintro rfl
        exact hk rfl
      rw [Registry.method?_setBody_of_ne hne]
    · intro k hk
      obtain rfl := Option.some.inj hk
      refine ⟨m, name, o, hname, hm, hhead, ?_⟩
      rw [Registry.method?_setBody_self hm]

/-- Each method that plays a role gets the code of its last one, and any other at most the creation of the collection.
The generic body that is taken is the one that is there, with the creation of the collection if the generic handle is
a constructor of the subject, unless the generic handle attaches or detaches. -/
theorem transplant_roleCode (h : transplant c r aux p generic = .ok r') :
    ∃ observer g taken, r.className p.observer = .ok observer ∧ r.method? generic = some g ∧
      (p.attach ≠ some generic → p.detach ≠ some generic →
        taken = Collection.started c r p.subject observer generic g.body) ∧
      (∀ k m, r.method? k = some m → ¬ p.Plays k →
        r'.method? k = some { m with body := Collection.started c r p.subject observer k m.body }) ∧
      ∀ k, p.Plays k → ∃ m code, r.method? k = some m ∧ RoleCode c r aux p taken k code ∧
        r'.method? k = some { m with body := code } := by
  simp only [transplant_eq, bind_eq_ok] at h
  obtain ⟨⟨r₁, name⟩, h₁, r₂, h₂, r₃, h₃, h₄⟩ := h
  obtain ⟨hkeeps₁, ⟨observer, hobserver, rfl⟩, -⟩ := Collection.install_keeps h₁
  obtain ⟨found, hfound, hbodies⟩ := Collection.install_bodies h₁
  obtain rfl := Except.ok.inj (hobserver.symm.trans hfound)
  obtain ⟨hskeleton₂, hother₂, hattach₂⟩ := defineOptional_eq_ok h₂
  obtain ⟨hskeleton₃, hother₃, hdetach₃⟩ := defineOptional_eq_ok h₃
  obtain ⟨n, g₃, body, hn, hg₃, hbody, hsome, rfl⟩ := HandleBody.transplant_eq_ok h₄
  have hr₁ := hkeeps₁.skeleton
  have hr₂ := hskeleton₂.trans hr₁
  have hr₃ := hskeleton₃.trans hr₂
  have hname : ∀ {s : Registry}, s.skeleton = r.skeleton → s.className p.observer = .ok observer := by
    intro s hs
    rw [← hobserver]
    exact Registry.congr_skeleton (·.className p.observer) (Registry.className_skeleton p.observer) hs
  obtain ⟨g, hg, -⟩ := Registry.method?_of_skeleton_eq hr₃.symm hg₃
  refine ⟨observer, g, g₃.body, hobserver, hg, ?_, ?_, ?_⟩
  · intro hattach hdetach
    rw [hother₃ generic hdetach, hother₂ generic hattach, hbodies, hg] at hg₃
    obtain rfl := Option.some.inj hg₃
    rfl
  · intro k m hm hplays
    obtain ⟨hattach, hdetach, hhandle⟩ := not_or.1 hplays |>.imp_right not_or.1
    rw [Registry.method?_setBody_of_ne (Ne.symm hhandle), hother₃ k hdetach, hother₂ k hattach, hbodies, hm,
      Option.map_some]
  · -- The last role decides, so the handle is looked at first.
    intro k hk
    by_cases hhandle : p.handle = k
    · subst hhandle
      obtain ⟨m₃, hm₃⟩ := Option.isSome_iff_exists.1 hsome
      obtain ⟨m, hm, hheader⟩ := Registry.method?_of_skeleton_eq hr₃.symm hm₃
      refine ⟨m, body, hm, (RoleCode.handle hn hbody).of_skeleton_eq hr₃, ?_⟩
      rw [Registry.method?_setBody_self hm₃, ← with_body_congr hheader.symm body]
    · rw [Registry.method?_setBody_of_ne (Ne.symm hhandle)]
      by_cases hdetach : p.detach = some k
      · obtain ⟨m₂, name, o, hname₂, hm₂, ho, hk₃⟩ := hdetach₃ k hdetach
        obtain rfl := Except.ok.inj (hname₂.symm.trans (hname hr₂))
        obtain ⟨m, hm, hheader⟩ := Registry.method?_of_skeleton_eq hr₂.symm hm₂
        refine ⟨m, _, hm, (RoleCode.detach hdetach hhandle hname₂ hm₂ ho).of_skeleton_eq hr₂, ?_⟩
        rw [hk₃, with_body_congr hheader]
      · have hattach : p.attach = some k := by
          rcases hk with h | h | h
          · exact h
          · exact absurd h hdetach
          · exact absurd h hhandle
        obtain ⟨m₁, name, o, hname₁, hm₁, ho, hk₂⟩ := hattach₂ k hattach
        obtain rfl := Except.ok.inj (hname₁.symm.trans (hname hr₁))
        obtain ⟨m, hm, hheader⟩ := Registry.method?_of_skeleton_eq hr₁.symm hm₁
        refine ⟨m, _, hm, (RoleCode.attach hattach hdetach hhandle hname₁ hm₁ ho).of_skeleton_eq hr₁, ?_⟩
        rw [hother₃ k hdetach, hk₂, with_body_congr hheader]

/-! ## A row of dispatchers -/

section Row

variable {d d' : Decoder} {p p' : Program} {pre post : List String}

/-- The statements by which a method creates the collections of a row of dispatchers, in the order of the row: one for
each time that the subject of a dispatcher lists the method as a constructor. -/
inductive Creations (d : Decoder) (r : Registry) (k : MethodId) : List String → List Stmt → Prop
  | nil : Creations d r k [] []
  | cons {aux : String} {auxs : List String} {c : Casting} {observer : String} {later : List Stmt}
      (casts : d.Casts r aux c) (observer_eq : r.className c.participants.observer = .ok observer)
      (rest : Creations d r k auxs later) :
      Creations d r k (aux :: auxs)
        (List.replicate ((r.constructorsOf c.participants.subject).count k)
          (Collection.creation d.conventions observer) ++ later)

theorem Creations.append {r : Registry} {k : MethodId} {auxs : List String} {ss ss' : List Stmt}
    (h : d.Creations r k pre ss) (h' : d.Creations r k auxs ss') : d.Creations r k (pre ++ auxs) (ss ++ ss') := by
  induction h with
  | nil => exact h'
  | cons casts observer_eq _ ih =>
    rw [List.append_assoc]
    exact .cons casts observer_eq ih

/-- The creations are the same throughout a decode. -/
theorem Creations.of_later {r r' : Registry} {k : MethodId} {auxs : List String} {ss : List Stmt}
    (h : d'.Creations r' k auxs ss) (hlater : Later d r d' r') : d.Creations r k auxs ss := by
  induction h with
  | nil => exact .nil
  | cons casts observer_eq _ ih =>
    rw [Registry.constructorsOf_congr hlater.skeleton, hlater.conventions]
    refine .cons (hlater.casts_iff.1 casts) ?_ ih
    rw [← observer_eq]
    exact (Registry.congr_skeleton (·.className _) (Registry.className_skeleton _) hlater.skeleton).symm

/-- What a row of dispatchers leaves of a body that none of them replaces: all of it, with the creations of their
collections at its start. -/
def LeftBy (d : Decoder) (r : Registry) (auxs : List String) (k : MethodId) (b b' : Block) : Prop :=
  (∀ aux ∈ auxs, ∀ c, d.Casts r aux c → ¬ c.participants.Plays k) →
    ∃ creations, d.Creations r k auxs creations ∧ b' = Collection.allAtStart creations b

/-- A method ends a row of dispatchers with what the row leaves of a given code. -/
def EndsWith (d : Decoder) (r : Registry) (auxs : List String) (r' : Registry) (k : MethodId) (code : Block) : Prop :=
  ∃ m b, r.method? k = some m ∧ r'.method? k = some { m with body := b } ∧ d.LeftBy r auxs k code b

/-- The generic body that a dispatcher takes is what the dispatchers before it leave of a given one, with the creation
of its own collection, unless its own attach or detach method replaces it. -/
def TakenFrom (d : Decoder) (r : Registry) (pre : List String) (aux : String) (c : Casting) (b taken : Block) :
    Prop :=
  c.participants.attach ≠ some c.dispatcher.handle → c.participants.detach ≠ some c.dispatcher.handle →
    (∀ other ∈ pre, ∀ o, d.Casts r other o → ¬ o.participants.Plays c.dispatcher.handle) →
      ∃ creations, d.Creations r c.dispatcher.handle (pre ++ [aux]) creations ∧
        taken = Collection.allAtStart creations b

theorem LeftBy.of_later {r r' : Registry} {auxs : List String} {k : MethodId} {b b' : Block}
    (h : d'.LeftBy r' auxs k b b') (hlater : Later d r d' r') : d.LeftBy r auxs k b b' := by
  intro hplays
  obtain ⟨creations, hcreations, hb⟩ := h fun aux haux c hc => hplays aux haux c (hlater.casts_iff.1 hc)
  exact ⟨creations, hcreations.of_later hlater, hb⟩

/-- While a row of dispatchers is decoded, a method that plays no role for them keeps all but its body, and that gets
the creations of their collections. -/
theorem decodeDispatchers_creations {auxs : List String} (h : d.decodeDispatchers p auxs = .ok (d', p'))
    {k : MethodId} {m : MethodDecl} (hm : p.registry.method? k = some m)
    (hplays : ∀ aux ∈ auxs, ∀ c, d.Casts p.registry aux c → ¬ c.participants.Plays k) :
    ∃ creations, d.Creations p.registry k auxs creations ∧
      p'.registry.method? k = some { m with body := Collection.allAtStart creations m.body } := by
  induction auxs generalizing d p m with
  | nil =>
    cases h
    exact ⟨[], .nil, hm⟩
  | cons aux auxs ih =>
    obtain ⟨c, r', hc, htransplant, -, hrest⟩ := decodeDispatchers_cons.1 h
    have hlater : Later d p.registry (d.record aux c) r' :=
      ⟨rfl, rfl, rfl, (transplant_eq_ok htransplant).1.skeleton⟩
    obtain ⟨observer, -, -, hobserver, -, -, hother, -⟩ := transplant_roleCode htransplant
    have hm' := hother k m hm (hplays aux List.mem_cons_self c hc)
    obtain ⟨later, hcreations, hbody⟩ := ih hrest hm' fun aux' haux' c' hc' =>
      hplays aux' (List.mem_cons_of_mem aux haux') c' (hlater.casts_iff.1 hc')
    refine ⟨_, .cons hc hobserver (hcreations.of_later hlater), ?_⟩
    rw [hbody, Collection.allAtStart_append]
    rfl

/-- A row of dispatchers leaves all of a method but its body. -/
theorem decodeDispatchers_leave {auxs : List String} (h : d.decodeDispatchers p auxs = .ok (d', p')) {k : MethodId}
    {m : MethodDecl} (hm : p.registry.method? k = some m) :
    ∃ b, p'.registry.method? k = some { m with body := b } ∧ d.LeftBy p.registry auxs k m.body b := by
  obtain ⟨m', hm', hheader⟩ := Registry.method?_of_skeleton_eq (decodeDispatchers_later h).skeleton hm
  refine ⟨m'.body, ?_, fun hplays => ?_⟩
  · rw [hm', ← with_body_congr hheader m'.body]
  · obtain ⟨creations, hcreations, hbody⟩ := decodeDispatchers_creations h hm hplays
    rw [hm', Option.some.injEq] at hbody
    exact ⟨creations, hcreations, congrArg MethodDecl.body hbody⟩

/-- A method that plays a role for a dispatcher ends with the code of that role, as far as the dispatchers
after it leave the code. -/
theorem decodeDispatchers_roleCode (h : d.decodeDispatchers p (pre ++ aux :: post) = .ok (d', p')) :
    ∃ c g taken, d.Casts p.registry aux c ∧ p.registry.method? c.dispatcher.handle = some g ∧
      d.TakenFrom p.registry pre aux c g.body taken ∧
      ∀ k, c.participants.Plays k → ∃ code, RoleCode d.conventions p.registry aux c.participants taken k code ∧
        d.EndsWith p.registry post p'.registry k code := by
  obtain ⟨d₁, p₁, hpre, h⟩ := decodeDispatchers_append.1 h
  obtain ⟨c, r', hc, htransplant, -, hpost⟩ := decodeDispatchers_cons.1 h
  have hlater₁ := decodeDispatchers_later hpre
  have hlater₂ : Later d p.registry (d₁.record aux c) r' :=
    hlater₁.trans ⟨rfl, rfl, rfl, (transplant_eq_ok htransplant).1.skeleton⟩
  obtain ⟨observer, g₁, taken, hobserver, hg₁, htaken, -, hroles⟩ := transplant_roleCode htransplant
  obtain ⟨g, hg, -⟩ := Registry.method?_of_skeleton_eq hlater₁.skeleton.symm hg₁
  have hcasts := hlater₁.casts_iff.1 hc
  refine ⟨c, g, taken, hcasts, hg, ?_, ?_⟩
  · intro hattach hdetach hplays
    obtain ⟨creations, hcreations, hfound⟩ := decodeDispatchers_creations hpre hg hplays
    obtain rfl := Option.some.inj (hg₁.symm.trans hfound)
    -- The dispatchers before it come first, then the dispatcher itself.
    have hown : d₁.Creations p₁.registry c.dispatcher.handle [aux] _ := .cons hc hobserver .nil
    refine ⟨_, hcreations.append (hown.of_later hlater₁), ?_⟩
    rw [htaken hattach hdetach, List.append_nil, Collection.allAtStart_append]
    rfl
  · intro k hk
    obtain ⟨m₁, code, hm₁, hcode, hm₂⟩ := hroles k hk
    obtain ⟨m, hm, hheader⟩ := Registry.method?_of_skeleton_eq hlater₁.skeleton.symm hm₁
    obtain ⟨b, hb, hleft⟩ := decodeDispatchers_leave hpost hm₂
    rw [hlater₁.conventions] at hcode
    refine ⟨code, hcode.of_skeleton_eq hlater₁.skeleton, m, b, hm, ?_, hleft.of_later hlater₂⟩
    rw [hb]
    exact congrArg some (with_body_congr hheader.symm b)

/-- After the first phase of a decode a method has the code of the last role that it plays. An attach method
adds the first parameter of the observer's type to the collection, unless it is the detach or the handle
method too; a detach method removes it, unless it is the handle method too; and the handle method has the
generic body with the concrete names. Later dispatchers that the method plays a role for replace this code.
Otherwise it stays as it is, but for the statements by which the constructors of later subjects create their
collections: each of them is put at its start, behind the call of another constructor. The generic body
is that of the program, with such statements of the dispatcher and of those before it, unless the generic handle
plays a role before it is taken. -/
theorem decode_lastRole {s : Summary} (h : d.decode p = .ok (d', p', s)) :
    ∃ d₁ q, d.decodeDispatchers p p.template.auxs = .ok (d₁, q) ∧ d' = d₁.prepare q.registry ∧
      Walk.walk d'.pass d'.conventions.maxDepth q.template q.registry = .ok p'.registry ∧
      ∀ pre aux post, p.template.auxs = pre ++ aux :: post → ∃ c observer g taken,
        d.Casts p.registry aux c ∧ p.registry.className c.participants.observer = .ok observer ∧
        (∀ k, c.participants.attach = some k → c.participants.detach ≠ some k → c.participants.handle ≠ k →
          ∃ m o, p.registry.method? k = some m ∧ (Param.namesOfTypes [observer] m.params).head? = some o ∧
            d.EndsWith p.registry post q.registry k
              (Collection.operationBody .add (d.conventions.collectionFor observer) o)) ∧
        (∀ k, c.participants.detach = some k → c.participants.handle ≠ k →
          ∃ m o, p.registry.method? k = some m ∧ (Param.namesOfTypes [observer] m.params).head? = some o ∧
            d.EndsWith p.registry post q.registry k
              (Collection.operationBody .remove (d.conventions.collectionFor observer) o)) ∧
        (∃ n code, HandleBody.names d.conventions p.registry aux c.participants = .ok n ∧
          n.concreteBlock taken = .ok code ∧
            d.EndsWith p.registry post q.registry c.participants.handle code) ∧
        p.registry.method? c.dispatcher.handle = some g ∧ d.TakenFrom p.registry pre aux c g.body taken := by
  obtain ⟨d₁, q, -, hdispatchers, hprepare, hwalk, -⟩ := decode_eq_ok h
  refine ⟨d₁, q, hdispatchers, hprepare, hwalk, fun pre aux post hauxs => ?_⟩
  rw [hauxs] at hdispatchers
  obtain ⟨c, g, taken, hc, hg, htaken, hroles⟩ := decodeDispatchers_roleCode hdispatchers
  -- The handle method can only have the code of the last of the three roles.
  obtain ⟨handleCode, hhandleCode, hhandleEnds⟩ := hroles c.participants.handle (.inr (.inr rfl))
  obtain ⟨n, hn, hconcrete⟩ : ∃ n, HandleBody.names d.conventions p.registry aux c.participants = .ok n ∧
      n.concreteBlock taken = .ok handleCode := by
    cases hhandleCode with
    | attach _ _ handle => exact absurd rfl handle
    | detach _ handle => exact absurd rfl handle
    | handle names concrete => exact ⟨_, names, concrete⟩
  obtain ⟨observer, hobserver⟩ : ∃ observer, p.registry.className c.participants.observer = .ok observer := by
    simp only [HandleBody.names, bind_eq_ok] at hn
    obtain ⟨-, -, -, -, observer, hobserver, -⟩ := hn
    exact ⟨observer, hobserver⟩
  refine ⟨c, observer, g, taken, hc, hobserver, ?_, ?_, ⟨n, handleCode, hn, hconcrete, hhandleEnds⟩, hg, htaken⟩
  · intro k hattach hdetach hhandle
    obtain ⟨code, hcode, hends⟩ := hroles k (.inl hattach)
    cases hcode with
    | detach role => exact absurd role hdetach
    | handle => exact absurd rfl hhandle
    | attach _ _ _ observer_eq method parameter =>
      obtain rfl := Except.ok.inj (observer_eq.symm.trans hobserver)
      exact ⟨_, _, method, parameter, hends⟩
  · intro k hdetach hhandle
    obtain ⟨code, hcode, hends⟩ := hroles k (.inr (.inl hdetach))
    cases hcode with
    | attach _ detach => exact absurd hdetach detach
    | handle => exact absurd rfl hhandle
    | detach _ _ observer_eq method parameter =>
      obtain rfl := Except.ok.inj (observer_eq.symm.trans hobserver)
      exact ⟨_, _, method, parameter, hends⟩

end Row

end Decoder

/-! ## A station with methods that share roles -/

namespace Station

/-- The constructor subscribes a display to the readings, `raise` subscribes sirens to the alarms that it
raises, and displays leave the readings with the generic code for alarms. -/
def shared : Program :=
  let constructor (m : MethodDecl) : MethodDecl :=
    { m with name := "Station", params := [⟨"Display", "display"⟩], isInit := true, body := [] }
  let raise (m : MethodDecl) : MethodDecl := { m with params := [⟨"Siren", "siren"⟩, ⟨"Alarm", "alarm"⟩] }
  let leave (m : MethodDecl) : MethodDecl := { m with params := m.params ++ [⟨"Display", "display"⟩] }
  { program with
    registry := ((program.registry.modifyMethod ⟨4⟩ constructor).modifyMethod ⟨3⟩ raise).modifyMethod ⟨1⟩ leave }

def sharing : Decoder :=
  .ofTrace .default (Table.ofList [("Reading", ⟨1, 1, 1⟩), ("Alarm", ⟨1, 1, 0⟩)])
    { trace with
      bindings := ((trace.bindings.insert "attach_AuxObserverReading" 4).insert "detach_AuxObserverReading" 1).insert
        "attach_AuxObserverAlarm" 3 }

end Station

namespace Decoder

def sharedReadings : Casting :=
  { readings with participants := ⟨⟨4⟩, ⟨5⟩, ⟨2⟩, some ⟨4⟩, some ⟨1⟩, ⟨2⟩, ⟨5⟩⟩ }

def sharedAlarms : Casting :=
  { alarms with participants := ⟨⟨4⟩, ⟨6⟩, ⟨3⟩, some ⟨3⟩, none, ⟨3⟩, ⟨6⟩⟩, key := "raise_Station_Siren_Alarm" }

theorem casts_shared : Station.sharing.Casts Station.shared.registry "AuxObserverReading" sharedReadings ∧
    Station.sharing.Casts Station.shared.registry "AuxObserverAlarm" sharedAlarms := by
  decide +kernel

theorem decode_shared : ∃ d' p' s, Station.sharing.decode Station.shared = .ok (d', p', s) := by
  have hdecode : okAnd (Station.sharing.decode Station.shared) (fun _ => true) = true := by
    decide +kernel
  obtain ⟨⟨d', p', s⟩, h, -⟩ := okAnd_eq_true.1 hdecode
  exact ⟨d', p', s, h⟩

/-- The constructor of the station creates the collection of sirens and then adds the display to the readings. -/
theorem decode_lastRole_shared : ∃ d' p' s d₁ q, Station.sharing.decode Station.shared = .ok (d', p', s) ∧
    Station.sharing.decodeDispatchers Station.shared Station.shared.template.auxs = .ok (d₁, q) ∧
      (q.registry.method? ⟨4⟩).map (·.body) =
        some (Collection.creation .default "Siren" :: Collection.operationBody .add "_obs_Display" "display") := by
  obtain ⟨d', p', s, h⟩ := decode_shared
  obtain ⟨d₁, q, hq, -, -, hroles⟩ := decode_lastRole h
  obtain ⟨c, observer, g, taken, hc, hobserver, hattach, -⟩ :=
    hroles [] "AuxObserverReading" ["AuxObserverAlarm"] rfl
  obtain rfl := hc.unique casts_shared.1
  obtain ⟨m, o, hm, ho, m', b, hm', hends, hleft⟩ := hattach ⟨4⟩ rfl (by decide) (by decide)
  obtain rfl : observer = "Display" := (Except.ok.inj hobserver).symm
  obtain rfl := Option.some.inj hm
  obtain rfl : o = "display" := by simpa [Param.namesOfTypes] using ho.symm
  -- The alarms leave the constructor to the readings, and their subject is the station.
  obtain ⟨creations, hcreations, rfl⟩ := hleft (by
    intro aux haux later hlater
    obtain rfl := List.mem_singleton.1 haux
    obtain rfl := hlater.unique casts_shared.2
    decide)
  cases hcreations with
  | cons casts observer_eq rest =>
    cases rest
    obtain rfl := casts.unique casts_shared.2
    obtain rfl := Except.ok.inj observer_eq
    have hcount : (Station.shared.registry.constructorsOf ⟨4⟩).count ⟨4⟩ = 1 := by decide +kernel
    refine ⟨d', p', s, d₁, q, h, hq, ?_⟩
    rw [hends, List.append_nil, show sharedAlarms.participants.subject = ⟨4⟩ from rfl, hcount]
    rfl

/-- The subscription of the display is not all of the constructor, that of the sirens is lost, and the handle
method for alarms has not the generic code of the program. -/
theorem roles_overwrite_shared : ∃ d' p' s d₁ q, Station.sharing.decode Station.shared = .ok (d', p', s) ∧
    Station.sharing.decodeDispatchers Station.shared Station.shared.template.auxs = .ok (d₁, q) ∧
      Station.shared.template.auxs.Nodup ∧
      (d₁.resolved.get? "AuxObserverReading").map (·.attach) = some (some ⟨4⟩) ∧
      (∀ m o, q.registry.method? ⟨4⟩ = some m → m.body ≠ Collection.operationBody .add "_obs_Display" o) ∧
      (d₁.resolved.get? "AuxObserverAlarm").map (·.attach) = some (some ⟨3⟩) ∧
      (∀ m o, q.registry.method? ⟨3⟩ = some m → m.body ≠ Collection.operationBody .add "_obs_Siren" o) ∧
      (d₁.resolved.get? "AuxObserverAlarm").map (·.handle) = some ⟨3⟩ ∧
      ∃ n g code,
        HandleBody.names .default Station.shared.registry "AuxObserverAlarm" sharedAlarms.participants = .ok n ∧
        Station.shared.registry.method? ⟨1⟩ = some g ∧ n.concreteBlock g.body = .ok code ∧
          ∀ m, q.registry.method? ⟨3⟩ = some m → m.body ≠ code := by
  obtain ⟨d', p', s, h⟩ := decode_shared
  have hrow : okAnd (Station.sharing.decodeDispatchers Station.shared Station.shared.template.auxs) (fun x =>
      (x.1.resolved.get? "AuxObserverReading").map (·.attach) = some (some ⟨4⟩) ∧
        (x.1.resolved.get? "AuxObserverAlarm").map (·.attach) = some (some ⟨3⟩) ∧
        (x.1.resolved.get? "AuxObserverAlarm").map (·.handle) = some ⟨3⟩ ∧
        (x.2.registry.method? ⟨4⟩).map (·.body.length) = some 2 ∧
        (x.2.registry.method? ⟨3⟩).map (·.body) =
          some (Collection.operationBody .remove "_obs_Display" "display")) = true := by
    decide +kernel
  have hcode : okAnd (HandleBody.names .default Station.shared.registry "AuxObserverAlarm" sharedAlarms.participants)
      (fun n => okAnd (n.concreteBlock (Station.notifyAll "AuxObserverAlarm")) fun code =>
        code ≠ Collection.operationBody .remove "_obs_Display" "display") = true := by
    decide +kernel
  obtain ⟨⟨d₁, q⟩, hq, hresult⟩ := okAnd_eq_true.1 hrow
  obtain ⟨hreadings, halarms, hhandle, hlength, hbody⟩ := of_decide_eq_true hresult
  obtain ⟨n, hn, hcode⟩ := okAnd_eq_true.1 hcode
  obtain ⟨code, hcode, hne⟩ := okAnd_eq_true.1 hcode
  refine ⟨d', p', s, d₁, q, h, hq, by decide, hreadings, ?_, halarms, ?_, hhandle, n, _, code, hn, rfl, hcode, ?_⟩
  · intro m o hm hm'
    rw [hm, Option.map_some, hm'] at hlength
    cases hlength
  · intro m o hm hm'
    rw [hm, Option.map_some, hm', Option.some.injEq] at hbody
    simp [Collection.operationBody, Expr.methodCall] at hbody
  · intro m hm hm'
    rw [hm, Option.map_some, hm', Option.some.injEq] at hbody
    exact of_decide_eq_true hne hbody

end Decoder

end ObserverPattern
