import ObserverPattern.Proofs.Decoder.Rebuilding

/-!
# Loops over the observers

The trace tells in which direction the generic handle of a dispatcher goes over its observers. The
fact is moved to the signature of the handle method, and the loops of the handle are recognised by
the collection that the subject knows. A class knows one collection: of the dispatchers with one
subject, the last one tells it (`decode_collection`), although the collection field of each of them is
added to the class. The loops of the others stay as they are.

* `HandleStages`: the body of a handle from the generic body to the body that comes out;
* `decode_loops`: the loops over the collection of a dispatcher all take one turn, and this is the
  iterator in the direction of the trace exactly if the subject knows that collection in the end and
  the facts of the handle still tell this direction.
-/

namespace ObserverPattern

/-- The body of a handle method during a decode. -/
structure HandleStages where
  /-- The names that take the place of the generic ones. -/
  names : HandleBody.Names
  /-- The generic handle when its body is taken. -/
  generic : MethodDecl
  /-- The generic body with the concrete names. -/
  revised : Block
  /-- The body that the traversal meets. -/
  start : Block
  /-- What the traversal makes of it. -/
  walked : Block
  /-- The handle that comes out. -/
  result : MethodDecl

namespace Decoder

variable {d d' : Decoder} {p p' : Program} {aux : String} {a : Casting}

/-- The place of the handle of a casting in a program that was decoded. -/
def handlePlace (d : Decoder) (p : Program) (a : Casting) : Position where
  registry := p.registry
  owner := a.participants.subject
  method := some a.participants.handle
  depth := 0
  maxDepth := d.conventions.maxDepth

/-- How the handle of a casting comes to its body: the generic body gets the concrete names; later
dispatchers may let it create collections, if it is a constructor; the traversal goes over it. -/
structure Stages (d : Decoder) (p : Program) (d' : Decoder) (p' : Program) (aux : String) (a : Casting)
    (b : HandleStages) : Prop where
  names : HandleBody.names d.conventions p.registry aux a.participants = .ok b.names
  generic : (∀ other ∈ p.template.auxs, ∀ c, d.Casts p.registry other c →
    ¬ c.participants.Writes p.registry a.dispatcher.handle) → p.registry.method? a.dispatcher.handle = some b.generic
  revised : b.names.concreteBlock b.generic.body = .ok b.revised
  start : Stmt.withoutInitialisations b.start = Stmt.withoutInitialisations b.revised
  start_eq : b.result.isInit = false → b.start = b.revised
  result : p'.registry.method? a.participants.handle = some b.result
  kept : d'.onMethod (handlePlace d' p' a) b.walked = .ok b.result.body

/-- The handle of a casting has its body and its facts to itself: no other dispatcher writes one of
them. -/
structure Apart (d : Decoder) (p : Program) (aux : String) (a : Casting) : Prop where
  key : ∀ other ∈ p.template.auxs, other ≠ aux → ∀ c, d.Casts p.registry other c → c.key ≠ a.key
  roles : ∀ other ∈ p.template.auxs, other ≠ aux → ∀ c, d.Casts p.registry other c →
    c.participants.attach ≠ some a.participants.handle ∧ c.participants.detach ≠ some a.participants.handle
  generic : ∀ other ∈ p.template.auxs, ∀ c, d.Casts p.registry other c → genericKey other c.event ≠ a.key

/-! ## The handle -/

/-- The body that a row of dispatchers leaves in the handle of one of them. -/
private theorem decodeDispatchers_handle {pre post : List String}
    (h : d.decodeDispatchers p (pre ++ aux :: post) = .ok (d', p')) (ha : d.Casts p.registry aux a)
    (hpost : ∀ other ∈ post, ∀ c, d.Casts p.registry other c → c.participants.attach ≠ some a.participants.handle ∧
      c.participants.detach ≠ some a.participants.handle ∧ c.participants.handle ≠ a.participants.handle) :
    ∃ n g revised start, ∃ m : MethodDecl, HandleBody.names d.conventions p.registry aux a.participants = .ok n ∧
      ((∀ other ∈ pre ++ aux :: post, ∀ c, d.Casts p.registry other c →
        ¬ c.participants.Writes p.registry a.dispatcher.handle) → p.registry.method? a.dispatcher.handle = some g) ∧
      n.concreteBlock g.body = .ok revised ∧
      p'.registry.method? a.participants.handle = some { m with body := start } ∧
      Stmt.withoutInitialisations start = Stmt.withoutInitialisations revised ∧
      (m.isInit = false → start = revised) := by
  obtain ⟨d₁, p₁, r', h₁, hlater₁, htransplant, hlater₂, h₃⟩ := decodeDispatchers_split h ha
  obtain ⟨-, -, n, r₁, g, revised, hn, hkeeps, hg, hrevised, rfl⟩ := transplant_eq_ok htransplant
  -- The handle has a signature, so it is there, and it still is when its body is replaced.
  obtain ⟨m, hm⟩ : ∃ m, r₁.method? a.participants.handle = some m := by
    have hkey := (hlater₁.casts_iff.2 ha).key
    simp only [Registry.signature, bind_eq_ok, Registry.getMethod_eq_ok] at hkey
    obtain ⟨m₁, hm₁, -⟩ := hkey
    obtain ⟨m, hm, -⟩ := Registry.method?_of_skeleton_eq hkeeps.skeleton hm₁
    exact ⟨m, hm⟩
  have hwritten : (r₁.setBody a.participants.handle revised).method? a.participants.handle =
      some { m with body := revised } := Registry.method?_setBody_self hm revised
  have hothers : ∀ other ∈ post, ∀ c, Casts _ (r₁.setBody a.participants.handle revised) other c →
      c.participants.attach ≠ some a.participants.handle ∧ c.participants.detach ≠ some a.participants.handle ∧
        c.participants.handle ≠ a.participants.handle :=
    fun other hother c hc => hpost other hother c (hlater₂.casts_iff.1 hc)
  obtain ⟨start, hstart, hrest⟩ := decodeDispatchers_body h₃ hwritten hothers
  refine ⟨n, g, revised, start, m, ?_, ?_, hrevised, hstart, hrest, ?_⟩
  · rw [← hn, ← hlater₁.conventions]
    exact (Registry.congr_skeleton (fun r => HandleBody.names d₁.conventions r aux a.participants)
      (HandleBody.names_skeleton d₁.conventions aux a.participants) hlater₁.skeleton).symm
  · intro huntouched
    have hbefore := decodeDispatchers_method h₁ fun other hother => huntouched other (by simp [hother])
    have hself := huntouched aux (by simp) a ha
    rw [← Participants.writes_congr hlater₁.skeleton] at hself
    rw [← hbefore, ← hkeeps.methods _ hself, hg]
  · intro hinit
    have hkept := decodeDispatchers_method h₃ (k := a.participants.handle) ?_
    · rw [hstart] at hkept
      have heq := hkept.trans hwritten
      exact congrArg MethodDecl.body (Option.some.inj heq)
    · intro other hother c hc hwrites
      obtain ⟨hattach, hdetach, hhandle⟩ := hothers other hother c hc
      rcases hwrites with hwrites | hwrites | hwrites | ⟨-, m', hm', hinit'⟩
      · exact hattach hwrites
      · exact hdetach hwrites
      · exact hhandle hwrites
      · obtain rfl := Option.some.inj (hm'.symm.trans hwritten)
        exact Bool.false_ne_true (hinit.symm.trans hinit')

/-! ## Facts -/

/-- The facts of the generic handle are those of the handle in the end, unless an earlier dispatcher
moved other facts there or these away. -/
private theorem decodeDispatchers_direction {pre post : List String}
    (h : d.decodeDispatchers p (pre ++ aux :: post) = .ok (d', p')) (ha : d.Casts p.registry aux a)
    (hpost : ∀ other ∈ post, ∀ c, d.Casts p.registry other c → genericKey other c.event ≠ a.key ∧ c.key ≠ a.key)
    (hself : genericKey aux a.event ≠ a.key)
    (hpre : ∀ other ∈ pre, ∀ c, d.Casts p.registry other c →
      genericKey other c.event ≠ genericKey aux a.event ∧ c.key ≠ genericKey aux a.event)
    {dir : Direction} (hdir : d.facts.direction? (genericKey aux a.event) = some dir) :
    d'.facts.direction? a.key = some dir := by
  obtain ⟨facts, hfacts, hfirst⟩ := Facts.get?_of_direction? hdir
  obtain ⟨d₁, p₁, r', h₁, -, -, hlater₂, h₃⟩ := decodeDispatchers_split h ha
  -- Up to the dispatcher the facts lie under the generic key, from there on under the signature.
  have hfacts₁ := (decodeDispatchers_facts h₁ hpre).trans hfacts
  have hfacts₃ : d'.facts.get? a.key = (d₁.record aux a).facts.get? a.key := by
    refine decodeDispatchers_facts h₃ ?_
    intro other hother c hc
    exact hpost other hother c (hlater₂.casts_iff.1 hc)
  have hmoved := Facts.get?_move_new hfacts₁ (Ne.symm hself)
  rw [Facts.direction?_eq (hfacts₃.trans hmoved), hfirst]

/-! ## The collection -/

/-- Of the entries of a list with a property there is a last one. -/
private theorem exists_last {α : Type} {P : α → Prop} {l : List α} (h : ∃ x ∈ l, P x) :
    ∃ pre x post, l = pre ++ x :: post ∧ P x ∧ ∀ y ∈ post, ¬ P y := by
  induction l with
  | nil =>
    obtain ⟨x, hx, -⟩ := h
    cases hx
  | cons x l ih =>
    by_cases hl : ∃ y ∈ l, P y
    · obtain ⟨pre, y, post, rfl, hy, hpost⟩ := ih hl
      exact ⟨x :: pre, y, post, rfl, hy, hpost⟩
    · obtain ⟨y, hy, hP⟩ := h
      rcases List.mem_cons.1 hy with rfl | hy
      · exact ⟨[], y, l, rfl, hP, fun z hz hPz => hl ⟨z, hz, hPz⟩⟩
      · exact absurd ⟨y, hy, hP⟩ hl

/-- The collection for the observer of the last dispatcher with a given subject. -/
def LastCollection (d : Decoder) (p : Program) (subject : ClassId) (collection : String) : Prop :=
  ∃ pre last post c observer, p.template.auxs = pre ++ last :: post ∧ d.Casts p.registry last c ∧
    c.participants.subject = subject ∧
      (∀ later ∈ post, ∀ c', d.Casts p.registry later c' → c'.participants.subject ≠ subject) ∧
        p.registry.className c.participants.observer = .ok observer ∧
          collection = d.conventions.collectionFor observer

/-- The subject of a dispatcher knows the collection of the last dispatcher with this subject. -/
theorem decode_collection {s : Summary} (h : d.decode p = .ok (d', p', s)) (haux : aux ∈ p.template.auxs)
    (ha : d.Casts p.registry aux a) :
    ∃ collection, d.LastCollection p a.participants.subject collection ∧
      ∀ cls, p'.registry.class? a.participants.subject = some cls → cls.collection = some collection := by
  obtain ⟨pre, last, post, hsplit, ⟨c, hc, hsubject⟩, hpost⟩ := exists_last
    (P := fun other => ∃ c, d.Casts p.registry other c ∧ c.participants.subject = a.participants.subject)
    ⟨aux, haux, a, ha, rfl⟩
  obtain ⟨d₁, p₁, -, hdispatchers, -, hwalk, -⟩ := decode_eq_ok h
  rw [hsplit] at hdispatchers
  have hlast : ∀ later ∈ post, ∀ c', d.Casts p.registry later c' → c'.participants.subject ≠ a.participants.subject :=
    fun later hlater c' hc' heq => hpost later hlater ⟨c', hc', heq⟩
  obtain ⟨observer, hobserver, hcollection⟩ := decodeDispatchers_collection hdispatchers hc (hsubject ▸ hlast)
  refine ⟨d.conventions.collectionFor observer,
    ⟨pre, last, post, c, observer, hsplit, hc, hsubject, hlast, hobserver, rfl⟩, ?_⟩
  intro cls hcls
  obtain ⟨cls₁, hcls₁, -⟩ := Registry.class?_of_outline_eq (Walk.outline_walk hwalk).symm hcls
  rw [← hcollection cls₁ (hsubject ▸ hcls₁)]
  exact Registry.collection_eq_of_outline_eq (Walk.outline_walk hwalk) hcls₁ hcls

private theorem names_collection {c : Conventions} {r : Registry} {participants : Participants} {n : HandleBody.Names}
    (h : HandleBody.names c r aux participants = .ok n) :
    ∃ observer, r.className participants.observer = .ok observer ∧ n.collection = c.collectionFor observer := by
  simp only [HandleBody.names, bind_eq_ok, pure_eq_ok] at h
  obtain ⟨-, -, -, -, observer, hobserver, -, -, -, -, -, -, rfl⟩ := h
  exact ⟨observer, hobserver, rfl⟩

private theorem collectionFor_ne (c : Conventions) (observer : String) : c.collectionFor observer ≠ "subcls" := by
  intro h
  have hmem : '_' ∈ (c.collectionFor observer).toList := by simp [Conventions.collectionFor]
  rw [h] at hmem
  revert hmem
  decide

/-! ## The loops -/

/-- What takes the place of a loop in a method: a loop over the collection of the class
becomes one with an iterator, any other stays. -/
private theorem onStmt_loop {p : Position} {cls : ClassDecl} {collection name key : String} {id : MethodId}
    (hcls : p.registry.class? p.owner = some cls) (hcollection : cls.collection = some collection)
    (hne : collection ≠ "subcls") (hmethod : p.method = some id) (hkey : p.registry.signature id = .ok key)
    {ty var : String} {source source' : Expr} {body new : Block} (hname : source.lastName? = some name)
    (hsource : Walk.walkExpr d.pass p source = .ok source')
    (h : d.onStmt p (.forEach ty var source' body) = .ok new) :
    d.concreteName p.registry name = .ok collection ∧
        new = loopWithIterator ((d.facts.direction? key).getD .forward) ty var source' body ∨
      d.concreteName p.registry name ≠ .ok collection ∧ new = [.forEach ty var source' body] := by
  obtain ⟨y, hy, hlast⟩ := walkExpr_lastName source source' name hsource hname
  obtain ⟨walks, hwalks, hcases⟩ := onStmt_forEach h
  obtain ⟨cls', hcls', hiff⟩ := walksCollection_eq_ok hwalks
  obtain rfl := Option.some.inj (hcls'.symm.trans hcls)
  -- The source keeps its last name `y`, unless that is `subcls`, which no collection is called.
  have hwalks : walks = true ↔ y = collection := by
    rw [hiff]
    constructor
    · rintro ⟨name', hname', hlast'⟩
      obtain rfl := Option.some.inj (hcollection.symm.trans hname')
      rcases hlast with hlast | ⟨-, hlast⟩
      · exact Option.some.inj (hlast.symm.trans hlast')
      · rw [hlast] at hlast'
        cases hlast'
    · rintro rfl
      refine ⟨y, hcollection, ?_⟩
      rcases hlast with hlast | ⟨hsubcls, -⟩
      · exact hlast
      · exact absurd hsubcls hne
  rcases hcases with ⟨rfl, hnew⟩ | ⟨rfl, direction, hdirection, hnew⟩
  · refine .inr ⟨?_, hnew⟩
    rw [hy]
    intro heq
    exact Bool.false_ne_true (hwalks.2 (Except.ok.inj heq))
  · refine .inl ⟨?_, ?_⟩
    · rw [hy, hwalks.1 rfl]
    · simp only [directionAt, hmethod, bind_eq_ok, pure_eq_ok] at hdirection
      obtain ⟨key', hkey', rfl⟩ := hdirection
      obtain rfl := Except.ok.inj (hkey'.symm.trans hkey)
      exact hnew

private theorem loopWithIterator_inj {dir dir' : Direction} (h : loopWithIterator dir = loopWithIterator dir') :
    dir = dir' := by
  have hloop := congrFun (congrFun (congrFun (congrFun h "") "") .null) []
  cases dir <;> cases dir' <;> first | rfl | exact absurd hloop (by decide)

private theorem loopItself_ne_loopWithIterator (dir : Direction) :
    loopItself ≠ loopWithIterator dir := by
  intro h
  have hloop := congrFun (congrFun (congrFun (congrFun h "") "") .null) []
  cases hloop

/-- The loops over a collection in the body of a method all take one turn: the iterator, in the direction
that the facts of the method tell, if they are recognised, and else they stay. -/
private theorem walkBlock_loops {p q : Position} (hpq : q.Alike p) {cls : ClassDecl} {collection key : String}
    {id : MethodId} (hcls : p.registry.class? p.owner = some cls) (hcollection : cls.collection = some collection)
    (hne : collection ≠ "subcls") (hmethod : p.method = some id) (hkey : p.registry.signature id = .ok key)
    (name : String) {b b' : Block} (h : Walk.walkBlock d.pass p b = .ok b') :
    ∃ turn, Stmt.Rebuilt name (d.Image q) turn b b' ∧
      (d.concreteName q.registry name = .ok collection →
        turn = loopWithIterator ((d.facts.direction? key).getD .forward)) ∧
        (d.concreteName q.registry name ≠ .ok collection →
          turn = loopItself) := by
  simp only [Walk.walkBlock, Walk.lift_eq, bind_eq_ok] at h
  obtain ⟨-, -, h⟩ := h
  have himage : ∀ n e e', Walk.walkExpr d.pass (p.atDepth n) e = .ok e' → d.Image q e e' := by
    intro n e e' he
    rw [Image, ← he]
    have hplaces : q.Alike (p.atDepth n) := ⟨hpq.skeleton, hpq.owner, hpq.method⟩
    exact (Walk.walkExpr_congr (onExpr_congr hplaces) e).symm
  have hname := Registry.congr_skeleton (d.concreteName · name) (concreteName_skeleton name) hpq.skeleton
  by_cases hrecognised : d.concreteName q.registry name = .ok collection
  · refine ⟨loopWithIterator ((d.facts.direction? key).getD .forward), ?_, fun _ => rfl, (absurd hrecognised ·)⟩
    refine walkStmts_rebuilt himage ?_ p.depth b b' h
    intro n ty var source source' body new hlast hsource hnew
    rcases onStmt_loop (p := p.atDepth n) hcls hcollection hne hmethod hkey hlast hsource hnew with
      ⟨-, hnew⟩ | ⟨hnot, -⟩
    · exact hnew
    · exact absurd (hname.trans hrecognised) hnot
  · refine ⟨loopItself, ?_, (absurd · hrecognised), fun _ => rfl⟩
    refine walkStmts_rebuilt himage ?_ p.depth b b' h
    intro n ty var source source' body new hlast hsource hnew
    rcases onStmt_loop (p := p.atDepth n) hcls hcollection hne hmethod hkey hlast hsource hnew with
      ⟨hyes, -⟩ | ⟨-, hnew⟩
    · exact absurd (hname.symm.trans hyes) hrecognised
    · exact hnew

/-- The handle of a casting has another method identity than those of the others, so it is another method. -/
private theorem Apart.later {pre post : List String} (hapart : d.Apart p aux a) (ha : d.Casts p.registry aux a)
    (hnodup : p.template.auxs.Nodup) (hsplit : p.template.auxs = pre ++ aux :: post) :
    ∀ other ∈ post, ∀ o, d.Casts p.registry other o →
      genericKey other o.event ≠ a.key ∧ o.key ≠ a.key ∧ o.participants.attach ≠ some a.participants.handle ∧
        o.participants.detach ≠ some a.participants.handle ∧ o.participants.handle ≠ a.participants.handle := by
  intro other hother o ho
  have hmem : other ∈ p.template.auxs := by simp [hsplit, hother]
  have hdiffer : other ≠ aux := by
    rw [hsplit, List.nodup_append, List.nodup_cons] at hnodup
    rintro rfl
    exact hnodup.2.1.1 hother
  obtain ⟨hattach, hdetach⟩ := hapart.roles other hmem hdiffer o ho
  refine ⟨hapart.generic other hmem o ho, hapart.key other hmem hdiffer o ho, hattach, hdetach, ?_⟩
  intro heq
  exact hapart.key other hmem hdiffer o ho (Except.ok.inj (ho.key.symm.trans (heq ▸ ha.key)))

/-- The stages of a handle, and the turn that its loops take. -/
private theorem decode_handle {s : Summary} (h : d.decode p = .ok (d', p', s)) (hnodup : p.template.auxs.Nodup)
    (haux : aux ∈ p.template.auxs) (ha : d.Casts p.registry aux a) (hapart : d.Apart p aux a)
    (hsubject : a.participants.subject ∈ p'.template.classes)
    (hlisted : a.participants.handle ∈ p'.registry.methodsOf a.participants.subject)
    (honce : p'.listedMethods.count a.participants.handle = 1) {cls : ClassDecl} {collection : String}
    (hcls : p'.registry.class? a.participants.subject = some cls) (hcollection : cls.collection = some collection)
    (hne : collection ≠ "subcls") :
    ∃ b turn, d.Stages p d' p' aux a b ∧
      Stmt.Rebuilt b.names.collection (d'.Image (handlePlace d' p' a)) turn
        b.start b.walked ∧
      (d'.concreteName p'.registry b.names.collection = .ok collection →
        turn = loopWithIterator ((d'.facts.direction? a.key).getD .forward)) ∧
      (d'.concreteName p'.registry b.names.collection ≠ .ok collection →
        turn = loopItself) ∧
      ∀ x ∈ Stmt.listParts b.result.body, x.Normal cls.collection := by
  obtain ⟨d₁, p₁, -, hdispatchers, rfl, hwalk, htemplate⟩ := decode_eq_ok h
  obtain ⟨pre, post, hsplit⟩ := List.append_of_mem haux
  rw [hsplit] at hdispatchers
  have hothers := hapart.later ha hnodup hsplit
  obtain ⟨n, g, revised, start, m, hn, hg, hrevised, hstart, hrest, heq⟩ :=
    decodeDispatchers_handle hdispatchers ha fun other hother o ho => (hothers other hother o ho).2.2
  have houtline := Walk.outline_walk hwalk
  have hmethodsOf := Registry.methodsOf_congr (Registry.skeleton_eq_of_outline_eq houtline)
  rw [htemplate] at hsubject
  rw [Program.listedMethods, htemplate, hmethodsOf] at honce
  rw [hmethodsOf] at hlisted
  obtain ⟨r₁, m₁, walked, final, hr₁, hm₁, hwalked, hfinal, hresult⟩ := Walk.walk_body hwalk hsubject hlisted honce
  obtain rfl := Option.some.inj (hm₁.symm.trans hstart)
  have hr₁ := hr₁.trans houtline.symm
  have hskeleton := Registry.skeleton_eq_of_outline_eq hr₁
  obtain ⟨cls₁, hcls₁, -⟩ := Registry.class?_of_outline_eq hr₁ hcls
  have hcollection₁ := Registry.collection_eq_of_outline_eq hr₁ hcls hcls₁
  have hkey : r₁.signature a.participants.handle = .ok a.key := by
    rw [← ha.key]
    exact Registry.congr_skeleton (·.signature a.participants.handle) (Registry.signature_skeleton _)
      (hskeleton.trans (decode_later h).skeleton)
  -- The pass sees the place while the traversal is under way; at the end it looks the same.
  have hplace : (handlePlace (d₁.prepare p₁.registry) p' a).Alike
      ⟨r₁, a.participants.subject, some a.participants.handle, 0, (d₁.prepare p₁.registry).conventions.maxDepth⟩ :=
    ⟨hskeleton, rfl, rfl⟩
  obtain ⟨turn, hrebuilt, hyes, hno⟩ :=
    walkBlock_loops hplace hcls₁ (hcollection₁.trans hcollection) hne rfl hkey n.collection hwalked
  refine ⟨⟨n, g, revised, start, walked, { m with body := final }⟩, turn,
    ⟨hn, ?_, hrevised, hrest, heq, hresult, ?_⟩, hrebuilt, hyes, hno, ?_⟩
  · intro huntouched
    exact hg fun other hother => huntouched other (hsplit ▸ hother)
  · rw [← hfinal]
    exact (onMethod_congr hplace walked).symm
  · have hknown : ∀ cls₂, r₁.class? a.participants.subject = some cls₂ → cls₂.collection = cls.collection :=
      fun cls₂ hcls₂ => Registry.collection_eq_of_outline_eq hr₁ hcls hcls₂
    have hnormal := walkBlock_normal hknown hwalked
    intro x hx
    obtain ⟨top, htop, hx⟩ := Stmt.mem_listParts.1 hx
    exact hnormal x (Stmt.mem_listParts.2 ⟨top, onMethod_subset hfinal htop, hx⟩)

/-- For a casting that is apart from the others, and whose facts tell a direction: the loops of its
handle over its collection all take one turn. The turn is the iterator in the direction of the trace
exactly if the name of the collection becomes that of the last collection of the subject, and the facts
of the handle tell this direction in the end; if the names differ, the loops stay. No loop over the last
collection is left, and the facts tell the direction of the trace unless an earlier dispatcher moved the
facts of the generic handle away or others in their place. -/
theorem decode_loops {c : Conventions} {events : EventTable} {t : Trace} {s : Summary}
    (h : (ofTrace c events t).decode p = .ok (d', p', s)) (hnodup : p.template.auxs.Nodup)
    (haux : aux ∈ p.template.auxs) (ha : (ofTrace c events t).Casts p.registry aux a)
    (hapart : (ofTrace c events t).Apart p aux a) (hsubject : a.participants.subject ∈ p'.template.classes)
    (hlisted : a.participants.handle ∈ p'.registry.methodsOf a.participants.subject)
    (honce : p'.listedMethods.count a.participants.handle = 1) {dir : Direction}
    (hdir : t.facts.direction? (genericKey aux a.event) = some dir) :
    ∃ observer collection b turn, p.registry.className a.participants.observer = .ok observer ∧
      (ofTrace c events t).LastCollection p a.participants.subject collection ∧
      (∀ cls, p'.registry.class? a.participants.subject = some cls → cls.collection = some collection) ∧
      (ofTrace c events t).Stages p d' p' aux a b ∧
      Stmt.Rebuilt (c.collectionFor observer) (d'.Image (handlePlace d' p' a)) turn
        b.start b.walked ∧
      (turn = loopWithIterator dir ↔ d'.concreteName p'.registry (c.collectionFor observer) = .ok collection ∧
        (d'.facts.direction? a.key).getD .forward = dir) ∧
      (d'.concreteName p'.registry (c.collectionFor observer) ≠ .ok collection →
        turn = loopItself) ∧
      (∀ x ∈ Stmt.listParts b.result.body, ¬ x.LoopsOver collection) ∧
      ∀ pre post, p.template.auxs = pre ++ aux :: post →
        (∀ other ∈ pre, ∀ o, (ofTrace c events t).Casts p.registry other o →
          genericKey other o.event ≠ genericKey aux a.event ∧ o.key ≠ genericKey aux a.event) →
          d'.facts.direction? a.key = some dir := by
  obtain ⟨collection, hlast, hknown⟩ := decode_collection h haux ha
  obtain ⟨cls, hcls⟩ : ∃ cls, p'.registry.class? a.participants.subject = some cls := by
    cases hcls : p'.registry.class? a.participants.subject with
    | some cls => exact ⟨cls, rfl⟩
    | none => simp [Registry.methodsOf, hcls] at hlisted
  have hcollection := hknown cls hcls
  have hne : collection ≠ "subcls" := by
    obtain ⟨-, -, -, -, other, -, -, -, -, -, rfl⟩ := hlast
    exact collectionFor_ne _ other
  obtain ⟨b, turn, hstages, hrebuilt, hyes, hno, hnormal⟩ :=
    decode_handle h hnodup haux ha hapart hsubject hlisted honce hcls hcollection hne
  obtain ⟨observer, hobserver, hname⟩ := names_collection hstages.names
  rw [hname] at hrebuilt hyes hno
  refine ⟨observer, collection, b, turn, hobserver, hlast, hknown, hstages, hrebuilt, ?_, hno, ?_, ?_⟩
  · constructor
    · rintro rfl
      by_cases hrecognised : d'.concreteName p'.registry (c.collectionFor observer) = .ok collection
      · exact ⟨hrecognised, (loopWithIterator_inj (hyes hrecognised)).symm⟩
      · exact absurd (hno hrecognised).symm (loopItself_ne_loopWithIterator dir)
    · rintro ⟨hrecognised, rfl⟩
      exact hyes hrecognised
  · intro x hx
    exact (hnormal x hx).noLoop collection hcollection
  · intro pre post hsplit hbefore
    obtain ⟨d₁, p₁, -, hdispatchers, rfl, -, -⟩ := decode_eq_ok h
    rw [hsplit] at hdispatchers
    refine decodeDispatchers_direction hdispatchers ha ?_ (hapart.generic aux haux a ha) hbefore hdir
    intro other hother o ho
    obtain ⟨hgeneric, hkey, -⟩ := hapart.later ha hnodup hsplit other hother o ho
    exact ⟨hgeneric, hkey⟩

private theorem apart_station : Station.decoder.Apart Station.program "AuxObserverReading" readings ∧
    Station.decoder.Apart Station.program "AuxObserverAlarm" alarms := by
  refine ⟨⟨?_, ?_, ?_⟩, ⟨?_, ?_, ?_⟩⟩
  case refine_3 | refine_6 =>
    intro other hother o ho
    rcases cast_of_mem hother ho with ⟨rfl, rfl⟩ | ⟨rfl, rfl⟩ <;> decide
  all_goals
    intro other hother hne o ho
    rcases cast_of_mem hother ho with ⟨rfl, rfl⟩ | ⟨rfl, rfl⟩ <;> first | exact absurd rfl hne | decide

/-- Both dispatchers of the station have the station as their subject. The loop over the displays
stays as it is, the one over the sirens goes from the last to the first. -/
theorem decode_loops_station : ∃ d' p' s, Station.decoder.decode Station.program = .ok (d', p', s) ∧
    (∃ b, Station.decoder.Stages Station.program d' p' "AuxObserverReading" readings b ∧
      Stmt.Rebuilt "_obs_Display" (d'.Image (handlePlace d' p' readings))
        loopItself b.start b.walked) ∧
      ∃ b, Station.decoder.Stages Station.program d' p' "AuxObserverAlarm" alarms b ∧
        Stmt.Rebuilt "_obs_Siren" (d'.Image (handlePlace d' p' alarms))
          (loopWithIterator .reverse) b.start b.walked := by
  have hdecode : okAnd (Station.decoder.decode Station.program) (fun x =>
      ⟨4⟩ ∈ x.2.1.template.classes ∧ ⟨2⟩ ∈ x.2.1.registry.methodsOf ⟨4⟩ ∧ ⟨3⟩ ∈ x.2.1.registry.methodsOf ⟨4⟩ ∧
        x.2.1.listedMethods.count ⟨2⟩ = 1 ∧ x.2.1.listedMethods.count ⟨3⟩ = 1 ∧
          (∃ cls ∈ x.2.1.registry.class? ⟨4⟩, cls.collection = some "_obs_Siren") ∧
            x.1.concreteName x.2.1.registry "_obs_Siren" = .ok "_obs_Siren" ∧
              x.1.concreteName x.2.1.registry "_obs_Display" ≠ .ok "_obs_Siren" ∧
                x.1.facts.direction? "raise_Station_Alarm" = some .reverse) = true := by
    decide +kernel
  obtain ⟨⟨d', p', s⟩, h, hresult⟩ := okAnd_eq_true.1 hdecode
  obtain ⟨hstation, hpublish, hraise, honce₁, honce₂, ⟨cls, hcls, hsiren⟩, hsirens, hdisplays, hreverse⟩ :=
    of_decide_eq_true hresult
  have hforward : Station.trace.facts.direction? (genericKey "AuxObserverReading" "Reading") = some .forward := by
    decide +kernel
  have hbackward : Station.trace.facts.direction? (genericKey "AuxObserverAlarm" "Alarm") = some .reverse := by
    decide +kernel
  refine ⟨d', p', s, h, ?_, ?_⟩
  · obtain ⟨observer, collection, b, turn, hobserver, -, hknown, hstages, hrebuilt, -, hno, -⟩ :=
      decode_loops h (by decide) (by decide) casts_station.1 apart_station.1 hstation hpublish honce₁ hforward
    obtain rfl : "Display" = observer := Except.ok.inj hobserver
    obtain rfl := Option.some.inj ((hknown cls hcls).symm.trans hsiren)
    obtain rfl := hno hdisplays
    exact ⟨b, hstages, hrebuilt⟩
  · obtain ⟨observer, collection, b, turn, hobserver, -, hknown, hstages, hrebuilt, hturn, -⟩ :=
      decode_loops h (by decide) (by decide) casts_station.2 apart_station.2 hstation hraise honce₂ hbackward
    obtain rfl : "Siren" = observer := Except.ok.inj hobserver
    obtain rfl := Option.some.inj ((hknown cls hcls).symm.trans hsiren)
    obtain rfl := hturn.2 ⟨hsirens, by rw [show alarms.key = "raise_Station_Alarm" from rfl, hreverse]; rfl⟩
    exact ⟨b, hstages, hrebuilt⟩

end Decoder

end ObserverPattern
