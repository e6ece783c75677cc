import ObserverPattern.Proofs.Walk.Counting

/-!
# How deep a traversal goes

A traversal refuses blocks that lie too deep. The body of a method is at depth 0, and the blocks of a statement are
one deeper than the block that the statement stands in (`Nested`).

* `Guarded`: a computation gives a value under a condition, and fails in a known way without it;
* `walkStmts_identity`, `walkBlock_identity`: the pass that changes nothing gives a block back, unless the block or
  one that is nested in it lies too deep;
* `walkCounted_identity`: so it goes through a program exactly if no body of a method that is listed is nested too
  deep, and then it leaves the registry as it was.
-/

namespace ObserverPattern

/-! ## Computations under a condition -/

/-- A computation gives a value if a condition holds, and otherwise fails with a fault of some kind. -/
def Guarded {ε α : Type} (P : Prop) (E : ε → Prop) (x : Except ε α) (a : α) : Prop :=
  (P → x = .ok a) ∧ (¬P → ∃ e, E e ∧ x = .error e)

namespace Guarded

variable {ε α β : Type} {P Q : Prop} {E E' : ε → Prop} {x : Except ε α} {a : α}

theorem pure (hP : P) (E : ε → Prop) (a : α) : Guarded P E (.ok a) a := ⟨fun _ => rfl, fun hnot => absurd hP hnot⟩

theorem congr (h : Guarded P E x a) (hPQ : P ↔ Q) : Guarded Q E x a := by
  rwa [← propext hPQ]

/-- The fault may be described further where the condition does not hold. -/
theorem mono (h : Guarded P E x a) (hE : ¬P → ∀ e, E e → E' e) : Guarded P E' x a := by
  refine ⟨h.1, fun hnot => ?_⟩
  obtain ⟨e, he, hx⟩ := h.2 hnot
  exact ⟨e, hE hnot e he, hx⟩

theorem bind {f : α → Except ε β} {b : β} (hx : Guarded P E x a) (hf : Guarded Q E (f a) b) :
    Guarded (P ∧ Q) E (x >>= f) b := by
  by_cases hP : P
  · rw [hx.1 hP]
    exact hf.congr ⟨fun hQ => ⟨hP, hQ⟩, fun h => h.2⟩
  · refine ⟨fun h => absurd h.1 hP, fun _ => ?_⟩
    obtain ⟨e, he, hx⟩ := hx.2 hP
    exact ⟨e, he, by rw [hx]; rfl⟩

/-- A last step that succeeds adds no condition. -/
theorem bind_ok {f : α → Except ε β} {b : β} (hx : Guarded P E x a) (hf : f a = .ok b) : Guarded P E (x >>= f) b := by
  rw [← and_true P]
  exact hx.bind ⟨fun _ => hf, fun hnot => absurd trivial hnot⟩

/-- A fold whose steps give back what they get. -/
theorem foldlM {xs : List β} {f : α → β → Except ε α} {R : β → Prop} (h : ∀ b ∈ xs, Guarded (R b) E (f a b) a) :
    Guarded (∀ b ∈ xs, R b) E (xs.foldlM f a) a := by
  induction xs with
  | nil => exact Guarded.pure (fun _ hb => absurd hb List.not_mem_nil) E a
  | cons b xs ih =>
    rw [List.foldlM_cons]
    have hrest := ih fun b' hb' => h b' (List.mem_cons_of_mem b hb')
    exact ((h b List.mem_cons_self).bind hrest).congr List.forall_mem_cons.symm

/-- The outcomes of a computation of whose result a part is known: it gives a value under the condition only, the
value has this part, and what it fails with is such a fault. -/
theorem of_map {f : α → β} {b : β} (h : Guarded P E (f <$> x) b) :
    ((∃ a, x = .ok a) ↔ P) ∧ (∀ a, x = .ok a → f a = b) ∧ ∀ e, x = .error e → E e := by
  cases x with
  | ok a =>
    have hP : P := by
      by_cases hP : P
      · exact hP
      · obtain ⟨e, -, he⟩ := h.2 hP
        cases he
    refine ⟨⟨fun _ => hP, fun _ => ⟨a, rfl⟩⟩, fun a' ha' => ?_, nofun⟩
    rw [← Except.ok.inj ha']
    exact Except.ok.inj (h.1 hP)
  | error e =>
    have hP : ¬P := fun hP => nomatch h.1 hP
    obtain ⟨e', hE, he'⟩ := h.2 hP
    refine ⟨⟨nofun, fun h => absurd h hP⟩, nofun, fun e'' he'' => ?_⟩
    rw [← Except.error.inj he'', Except.error.inj he']
    exact hE

end Guarded

/-! ## Nested blocks -/

/-- The blocks of a statement. -/
def Stmt.blocks : Stmt → List Block
  | .ifElse _ thenBody elseBody => [thenBody, elseBody]
  | .forEach _ _ _ body => [body]
  | .whileLoop _ body => [body]
  | _ => []

/-- The blocks in a body and their depths: the body is at depth 0, and a block of a statement is one deeper than the
block that the statement stands in. -/
inductive Nested (body : Block) : Nat → Block → Prop
  | self : Nested body 0 body
  | inner {depth : Nat} {b b' : Block} {s : Stmt} (h : Nested body depth b) (hs : s ∈ b) (hb : b' ∈ s.blocks) :
    Nested body (depth + 1) b'

/-- A block that stands at a depth, and all that are nested in it, lie less deep than a bound. -/
def Fits (bound depth : Nat) (b : Block) : Prop := ∀ inner b', Nested b inner b' → depth + inner < bound

/-- The blocks of the statements of a block fit one deeper. -/
def FitsInside (bound depth : Nat) (b : Block) : Prop := ∀ s ∈ b, ∀ b' ∈ s.blocks, Fits bound (depth + 1) b'

theorem Nested.of_inner {b b' b'' : Block} {s : Stmt} {depth : Nat} (hs : s ∈ b) (hb : b' ∈ s.blocks)
    (h : Nested b' depth b'') : Nested b (depth + 1) b'' := by
  induction h with
  | self => exact .inner .self hs hb
  | inner _ hs' hb' ih => exact .inner ih hs' hb'

/-- A nested block is the block itself, or nested in a block of one of its statements. -/
theorem Nested.cases_outer {b b'' : Block} {depth : Nat} (h : Nested b depth b'') :
    depth = 0 ∨ ∃ s ∈ b, ∃ b' ∈ s.blocks, ∃ inner, depth = inner + 1 ∧ Nested b' inner b'' := by
  induction h with
  | self => exact .inl rfl
  | @inner depth b₁ b₂ s h hs hb ih =>
    rcases ih with rfl | ⟨s', hs', b', hb', inner, rfl, hinner⟩
    · cases h
      exact .inr ⟨s, hs, b₂, hb, 0, rfl, .self⟩
    · exact .inr ⟨s', hs', b', hb', inner + 1, rfl, .inner hinner hs hb⟩

theorem fits_iff {bound depth : Nat} {b : Block} : Fits bound depth b ↔ depth < bound ∧ FitsInside bound depth b := by
  constructor
  · intro h
    refine ⟨h 0 b .self, fun s hs b' hb' inner b'' hinner => ?_⟩
    have := h (inner + 1) b'' (hinner.of_inner hs hb')
    omega
  · rintro ⟨hlt, hinside⟩ inner b'' h
    rcases h.cases_outer with rfl | ⟨s, hs, b', hb', inner, rfl, hinner⟩
    · exact hlt
    · have := hinside s hs b' hb' inner b'' hinner
      omega

/-! ## Entries that stay -/

private theorem modify_self {α : Type} {l : List α} {i : Nat} {a : α} {f : α → α} (h : l[i]? = some a)
    (hf : f a = a) :
    l.modify i f = l := by
  apply List.ext_getElem?
  intro n
  rw [List.getElem?_modify]
  by_cases hn : i = n
  · subst hn
    simp [h, hf]
  · simp [hn]

/-- A body that is put back leaves the registry as it was. -/
theorem Registry.setBody_self {r : Registry} {id : MethodId} {m : MethodDecl} (h : r.method? id = some m) :
    r.setBody id m.body = r :=
  congrArg (Registry.mk r.classes) (modify_self h rfl)

theorem Registry.setFields_self {r : Registry} {id : ClassId} {c : ClassDecl} (h : r.class? id = some c) :
    r.setFields id c.fields = r :=
  congrArg (Registry.mk · r.methods) (modify_self h rfl)

namespace Walk

variable {p : Position} {location : String} {r : Registry} {maxDepth : Nat}

/-! ## Trees -/

theorem walkExpr_identity (p : Position) (e : Expr) :
    walkExpr (Pass.identity (m := Except DecodeFault)) p e = .ok e :=
  walkExpr_eq_self e fun _ _ => rfl

/-- The fault of a block that lies too deep. -/
def IsTooDeep (location : String) (maxDepth : Nat) (e : DecodeFault) : Prop :=
  e = .contract location (.tooDeep maxDepth)

theorem enter_guarded (hlocation : p.location = .ok location) (depth : Nat) :
    Guarded (depth < p.maxDepth) (IsTooDeep location p.maxDepth) (p.atDepth depth).enter () := by
  have hlocation : (p.atDepth depth).location = .ok location := hlocation
  have henter : (p.atDepth depth).enter = if depth < p.maxDepth then .ok ()
      else .error (.contract location (.tooDeep p.maxDepth)) := by
    unfold Position.enter
    rw [hlocation]
    rfl
  rw [henter]
  by_cases hdepth : depth < p.maxDepth
  · rw [if_pos hdepth]
    exact .pure hdepth _ _
  · rw [if_neg hdepth]
    exact ⟨fun h => absurd h hdepth, fun _ => ⟨_, rfl, rfl⟩⟩

private theorem enter_walkStmts {α : Type} {Q : Prop} {f : Block → Except DecodeFault α} {a : α}
    (hlocation : p.location = .ok location) {depth : Nat} {b : Block}
    (hb : Guarded (FitsInside p.maxDepth depth b) (IsTooDeep location p.maxDepth)
      (walkStmts .identity (p.atDepth depth) b) b)
    (hf : Guarded Q (IsTooDeep location p.maxDepth) (f b) a) :
    Guarded (Fits p.maxDepth depth b ∧ Q) (IsTooDeep location p.maxDepth)
      (lift (p.atDepth depth).enter >>= fun _ => walkStmts .identity (p.atDepth depth) b >>= f) a := by
  rw [lift_eq]
  refine ((enter_guarded hlocation depth).bind (hb.bind hf)).congr ?_
  rw [fits_iff, and_assoc]

mutual

/-- A statement comes back as it was, unless one of its blocks, or one nested in these, lies too deep. -/
theorem walkStmt_identity (hlocation : p.location = .ok location) : ∀ depth (s : Stmt),
    Guarded (∀ b ∈ s.blocks, Fits p.maxDepth (depth + 1) b) (IsTooDeep location p.maxDepth)
      (walkStmt (Pass.identity (m := Except DecodeFault)) (p.atDepth depth) s) [s]
  | depth, .expr e => by
    rw [walkStmt, walkExpr_identity]
    exact .pure (fun _ hb => absurd hb List.not_mem_nil) _ _
  | depth, .assign ty target value => by
    rw [walkStmt, walkExpr_identity, walkExpr_identity]
    exact .pure (fun _ hb => absurd hb List.not_mem_nil) _ _
  | depth, .ifElse cond thenBody elseBody => by
    have hthen := walkStmts_identity hlocation (depth + 1) thenBody
    have helse := walkStmts_identity hlocation (depth + 1) elseBody
    have hstmt : Guarded True (IsTooDeep location p.maxDepth)
        (Pass.identity.onStmt (p.atDepth depth) (.ifElse cond thenBody elseBody))
        [Stmt.ifElse cond thenBody elseBody] := .pure trivial _ _
    rw [walkStmt, walkExpr_identity]
    -- the blocks are entered one after the other, the second only if the first fits
    refine (enter_walkStmts hlocation hthen (enter_walkStmts hlocation helse hstmt)).congr ?_
    rw [and_true, Stmt.blocks, List.forall_mem_cons, List.forall_mem_singleton]
  | depth, .forEach ty var source body => by
    have hbody := walkStmts_identity hlocation (depth + 1) body
    have hstmt : Guarded True (IsTooDeep location p.maxDepth)
        (Pass.identity.onStmt (p.atDepth depth) (.forEach ty var source body))
        [Stmt.forEach ty var source body] := .pure trivial _ _
    rw [walkStmt, walkExpr_identity]
    refine (enter_walkStmts hlocation hbody hstmt).congr ?_
    rw [and_true, Stmt.blocks, List.forall_mem_singleton]
  | depth, .whileLoop cond body => by
    have hbody := walkStmts_identity hlocation (depth + 1) body
    have hstmt : Guarded True (IsTooDeep location p.maxDepth)
        (Pass.identity.onStmt (p.atDepth depth) (.whileLoop cond body)) [Stmt.whileLoop cond body] :=
      .pure trivial _ _
    rw [walkStmt, walkExpr_identity]
    refine (enter_walkStmts hlocation hbody hstmt).congr ?_
    rw [and_true, Stmt.blocks, List.forall_mem_singleton]
  | depth, .ret value => by
    rw [walkStmt, walkOption_eq_self fun _ _ => rfl]
    exact .pure (fun _ hb => absurd hb List.not_mem_nil) _ _

theorem walkStmts_identity (hlocation : p.location = .ok location) : ∀ depth (b : Block),
    Guarded (FitsInside p.maxDepth depth b) (IsTooDeep location p.maxDepth)
      (walkStmts (Pass.identity (m := Except DecodeFault)) (p.atDepth depth) b) b
  | depth, [] => .pure (fun _ hs => absurd hs List.not_mem_nil) _ _
  | depth, s :: b => by
    have hhead := walkStmt_identity hlocation depth s
    have hrest := walkStmts_identity hlocation depth b
    have hblock : Guarded True (IsTooDeep location p.maxDepth) (.ok ([s] ++ b)) (s :: b) := .pure trivial _ _
    rw [walkStmts]
    refine (hhead.bind (hrest.bind hblock)).congr ?_
    rw [and_true]
    exact (List.forall_mem_cons (p := fun s : Stmt => ∀ b' ∈ s.blocks, Fits p.maxDepth (depth + 1) b')).symm

end

/-- A block comes back as it was, unless it or one that is nested in it lies too deep. -/
theorem walkBlock_identity (hlocation : p.location = .ok location) (depth : Nat) (b : Block) :
    Guarded (Fits p.maxDepth depth b) (IsTooDeep location p.maxDepth)
      (walkBlock (Pass.identity (m := Except DecodeFault)) (p.atDepth depth) b) b := by
  have hstmts := walkStmts_identity hlocation depth b
  rw [walkBlock, lift_eq]
  exact ((enter_guarded hlocation depth).bind hstmts).congr fits_iff.symm

theorem walkFields_identity (p : Position) (fields : List Field) :
    walkFields (Pass.identity (m := Except DecodeFault)) p fields = .ok fields := by
  induction fields with
  | nil => rfl
  | cons f fields ih =>
    have hfield : walkField (Pass.identity (m := Except DecodeFault)) p f = .ok [f] := by
      rw [walkField, walkOption_eq_self fun _ _ => rfl]
      rfl
    rw [walkFields, hfield, ih]
    rfl

/-! ## Registries -/

/-- The fault of a body of a class that is nested too deep. -/
def BodyTooDeep (r : Registry) (maxDepth : Nat) (c : ClassDecl) (e : DecodeFault) : Prop :=
  ∃ k ∈ c.methods, ∃ m, r.method? k = some m ∧ ¬Fits maxDepth 0 m.body ∧
    IsTooDeep (c.name ++ "." ++ m.name) maxDepth e

theorem walkMethod_identity {owner : ClassId} {c : ClassDecl} (hc : r.class? owner = some c) {k : MethodId}
    {m : MethodDecl} (hm : r.method? k = some m) :
    Guarded (Fits maxDepth 0 m.body) (IsTooDeep (c.name ++ "." ++ m.name) maxDepth)
      (walkMethod .identity maxDepth owner r k) r := by
  have hgetMethod : r.getMethod k = .ok m := Registry.getMethod_eq_ok.2 hm
  have howner : r.className owner = .ok c.name := Registry.className_eq_ok.2 ⟨c, hc, rfl⟩
  have hlocation := Position.location_withoutBody howner hm 0 maxDepth
  have hput : (r.withoutBody k).putBody k m.body = .ok r := by
    rw [Registry.putBody_withoutBody]
    exact Registry.putBody_eq_ok.2 ⟨by rw [hm]; rfl, (Registry.setBody_self hm).symm⟩
  have hlast : (lift ((r.withoutBody k).putBody k m.body) : Except DecodeFault Registry) = .ok r := by
    rw [lift_eq, hput]
  rw [walkMethod, hgetMethod]
  exact (walkBlock_identity hlocation 0 m.body).bind_ok hlast

theorem walkClass_identity {id : ClassId} {c : ClassDecl} (hc : r.class? id = some c)
    (hmethods : ∀ k ∈ c.methods, (r.method? k).isSome) :
    Guarded (∀ k ∈ c.methods, ∀ m, r.method? k = some m → Fits maxDepth 0 m.body) (BodyTooDeep r maxDepth c)
      (walkClass .identity maxDepth r id) r := by
  have hput : (r.withoutFields id).putFields id c.fields = .ok r := by
    rw [Registry.putFields_withoutFields]
    exact Registry.putFields_eq_ok.2 ⟨by rw [hc]; rfl, (Registry.setFields_self hc).symm⟩
  have hclass : walkClass (Pass.identity (m := Except DecodeFault)) maxDepth r id =
      c.methods.foldlM (walkMethod .identity maxDepth id) r := by
    rw [walkClass, Registry.getClass_eq_ok.2 hc]
    show (walkFields (Pass.identity (m := Except DecodeFault)) ⟨r.withoutFields id, id, none, 0, maxDepth⟩
      c.fields >>= _) = _
    rw [walkFields_identity]
    show ((lift ((r.withoutFields id).putFields id c.fields) : Except DecodeFault Registry) >>= _) = _
    rw [lift_eq, hput]
    rfl
  rw [hclass]
  -- each method finds the registry as it was, also one that has been gone through before
  refine Guarded.foldlM fun k hk => ?_
  obtain ⟨m, hm⟩ := Option.isSome_iff_exists.1 (hmethods k hk)
  have hfits : Fits maxDepth 0 m.body ↔ ∀ m', r.method? k = some m' → Fits maxDepth 0 m'.body := by
    rw [hm]
    exact ⟨fun h m' hm' => Option.some.inj hm' ▸ h, fun h => h m rfl⟩
  refine ((walkMethod_identity hc hm).mono fun hdeep e he => ?_).congr hfits
  exact ⟨k, hk, m, hm, hdeep, he⟩

/-- The pass that changes nothing goes through a program unless a body that is listed is nested too deep. -/
theorem walk_identity {t : Template} (hclasses : ∀ id ∈ t.classes, (r.class? id).isSome)
    (hmethods : ∀ id ∈ t.classes, ∀ k ∈ r.methodsOf id, (r.method? k).isSome) :
    Guarded (∀ id ∈ t.classes, ∀ k ∈ r.methodsOf id, ∀ m, r.method? k = some m → Fits maxDepth 0 m.body)
      (fun e => ∃ id ∈ t.classes, ∃ c, r.class? id = some c ∧ BodyTooDeep r maxDepth c e)
      (walk .identity maxDepth t r) r := by
  refine Guarded.foldlM fun id hid => ?_
  obtain ⟨c, hc⟩ := Option.isSome_iff_exists.1 (hclasses id hid)
  have hlisted := hmethods id hid
  rw [Registry.methodsOf_eq hc] at hlisted ⊢
  exact (walkClass_identity hc hlisted).mono fun _ e he => ⟨id, hid, c, hc, he⟩

/-- The pass that changes nothing goes through a program exactly if each block of each body that is listed lies less
deep than the limit. Then the registry stays as it was, and otherwise the fault names a body with a block that lies
too deep. It does not matter how often a class or a method is listed. -/
theorem walkCounted_identity {t : Template} (hclasses : ∀ id ∈ t.classes, (r.class? id).isSome)
    (hmethods : ∀ id ∈ t.classes, ∀ k ∈ r.methodsOf id, (r.method? k).isSome) :
    ((∃ result, walkCounted (Pass.identity (m := Except DecodeFault)) maxDepth t r = .ok result) ↔
      ∀ id ∈ t.classes, ∀ k ∈ r.methodsOf id, ∀ m, r.method? k = some m →
        ∀ depth b, Nested m.body depth b → depth < maxDepth) ∧
    (∀ r' tally, walkCounted (Pass.identity (m := Except DecodeFault)) maxDepth t r = .ok (r', tally) → r' = r) ∧
    ∀ e, walkCounted (Pass.identity (m := Except DecodeFault)) maxDepth t r = .error e →
      ∃ id ∈ t.classes, ∃ c, r.class? id = some c ∧ ∃ k ∈ c.methods, ∃ m, r.method? k = some m ∧
        (∃ depth b, Nested m.body depth b ∧ maxDepth ≤ depth) ∧
        e = .contract (c.name ++ "." ++ m.name) (.tooDeep maxDepth) := by
  have hfits (b : Block) : Fits maxDepth 0 b ↔ ∀ depth b', Nested b depth b' → depth < maxDepth := by
    simp only [Fits, Nat.zero_add]
  have hwalk := @walk_identity r maxDepth t hclasses hmethods
  rw [← fst_walkCounted] at hwalk
  obtain ⟨hok, hsame, hfault⟩ := hwalk.of_map
  simp only [hfits] at hok
  refine ⟨hok, fun r' tally h => hsame (r', tally) h, fun e he => ?_⟩
  obtain ⟨id, hid, c, hc, k, hk, m, hm, hdeep, he⟩ := hfault e he
  refine ⟨id, hid, c, hc, k, hk, m, hm, ?_, he⟩
  simp only [hfits, Classical.not_forall, Nat.not_lt, exists_prop] at hdeep
  exact hdeep

/-- A class `C` that lists a method twice, with an empty block two blocks below its body. -/
def stair : Registry where
  classes := [{ ClassDecl.empty "C" with methods := [⟨0⟩, ⟨0⟩] }]
  methods := [⟨"run", ⟨0⟩, [], "void", false, [.ifElse (.id "a") [] [.whileLoop (.id "b") []]]⟩]

/-- The class of `stair`, twice. -/
def flight : Template := ⟨[⟨0⟩, ⟨0⟩], []⟩

/-- Three levels are enough for `stair`, and two are not. -/
theorem walkCounted_identity_stair :
    (∃ tally, walkCounted (Pass.identity (m := Except DecodeFault)) 3 flight stair = .ok (stair, tally)) ∧
      walkCounted (Pass.identity (m := Except DecodeFault)) 2 flight stair =
        .error (.contract "C.run" (.tooDeep 2)) := by
  have hclasses : ∀ id ∈ flight.classes, (stair.class? id).isSome := by decide
  have hmethods : ∀ id ∈ flight.classes, ∀ k ∈ stair.methodsOf id, (stair.method? k).isSome := by decide
  constructor
  · have hok : okAnd (walkCounted (Pass.identity (m := Except DecodeFault)) 3 flight stair)
        (fun _ => true) = true := by
      decide +kernel
    obtain ⟨⟨r', tally⟩, hok, -⟩ := okAnd_eq_true.1 hok
    obtain ⟨-, hsame, -⟩ := @walkCounted_identity stair 3 flight hclasses hmethods
    have hr' : r' = stair := hsame r' tally hok
    exact ⟨tally, hr' ▸ hok⟩
  · obtain ⟨hdepth, -, hfault⟩ := @walkCounted_identity stair 2 flight hclasses hmethods
    cases h : walkCounted (Pass.identity (m := Except DecodeFault)) 2 flight stair with
    | ok result =>
      have hempty : Nested [.ifElse (.id "a") [] [.whileLoop (.id "b") []]] 2 [] :=
        .inner (.inner .self (.head _) (.tail _ (.head _))) (.head _) (.head _)
      have hlt := hdepth.1 ⟨result, h⟩ ⟨0⟩ (by decide) ⟨0⟩ (by decide) _ rfl 2 [] hempty
      exact absurd hlt (by decide)
    | error e =>
      obtain ⟨id, hid, c, hc, k, hk, m, hm, -, rfl⟩ := hfault e h
      have hid : id = ⟨0⟩ := by simpa [flight] using hid
      subst hid
      obtain rfl := Option.some.inj hc
      have hk : k = ⟨0⟩ := by simpa using hk
      subst hk
      obtain rfl := Option.some.inj hm
      rfl

end Walk

end ObserverPattern
