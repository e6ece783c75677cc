import Mathlib.Data.List.Flatten
import ObserverPattern.Proofs.Decoder.LastRole
import ObserverPattern.Proofs.Decoder.Places
import ObserverPattern.Proofs.Decoder.Skeleton
import ObserverPattern.Proofs.Syntax.Locals
import ObserverPattern.Proofs.Walk.Trees

/-!
# The locals of a decoded method

A decode may make a block declare a name twice: names may be renamed alike, a branch on a truth value is put in the
block around it, and each loop over the collection declares the iterator that is called after the collection.

* `Decoder.scoping` reads a body as the traversal leaves it, and `walkStmts_locals` says that this reading is right;
* `decode_locals`: no block of a method declares a name twice, if none does in this reading of the body that the
  last visit of the method starts from. Only constructors lose statements, so for all other methods this is necessary,
  too.
-/

namespace ObserverPattern

/-- The truth value that an expression is written as. -/
def Expr.verdict? (e : Expr) : Option Bool :=
  if e.source = "false" then some false else if e.source = "true" then some true else none

namespace Decoder

variable {d d' : Decoder} {p p' : Program} {q : Position} {b b' : Block}

/-! ## How the pass reads a body -/

/-- The iterator of the loop that takes the place of a loop over a source. -/
def iterator? (q : Position) (source : Expr) : Option String :=
  if walksCollection q source = .ok true then some ("iter_" ++ source.lastName?.getD "") else none

/-- The locals of a body as the traversal leaves them at a place. -/
def scoping (d : Decoder) (q : Position) : Stmt.Scoping where
  name v := (d.concreteName q.registry v).toOption.getD v
  verdict cond := (Walk.walkExpr d.pass q cond).toOption.bind Expr.verdict?
  iterator source := (Walk.walkExpr d.pass q source).toOption.bind (iterator? q)

/-- A branch on a truth value is replaced by the statements that are taken. -/
theorem onStmt_ifElse_verdict {cond : Expr} {thenBody elseBody : Block}
    (h : d.onStmt q (.ifElse cond thenBody elseBody) = .ok b) :
    b = match cond.verdict? with
      | some true => thenBody
      | some false => elseBody
      | none => [.ifElse cond thenBody elseBody] := by
  rw [onStmt_ifElse h, Expr.verdict?]
  split
  · rfl
  · split <;> rfl

/-- A loop over the collection gets an iterator, and any other loop stays. -/
theorem onStmt_forEach_iterator {ty var : String} {source : Expr} {body : Block}
    (h : d.onStmt q (.forEach ty var source body) = .ok b) :
    iterator? q source = none ∧ b = [.forEach ty var source body] ∨
      ∃ direction, iterator? q source = some ("iter_" ++ source.lastName?.getD "") ∧
        b = loopWithIterator direction ty var source body := by
  obtain ⟨walks, hwalks, hloop⟩ := onStmt_forEach h
  unfold iterator?
  rw [hwalks]
  rcases hloop with ⟨rfl, rfl⟩ | ⟨rfl, direction, -, rfl⟩
  · exact .inl ⟨rfl, rfl⟩
  · exact .inr ⟨direction, rfl, rfl⟩

private theorem walksCollection_congr {q' : Position} (houtline : q'.registry.outline = q.registry.outline)
    (howner : q'.owner = q.owner) (source : Expr) : walksCollection q' source = walksCollection q source := by
  have hclass : (q'.registry.class? q.owner).map ClassDecl.outline =
      (q.registry.class? q.owner).map ClassDecl.outline := by
    rw [← Registry.class?_outline, ← Registry.class?_outline, houtline]
  simp only [walksCollection, howner, Registry.getClass]
  cases hc' : q'.registry.class? q.owner <;> cases hc : q.registry.class? q.owner <;> rw [hc', hc] at hclass
  · cases hclass
  · cases hclass
  · next c' c =>
    have hsame : c'.outline = c.outline := Option.some.inj hclass
    have hcollection : c'.collection = c.collection := show c'.outline.collection = c.outline.collection by rw [hsame]
    simp only [ok_bind, hcollection]

/-- Only the outline of the registry, the class and the method matter for the reading. -/
theorem scoping_congr {q' : Position} (houtline : q'.registry.outline = q.registry.outline)
    (howner : q'.owner = q.owner) (hmethod : q'.method = q.method) : d.scoping q' = d.scoping q := by
  have hskeleton := Registry.skeleton_eq_of_outline_eq houtline
  have hname := fun v => Registry.congr_skeleton (d.concreteName · v) (concreteName_skeleton v) hskeleton
  have hexpr : ∀ e, Walk.walkExpr d.pass q' e = Walk.walkExpr d.pass q e :=
    Walk.walkExpr_congr (onExpr_congr ⟨hskeleton, howner, hmethod⟩)
  have hiterator : iterator? q' = iterator? q := by
    funext source
    rw [iterator?, iterator?, walksCollection_congr houtline howner]
  simp only [scoping, hname, hexpr, hiterator]

private theorem scoping_verdict {cond cond' : Expr} (h : Walk.walkExpr d.pass q cond = .ok cond') :
    (d.scoping q).verdict cond = cond'.verdict? := by
  simp only [scoping, h]
  rfl

private theorem scoping_iterator {source source' : Expr} (h : Walk.walkExpr d.pass q source = .ok source') :
    (d.scoping q).iterator source = iterator? q source' := by
  simp only [scoping, h]
  rfl

/-- The locals of a body as a visit of a method at a class leaves them. -/
def methodScoping (d : Decoder) (r : Registry) (owner : ClassId) (k : MethodId) : Stmt.Scoping :=
  d.scoping ⟨r, owner, some k, 0, d.conventions.maxDepth⟩

/-! ## What a visit declares -/

/-- Only a name becomes a name. -/
private theorem onExpr_name? {e e' : Expr} (h : d.onExpr q e = .ok e') :
    e'.name? = e.name?.map (d.scoping q).name := by
  cases e with
  | id v =>
    simp only [onExpr, bind_eq_ok, pure_eq_ok] at h
    obtain ⟨v', hv', rfl⟩ := h
    simp [Expr.name?, scoping, hv', Except.toOption]
  | field receiver v =>
    simp only [onExpr, bind_eq_ok, pure_eq_ok] at h
    obtain ⟨v', -, rfl⟩ := h
    rfl
  | call callee args =>
    rcases resolveCall_eq_ok (show d.resolveCall q callee args = .ok e' from h) with ⟨-, rfl⟩ |
      ⟨_, _, _, _, _, -, -, -, -, -, rfl⟩
    · rfl
    · rfl
  | cast ty inner =>
    obtain ⟨ty', rfl⟩ := onExpr_cast h
    rfl
  | placeholder name operands =>
    rcases resolvePlaceholder_eq_ok (show d.resolvePlaceholder q name operands = .ok e' from h) with
      ⟨_, _, -, rfl⟩ | ⟨_, _, _, _, -, -, -, rfl⟩ | ⟨-, -, rfl⟩
    · rfl
    · rfl
    · rfl
  | literal l => rw [← Except.ok.inj h]; rfl
  | new ty args => rw [← Except.ok.inj h]; rfl
  | binary op left right => rw [← Except.ok.inj h]; rfl

private theorem walkExpr_name? {e e' : Expr} (h : Walk.walkExpr d.pass q e = .ok e') :
    e'.name? = e.name?.map (d.scoping q).name := by
  obtain ⟨e₁, hshell, h⟩ := Walk.walkExpr_shell h
  rw [onExpr_name? h, ← e₁.name?_shell, hshell, e.name?_shell]

private theorem scoping_inner (q : Position) : d.scoping q.inner = d.scoping q := scoping_congr rfl rfl rfl

mutual

/-- A statement declares what it is read to declare, in its own block and in those nested in it. -/
theorem walkStmt_locals : ∀ (q : Position) (s : Stmt) (b : Block), Walk.walkStmt d.pass q s = .ok b →
    Stmt.ReadsAs (d.scoping q) [s] b
  | q, .expr e, b, h => by
    simp only [Walk.walkStmt, pass, onStmt, bind_eq_ok, pure_eq_ok] at h
    obtain ⟨_, -, e', -, rfl⟩ := h
    exact .expr e e'
  | q, .assign ty target value, b, h => by
    simp only [Walk.walkStmt, bind_eq_ok] at h
    obtain ⟨target', htarget, value', -, h⟩ := h
    obtain ⟨ty', hty, rfl⟩ := onStmt_assign h
    exact .assign hty (walkExpr_name? htarget) value value'
  | q, .ifElse cond thenBody elseBody, b, h => by
    simp only [Walk.walkStmt, bind_eq_ok] at h
    obtain ⟨cond', hcond, -, -, then', hthen, -, -, else', helse, h⟩ := h
    have hthen := walkStmts_locals q.inner thenBody then' hthen
    have helse := walkStmts_locals q.inner elseBody else' helse
    rw [scoping_inner] at hthen helse
    rw [onStmt_ifElse_verdict (show d.onStmt q _ = .ok b from h), ← scoping_verdict hcond]
    exact hthen.ifElse helse cond cond'
  | q, .forEach ty var source body, b, h => by
    simp only [Walk.walkStmt, bind_eq_ok] at h
    obtain ⟨source', hsource, -, -, body', hbody, h⟩ := h
    have hbody := walkStmts_locals q.inner body body' hbody
    rw [scoping_inner] at hbody
    rcases onStmt_forEach_iterator h with ⟨hiterator, rfl⟩ | ⟨direction, hiterator, rfl⟩
    · exact hbody.forEach ((scoping_iterator hsource).trans hiterator) ty var source'
    · exact hbody.iteratorLoop ((scoping_iterator hsource).trans hiterator) ty var _ _ _ _
  | q, .whileLoop cond body, b, h => by
    simp only [Walk.walkStmt, pass, onStmt, bind_eq_ok, Except.ok.injEq] at h
    obtain ⟨cond', -, -, -, body', hbody, rfl⟩ := h
    have hbody := walkStmts_locals q.inner body body' hbody
    rw [scoping_inner] at hbody
    exact hbody.whileLoop cond cond'
  | q, .ret value, b, h => by
    simp only [Walk.walkStmt, pass, onStmt, bind_eq_ok, Except.ok.injEq] at h
    obtain ⟨value', -, rfl⟩ := h
    exact .ret value value'

theorem walkStmts_locals : ∀ (q : Position) (b b' : Block), Walk.walkStmts d.pass q b = .ok b' →
    Stmt.ReadsAs (d.scoping q) b b'
  | q, [], b', h => by
    rw [Walk.walkStmts, pure_eq_ok] at h
    subst h
    exact .nil
  | q, s :: b, b', h => by
    simp only [Walk.walkStmts, bind_eq_ok, pure_eq_ok] at h
    obtain ⟨new, hnew, rest, hrest, rfl⟩ := h
    exact .cons (walkStmt_locals q s new hnew) (walkStmts_locals q b rest hrest)

end

/-! ## A method as a whole -/

private theorem duplicateFree_cons_of_callsSubject {first : Stmt} (h : d.callsSubject first = true) (rest : Block) :
    Stmt.DuplicateFree .plain (first :: rest) ↔ Stmt.DuplicateFree .plain rest := by
  unfold callsSubject at h
  split at h
  · rfl
  · cases h

/-- A method as a whole may lose statements, but no locals unless it is a constructor. -/
theorem onMethod_locals {k : MethodId} {m : MethodDecl} (hmethod : q.method = some k)
    (hm : q.registry.method? k = some m) (h : d.onMethod q b = .ok b') :
    (Stmt.DuplicateFree .plain b → Stmt.DuplicateFree .plain b') ∧
      (m.isInit = false → Stmt.DuplicateFree .plain b' → Stmt.DuplicateFree .plain b) := by
  cases b with
  | nil =>
    have hb' : b' = [] := List.subset_nil.1 (onMethod_subset h)
    subst hb'
    exact ⟨fun hb => hb, fun _ hb => hb⟩
  | cons first rest =>
    rw [onMethod_eq hmethod, Registry.getMethod_eq_ok.2 hm] at h
    change (if m.isInit then _ else _) = _ at h
    split at h
    · next hinit =>
      obtain rfl := Except.ok.inj h
      exact ⟨fun hb => hb.sublist List.filter_sublist, fun hno => absurd hinit (by simp [hno])⟩
    · split at h
      · next hcalls =>
        obtain rfl := Except.ok.inj h
        have hiff := duplicateFree_cons_of_callsSubject hcalls rest
        exact ⟨hiff.1, fun _ => hiff.2⟩
      · obtain rfl := Except.ok.inj h
        exact ⟨fun hb => hb, fun _ hb => hb⟩

/-- What a visit of a method does to its locals. -/
theorem visits_locals {r r' : Registry} {maxDepth : Nat} {owner : ClassId} {k : MethodId} {m : MethodDecl}
    (h : Walk.Visits d.pass maxDepth r owner k b b') (houtline : r'.outline = r.outline)
    (hm : r'.method? k = some m) :
    (Stmt.DuplicateFree (d.methodScoping r' owner k) b → Stmt.DuplicateFree .plain b') ∧
      (m.isInit = false → Stmt.DuplicateFree .plain b' → Stmt.DuplicateFree (d.methodScoping r' owner k) b) := by
  obtain ⟨r₁, body, houtline₁, hblock, hmethod⟩ := h.outcome
  simp only [Walk.walkBlock, Walk.lift_eq, bind_eq_ok] at hblock
  obtain ⟨-, -, hstmts⟩ := hblock
  have hsame : r₁.outline = r'.outline := houtline₁.trans houtline.symm
  have hreads := walkStmts_locals _ b body hstmts
  have hscoping : d.scoping ⟨r₁, owner, some k, 0, maxDepth⟩ = d.methodScoping r' owner k :=
    scoping_congr hsame rfl rfl
  obtain ⟨m₁, hm₁, hheader⟩ := Registry.method?_of_skeleton_eq (Registry.skeleton_eq_of_outline_eq hsame) hm
  have hinit : m₁.isInit = m.isInit := show m₁.header.isInit = m.header.isInit by rw [hheader]
  rw [← hscoping, ← hreads.duplicateFree_iff, ← hinit]
  exact onMethod_locals rfl hm₁ hmethod

/-! ## The whole decode -/

/-- No block of a decoded method declares a name twice, if none does in the reading of the body that the last visit
of the method starts from. For a method that is listed once this is the body that the dispatchers leave. For a method
that is no constructor the condition is also necessary. -/
theorem decode_locals {s : Summary} (h : d.decode p = .ok (d', p', s)) :
    ∃ d₁ p₁, d.decodeDispatchers p p.template.auxs = .ok (d₁, p₁) ∧
      ∀ k ∈ p'.listedMethods, ∃ m m' n owner b, p₁.registry.method? k = some m ∧ p'.registry.method? k = some m' ∧
        p'.listedMethods.count k = n + 1 ∧
        Walk.Visited d'.pass d'.conventions.maxDepth p'.template.classes p₁.registry k m.body n b ∧
        owner ∈ p'.template.classes ∧ k ∈ p'.registry.methodsOf owner ∧
        (Stmt.DuplicateFree (d'.methodScoping p'.registry owner k) b → Stmt.DuplicateFree .plain m'.body) ∧
        (m'.isInit = false → Stmt.DuplicateFree .plain m'.body →
          Stmt.DuplicateFree (d'.methodScoping p'.registry owner k) b) := by
  have hrange := decode_inRange h
  obtain ⟨d₁, p₁, -, hdispatchers, rfl, hwalk, htemplate⟩ := decode_eq_ok h
  refine ⟨d₁, p₁, hdispatchers, fun k hk => ?_⟩
  have houtline := Walk.outline_walk hwalk
  have hskeleton := Registry.skeleton_eq_of_outline_eq houtline
  have hmethodsOf := Registry.methodsOf_congr hskeleton
  obtain ⟨m, hm⟩ : ∃ m, p₁.registry.method? k = some m := by
    rw [← Option.isSome_iff_exists, ← Registry.method?_isSome_congr hskeleton]
    obtain ⟨id, -, hk⟩ := List.mem_flatMap.1 hk
    exact hrange.methodOf hk
  obtain ⟨b', hm', hvisited⟩ := Walk.walk_visited hwalk hm
  have hcount : 0 < p'.listedMethods.count k := List.count_pos_iff.2 hk
  have hlisted : p'.listedMethods = p₁.template.classes.flatMap p₁.registry.methodsOf := by
    rw [Program.listedMethods, htemplate, hmethodsOf]
  obtain ⟨n, hn⟩ := Nat.exists_eq_add_one.2 hcount
  rw [← hlisted, hn, ← htemplate] at hvisited
  cases hvisited with
  | visit before howner last =>
    obtain ⟨hfree, hnecessary⟩ := visits_locals last houtline hm'
    exact ⟨m, _, n, _, _, hm, hm', hn, before, howner, hmethodsOf ▸ last.listed, hfree, hnecessary⟩

end Decoder

/-! ## A station with locals -/

namespace Station

/-- A loop over the sirens of the station. -/
def forSirens (body : Block) : Stmt := .forEach "Siren" "o" (.field (.id "this") "_obs_Siren") body

def number (name : String) : Stmt := .declare "int" name (.literal (.int 0))

/-- The station with another body of its description. -/
def describing (body : Block) : Program :=
  { program with registry := program.registry.setBody ⟨4⟩ body }

/-- A description with a loop over the sirens and with a branch that is always taken. -/
def tellingApart : Block :=
  [.ifElse (.bool true) [number "first"] [number "second"], number "second", forSirens [number "third"]]

/-- A description with four blocks that come to declare a name twice: the iterator of two loops, a name of a branch
that is always taken, a name that two names become, and the variable of a loop over the sirens. -/
def mixingUp : Block :=
  [.whileLoop (.id "wet") [forSirens [], forSirens []],
    .whileLoop (.id "cold") [.ifElse (.bool true) [number "first"] [], number "first"],
    .whileLoop (.id "late") [number "auxobserverreading", number "auxobserveralarm"],
    forSirens [number "o"]]

end Station

namespace Decoder

/-- The dispatchers leave the description alone. -/
private theorem decodeDispatchers_describing {body : Block} {d₁ : Decoder} {p₁ : Program}
    (h : Station.decoder.decodeDispatchers (Station.describing body) (Station.describing body).template.auxs =
      .ok (d₁, p₁)) : ∃ m, p₁.registry.method? ⟨4⟩ = some m ∧ m.body = body := by
  have hskeleton : (Station.describing body).registry.skeleton = Station.program.registry.skeleton :=
    Registry.skeleton_setBody _ _ _
  have hlater : Later Station.decoder Station.program.registry Station.decoder (Station.describing body).registry :=
    ⟨rfl, rfl, rfl, hskeleton⟩
  have hwrites : ∀ aux ∈ Station.program.template.auxs, ∀ c,
      Station.decoder.Casts (Station.describing body).registry aux c →
        ¬ c.participants.Writes (Station.describing body).registry ⟨4⟩ := by
    intro aux haux c hc
    rw [Participants.writes_congr hskeleton]
    rcases cast_of_mem haux (hlater.casts_iff.1 hc) with ⟨-, rfl⟩ | ⟨-, rfl⟩ <;> decide
  exact ⟨_, decodeDispatchers_method h hwrites, rfl⟩

/-- The first description declares no name twice, since it does not as it is read. -/
theorem decode_locals_station : ∃ d' p' s m',
    Station.decoder.decode (Station.describing Station.tellingApart) = .ok (d', p', s) ∧
    p'.registry.method? ⟨4⟩ = some m' ∧ Stmt.DuplicateFree .plain m'.body ∧
      Stmt.localsIn .plain m'.body = ["first", "second", "iter__obs_Siren"] := by
  have hdecode : okAnd (Station.decoder.decode (Station.describing Station.tellingApart)) (fun x =>
      x.2.1.listedMethods.count ⟨4⟩ = 1 ∧
        (∀ owner ∈ x.2.1.template.classes, ⟨4⟩ ∈ x.2.1.registry.methodsOf owner →
          Stmt.DuplicateFree (x.1.methodScoping x.2.1.registry owner ⟨4⟩) Station.tellingApart) ∧
          (x.2.1.registry.method? ⟨4⟩).all fun m =>
            Stmt.localsIn .plain m.body = ["first", "second", "iter__obs_Siren"]) = true := by
    decide +kernel
  obtain ⟨⟨d', p', s⟩, h, hresult⟩ := okAnd_eq_true.1 hdecode
  obtain ⟨honce, hfree, hlocals⟩ := of_decide_eq_true hresult
  obtain ⟨d₁, p₁, hdispatchers, hmethods⟩ := decode_locals h
  have hlisted : ⟨4⟩ ∈ p'.listedMethods := List.count_pos_iff.1 (by rw [honce]; exact Nat.one_pos)
  obtain ⟨m, m', n, owner, b, hm, hm', hn, hvisited, howner, hk, hsufficient, -⟩ := hmethods ⟨4⟩ hlisted
  obtain rfl : n = 0 := Nat.succ.inj (hn.symm.trans honce)
  cases hvisited
  obtain ⟨m₁, hm₁, hbody⟩ := decodeDispatchers_describing hdispatchers
  obtain rfl := Option.some.inj (hm₁.symm.trans hm)
  rw [hm'] at hlocals
  exact ⟨d', p', s, m', h, hm', hsufficient (hbody ▸ hfree owner howner hk), of_decide_eq_true hlocals⟩

/-- The second description declares no name twice, and none like an iterator, and is visited once, but four of the
blocks that come out declare a name twice. -/
theorem locals_clash_station : ∃ d' p' s d₁ p₁ m m',
    Station.decoder.decode (Station.describing Station.mixingUp) = .ok (d', p', s) ∧
    Station.decoder.decodeDispatchers (Station.describing Station.mixingUp)
      (Station.describing Station.mixingUp).template.auxs = .ok (d₁, p₁) ∧
    p'.listedMethods.count ⟨4⟩ = 1 ∧ p₁.registry.method? ⟨4⟩ = some m ∧ p'.registry.method? ⟨4⟩ = some m' ∧
    Stmt.DuplicateFree .plain m.body ∧
    (∀ names ∈ Stmt.localsIn .plain m.body :: Stmt.scopesIn .plain m.body, ∀ v ∈ names,
      Text.startsWith v "iter_" = false) ∧
    ¬ Stmt.DuplicateFree .plain m'.body ∧
    Stmt.scopesIn .plain m'.body = [["iter__obs_Siren", "iter__obs_Siren"], ["o"], ["o"], ["first", "first"],
      ["station", "station"], ["o", "o"]] := by
  have hdecode : okAnd (Station.decoder.decode (Station.describing Station.mixingUp)) (fun x =>
      x.2.1.listedMethods.count ⟨4⟩ = 1 ∧ ((x.2.1.registry.method? ⟨4⟩).any fun m =>
        Stmt.scopesIn .plain m.body = [["iter__obs_Siren", "iter__obs_Siren"], ["o"], ["o"], ["first", "first"],
          ["station", "station"], ["o", "o"]]) = true) = true := by
    decide +kernel
  obtain ⟨⟨d', p', s⟩, h, hresult⟩ := okAnd_eq_true.1 hdecode
  obtain ⟨honce, hmethod⟩ := of_decide_eq_true hresult
  obtain ⟨m', hm', hscopes⟩ := (Option.any_eq_true _ _).1 hmethod
  have hscopes := of_decide_eq_true hscopes
  obtain ⟨d₁, p₁, -, hdispatchers, -⟩ := decode_eq_ok h
  obtain ⟨m, hm, hbody⟩ := decodeDispatchers_describing hdispatchers
  refine ⟨d', p', s, d₁, p₁, m, m', h, hdispatchers, honce, hm, hm', ?_, ?_, ?_, hscopes⟩
  · rw [hbody]
    decide
  · rw [hbody]
    decide +kernel
  · intro hfree
    exact absurd (hfree ["o", "o"] (by rw [hscopes]; simp)) (by decide)

end Decoder

end ObserverPattern
