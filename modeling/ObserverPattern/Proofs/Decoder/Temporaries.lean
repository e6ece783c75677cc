import ObserverPattern.Proofs.Decoder.Commuting
import ObserverPattern.Proofs.Decoder.Locals
import ObserverPattern.Proofs.Decoder.Retyping
import ObserverPattern.Proofs.Decoder.TypeRules
import ObserverPattern.Proofs.Syntax.Leaving

/-!
# Temporary statements

A constructor loses its temporary statements after its body has been traversed, so that the marker counts where the
traversal has left it.

* `walkStmt_fills`: the statements that take the place of a statement fill what the pass leaves of it
  (`Decoder.leaving`), where `walkExpr_fills` says the same of expressions;
* `constructor_temporaries`: nothing takes the place of a statement in a constructor if the marker shows in all that
  is left of the statement.
-/

namespace ObserverPattern

open Text

namespace Decoder

variable {d : Decoder} {q : Position}

/-! ## What the pass leaves -/

/-- What the pass leaves of source text. -/
def leaving (d : Decoder) (q : Position) : Leaving where
  name v := if (d.concreteName q.registry v).toOption = some v then whole v.toList else [none]
  type ty :=
    if d.isMarked ty then
      match d.auxNames.find? (hasWord · ty) with
      | some aux => cutWord aux ty
      | none => [none]
    else whole ty.toList
  image e := (Walk.walkExpr d.pass q e).toOption.getD e
  dispatches e := (d.resolveDispatch q e).toOption ≠ some e
  verdict := Expr.verdict?
  iterator := iterator? q

theorem leaving_inner (d : Decoder) (q : Position) : d.leaving q.inner = d.leaving q := by
  have hexpr : ∀ e, Walk.walkExpr d.pass q.inner e = Walk.walkExpr d.pass q e :=
    Walk.walkExpr_congr (onExpr_congr ⟨rfl, rfl, rfl⟩)
  simp only [leaving, hexpr]
  rfl

private theorem image_of_walkExpr {e e' : Expr} (h : Walk.walkExpr d.pass q e = .ok e') :
    (d.leaving q).image e = e' := by
  simp only [leaving, h]
  rfl

theorem fills_name {v v' : String} (h : d.concreteName q.registry v = .ok v') :
    Fills ((d.leaving q).name v) v'.toList := by
  simp only [leaving, h]
  split
  · next hsame =>
    obtain rfl : v' = v := Option.some.inj hsame
    exact fills_whole _
  · exact fills_gap _

theorem fills_type {ty ty' : String} (h : d.Retypes q.registry ty ty') :
    Fills ((d.leaving q).type ty) ty'.toList := by
  simp only [leaving]
  rcases h with ⟨hmarked, htype⟩ | ⟨hmarked, rfl⟩
  · obtain ⟨aux, subject, hfind, -, rfl⟩ := concreteType_eq_ok.1 htype
    rw [if_pos hmarked, hfind]
    exact fills_cutWord aux subject.name ty
  · rw [if_neg (Bool.eq_false_iff.1 hmarked)]
    exact fills_whole _

/-! ## Expressions -/

private theorem resolvePlaceholder_of_ne {name : String} (h : ¬(name = "CompareString" ∨ name = "Compare"))
    (operands : List Expr) : d.resolvePlaceholder q name operands = .ok (.placeholder name operands) := by
  rw [not_or] at h
  rw [resolvePlaceholder, if_neg h.1, if_neg h.2]

mutual

/-- What takes the place of an expression fills what is left of it. -/
theorem walkExpr_fills : ∀ (e e' : Expr), Walk.walkExpr d.pass q e = .ok e' → Fills ((d.leaving q).expr e) e'.chars
  | .literal l, e', h => by
    rw [← Except.ok.inj h]
    exact fills_whole _
  | .id name, e', h => by
    simp only [Walk.walkExpr, pass, onExpr, bind_eq_ok, pure_eq_ok] at h
    obtain ⟨name', hname, rfl⟩ := h
    exact fills_name hname
  | .field receiver name, e', h => by
    simp only [Walk.walkExpr, pass, onExpr, bind_eq_ok, pure_eq_ok] at h
    obtain ⟨receiver', hreceiver, name', hname, rfl⟩ := h
    have hleft := fills_operand (image_of_walkExpr hreceiver) (walkExpr_fills receiver receiver' hreceiver)
    exact hleft.append (.char '.' (fills_name hname))
  | .call callee args, e', h => by
    have himage := image_of_walkExpr h
    simp only [Walk.walkExpr, bind_eq_ok] at h
    obtain ⟨callee', hcallee, args', hargs, h⟩ := h
    rw [Leaving.expr, himage]
    -- A call that is resolved becomes a truth value, which leaves a single gap.
    rcases resolveCall_eq_ok (show d.resolveCall q callee' args' = .ok e' from h) with ⟨-, rfl⟩ |
      ⟨_, _, _, _, _, -, -, -, -, -, rfl⟩
    · simp only [Expr.isCall, if_true]
      have hargs := fills_commas (walkExprs_fills args args' hargs)
      exact (walkExpr_fills callee callee' hcallee).append (.char '(' (hargs.append (fills_whole [')'])))
    · rw [if_neg (by simp [Expr.bool, Expr.isCall])]
      exact fills_gap _
  | .new ty args, e', h => by
    simp only [Walk.walkExpr, pass, onExpr, bind_eq_ok, Except.ok.injEq] at h
    obtain ⟨args', hargs, rfl⟩ := h
    have hargs := fills_commas (walkExprs_fills args args' hargs)
    exact (fills_whole _).append (.char '(' (hargs.append (fills_whole [')'])))
  | .binary op left right, e', h => by
    simp only [Walk.walkExpr, pass, onExpr, bind_eq_ok, Except.ok.injEq] at h
    obtain ⟨left', hleft, right', hright, rfl⟩ := h
    have hleft := fills_operand (image_of_walkExpr hleft) (walkExpr_fills left left' hleft)
    have hright := fills_operand (image_of_walkExpr hright) (walkExpr_fills right right' hright)
    exact hleft.append (.char ' ' ((fills_whole op.symbol.toList).append (.char ' ' hright)))
  | .cast ty inner, e', h => by
    simp only [Walk.walkExpr, bind_eq_ok] at h
    obtain ⟨inner', hinner, h⟩ := h
    obtain ⟨ty', rfl, hty⟩ := onExpr_cast_type h
    have hinner := fills_operand (image_of_walkExpr hinner) (walkExpr_fills inner inner' hinner)
    exact .char '(' ((fills_type hty).append ((fills_whole [')', ' ']).append hinner))
  | .placeholder name operands, e', h => by
    simp only [Walk.walkExpr, bind_eq_ok] at h
    obtain ⟨operands', hoperands, h⟩ := h
    have hleft := walkExprs_fills operands operands' hoperands
    replace h : d.resolvePlaceholder q name operands' = .ok e' := h
    rw [Leaving.expr]
    split
    · next hname =>
      rcases resolvePlaceholder_eq_ok h with ⟨left, right, rfl, rfl⟩ | ⟨left, right, op, _, rfl, -, -, rfl⟩ |
        ⟨hstring, hcompare, -⟩
      · have hfills := fills_resolved hleft left.isCompound false ".equals(".toList [')']
        simpa [Expr.methodCall, Expr.chars, Expr.listChars, Expr.inParens] using hfills
      · have hfills := fills_resolved hleft left.isCompound right.isCompound (' ' :: (op.symbol.toList ++ [' '])) []
        simpa [Expr.chars] using hfills
      · exact absurd hname (not_or.2 ⟨hstring, hcompare⟩)
    · next hname =>
      rw [resolvePlaceholder_of_ne hname] at h
      obtain rfl := Except.ok.inj h
      exact (fills_whole _).append (.char '(' ((fills_commas hleft).append (fills_whole [')'])))

theorem walkExprs_fills : ∀ es es' : List Expr, Walk.walkExprs d.pass q es = .ok es' →
    FillExprs ((d.leaving q).exprs es) es'
  | [], es', h => by
    rw [Walk.walkExprs, pure_eq_ok] at h
    subst h
    exact .nil
  | e :: es, es', h => by
    simp only [Walk.walkExprs, bind_eq_ok, pure_eq_ok] at h
    obtain ⟨e', he', rest, hrest, rfl⟩ := h
    exact .cons (walkExpr_fills e e' he') (walkExprs_fills es rest hrest)

end

/-! ## Statements -/

private theorem onExpr_isNull {e e' : Expr} (h : d.onExpr q e = .ok e') : e'.isNull = e.isNull := by
  cases e with
  | id name =>
    simp only [onExpr, bind_eq_ok, pure_eq_ok] at h
    obtain ⟨name', -, rfl⟩ := h
    rfl
  | field receiver name =>
    simp only [onExpr, bind_eq_ok, pure_eq_ok] at h
    obtain ⟨name', -, rfl⟩ := h
    rfl
  | call callee args =>
    rcases resolveCall_eq_ok (show d.resolveCall q callee args = .ok e' from h) with ⟨-, rfl⟩ |
      ⟨_, _, _, _, _, -, -, -, -, -, rfl⟩ <;> rfl
  | cast ty inner =>
    obtain ⟨ty', rfl⟩ := onExpr_cast h
    rfl
  | placeholder name operands =>
    rcases resolvePlaceholder_eq_ok (show d.resolvePlaceholder q name operands = .ok e' from h) with
      ⟨_, _, -, rfl⟩ | ⟨_, _, _, _, -, -, -, rfl⟩ | ⟨-, -, rfl⟩ <;> rfl
  | literal l => rw [← Except.ok.inj h]
  | new ty args => rw [← Except.ok.inj h]
  | binary op left right => rw [← Except.ok.inj h]

private theorem isNull_shell (e : Expr) : e.shell.isNull = e.isNull := by
  cases e <;> rfl

/-- Null is the only expression that becomes null. -/
private theorem walkExpr_isNull {e e' : Expr} (h : Walk.walkExpr d.pass q e = .ok e') : e'.isNull = e.isNull := by
  obtain ⟨e₁, hshell, h⟩ := Walk.walkExpr_shell h
  rw [onExpr_isNull h, ← isNull_shell e₁, hshell, isNull_shell]

private theorem walkExprs_fills_filter {es es' : List Expr} (h : Walk.walkExprs d.pass q es = .ok es') :
    FillExprs ((es.filter fun e => !e.isNull).map (d.leaving q).expr) (es'.filter fun e => !e.isNull) := by
  induction es generalizing es' with
  | nil =>
    rw [Walk.walkExprs, pure_eq_ok] at h
    subst h
    exact .nil
  | cons e es ih =>
    simp only [Walk.walkExprs, bind_eq_ok, pure_eq_ok] at h
    obtain ⟨e', he, rest, hrest, rfl⟩ := h
    rw [List.filter_cons, List.filter_cons, walkExpr_isNull he]
    split
    · exact .cons (walkExpr_fills e e' he) (ih hrest)
    · exact ih hrest

/-- A dispatch keeps its receiver and the arguments that are not null. -/
private theorem dispatch_fills {e e' e'' : Expr} (he : Walk.walkExpr d.pass q e = .ok e')
    (h : d.resolveDispatch q e' = .ok e'') (hne : e'' ≠ e') : Fills ((d.leaving q).dispatch e) e''.chars := by
  obtain ⟨_, _, receiver', args', method, rfl, -, rfl⟩ := (resolveDispatch_eq_ok h).resolve_left hne
  unfold Leaving.dispatch
  split
  · next callee target receiver args =>
    simp only [Walk.walkExpr, Walk.walkExprs, bind_eq_ok, pure_eq_ok] at he
    obtain ⟨callee', -, _, ⟨_, -, _, ⟨_, hreceiver, _, hargs, rfl⟩, rfl⟩, he⟩ := he
    rcases resolveCall_eq_ok (show d.resolveCall q callee' _ = .ok _ from he) with ⟨-, heq⟩ |
      ⟨_, _, _, _, _, -, -, -, -, -, heq⟩
    · cases heq
      have hreceiver := fills_operand (image_of_walkExpr hreceiver) (walkExpr_fills receiver receiver' hreceiver)
      have hargs := (fills_commas (walkExprs_fills_filter hargs)).append (fills_whole [')'])
      have hfills := hreceiver.append (.char '.' (.gap method.toList (.char '(' hargs)))
      simp only [Expr.methodCall, Expr.chars, List.append_assoc, List.cons_append]
      exact hfills
    · cases heq
  · exact fills_gap _

/-- A loop with an iterator fills what is left of the loop. -/
private theorem loopWithIterator_fills {source source' : Expr} {body' : Block} {left : List Gapped}
    {iterator : String} (hsource : Walk.walkExpr d.pass q source = .ok source') (hbody : FillStmts left body')
    (hiterator : iterator = "iter_" ++ source'.lastName?.getD "") (direction : Direction) (ty var : String) :
    FillStmts [(d.leaving q).iteratorDeclaration iterator source, Leaving.iteratorLoop iterator ty var left]
      (loopWithIterator direction ty var source' body') := by
  have hfills := walkExpr_fills source source' hsource
  simp only [loopWithIterator, ← hiterator]
  exact .cons (fills_iteratorDeclaration (image_of_walkExpr hsource) hfills iterator (iteratorMethod direction))
    (.cons (fills_iteratorLoop hbody iterator ty var) .nil)

mutual

/-- The statements that take the place of a statement fill what is left of it. -/
theorem walkStmt_fills : ∀ (q : Position) (s : Stmt) (b : Block), Walk.walkStmt d.pass q s = .ok b →
    FillStmts ((d.leaving q).stmt s) b
  | q, .expr e, b, h => by
    rw [Walk.walkStmt, bind_eq_ok] at h
    obtain ⟨e', he, h⟩ := h
    simp only [pass, onStmt, bind_eq_ok, pure_eq_ok] at h
    obtain ⟨e'', hresolve, rfl⟩ := h
    rw [Leaving.stmt, image_of_walkExpr he]
    refine .cons ?_ .nil
    by_cases hsame : e'' = e'
    · subst hsame
      rw [if_neg (by simp [leaving, hresolve, Except.toOption])]
      exact (walkExpr_fills e _ he).append (fills_whole [';'])
    · rw [if_pos (by simpa [leaving, hresolve, Except.toOption] using hsame)]
      exact (dispatch_fills he hresolve hsame).append (fills_whole [';'])
  | q, .assign ty target value, b, h => by
    simp only [Walk.walkStmt, bind_eq_ok] at h
    obtain ⟨target', htarget, value', hvalue, h⟩ := h
    have hrest := (walkExpr_fills target target' htarget).append ((fills_whole " = ".toList).append
      ((walkExpr_fills value value' hvalue).append (fills_whole [';'])))
    cases ty with
    | none =>
      obtain rfl := Except.ok.inj (show Except.ok [.assign none target' value'] = .ok b from h)
      exact .cons hrest .nil
    | some ty =>
      obtain ⟨ty', rfl, hty⟩ := onStmt_declare_type h
      exact .cons ((fills_type hty).append (.char ' ' hrest)) .nil
  | q, .ifElse cond thenBody elseBody, b, h => by
    simp only [Walk.walkStmt, bind_eq_ok] at h
    obtain ⟨cond', hcond, -, -, then', hthen, -, -, else', helse, h⟩ := h
    have hthen := walkStmts_fills q.inner thenBody then' hthen
    have helse := walkStmts_fills q.inner elseBody else' helse
    -- The pass leaves the same of nested blocks as of the block around them.
    rw [leaving_inner] at hthen helse
    rw [Leaving.stmt, image_of_walkExpr hcond, onStmt_ifElse_verdict (show d.onStmt q _ = .ok b from h)]
    change FillStmts (match cond'.verdict? with | some true => _ | some false => _ | none => _) _
    cases cond'.verdict? with
    | none =>
      refine .cons ?_ .nil
      refine ((fills_whole "if (".toList).append (walkExpr_fills cond cond' hcond)).append ?_
      refine (fills_whole ") ".toList).append ((fills_braces hthen).append ?_)
      rw [helse.isEmpty_eq]
      split
      · exact .nil
      · exact (fills_whole " else ".toList).append (fills_braces helse)
    | some taken =>
      cases taken with
      | true => exact hthen
      | false => exact helse
  | q, .forEach ty var source body, b, h => by
    simp only [Walk.walkStmt, bind_eq_ok] at h
    obtain ⟨source', hsource, -, -, body', hbody, h⟩ := h
    have hbody := walkStmts_fills q.inner body body' hbody
    rw [leaving_inner] at hbody
    rw [Leaving.stmt, image_of_walkExpr hsource]
    change FillStmts (match iterator? q source' with | none => _ | some iterator => _) _
    rcases onStmt_forEach_iterator h with ⟨hiterator, rfl⟩ | ⟨direction, hiterator, rfl⟩
    · rw [hiterator]
      refine .cons ?_ .nil
      have hsource := (fills_whole (var.toList ++ " : ".toList)).append (walkExpr_fills source source' hsource)
      have hbraces := (fills_whole ") ".toList).append (fills_braces hbody)
      exact (fills_whole _).append (.char ' ' (hsource.append hbraces))
    · rw [hiterator]
      exact loopWithIterator_fills hsource hbody rfl direction ty var
  | q, .whileLoop cond body, b, h => by
    simp only [Walk.walkStmt, pass, onStmt, bind_eq_ok, Except.ok.injEq] at h
    obtain ⟨cond', hcond, -, -, body', hbody, rfl⟩ := h
    have hbody := walkStmts_fills q.inner body body' hbody
    rw [leaving_inner] at hbody
    have hbraces := (fills_whole ") ".toList).append (fills_braces hbody)
    refine .cons ?_ .nil
    exact (fills_whole "while (".toList).append ((walkExpr_fills cond cond' hcond).append hbraces)
  | q, .ret value, b, h => by
    simp only [Walk.walkStmt, pass, onStmt, bind_eq_ok, Except.ok.injEq] at h
    obtain ⟨value', hvalue, rfl⟩ := h
    cases value with
    | none =>
      rw [Walk.walkOption, pure_eq_ok] at hvalue
      subst hvalue
      exact .cons (fills_whole _) .nil
    | some e =>
      simp only [Walk.walkOption, bind_eq_ok, pure_eq_ok] at hvalue
      obtain ⟨e', he, rfl⟩ := hvalue
      exact .cons ((fills_whole "return ".toList).append ((walkExpr_fills e e' he).append (fills_whole [';']))) .nil

theorem walkStmts_fills : ∀ (q : Position) (b b' : Block), Walk.walkStmts d.pass q b = .ok b' →
    FillStmts ((d.leaving q).block b) b'
  | q, [], b', h => by
    rw [Walk.walkStmts, pure_eq_ok] at h
    subst h
    exact .nil
  | q, s :: b, b', h => by
    simp only [Walk.walkStmts, bind_eq_ok, pure_eq_ok] at h
    obtain ⟨new, hnew, rest, hrest, rfl⟩ := h
    exact List.rel_append (walkStmt_fills q s new hnew) (walkStmts_fills q b rest hrest)

end

/-! ## Constructors -/

section Constructor

variable {id : MethodId} {m : MethodDecl} {s : Stmt} {b' : Block}

/-- Of what takes the place of a statement in a constructor, the traversal keeps the statements that do not show the
marker. It keeps none if the marker shows in all that is left of the statement. -/
theorem constructor_temporaries (hmethod : q.method = some id) (hm : q.registry.method? id = some m)
    (hinit : m.isInit = true) (h : Walk.walkBlock d.pass q [s] >>= d.onMethod q = .ok b') :
    ∃ b, Walk.walkBlock d.pass q [s] = .ok b ∧
      FillStmts ((d.leaving q).stmt s) b ∧
      b' = b.filter (fun t => !Text.occursIn d.conventions.tmpMarker t.source) ∧
      ((∀ g ∈ (d.leaving q).stmt s, whole d.conventions.tmpMarker.toList <:+: g) → b' = []) := by
  obtain ⟨b, hwalk, hrule⟩ := bind_eq_ok.1 h
  have hfills : FillStmts ((d.leaving q).stmt s) b := by
    simp only [Walk.walkBlock, bind_eq_ok] at hwalk
    obtain ⟨-, -, hwalk⟩ := hwalk
    have hblock := walkStmts_fills q [s] b hwalk
    rwa [Leaving.block, Leaving.block, List.append_nil] at hblock
  have hkept : b' = b.filter (fun t => !Text.occursIn d.conventions.tmpMarker t.source) := by
    cases b with
    | nil => exact List.subset_nil.1 (onMethod_subset hrule)
    | cons first rest =>
      rw [onMethod_eq hmethod, Registry.getMethod_eq_ok.2 hm] at hrule
      simp only [Except.map, ok_bind, hinit, if_true, Except.ok.injEq] at hrule
      exact hrule.symm
  refine ⟨b, hwalk, hfills, hkept, fun hleft => ?_⟩
  rw [hkept, List.filter_eq_nil_iff]
  intro t ht
  rw [hfills.occursIn hleft t ht]
  decide

end Constructor

end Decoder

namespace Station

/-- The place of the constructor of the tower. -/
def inTower (r : Registry) : Position := ⟨r, ⟨7⟩, some ⟨7⟩, 0, 256⟩

/-- A branch that declares a temporary reading. -/
def ifReady : Stmt :=
  .ifElse (.id "ready") [.declare "AuxObserverReading" "reading_tmp" (.literal .null)] []

end Station

namespace Decoder

/-- Once the dispatchers are decoded, nothing is left of the branch in the constructor of the tower. -/
theorem constructor_temporaries_tower : ∃ d₁ p₁ m,
    Station.towerDecoder.decodeDispatchers Station.withTower Station.withTower.template.auxs = .ok (d₁, p₁) ∧
    p₁.registry.method? ⟨7⟩ = some m ∧ m.isInit = true ∧
    let d := d₁.prepare p₁.registry
    let q := Station.inTower p₁.registry
    Text.occursIn d.conventions.tmpMarker Station.ifReady.source = true ∧
    (∀ g ∈ (d.leaving q).stmt Station.ifReady, whole d.conventions.tmpMarker.toList <:+: g) ∧
    Walk.walkBlock d.pass q [Station.ifReady] >>= d.onMethod q = .ok [] := by
  have hdecode : okAnd (Station.towerDecoder.decodeDispatchers Station.withTower Station.withTower.template.auxs)
      (fun x =>
        let d := x.1.prepare x.2.registry
        let q := Station.inTower x.2.registry
        (x.2.registry.method? ⟨7⟩).any (·.isInit) &&
          (Text.occursIn d.conventions.tmpMarker Station.ifReady.source &&
          (decide (∀ g ∈ (d.leaving q).stmt Station.ifReady, whole d.conventions.tmpMarker.toList <:+: g) &&
            okAnd (Walk.walkBlock d.pass q [Station.ifReady] >>= d.onMethod q) fun _ => true))) = true := by
    decide +kernel
  obtain ⟨⟨d₁, p₁⟩, hdispatchers, hresult⟩ := okAnd_eq_true.1 hdecode
  simp only [Bool.and_eq_true, Option.any_eq_true, decide_eq_true_eq] at hresult
  obtain ⟨⟨m, hm, hinit⟩, hmarker, hleft, hwalk⟩ := hresult
  obtain ⟨b', hwalk, -⟩ := okAnd_eq_true.1 hwalk
  obtain ⟨_, -, -, -, hempty⟩ := constructor_temporaries rfl hm hinit hwalk
  obtain rfl := hempty hleft
  exact ⟨d₁, p₁, m, hdispatchers, hm, hinit, hmarker, hleft, hwalk⟩

/-- A temporary variable that is named after the dispatcher of the readings gets the name of
the station, and stays. -/
theorem renamed_temporary_tower : ∃ d₁ p₁ m,
    Station.towerDecoder.decodeDispatchers Station.withTower Station.withTower.template.auxs = .ok (d₁, p₁) ∧
    p₁.registry.method? ⟨7⟩ = some m ∧ m.isInit = true ∧
    let d := d₁.prepare p₁.registry
    let q := Station.inTower p₁.registry
    let s : Stmt := .declare "AuxObserverReading" "auxobserverreading_tmp" (.literal .null)
    Text.occursIn d.conventions.tmpMarker s.source = true ∧
    Walk.walkBlock d.pass q [s] >>= d.onMethod q = .ok [.declare "Station" "station" (.literal .null)] := by
  have hdecode : okAnd (Station.towerDecoder.decodeDispatchers Station.withTower Station.withTower.template.auxs)
      (fun x =>
        let d := x.1.prepare x.2.registry
        let q := Station.inTower x.2.registry
        let s : Stmt := .declare "AuxObserverReading" "auxobserverreading_tmp" (.literal .null)
        (x.2.registry.method? ⟨7⟩).any (·.isInit) &&
          (Text.occursIn d.conventions.tmpMarker s.source &&
          decide (Walk.walkBlock d.pass q [s] >>= d.onMethod q =
            .ok [.declare "Station" "station" (.literal .null)]))) = true := by
    decide +kernel
  obtain ⟨⟨d₁, p₁⟩, hdispatchers, hresult⟩ := okAnd_eq_true.1 hdecode
  simp only [Bool.and_eq_true, Option.any_eq_true, decide_eq_true_eq] at hresult
  obtain ⟨⟨m, hm, hinit⟩, hmarker, hwalk⟩ := hresult
  exact ⟨d₁, p₁, m, hdispatchers, hm, hinit, hmarker, hwalk⟩

end Decoder

end ObserverPattern
