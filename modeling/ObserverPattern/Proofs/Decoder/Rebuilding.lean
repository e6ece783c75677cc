import ObserverPattern.Proofs.Decoder.NormalForm
import ObserverPattern.Proofs.Decoder.Places

/-!
# How the traversal rebuilds a body

`Stmt.Rebuilt` relates a body with what the traversal of a decoder makes of it: a loop over a given
collection takes one turn throughout, a branch on a truth value is replaced by the statements that are
taken, and everything else stays where it is.

* `walkExpr_lastName`: the last name of a path is renamed by the pass as a name is;
* `walkStmts_rebuilt`: the traversal rebuilds a body, whatever the turn of the loops is.
-/

namespace ObserverPattern

/-- A statement without nested statements. -/
def Stmt.IsSimple : Stmt → Prop
  | .expr _ => True
  | .assign _ _ _ => True
  | .ret _ => True
  | _ => False

/-- How the traversal rebuilds a body. Conditions and sources of loops become their image; loops over
the collection of a given name take a turn. -/
inductive Stmt.Rebuilt (name : String) (image : Expr → Expr → Prop) (turn : String → String → Expr → Block → Block) :
    Block → Block → Prop
  | nil : Rebuilt name image turn [] []
  | simple {s s' : Stmt} {rest rest' : Block} (hs : s.IsSimple) (hs' : s'.IsSimple)
      (hrest : Rebuilt name image turn rest rest') : Rebuilt name image turn (s :: rest) (s' :: rest')
  | ifElse {cond cond' : Expr} {thenBody then' elseBody else' rest rest' : Block} (hcond : image cond cond')
      (hthen : Rebuilt name image turn thenBody then') (helse : Rebuilt name image turn elseBody else')
      (hrest : Rebuilt name image turn rest rest') :
      Rebuilt name image turn (.ifElse cond thenBody elseBody :: rest)
        ((if cond'.source = "false" then else'
          else if cond'.source = "true" then then' else [.ifElse cond' then' else']) ++ rest')
  | whileLoop {cond cond' : Expr} {body body' rest rest' : Block} (hcond : image cond cond')
      (hbody : Rebuilt name image turn body body') (hrest : Rebuilt name image turn rest rest') :
      Rebuilt name image turn (.whileLoop cond body :: rest) (.whileLoop cond' body' :: rest')
  | loop {ty var : String} {source source' : Expr} {body body' rest rest' : Block}
      (hname : source.lastName? = some name) (hsource : image source source')
      (hbody : Rebuilt name image turn body body') (hrest : Rebuilt name image turn rest rest') :
      Rebuilt name image turn (.forEach ty var source body :: rest) (turn ty var source' body' ++ rest')
  | otherLoop {ty var : String} {source source' : Expr} {body body' new rest rest' : Block}
      (hname : source.lastName? ≠ some name) (hsource : image source source')
      (hbody : Rebuilt name image turn body body') (hrest : Rebuilt name image turn rest rest')
      (hnew : new = [.forEach ty var source' body'] ∨
        ∃ direction, new = Decoder.loopWithIterator direction ty var source' body') :
      Rebuilt name image turn (.forEach ty var source body :: rest) (new ++ rest')

namespace Decoder

/-- What the traversal makes of an expression at a place. -/
def Image (d : Decoder) (p : Position) (e e' : Expr) : Prop := Walk.walkExpr d.pass p e = .ok e'

/-- The turn of a loop that stays. -/
def loopItself (ty var : String) (source : Expr) (body : Block) : Block := [.forEach ty var source body]

variable {d : Decoder} {p : Position}

/-! ## Names -/

/-- The last name of a path is renamed as a name is. Only a call of `subcls` may be replaced as a whole. -/
theorem walkExpr_lastName : ∀ (e e' : Expr) (x : String), Walk.walkExpr d.pass p e = .ok e' → e.lastName? = some x →
    ∃ y, d.concreteName p.registry x = .ok y ∧ (e'.lastName? = some y ∨ y = "subcls" ∧ e'.lastName? = none)
  | .id name, e', x, h, hx => by
    obtain rfl : name = x := Option.some.inj hx
    simp only [Walk.walkExpr, pass, onExpr, bind_eq_ok, pure_eq_ok] at h
    obtain ⟨y, hy, rfl⟩ := h
    exact ⟨y, hy, .inl rfl⟩
  | .field receiver name, e', x, h, hx => by
    obtain rfl : name = x := Option.some.inj hx
    simp only [Walk.walkExpr, pass, onExpr, bind_eq_ok, pure_eq_ok] at h
    obtain ⟨receiver', -, y, hy, rfl⟩ := h
    exact ⟨y, hy, .inl rfl⟩
  | .call callee args, e', x, h, hx => by
    simp only [Walk.walkExpr, bind_eq_ok] at h
    obtain ⟨callee', hcallee, args', -, h⟩ := h
    obtain ⟨y, hy, hlast⟩ := walkExpr_lastName callee callee' x hcallee hx
    refine ⟨y, hy, ?_⟩
    rcases resolveCall_eq_ok (show d.resolveCall p callee' args' = .ok e' from h) with ⟨-, rfl⟩ |
      ⟨n, hole, _, sub, sup, htest, -, -, -, -, rfl⟩
    · exact hlast
    -- The call is replaced by a truth value, which has no last name, but then its callee is `subcls`.
    · obtain ⟨_, rfl, -⟩ := subclassTest?_eq_some.1 htest
      rcases hlast with hlast | ⟨rfl, -⟩
      · exact .inr ⟨(Option.some.inj hlast).symm, rfl⟩
      · exact .inr ⟨rfl, rfl⟩
  | .cast ty inner, e', x, h, hx => by
    rw [Walk.walkExpr, bind_eq_ok] at h
    obtain ⟨inner', hinner, h⟩ := h
    obtain ⟨y, hy, hlast⟩ := walkExpr_lastName inner inner' x hinner hx
    refine ⟨y, hy, ?_⟩
    obtain ⟨ty', rfl⟩ := onExpr_cast h
    exact hlast
  | .literal _, _, _, _, hx => by cases hx
  | .new _ _, _, _, _, hx => by cases hx
  | .binary _ _ _, _, _, _, hx => by cases hx
  | .placeholder _ _, _, _, _, hx => by cases hx

/-! ## Statements -/

section Rebuilt

variable {name : String} {image : Expr → Expr → Prop} {turn : String → String → Expr → Block → Block}

mutual

/-- The traversal rebuilds a statement in front of a block that is rebuilt. -/
theorem walkStmt_rebuilt (himage : ∀ n e e', Walk.walkExpr d.pass (p.atDepth n) e = .ok e' → image e e')
    (hturn : ∀ n ty var source source' body new, source.lastName? = some name →
      Walk.walkExpr d.pass (p.atDepth n) source = .ok source' →
        d.onStmt (p.atDepth n) (.forEach ty var source' body) = .ok new → new = turn ty var source' body) :
    ∀ n (s : Stmt) (new rest rest' : Block), Walk.walkStmt d.pass (p.atDepth n) s = .ok new →
      Stmt.Rebuilt name image turn rest rest' → Stmt.Rebuilt name image turn (s :: rest) (new ++ rest')
  | n, .expr e, new, rest, rest', h, hrest => by
    simp only [Walk.walkStmt, pass, onStmt, bind_eq_ok, pure_eq_ok] at h
    obtain ⟨e', -, e'', -, rfl⟩ := h
    exact .simple trivial trivial hrest
  | n, .assign ty target value, new, rest, rest', h, hrest => by
    simp only [Walk.walkStmt, bind_eq_ok] at h
    obtain ⟨target', -, value', -, h⟩ := h
    obtain ⟨ty', -, rfl⟩ := onStmt_assign h
    exact .simple trivial trivial hrest
  | n, .ifElse cond thenBody elseBody, new, rest, rest', h, hrest => by
    simp only [Walk.walkStmt, bind_eq_ok] at h
    obtain ⟨cond', hcond, -, -, then', hthen, -, -, else', helse, h⟩ := h
    obtain rfl := onStmt_ifElse (d := d) (p := p.atDepth n) h
    exact .ifElse (himage n cond cond' hcond) (walkStmts_rebuilt himage hturn (n + 1) thenBody then' hthen)
      (walkStmts_rebuilt himage hturn (n + 1) elseBody else' helse) hrest
  | n, .forEach ty var source body, new, rest, rest', h, hrest => by
    simp only [Walk.walkStmt, bind_eq_ok] at h
    obtain ⟨source', hsource, -, -, body', hbody, h⟩ := h
    have hbody := walkStmts_rebuilt himage hturn (n + 1) body body' hbody
    by_cases hname : source.lastName? = some name
    · obtain rfl := hturn n ty var source source' body' new hname hsource h
      exact .loop hname (himage n source source' hsource) hbody hrest
    · refine .otherLoop hname (himage n source source' hsource) hbody hrest ?_
      obtain ⟨walks, -, ⟨-, hnew⟩ | ⟨-, direction, -, hnew⟩⟩ := onStmt_forEach h
      · exact .inl hnew
      · exact .inr ⟨direction, hnew⟩
  | n, .whileLoop cond body, new, rest, rest', h, hrest => by
    simp only [Walk.walkStmt, bind_eq_ok] at h
    obtain ⟨cond', hcond, -, -, body', hbody, h⟩ := h
    have hbody := walkStmts_rebuilt himage hturn (n + 1) body body' hbody
    cases h
    exact .whileLoop (himage n cond cond' hcond) hbody hrest
  | n, .ret value, new, rest, rest', h, hrest => by
    simp only [Walk.walkStmt, bind_eq_ok] at h
    obtain ⟨value', -, h⟩ := h
    cases h
    exact .simple trivial trivial hrest

/-- The traversal rebuilds a block. -/
theorem walkStmts_rebuilt (himage : ∀ n e e', Walk.walkExpr d.pass (p.atDepth n) e = .ok e' → image e e')
    (hturn : ∀ n ty var source source' body new, source.lastName? = some name →
      Walk.walkExpr d.pass (p.atDepth n) source = .ok source' →
        d.onStmt (p.atDepth n) (.forEach ty var source' body) = .ok new → new = turn ty var source' body) :
    ∀ n (b b' : Block), Walk.walkStmts d.pass (p.atDepth n) b = .ok b' → Stmt.Rebuilt name image turn b b'
  | n, [], b', h => by
    rw [Walk.walkStmts, pure_eq_ok] at h
    subst h
    exact .nil
  | n, s :: b, b', h => by
    simp only [Walk.walkStmts, bind_eq_ok, pure_eq_ok] at h
    obtain ⟨new, hnew, rest, hrest, rfl⟩ := h
    exact walkStmt_rebuilt himage hturn n s new b rest hnew (walkStmts_rebuilt himage hturn n b rest hrest)

end

end Rebuilt

end Decoder

end ObserverPattern
