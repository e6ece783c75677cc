import Mathlib.Data.List.Flatten
import ObserverPattern.Proofs.Syntax.Parts

/-!
# The locals of blocks

A block declares a local by an assignment with a type to a name. `Stmt.DuplicateFree` says of a body that none
of its blocks declares one name twice.

The blocks of a body can be read as they stand (`Scoping.plain`), or as a traversal is going to leave
them: names are renamed; a branch whose condition turns out to be a truth value stands in the block around it;
a loop may get an iterator, which is a local of the block around it, and the variable of that loop is then a local
of its body. `Stmt.Scoping` tells such a reading.
-/

namespace ObserverPattern

def Expr.name? : Expr → Option String
  | .id name => some name
  | _ => none

theorem Expr.name?_shell (e : Expr) : e.shell.name? = e.name? := by
  cases e <;> rfl

namespace Stmt

/-- How the locals of blocks are read. -/
structure Scoping where
  /-- The name that a declared name counts as. -/
  name : String → String
  /-- The truth value that a condition counts as. -/
  verdict : Expr → Option Bool
  /-- The iterator of a loop over a source, if it counts as a loop with one. -/
  iterator : Expr → Option String

/-- Blocks as they stand. -/
def Scoping.plain : Scoping := ⟨id, fun _ => none, fun _ => none⟩

section Locals

variable (t : Scoping)

mutual

/-- What a statement declares in the block it stands in. -/
def localsOf : Stmt → List String
  | .assign (some _) target _ => (target.name?.map t.name).toList
  | .ifElse cond thenBody elseBody =>
    match t.verdict cond with
    | some true => localsIn thenBody
    | some false => localsIn elseBody
    | none => []
  | .forEach _ _ source _ => (t.iterator source).toList
  | _ => []

/-- What a block declares. -/
def localsIn : List Stmt → List String
  | [] => []
  | s :: rest => localsOf s ++ localsIn rest

end

mutual

/-- What each of the blocks nested in a statement declares. -/
def scopesOf : Stmt → List (List String)
  | .ifElse cond thenBody elseBody =>
    match t.verdict cond with
    | some true => scopesIn thenBody
    | some false => scopesIn elseBody
    | none => localsIn t thenBody :: scopesIn thenBody ++ localsIn t elseBody :: scopesIn elseBody
  | .forEach _ var source body =>
    (if (t.iterator source).isSome then var :: localsIn t body else localsIn t body) :: scopesIn body
  | .whileLoop _ body => localsIn t body :: scopesIn body
  | _ => []

/-- What each of the blocks nested in a block declares. -/
def scopesIn : List Stmt → List (List String)
  | [] => []
  | s :: rest => scopesOf s ++ scopesIn rest

end

/-- No block of a body declares a name twice, neither the body itself nor one nested in it. -/
def DuplicateFree (b : Block) : Prop := ∀ names ∈ localsIn t b :: scopesIn t b, names.Nodup

instance (b : Block) : Decidable (DuplicateFree t b) :=
  inferInstanceAs (Decidable (∀ names ∈ localsIn t b :: scopesIn t b, names.Nodup))

end Locals

variable {t : Scoping} {b b' : Block}

theorem localsIn_eq_flatMap (b : Block) : localsIn t b = b.flatMap (localsOf t) := by
  induction b with
  | nil => rfl
  | cons s b ih => rw [localsIn, ih, List.flatMap_cons]

theorem scopesIn_eq_flatMap (b : Block) : scopesIn t b = b.flatMap (scopesOf t) := by
  induction b with
  | nil => rfl
  | cons s b ih => rw [scopesIn, ih, List.flatMap_cons]

theorem localsIn_append (a b : Block) : localsIn t (a ++ b) = localsIn t a ++ localsIn t b := by
  simp only [localsIn_eq_flatMap, List.flatMap_append]

theorem scopesIn_append (a b : Block) : scopesIn t (a ++ b) = scopesIn t a ++ scopesIn t b := by
  simp only [scopesIn_eq_flatMap, List.flatMap_append]

/-! ## Bodies and what a traversal makes of them -/

/-- The locals of the second body as it stands are those of the first body in a reading. -/
structure ReadsAs (t : Scoping) (b b' : Block) : Prop where
  own : localsIn .plain b' = localsIn t b
  nested : scopesIn .plain b' = scopesIn t b

theorem ReadsAs.duplicateFree_iff (h : ReadsAs t b b') : DuplicateFree .plain b' ↔ DuplicateFree t b := by
  rw [DuplicateFree, DuplicateFree, h.own, h.nested]

namespace ReadsAs

variable {body body' thenBody then' elseBody else' : Block}

theorem nil : ReadsAs t [] [] := ⟨rfl, rfl⟩

theorem cons {s : Stmt} {new rest rest' : Block} (hs : ReadsAs t [s] new) (hrest : ReadsAs t rest rest') :
    ReadsAs t (s :: rest) (new ++ rest') where
  own := by
    rw [localsIn_append, hs.own, hrest.own, ← localsIn_append]
    rfl
  nested := by
    rw [scopesIn_append, hs.nested, hrest.nested, ← scopesIn_append]
    rfl

theorem expr (e e' : Expr) : ReadsAs t [.expr e] [.expr e'] := ⟨rfl, rfl⟩

theorem ret (e e' : Option Expr) : ReadsAs t [.ret e] [.ret e'] := ⟨rfl, rfl⟩

theorem assign {ty ty' : Option String} {target target' : Expr} (hty : ty'.isSome = ty.isSome)
    (htarget : target'.name? = target.name?.map t.name) (value value' : Expr) :
    ReadsAs t [.assign ty target value] [.assign ty' target' value'] := by
  refine ⟨?_, by cases ty <;> cases ty' <;> rfl⟩
  cases ty <;> cases ty'
  · rfl
  · cases hty
  · cases hty
  · simp [localsIn, localsOf, htarget, Scoping.plain]

theorem ifElse (hthen : ReadsAs t thenBody then') (helse : ReadsAs t elseBody else') (cond cond' : Expr) :
    ReadsAs t [.ifElse cond thenBody elseBody] (match t.verdict cond with
      | some true => then'
      | some false => else'
      | none => [.ifElse cond' then' else']) := by
  cases hverdict : t.verdict cond with
  | none =>
    constructor
    · simp [localsIn, localsOf, hverdict, Scoping.plain]
    · simp only [scopesIn, scopesOf, hverdict, ← hthen.own, ← hthen.nested, ← helse.own, ← helse.nested]
      rfl
  | some taken =>
    cases taken with
    | true =>
      constructor
      · simp [localsIn, localsOf, hverdict, hthen.own]
      · simp [scopesIn, scopesOf, hverdict, hthen.nested]
    | false =>
      constructor
      · simp [localsIn, localsOf, hverdict, helse.own]
      · simp [scopesIn, scopesOf, hverdict, helse.nested]

theorem forEach (hbody : ReadsAs t body body') {source : Expr} (hiterator : t.iterator source = none)
    (ty var : String) (source' : Expr) : ReadsAs t [.forEach ty var source body] [.forEach ty var source' body'] where
  own := by simp [localsIn, localsOf, hiterator, Scoping.plain]
  nested := by
    simp only [scopesIn, scopesOf, hiterator, ← hbody.own, ← hbody.nested]
    rfl

theorem iteratorLoop (hbody : ReadsAs t body body') {source : Expr} {iterator : String}
    (hiterator : t.iterator source = some iterator) (ty var ty' : String) (init cond next : Expr) :
    ReadsAs t [.forEach ty var source body]
      [.declare ty' iterator init, .whileLoop cond (.declare ty var next :: body')] where
  own := by simp [localsIn, localsOf, hiterator, Scoping.plain, declare, Expr.name?]
  nested := by
    simp only [scopesIn, scopesOf, hiterator, ← hbody.own, ← hbody.nested]
    rfl

theorem whileLoop (hbody : ReadsAs t body body') (cond cond' : Expr) :
    ReadsAs t [.whileLoop cond body] [.whileLoop cond' body'] where
  own := rfl
  nested := by
    simp only [scopesIn, scopesOf, ← hbody.own, ← hbody.nested]

end ReadsAs

/-! ## Statements left out -/

/-- A body with statements left out declares no name twice if the whole body does not. -/
theorem DuplicateFree.sublist (h : DuplicateFree t b) (hsub : b'.Sublist b) : DuplicateFree t b' := by
  intro names hnames
  rcases List.mem_cons.1 hnames with rfl | hnames
  · refine (h _ List.mem_cons_self).sublist ?_
    rw [localsIn_eq_flatMap, localsIn_eq_flatMap]
    exact hsub.flatMap (localsOf t)
  · refine h names (List.mem_cons_of_mem _ ?_)
    rw [scopesIn_eq_flatMap] at hnames ⊢
    exact (hsub.flatMap (scopesOf t)).subset hnames

end Stmt

end ObserverPattern
