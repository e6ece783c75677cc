import ObserverPattern.Program.Declaration
import ObserverPattern.Proofs.Syntax.Parts

/-!
# Types in code

Types stand in code at four kinds of places: in declarations and casts, at the variables of loops, and where
objects are created. `Stmt.listTypes` and `Field.listTypes` list those of a block and of fields, at every
depth. `Stmt.ListTyped` and `Field.ListTyped` say what holds of them place by place, which is the same as what
holds of every part (`Stmt.listTyped_iff`, `Field.listTyped_iff`).
-/

namespace ObserverPattern

/-- The kinds of places in code in which a type stands. -/
inductive TypePlace where
  /-- The type of a variable that is declared. -/
  | declared
  /-- The type of the variable of a loop. -/
  | loop
  | cast
  /-- The type of an object that is created. -/
  | created
  deriving DecidableEq

/-- The types that stand in an expression itself. -/
def Expr.ownTypes : TypePlace → Expr → List String
  | .cast, .cast ty _ => [ty]
  | .created, .new ty _ => [ty]
  | _, _ => []

/-- The types that stand in a statement itself, its expressions apart. -/
def Stmt.ownTypes : TypePlace → Stmt → List String
  | .declared, .assign (some ty) _ _ => [ty]
  | .loop, .forEach ty _ _ _ => [ty]
  | _, _ => []

/-- The types that stand in a block, at every depth. -/
def Stmt.listTypes (place : TypePlace) (b : Block) : List String :=
  (Stmt.listParts b).flatMap fun s => s.ownTypes place ++ s.exprs.flatMap (·.ownTypes place)

/-- The types that stand in what some fields are initialised with. -/
def Field.listTypes (place : TypePlace) (fs : List Field) : List String :=
  fs.flatMap fun f => (Expr.listParts f.init.toList).flatMap (·.ownTypes place)

theorem Expr.ownTypes_shell (place : TypePlace) (e : Expr) : e.shell.ownTypes place = e.ownTypes place := by
  cases place <;> cases e <;> rfl

theorem Stmt.ownTypes_shell (place : TypePlace) (s : Stmt) : s.shell.ownTypes place = s.ownTypes place := by
  cases s with
  | assign ty target value => cases place <;> cases ty <;> rfl
  | _ => cases place <;> rfl

/-- Of the types that stand in an expression itself each has the property of its place. -/
def Expr.Typed (W : TypePlace → String → Prop) (e : Expr) : Prop := ∀ place, ∀ ty ∈ e.ownTypes place, W place ty

/-- Of the types that stand in a statement each has the property of its place. -/
structure Stmt.Typed (W : TypePlace → String → Prop) (s : Stmt) : Prop where
  own : ∀ place, ∀ ty ∈ s.ownTypes place, W place ty
  exprs : ∀ e ∈ s.exprs, e.Typed W

/-- Of the types in a block each has the property of its place. -/
def Stmt.ListTyped (W : TypePlace → String → Prop) (b : Block) : Prop :=
  ∀ place, ∀ ty ∈ Stmt.listTypes place b, W place ty

/-- Of the types in the initialisations of fields each has the property of its place. -/
def Field.ListTyped (W : TypePlace → String → Prop) (fs : List Field) : Prop :=
  ∀ place, ∀ ty ∈ Field.listTypes place fs, W place ty

section Typed

variable {W : TypePlace → String → Prop}

theorem Expr.Typed.of_shell {e e₀ : Expr} (h : e₀.Typed W) (hshell : e.shell = e₀.shell) : e.Typed W := by
  intro place ty hty
  rw [← ownTypes_shell, hshell, ownTypes_shell] at hty
  exact h place ty hty

theorem Stmt.mem_listTypes {place : TypePlace} {ty : String} {b : Block} : ty ∈ Stmt.listTypes place b ↔
    ∃ s ∈ Stmt.listParts b, ty ∈ s.ownTypes place ∨ ∃ e ∈ s.exprs, ty ∈ e.ownTypes place := by
  simp [listTypes, List.mem_flatMap]

theorem Stmt.listTyped_iff {b : Block} : Stmt.ListTyped W b ↔ ∀ s ∈ Stmt.listParts b, s.Typed W := by
  constructor
  · intro h s hs
    refine ⟨fun place ty hty => h place ty (mem_listTypes.2 ⟨s, hs, .inl hty⟩), ?_⟩
    exact fun e he place ty hty => h place ty (mem_listTypes.2 ⟨s, hs, .inr ⟨e, he, hty⟩⟩)
  · intro h place ty hty
    obtain ⟨s, hs, hown | ⟨e, he, hown⟩⟩ := mem_listTypes.1 hty
    · exact (h s hs).own place ty hown
    · exact (h s hs).exprs e he place ty hown

theorem Field.mem_listTypes {place : TypePlace} {ty : String} {fs : List Field} : ty ∈ Field.listTypes place fs ↔
    ∃ f ∈ fs, ∃ e ∈ Expr.listParts f.init.toList, ty ∈ e.ownTypes place := by
  simp [listTypes, List.mem_flatMap]

theorem Field.listTyped_iff {fs : List Field} :
    Field.ListTyped W fs ↔ ∀ f ∈ fs, ∀ e ∈ Expr.listParts f.init.toList, e.Typed W := by
  constructor
  · exact fun h f hf e he place ty hty => h place ty (mem_listTypes.2 ⟨f, hf, e, he, hty⟩)
  · intro h place ty hty
    obtain ⟨f, hf, e, he, hown⟩ := mem_listTypes.1 hty
    exact h f hf e he place ty hown

end Typed

end ObserverPattern
