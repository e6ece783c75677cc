import Mathlib.Data.List.Induction
import ObserverPattern.Proofs.Walk.Counting
import ObserverPattern.Proofs.Walk.Order

/-!
# What a tally counts

A pass may keep a record of its calls: what each hook was handed, and what it gave back.

* `Tally.get_ofCalls`: the tally of a record, kind by kind;
* `Lockstep.countings`: a traversal that counts and one that keeps the record go together, and the tally is always
  that of the record;
* `walk_classCalls`: one class is visited for each entry of the template;
* `walk_changes`: the tally tells how many nodes were removed and how many fields, statements and expressions were
  changed. It counts a method only if its body became longer or shorter, and each class that was visited.
-/

namespace ObserverPattern

/-! ## Calls -/

/-- A call of a hook: what it is handed, and what it gives back. -/
inductive Call where
  | onClass (c : ClassDecl)
  | onField (f : Field) (new : List Field)
  | onMethod (body new : Block)
  | onStmt (s : Stmt) (new : Block)
  | onExpr (e new : Expr)

namespace Call

def sort : Call → NodeSort
  | .onClass _ => .classDecl
  | .onField .. => .field
  | .onMethod .. => .method
  | .onStmt .. => .stmt
  | .onExpr .. => .expr

/-- Whether something else comes back than the node itself. Nothing comes back for a class. -/
def changes : Call → Bool
  | .onClass _ => false
  | .onField f new => new != [f]
  | .onMethod body new => new != body
  | .onStmt s new => new != [s]
  | .onExpr e new => new != e

/-- Whether no field or no statement comes back. -/
def removes : Call → Bool
  | .onField _ new => new.isEmpty
  | .onStmt _ new => new.isEmpty
  | _ => false

/-- Whether a tally counts the call as a change. -/
def counts : Call → Bool
  | .onClass _ => true
  | .onMethod body new => new.length != body.length
  | call => call.changes

/-- Where a call counts as a change and is for no class, it is one. -/
theorem changes_of_counts {c : Call} (hclass : c.sort ≠ .classDecl) (h : c.counts = true) : c.changes = true := by
  cases c with
  | onClass c => exact absurd rfl hclass
  | onMethod body new =>
    simp only [counts, bne_iff_ne, changes] at h ⊢
    exact fun heq => h (congrArg List.length heq)
  | onField f new => exact h
  | onStmt s new => exact h
  | onExpr e new => exact h

/-- A call that is for no class and for no method counts exactly if it is a change. -/
theorem counts_eq_changes {c : Call} (hclass : c.sort ≠ .classDecl) (hmethod : c.sort ≠ .method) :
    c.counts = c.changes := by
  cases c with
  | onClass c => exact absurd rfl hclass
  | onMethod body new => exact absurd rfl hmethod
  | onField f new => rfl
  | onStmt s new => rfl
  | onExpr e new => rfl

end Call

/-- How many classes are visited in a row of calls. -/
def classCalls (calls : List Call) : Nat := calls.countP (·.sort == .classDecl)

/-- The pass that does the same and keeps a record of its calls. -/
def Pass.recorded {m : Type → Type} [Monad m] (pass : Pass m) : Pass (StateT (List Call) m) where
  onClass p c := do
    pass.onClass p c
    modify (· ++ [.onClass c])
  onField p f := do
    let new ← pass.onField p f
    modify (· ++ [.onField f new])
    return new
  onMethod p body := do
    let new ← pass.onMethod p body
    modify (· ++ [.onMethod body new])
    return new
  onStmt p s := do
    let new ← pass.onStmt p s
    modify (· ++ [.onStmt s new])
    return new
  onExpr p e := do
    let new ← pass.onExpr p e
    modify (· ++ [.onExpr e new])
    return new

/-! ## The tally of a record -/

namespace Tally

def addCall (t : Tally) (call : Call) : Tally := t.add call.sort call.counts call.removes

def ofCalls (calls : List Call) : Tally := calls.foldl addCall .zero

theorem ofCalls_append (calls : List Call) (call : Call) :
    ofCalls (calls ++ [call]) = (ofCalls calls).addCall call := by
  simp [ofCalls]

private theorem get_add (t : Tally) (kind : NodeSort) (changed removed : Bool) (sort : NodeSort) :
    (t.add kind changed removed).get sort = if kind = sort then (t.get sort).add changed removed else t.get sort := by
  cases kind <;> cases sort <;> rfl

/-- A tally counts the calls of each kind, and among them those that count as changes and the removals. -/
theorem get_ofCalls (calls : List Call) (sort : NodeSort) :
    (ofCalls calls).get sort =
      ⟨calls.countP (·.sort == sort), calls.countP fun c => c.sort == sort && c.counts,
        calls.countP fun c => c.sort == sort && c.removes⟩ := by
  induction calls using List.reverseRecOn with
  | nil => cases sort <;> rfl
  | append_singleton calls call ih =>
    rw [ofCalls_append, addCall, get_add, ih]
    by_cases h : call.sort = sort
    · cases hcounts : call.counts <;> cases hremoves : call.removes <;>
        simp [h, hcounts, hremoves, Counts.add, List.countP_append]
    · simp [h, List.countP_append]

/-- Each call for a class counts as a change. -/
theorem transformations_classDecl (calls : List Call) :
    ((ofCalls calls).get .classDecl).transformations = classCalls calls := by
  rw [get_ofCalls]
  refine List.countP_congr fun c _ => ?_
  cases c <;> simp [Call.sort, Call.counts]

private theorem transformations_eq (t : Tally) : t.transformations =
    t.classDecl.transformations + t.field.transformations + t.method.transformations + t.stmt.transformations +
      t.expr.transformations := by
  simp [transformations, NodeSort.all, get]

/-- Of two conditions of which one implies the other, both hold of equally many entries exactly if none meets the
weaker one alone. -/
private theorem countP_eq_iff {α : Type} {l : List α} {p q : α → Bool} (h : ∀ a ∈ l, p a = true → q a = true) :
    l.countP p = l.countP q ↔ ∀ a ∈ l, q a = true → p a = true := by
  constructor
  · intro heq
    induction l with
    | nil => simp
    | cons a l ih =>
      have hle : l.countP p ≤ l.countP q := List.countP_mono_left fun b hb => h b (List.mem_cons_of_mem a hb)
      have ha := h a List.mem_cons_self
      rw [List.countP_cons, List.countP_cons] at heq
      have hhead : q a = true → p a = true := by
        intro hq
        by_contra hp
        simp only [hp, hq, if_true] at heq
        simp at heq
        omega
      have htail : l.countP p = l.countP q := by
        by_cases hp : p a = true
        · simpa [hp, ha hp] using heq
        · have hq : q a ≠ true := fun hq => hp (hhead hq)
          simpa [hp, hq] using heq
      exact List.forall_mem_cons.2 ⟨hhead, ih (fun b hb => h b (List.mem_cons_of_mem a hb)) htail⟩
  · intro hback
    exact List.countP_congr fun a ha => ⟨h a ha, hback a ha⟩

/-- The fields, statements and expressions that count as changed are those that are. -/
theorem transformations_of_ne (calls : List Call) {sort : NodeSort} (hclass : sort ≠ .classDecl)
    (hmethod : sort ≠ .method) :
    ((ofCalls calls).get sort).transformations = calls.countP fun c => c.sort == sort && c.changes := by
  rw [get_ofCalls]
  refine List.countP_congr fun c _ => ?_
  by_cases hc : c.sort = sort
  · rw [Call.counts_eq_changes (hc ▸ hclass) (hc ▸ hmethod)]
  · simp [hc]

/-- The methods that are changed all count exactly if none of them keeps its length. -/
theorem transformations_method_iff (calls : List Call) :
    ((ofCalls calls).get .method).transformations = calls.countP (fun c => c.sort == .method && c.changes) ↔
      ∀ body new, .onMethod body new ∈ calls → new ≠ body → new.length ≠ body.length := by
  rw [get_ofCalls]
  refine (countP_eq_iff ?_).trans ⟨?_, ?_⟩
  · intro c _ hc
    obtain ⟨hsort, hcounts⟩ : c.sort = .method ∧ c.counts = true := by simpa using hc
    simpa [hsort] using Call.changes_of_counts (by simp [hsort]) hcounts
  · intro hall body new hmem hne
    have hcounts := hall _ hmem (by simpa [Call.sort, Call.changes] using hne)
    simpa [Call.sort, Call.counts] using hcounts
  · intro hall c hc hchanges
    cases c with
    | onMethod body new =>
      have hne : new ≠ body := by simpa [Call.sort, Call.changes] using hchanges
      simpa [Call.sort, Call.counts] using hall body new hc hne
    | onClass _ => simp [Call.sort] at hchanges
    | onField _ _ => simp [Call.sort] at hchanges
    | onStmt _ _ => simp [Call.sort] at hchanges
    | onExpr _ _ => simp [Call.sort] at hchanges

/-- Where nothing is changed the classes alone count. -/
theorem transformations_of_unchanged {calls : List Call} (h : ∀ c ∈ calls, c.changes = false) :
    (ofCalls calls).transformations = classCalls calls := by
  have hzero : ∀ sort, sort ≠ .classDecl → ((ofCalls calls).get sort).transformations = 0 := by
    intro sort hsort
    rw [get_ofCalls]
    refine List.countP_eq_zero.2 fun c hc hcounts => ?_
    rw [Bool.and_eq_true, beq_iff_eq] at hcounts
    obtain ⟨rfl, hcounts⟩ := hcounts
    have hchanges := Call.changes_of_counts hsort hcounts
    rw [h c hc] at hchanges
    cases hchanges
  have hclass := transformations_classDecl calls
  have hfield := hzero .field (by simp)
  have hmethod := hzero .method (by simp)
  have hstmt := hzero .stmt (by simp)
  have hexpr := hzero .expr (by simp)
  simp only [get] at hclass hfield hmethod hstmt hexpr
  rw [transformations_eq]
  omega

end Tally

/-! ## Counting and recording -/

variable {σ : Type}

namespace Lockstep

/-- A computation with a tally does what one with a record does, and leaves the tally of what that one leaves. -/
def countings : Lockstep (StateT Tally (Stateful σ)) (StateT (List Call) (Stateful σ)) where
  rel P x y := ∀ calls s,
    (x.run (Tally.ofCalls calls)).run s =
        (fun a => ((a.1.1, Tally.ofCalls a.1.2), a.2)) <$> (y.run calls).run s ∧
      ∀ a, (y.run calls).run s = .ok a → P a.1.1
  allows _ := True
  pure {_ P a} ha calls s := ⟨rfl, fun b hb => Except.ok.inj hb ▸ ha⟩
  throw _ _ _ := ⟨rfl, nofun⟩
  bind {α β P Q x y f g} hx hf calls s := by
    obtain ⟨hrun, hresult⟩ := hx calls s
    simp only [StateT.run_bind, hrun]
    cases hy : (y.run calls).run s with
    | error e => exact ⟨rfl, nofun⟩
    | ok a => exact hf a.1.1 (hresult a hy) a.1.2 a.2

/-- A pass that counts and the pass that keeps a record. -/
theorem countings_counted (pass : Pass (Stateful σ)) (r : Registry) :
    countings.Passes pass.counted pass.recorded r := by
  have step : ∀ {α : Type} (x : Stateful σ α) (call : α → Call),
      countings.Together (do let a ← (x : StateT Tally (Stateful σ) α); modify (·.addCall (call a)); return a)
        (do let a ← (x : StateT (List Call) (Stateful σ) α); modify (· ++ [call a]); return a) := by
    intro α x call calls s
    cases hx : x.run s with
    | error e => simp [hx]
    | ok a =>
      refine ⟨?_, fun _ _ => trivial⟩
      simp [hx, Tally.ofCalls_append]
  exact {
    blocks := fun p _ => {
      enter := fun _ _ _ => trivial
      onExpr := fun k e => step _ (.onExpr e)
      onStmt := fun k s => step _ (.onStmt s) }
    onClass := fun p c _ => step _ fun _ => .onClass c
    onField := fun p f _ => step _ (.onField f)
    onMethod := fun p b _ => step _ (.onMethod b) }

end Lockstep

/-! ## Calls for classes -/

variable {α β : Type} {P : α → Prop} {Q : β → Prop} {n : Nat}

/-- If a computation succeeds, it has visited so many classes, and its result has a property. -/
def VisitsClasses (P : α → Prop) (n : Nat) (x : StateT (List Call) (Stateful σ) α) : Prop :=
  ∀ calls s a, (x.run calls).run s = .ok a → P a.1.1 ∧ classCalls a.1.2 = classCalls calls + n

namespace VisitsClasses

variable {x : StateT (List Call) (Stateful σ) α} {f : α → StateT (List Call) (Stateful σ) β}

theorem pure {a : α} (ha : P a) : VisitsClasses (σ := σ) P 0 (Pure.pure a) := by
  intro calls s b h
  obtain rfl := Except.ok.inj h
  exact ⟨ha, rfl⟩

theorem throw (e : DecodeFault) : VisitsClasses P 0 (MonadExceptOf.throw e : StateT (List Call) (Stateful σ) α) :=
  nofun

theorem bind {k : Nat} (hx : VisitsClasses P n x) (hf : ∀ a, P a → VisitsClasses Q k (f a)) :
    VisitsClasses Q (n + k) (x >>= f) := by
  intro calls s b h
  rw [StateT.run_bind, StateT.run_bind, bind_eq_ok] at h
  obtain ⟨a, ha, hb⟩ := h
  obtain ⟨hP, hfirst⟩ := hx calls s a ha
  obtain ⟨hQ, hsecond⟩ := hf a.1.1 hP a.1.2 a.2 b hb
  exact ⟨hQ, by omega⟩

/-- A step that visits no class. -/
theorem bind_zero (hx : VisitsClasses P 0 x) (hf : ∀ a, P a → VisitsClasses Q n (f a)) :
    VisitsClasses Q n (x >>= f) := by
  have hbind := hx.bind hf
  rwa [Nat.zero_add] at hbind

theorem lift (e : Except DecodeFault α) : VisitsClasses (σ := σ) (fun _ => True) 0 (Walk.lift e) := by
  cases e with
  | ok a => exact pure trivial
  | error e => exact throw e

/-- A hook that keeps a record of its call. -/
theorem hook (work : Stateful σ α) (call : α → Call) (hcall : ∀ a, (call a).sort ≠ .classDecl) :
    VisitsClasses (fun _ => True) 0
      (do let a ← (work : StateT (List Call) (Stateful σ) α); modify (· ++ [call a]); return a) := by
  intro calls s b h
  cases hwork : work.run s with
  | error e => simp [hwork] at h
  | ok a =>
    obtain rfl : ((a.1, calls ++ [call a.1]), a.2) = b := by simpa [hwork] using h
    simp [classCalls, List.countP_append, hcall]

theorem foldlM {f : α → β → StateT (List Call) (Stateful σ) α}
    (hf : ∀ a b, VisitsClasses (fun _ => True) n (f a b)) (xs : List β) (a : α) :
    VisitsClasses (fun _ => True) (xs.length * n) (xs.foldlM f a) := by
  induction xs generalizing a with
  | nil =>
    rw [List.length_nil, Nat.zero_mul]
    exact pure trivial
  | cons x xs ih =>
    have hstep := (hf a x).bind fun a' _ => ih a'
    rw [List.foldlM_cons, List.length_cons, Nat.succ_mul, Nat.add_comm]
    exact hstep

end VisitsClasses

/-- Inside of a class no class is visited. -/
def Lockstep.indoors : Lockstep (StateT (List Call) (Stateful σ)) (StateT (List Call) (Stateful σ)) where
  rel P x _ := VisitsClasses P 0 x
  allows _ := True
  pure := .pure
  throw _ := .throw _
  bind hx hf := hx.bind hf

namespace Walk

variable (pass : Pass (Stateful σ)) (maxDepth : Nat)

private theorem indoors_blocks (p : Position) : Lockstep.indoors.Blocks pass.recorded pass.recorded p where
  enter := fun _ _ _ => trivial
  onExpr := fun k e => .hook (pass.onExpr _ e) (.onExpr e) (by simp [Call.sort])
  onStmt := fun k s => .hook (pass.onStmt _ s) (.onStmt s) (by simp [Call.sort])

private theorem walkFields_indoors (p : Position) (fields : List Field) :
    VisitsClasses (fun _ => True) 0 (walkFields pass.recorded p fields) := by
  induction fields with
  | nil => exact .pure trivial
  | cons f fields ih =>
    have hinit : VisitsClasses (fun _ => True) 0 (walkOption pass.recorded p f.init) :=
      walkOption_lockstep ((indoors_blocks pass p).onExpr p.depth) f.init
    have hfield : VisitsClasses (fun _ => True) 0 (walkField pass.recorded p f) :=
      hinit.bind_zero fun init _ =>
        .hook (pass.onField p { f with init }) (.onField { f with init }) (by simp [Call.sort])
    simp only [walkFields]
    exact hfield.bind_zero fun _ _ => ih.bind_zero fun _ _ => .pure trivial

private theorem walkMethod_indoors (owner : ClassId) (r : Registry) (id : MethodId) :
    VisitsClasses (fun _ => True) 0 (walkMethod pass.recorded maxDepth owner r id) := by
  refine VisitsClasses.bind_zero (.lift _) fun method _ => ?_
  generalize (⟨r.withoutBody id, owner, some id, 0, maxDepth⟩ : Position) = p
  have hstmts : VisitsClasses (fun _ => True) 0 (walkStmts pass.recorded p method.body) :=
    walkStmts_lockstep (indoors_blocks pass p) p.depth method.body
  have hblock : VisitsClasses (fun _ => True) 0 (walkBlock pass.recorded p method.body) :=
    VisitsClasses.bind_zero (.lift _) fun _ _ => hstmts
  refine hblock.bind_zero fun body _ => ?_
  have hmethod := VisitsClasses.hook (pass.onMethod p body) (.onMethod body) (by simp [Call.sort])
  exact hmethod.bind_zero fun _ _ => .lift _

private theorem onClass_visits (p : Position) (c : ClassDecl) :
    VisitsClasses (fun _ => True) 1 (pass.recorded.onClass p c) := by
  intro calls s b h
  cases hwork : (pass.onClass p c).run s with
  | error e => simp [Pass.recorded, hwork] at h
  | ok a =>
    obtain rfl : (((), calls ++ [Call.onClass c]), a.2) = b := by simpa [Pass.recorded, hwork] using h
    simp [classCalls, List.countP_append, Call.sort]

private theorem walkClass_visits (r : Registry) (id : ClassId) :
    VisitsClasses (fun _ => True) 1 (walkClass pass.recorded maxDepth r id) := by
  refine VisitsClasses.bind_zero (.lift _) fun c _ => ?_
  show VisitsClasses _ (1 + 0) _
  refine (onClass_visits pass _ _).bind fun _ _ => (walkFields_indoors pass _ c.fields).bind_zero fun fields _ => ?_
  refine VisitsClasses.bind_zero (.lift _) fun r' _ => ?_
  have hmethods := VisitsClasses.foldlM (walkMethod_indoors pass maxDepth id) c.methods r'
  rwa [Nat.mul_zero] at hmethods

/-- A traversal visits one class for each entry of the template. -/
theorem walk_classCalls {t : Template} {r r' : Registry} {calls : List Call} {s s' : σ}
    (h : ((walk pass.recorded maxDepth t r).run []).run s = .ok ((r', calls), s')) :
    classCalls calls = t.classes.length := by
  have hvisits := VisitsClasses.foldlM (walkClass_visits pass maxDepth) t.classes r
  obtain ⟨-, hcount⟩ := hvisits [] s _ h
  rw [hcount, Nat.mul_one]
  exact Nat.zero_add _

/-- The tally of a successful traversal is that of its calls. -/
theorem exists_calls {t : Template} {r r' : Registry} {tally : Tally} {s s' : σ}
    (h : (walkCounted pass maxDepth t r).run s = .ok ((r', tally), s')) :
    ∃ calls, ((walk pass.recorded maxDepth t r).run []).run s = .ok ((r', calls), s') ∧
      tally = Tally.ofCalls calls := by
  have hentries : (Lockstep.countings (σ := σ)).Entries t r := ⟨fun _ _ _ => trivial, fun _ _ _ _ _ => trivial⟩
  have hrelated : Lockstep.countings.rel _ (walk pass.counted maxDepth t r) (walk pass.recorded maxDepth t r) :=
    walk_lockstep (Lockstep.countings_counted pass r) hentries
  obtain ⟨hrun, -⟩ := hrelated [] s
  have hcounted : ((walk pass.counted maxDepth t r).run (Tally.ofCalls [])).run s = .ok ((r', tally), s') := h
  rw [hcounted] at hrun
  cases hrecorded : ((walk pass.recorded maxDepth t r).run []).run s with
  | error e =>
    rw [hrecorded] at hrun
    cases hrun
  | ok a =>
    rw [hrecorded] at hrun
    obtain ⟨⟨rfl, rfl⟩, rfl⟩ : (r' = a.1.1 ∧ tally = Tally.ofCalls a.1.2) ∧ s' = a.2 := by
      simpa using Except.ok.inj hrun
    exact ⟨a.1.2, rfl, rfl⟩

/-- What the tally of a successful traversal says of the calls of the pass, which a traversal that keeps a record of
them lists. The removals are the fields and statements that nothing came back for. The fields, statements and
expressions that count as changed are those that were: something else came back than the node itself. But a
class counts as changed whenever it is visited, and a method only if the body that came back is longer or shorter; so
the changed methods are all counted exactly if no body was replaced by another of its length. A pass that changes
nothing is reported with as many changes as the template lists classes. -/
theorem walk_changes {t : Template} {r r' : Registry} {tally : Tally} {s s' : σ}
    (h : (walkCounted pass maxDepth t r).run s = .ok ((r', tally), s')) :
    ∃ calls, ((walk pass.recorded maxDepth t r).run []).run s = .ok ((r', calls), s') ∧
      (∀ sort, (tally.get sort).removals = calls.countP fun c => c.sort == sort && c.removes) ∧
      (∀ sort, sort ≠ .classDecl → sort ≠ .method →
        (tally.get sort).transformations = calls.countP fun c => c.sort == sort && c.changes) ∧
      (tally.get .classDecl).transformations = t.classes.length ∧
      (tally.get .method).transformations = calls.countP (fun c => c.sort == .method && c.counts) ∧
      ((tally.get .method).transformations = calls.countP (fun c => c.sort == .method && c.changes) ↔
        ∀ body new, .onMethod body new ∈ calls → new ≠ body → new.length ≠ body.length) ∧
      ((∀ c ∈ calls, c.changes = false) → tally.transformations = t.classes.length) := by
  obtain ⟨calls, hcalls, rfl⟩ := exists_calls pass maxDepth h
  have hclasses := walk_classCalls pass maxDepth hcalls
  refine ⟨calls, hcalls, ?_, ?_, ?_, ?_, Tally.transformations_method_iff calls, ?_⟩
  · intro sort
    rw [Tally.get_ofCalls]
  · intro sort hclass hmethod
    exact Tally.transformations_of_ne calls hclass hmethod
  · exact (Tally.transformations_classDecl calls).trans hclasses
  · rw [Tally.get_ofCalls]
  · intro hunchanged
    exact (Tally.transformations_of_unchanged hunchanged).trans hclasses

/-- A pass that puts returns in the place of all statements of a method. -/
def returning : Pass (Stateful Unit) where
  onClass _ _ := pure ()
  onField _ f := pure [f]
  onMethod _ body := pure (body.map fun _ => .ret none)
  onStmt _ s := pure [s]
  onExpr _ e := pure e

/-- The method that `returning` changes is not counted, and the class that it leaves alone is. -/
theorem walk_changes_small : ∃ r' tally calls,
    (walkCounted returning 2 ⟨[⟨0⟩], []⟩ small).run () = .ok ((r', tally), ()) ∧
      ((walk returning.recorded 2 ⟨[⟨0⟩], []⟩ small).run []).run () = .ok ((r', calls), ()) ∧ r' ≠ small ∧
      (tally.get .classDecl).transformations = 1 ∧
      (tally.get .method).transformations ≠ calls.countP fun c => c.sort == .method && c.changes := by
  have hok : okAnd ((walkCounted returning 2 ⟨[⟨0⟩], []⟩ small).run ()) (fun a => a.1.1 != small) = true := by
    decide +kernel
  obtain ⟨⟨⟨r', tally⟩, s'⟩, hok, hne⟩ := okAnd_eq_true.1 hok
  obtain ⟨calls, hcalls, -, -, hclass, -, hmethod, -⟩ := walk_changes returning 2 hok
  refine ⟨r', tally, calls, hok, hcalls, by simpa using hne, hclass, fun hall => ?_⟩
  have hmem : okAnd (((walk returning.recorded 2 ⟨[⟨0⟩], []⟩ small).run []).run ()) (fun a => a.1.2.any fun
      | .onMethod body new => new != body && new.length == body.length
      | _ => false) = true := by
    decide +kernel
  rw [hcalls] at hmem
  obtain ⟨call, hcall, hsame⟩ := List.any_eq_true.1 hmem
  cases call with
  | onMethod body new =>
    obtain ⟨hnew, hlength⟩ : new ≠ body ∧ new.length = body.length := by simpa using hsame
    exact hmethod.1 hall body new hcall hnew hlength
  | onClass _ => cases hsame
  | onField _ _ => cases hsame
  | onStmt _ _ => cases hsame
  | onExpr _ _ => cases hsame

end Walk

end ObserverPattern
