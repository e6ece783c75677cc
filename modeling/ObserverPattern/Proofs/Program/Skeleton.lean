import ObserverPattern.Program.Basic
import ObserverPattern.Program.Hierarchy
import ObserverPattern.Proofs.Success

/-!
# The skeleton of a registry

Decoding gives classes other fields and another collection, and methods other bodies. What it leaves
is the skeleton.

* `Registry.skeleton` forgets the fields and the collection of each class and the body of each
  method, `Registry.outline` keeps the collections;
* names, signatures and the hierarchy can be read off the skeleton (`className_skeleton`
  and its siblings), so registries with one skeleton agree on them (`Registry.congr_skeleton`).
-/

namespace ObserverPattern

/-- A class without its fields. -/
def ClassDecl.outline (c : ClassDecl) : ClassDecl := { c with fields := [] }

/-- A class without its fields and its collection. -/
def ClassDecl.skeleton (c : ClassDecl) : ClassDecl := { c with fields := [], collection := none }

/-- A method without its body. -/
def MethodDecl.header (m : MethodDecl) : MethodDecl := { m with body := [] }

namespace Registry

/-- A registry without fields and bodies. -/
def outline (r : Registry) : Registry := ⟨r.classes.map ClassDecl.outline, r.methods.map MethodDecl.header⟩

/-- A registry without fields, collections and bodies. -/
def skeleton (r : Registry) : Registry := ⟨r.classes.map ClassDecl.skeleton, r.methods.map MethodDecl.header⟩

/-! ## Look-ups -/

theorem class?_outline (r : Registry) (id : ClassId) : r.outline.class? id = (r.class? id).map ClassDecl.outline := by
  simp [outline, class?]

theorem class?_skeleton (r : Registry) (id : ClassId) :
    r.skeleton.class? id = (r.class? id).map ClassDecl.skeleton := by
  simp [skeleton, class?]

theorem method?_skeleton (r : Registry) (id : MethodId) :
    r.skeleton.method? id = (r.method? id).map MethodDecl.header := by
  simp [skeleton, method?]

theorem skeleton_outline (r : Registry) : r.outline.skeleton = r.skeleton := by
  simp [outline, skeleton, Function.comp_def, ClassDecl.outline, ClassDecl.skeleton, MethodDecl.header]

/-- Registries with one outline have one skeleton. -/
theorem skeleton_eq_of_outline_eq {r r' : Registry} (h : r'.outline = r.outline) : r'.skeleton = r.skeleton := by
  rw [← skeleton_outline r', h, skeleton_outline]

/-- What can be read off the skeleton is the same in registries with one skeleton. -/
theorem congr_skeleton {α : Type} (f : Registry → α) {r r' : Registry} (hf : ∀ r, f r.skeleton = f r)
    (h : r'.skeleton = r.skeleton) : f r' = f r := by
  rw [← hf r', h, hf]

theorem getClass_eq_ok {r : Registry} {id : ClassId} {c : ClassDecl} :
    r.getClass id = .ok c ↔ r.class? id = some c := by
  unfold getClass
  cases r.class? id <;> simp

theorem getMethod_eq_ok {r : Registry} {id : MethodId} {m : MethodDecl} :
    r.getMethod id = .ok m ↔ r.method? id = some m := by
  unfold getMethod
  cases r.method? id <;> simp

theorem className_eq_ok {r : Registry} {id : ClassId} {name : String} :
    r.className id = .ok name ↔ ∃ c, r.class? id = some c ∧ c.name = name := by
  simp only [className, bind_eq_ok, getClass_eq_ok, pure_eq_ok]

theorem methodName_eq_ok {r : Registry} {id : MethodId} {name : String} :
    r.methodName id = .ok name ↔ ∃ m, r.method? id = some m ∧ m.name = name := by
  simp only [methodName, bind_eq_ok, getMethod_eq_ok, pure_eq_ok]

theorem getClass_eq_error {r : Registry} {id : ClassId} {e : DecodeFault} :
    r.getClass id = .error e ↔ r.class? id = none ∧ e = .noClass id := by
  unfold getClass
  cases r.class? id <;> simp [eq_comm]

theorem getMethod_eq_error {r : Registry} {id : MethodId} {e : DecodeFault} :
    r.getMethod id = .error e ↔ r.method? id = none ∧ e = .noMethod id := by
  unfold getMethod
  cases r.method? id <;> simp [eq_comm]

theorem classNamed?_eq_some {r : Registry} {name : String} {id : ClassId}
    (h : r.classNamed? name = some id) : ∃ c, r.class? id = some c ∧ c.name = name := by
  obtain ⟨i, hi, rfl⟩ := Option.map_eq_some_iff.1 h
  obtain ⟨hlt, hname, -⟩ := List.findIdx?_eq_some_iff_getElem.1 hi
  exact ⟨_, List.getElem?_eq_getElem hlt, by simpa using hname⟩

/-- Where names are unique, a class is the one of its name. -/
theorem classNamed?_of_nodup {r : Registry} (hnames : (r.classes.map (·.name)).Nodup) {id : ClassId} {c : ClassDecl}
    (hc : r.class? id = some c) : r.classNamed? c.name = some id := by
  cases hid : r.classNamed? c.name with
  | none =>
    have hnone := List.findIdx?_eq_none_iff.1 (Option.map_eq_none_iff.1 hid) c (List.mem_of_getElem? hc)
    simp at hnone
  | some id' =>
    obtain ⟨c', hc', hname⟩ := classNamed?_eq_some hid
    rw [class?] at hc hc'
    have hsame : (r.classes.map (·.name))[id.index]? = (r.classes.map (·.name))[id'.index]? := by
      rw [List.getElem?_map, List.getElem?_map, hc, hc', Option.map_some, Option.map_some, hname]
    obtain ⟨hlt, -⟩ := List.getElem?_eq_some_iff.1 hc
    have hindex := (List.getElem?_inj (by simpa using hlt) hnames).1 hsame
    cases id
    cases id'
    simpa using hindex.symm

theorem updateClass_eq_ok {r r' : Registry} {id : ClassId} {f : ClassDecl → ClassDecl} :
    r.updateClass id f = .ok r' ↔ (r.class? id).isSome ∧ r' = r.modifyClass id f := by
  unfold updateClass getClass
  cases r.class? id <;> simp [bind, Except.bind, pure, Except.pure, eq_comm]

theorem updateMethod_eq_ok {r r' : Registry} {id : MethodId} {f : MethodDecl → MethodDecl} :
    r.updateMethod id f = .ok r' ↔ (r.method? id).isSome ∧ r' = r.modifyMethod id f := by
  unfold updateMethod getMethod
  cases r.method? id <;> simp [bind, Except.bind, pure, Except.pure, eq_comm]

theorem putFields_eq_error {r : Registry} {id : ClassId} {fields : List Field} {e : DecodeFault} :
    r.putFields id fields = .error e ↔ r.class? id = none ∧ e = .noClass id := by
  unfold putFields getClass
  cases r.class? id <;> simp [bind, Except.bind, pure, Except.pure, eq_comm]

theorem putBody_eq_error {r : Registry} {id : MethodId} {body : Block} {e : DecodeFault} :
    r.putBody id body = .error e ↔ r.method? id = none ∧ e = .noMethod id := by
  unfold putBody getMethod
  cases r.method? id <;> simp [bind, Except.bind, pure, Except.pure, eq_comm]

theorem putFields_eq_ok {r r' : Registry} {id : ClassId} {fields : List Field} :
    r.putFields id fields = .ok r' ↔ (r.class? id).isSome ∧ r' = r.setFields id fields := updateClass_eq_ok

theorem putBody_eq_ok {r r' : Registry} {id : MethodId} {body : Block} :
    r.putBody id body = .ok r' ↔ (r.method? id).isSome ∧ r' = r.setBody id body := updateMethod_eq_ok

theorem class?_of_outline_eq {r r' : Registry} (h : r'.outline = r.outline) {id : ClassId} {c : ClassDecl}
    (hc : r.class? id = some c) : ∃ c', r'.class? id = some c' ∧ c'.outline = c.outline := by
  have h' : (r'.class? id).map ClassDecl.outline = some c.outline := by
    rw [← class?_outline, h, class?_outline, hc]
    rfl
  rwa [Option.map_eq_some_iff] at h'

theorem method?_of_skeleton_eq {r r' : Registry} (h : r'.skeleton = r.skeleton) {id : MethodId} {m : MethodDecl}
    (hm : r.method? id = some m) : ∃ m', r'.method? id = some m' ∧ m'.header = m.header := by
  have h' : (r'.method? id).map MethodDecl.header = some m.header := by
    rw [← method?_skeleton, h, method?_skeleton, hm]
    rfl
  rwa [Option.map_eq_some_iff] at h'

theorem class?_isSome_congr {r r' : Registry} (h : r'.skeleton = r.skeleton) (id : ClassId) :
    (r'.class? id).isSome = (r.class? id).isSome := by
  refine congr_skeleton (fun r => (r.class? id).isSome) ?_ h
  intro r
  rw [class?_skeleton, Option.isSome_map]

theorem method?_isSome_congr {r r' : Registry} (h : r'.skeleton = r.skeleton) (id : MethodId) :
    (r'.method? id).isSome = (r.method? id).isSome := by
  refine congr_skeleton (fun r => (r.method? id).isSome) ?_ h
  intro r
  rw [method?_skeleton, Option.isSome_map]

/-- Registries with one outline agree on collections. -/
theorem collection_eq_of_outline_eq {r r' : Registry} (h : r'.outline = r.outline) {id : ClassId} {c c' : ClassDecl}
    (hc : r.class? id = some c) (hc' : r'.class? id = some c') : c'.collection = c.collection := by
  obtain ⟨c₁, hc₁, houtline⟩ := class?_of_outline_eq h hc
  obtain rfl := Option.some.inj (hc'.symm.trans hc₁)
  show c'.outline.collection = c.outline.collection
  rw [houtline]

/-! ## Changes -/

theorem class?_modifyClass (r : Registry) (id k : ClassId) (f : ClassDecl → ClassDecl) :
    (r.modifyClass id f).class? k = if k = id then (r.class? k).map f else r.class? k := by
  obtain ⟨i⟩ := id
  obtain ⟨k⟩ := k
  by_cases h : k = i
  · simp [modifyClass, class?, h]
  · simp [modifyClass, class?, h, Ne.symm h]

theorem method?_modifyMethod (r : Registry) (id k : MethodId) (f : MethodDecl → MethodDecl) :
    (r.modifyMethod id f).method? k = if k = id then (r.method? k).map f else r.method? k := by
  obtain ⟨i⟩ := id
  obtain ⟨k⟩ := k
  by_cases h : k = i
  · simp [modifyMethod, method?, h]
  · simp [modifyMethod, method?, h, Ne.symm h]

theorem method?_setBody_self {r : Registry} {id : MethodId} {m : MethodDecl} (h : r.method? id = some m)
    (body : Block) : (r.setBody id body).method? id = some { m with body } := by
  rw [setBody, method?_modifyMethod, if_pos rfl, h]
  rfl

theorem method?_setBody_of_ne {id k : MethodId} (h : k ≠ id) (r : Registry) (body : Block) :
    (r.setBody id body).method? k = r.method? k := by
  rw [setBody, method?_modifyMethod, if_neg h]

private theorem modify_modify {α : Type} {f g h : α → α} (heq : ∀ a, g (f a) = h a) (l : List α) (i : Nat) :
    (l.modify i f).modify i g = l.modify i h := by
  apply List.ext_getElem? fun n => ?_
  simp only [List.getElem?_modify]
  cases l[n]? with
  | none => rfl
  | some a => by_cases hn : i = n <;> simp [hn, heq]

private theorem map_modify {α β : Type} {g : α → β} {f : α → α} (h : ∀ a, g (f a) = g a) (l : List α) (i : Nat) :
    (l.modify i f).map g = l.map g := by
  apply List.ext_getElem? fun n => ?_
  simp only [List.getElem?_map, List.getElem?_modify]
  cases l[n]? with
  | none => rfl
  | some a => by_cases hn : i = n <;> simp [hn, h]

theorem skeleton_modifyClass {f : ClassDecl → ClassDecl} (h : ∀ c, (f c).skeleton = c.skeleton) (r : Registry)
    (id : ClassId) : (r.modifyClass id f).skeleton = r.skeleton := by
  simp [skeleton, modifyClass, map_modify h]

theorem skeleton_modifyMethod {f : MethodDecl → MethodDecl} (h : ∀ m, (f m).header = m.header) (r : Registry)
    (id : MethodId) : (r.modifyMethod id f).skeleton = r.skeleton := by
  simp [skeleton, modifyMethod, map_modify h]

theorem outline_setFields (r : Registry) (id : ClassId) (fields : List Field) :
    (r.setFields id fields).outline = r.outline :=
  congrArg (Registry.mk · (r.methods.map MethodDecl.header)) (map_modify (by intro _; rfl) _ _)

theorem outline_setBody (r : Registry) (id : MethodId) (body : Block) : (r.setBody id body).outline = r.outline :=
  congrArg (Registry.mk (r.classes.map ClassDecl.outline)) (map_modify (by intro _; rfl) _ _)

theorem skeleton_setBody (r : Registry) (id : MethodId) (body : Block) :
    (r.setBody id body).skeleton = r.skeleton := skeleton_eq_of_outline_eq (r.outline_setBody id body)

theorem outline_withoutFields (r : Registry) (id : ClassId) : (r.withoutFields id).outline = r.outline :=
  r.outline_setFields id []

theorem outline_withoutBody (r : Registry) (id : MethodId) : (r.withoutBody id).outline = r.outline :=
  r.outline_setBody id []

/-- Putting fields back for those that were taken out. -/
theorem putFields_withoutFields (r : Registry) (id : ClassId) (fields : List Field) :
    (r.withoutFields id).putFields id fields = r.putFields id fields := by
  have hset : (r.withoutFields id).setFields id fields = r.setFields id fields :=
    congrArg (Registry.mk · r.methods) (modify_modify (by intro _; rfl) _ _)
  unfold putFields getClass
  rw [hset, withoutFields, setFields, class?_modifyClass, if_pos rfl]
  cases r.class? id <;> rfl

/-- Putting a body back for the one that was taken out. -/
theorem putBody_withoutBody (r : Registry) (id : MethodId) (body : Block) :
    (r.withoutBody id).putBody id body = r.putBody id body := by
  have hset : (r.withoutBody id).setBody id body = r.setBody id body :=
    congrArg (Registry.mk r.classes) (modify_modify (by intro _; rfl) _ _)
  unfold putBody getMethod
  rw [hset, withoutBody, setBody, method?_modifyMethod, if_pos rfl]
  cases r.method? id <;> rfl

/-! ## What can be read off the skeleton -/

theorem getClass_skeleton (r : Registry) (id : ClassId) :
    r.skeleton.getClass id = (r.getClass id).map ClassDecl.skeleton := by
  unfold getClass
  rw [class?_skeleton]
  cases r.class? id <;> rfl

theorem getMethod_skeleton (r : Registry) (id : MethodId) :
    r.skeleton.getMethod id = (r.getMethod id).map MethodDecl.header := by
  unfold getMethod
  rw [method?_skeleton]
  cases r.method? id <;> rfl

theorem className_skeleton (id : ClassId) (r : Registry) : r.skeleton.className id = r.className id := by
  unfold className
  rw [getClass_skeleton]
  cases r.getClass id <;> rfl

theorem methodName_skeleton (id : MethodId) (r : Registry) : r.skeleton.methodName id = r.methodName id := by
  unfold methodName
  rw [getMethod_skeleton]
  cases r.getMethod id <;> rfl

/-- A name does not tell whether fields or a body have been taken out. -/
theorem className_withoutFields (r : Registry) (id k : ClassId) : (r.withoutFields id).className k = r.className k :=
  congr_skeleton (·.className k) (className_skeleton k) (skeleton_eq_of_outline_eq (r.outline_withoutFields id))

theorem className_withoutBody (r : Registry) (id : MethodId) (k : ClassId) :
    (r.withoutBody id).className k = r.className k :=
  congr_skeleton (·.className k) (className_skeleton k) (r.skeleton_setBody id [])

theorem methodName_withoutBody (r : Registry) (id k : MethodId) : (r.withoutBody id).methodName k = r.methodName k :=
  congr_skeleton (·.methodName k) (methodName_skeleton k) (r.skeleton_setBody id [])

theorem signature_skeleton (id : MethodId) (r : Registry) : r.skeleton.signature id = r.signature id := by
  unfold signature
  rw [getMethod_skeleton]
  cases r.getMethod id with
  | error e => rfl
  | ok m =>
    show (do let owner ← r.skeleton.className m.owner; _) = (do let owner ← r.className m.owner; _)
    rw [className_skeleton]
    rfl

theorem initializers_skeleton (id : ClassId) (r : Registry) : r.skeleton.initializers id = r.initializers id := by
  have hinit : (fun m => do let m ← r.skeleton.getMethod m; return m.isInit) =
      fun m => do let m ← r.getMethod m; return m.isInit := by
    funext m
    rw [getMethod_skeleton]
    cases r.getMethod m <;> rfl
  unfold initializers
  rw [getClass_skeleton, hinit]
  cases r.getClass id <;> rfl

theorem chosenClass?_skeleton (i : Nat) (r : Registry) : r.skeleton.chosenClass? i = r.chosenClass? i := by
  simp [chosenClass?, skeleton]

theorem chosenMethod?_skeleton (i : Nat) (r : Registry) : r.skeleton.chosenMethod? i = r.chosenMethod? i := by
  simp [chosenMethod?, skeleton]

theorem classNamed?_skeleton (name : String) (r : Registry) : r.skeleton.classNamed? name = r.classNamed? name := by
  simp [classNamed?, skeleton, List.findIdx?_map, Function.comp_def, ClassDecl.skeleton]

end Registry

theorem Registry.supertypes_skeleton (r : Registry) : r.skeleton.supertypes = r.supertypes := by
  have hnamed : r.skeleton.classesFromLast = r.classesFromLast := by
    unfold classesFromLast skeleton
    congr 1
    apply List.ext_getElem? fun i => ?_
    simp [Function.comp_def, ClassDecl.skeleton]
  unfold supertypes
  rw [hnamed]
  simp [skeleton, Function.comp_def, ClassDecl.supertypes, ClassDecl.skeleton]

theorem Hierarchy.ofRegistry_skeleton (r : Registry) : Hierarchy.ofRegistry r.skeleton = Hierarchy.ofRegistry r := by
  have hlength : r.skeleton.classes.length = r.classes.length := by simp [Registry.skeleton]
  simp only [Hierarchy.ofRegistry, r.supertypes_skeleton, hlength]

end ObserverPattern
