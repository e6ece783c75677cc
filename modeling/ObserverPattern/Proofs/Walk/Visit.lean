import ObserverPattern.Proofs.Program.InRange
import ObserverPattern.Walk.Traverse

/-!
# What a traversal does to a registry

A successful traversal replaces the fields of the classes that the template lists and the bodies of
the methods that these classes list, and nothing else (`outline_walk`).

* `walk_fields`: a class that is listed once gets the fields that the pass makes of its own, and
  `walk_fieldSteps` says what becomes of the fields of a class that is listed any number of times;
* `walk_body`: a method that is listed once gets the body that the pass makes of its own;
* `walk_bodies`: a method that is listed, however often, gets a body with what every visit establishes;
* `walk_visited`: its body is what a row of visits makes of it, one for each time that it is listed.

In all cases the pass sees a registry with the outline of the first one.
-/

namespace ObserverPattern

/-- The methods that a class lists. -/
def Registry.methodsOf (r : Registry) (id : ClassId) : List MethodId :=
  match r.class? id with
  | some c => c.methods
  | none => []

/-- The methods that the classes of the template list, in the order of the traversal. -/
def Program.listedMethods (p : Program) : List MethodId := p.template.classes.flatMap p.registry.methodsOf

theorem Registry.methodsOf_skeleton (id : ClassId) (r : Registry) : r.skeleton.methodsOf id = r.methodsOf id := by
  unfold methodsOf
  rw [class?_skeleton]
  cases r.class? id <;> rfl

theorem Registry.methodsOf_eq {r : Registry} {id : ClassId} {c : ClassDecl} (h : r.class? id = some c) :
    r.methodsOf id = c.methods := by
  unfold methodsOf
  rw [h]

theorem Registry.methodsOf_congr {r r' : Registry} (h : r'.skeleton = r.skeleton) : r'.methodsOf = r.methodsOf := by
  funext id
  exact congr_skeleton (·.methodsOf id) (methodsOf_skeleton id) h

/-- A method that a class lists is there. -/
theorem Program.InRange.methodOf {p : Program} (h : p.InRange) {id : ClassId} {k : MethodId}
    (hk : k ∈ p.registry.methodsOf id) : (p.registry.method? k).isSome := by
  unfold Registry.methodsOf at hk
  split at hk
  · next c hc => exact h.methods c (List.mem_of_getElem? hc) k hk
  · cases hk

/-- An entry that a list has once splits the list. -/
private theorem split_of_count_eq_one {α : Type} [BEq α] [LawfulBEq α] {a : α} {l : List α} (h : l.count a = 1) :
    ∃ pre post, l = pre ++ a :: post ∧ a ∉ pre ∧ a ∉ post := by
  have hmem : a ∈ l := List.count_pos_iff.1 (by rw [h]; exact Nat.one_pos)
  obtain ⟨pre, post, rfl, hpre⟩ := List.eq_append_cons_of_mem hmem
  refine ⟨pre, post, rfl, hpre, ?_⟩
  rw [List.count_append, List.count_cons_self] at h
  exact fun hpost => absurd (List.count_pos_iff.2 hpost) (by omega)

/-- The place of a method in a class, while the registry is without the body of the method. -/
theorem Position.location_withoutBody {r : Registry} {owner : ClassId} {name : String} {id : MethodId}
    {m : MethodDecl} (hname : r.className owner = .ok name) (hm : r.method? id = some m) (depth maxDepth : Nat) :
    location ⟨r.withoutBody id, owner, some id, depth, maxDepth⟩ = .ok (name ++ "." ++ m.name) := by
  have hmethod : r.methodName id = .ok m.name := Registry.methodName_eq_ok.2 ⟨m, hm, rfl⟩
  simp only [location, Registry.className_withoutBody, Registry.methodName_withoutBody, hname, hmethod, ok_bind]
  rfl

/-- The place of a class, while the registry is without the fields of the class. -/
theorem Position.location_withoutFields {r : Registry} {id : ClassId} {name : String}
    (hname : r.className id = .ok name) (depth maxDepth : Nat) :
    location ⟨r.withoutFields id, id, none, depth, maxDepth⟩ = .ok name := by
  simp only [location, Registry.className_withoutFields, hname, ok_bind]
  rfl

namespace Walk

theorem lift_eq {α : Type} (x : Except DecodeFault α) : (lift x : Except DecodeFault α) = x := by
  cases x <;> rfl

variable {pass : Pass (Except DecodeFault)} {maxDepth : Nat} {owner : ClassId} {r r' : Registry}

/-! ## The methods of a class -/

/-- What a visit of a method does: it puts in place of the body what the pass makes of it. -/
theorem walkMethod_eq_ok {id : MethodId} (h : walkMethod pass maxDepth owner r id = .ok r') :
    ∃ m body new, r.method? id = some m ∧
      walkBlock pass ⟨r.withoutBody id, owner, some id, 0, maxDepth⟩ m.body = .ok body ∧
        pass.onMethod ⟨r.withoutBody id, owner, some id, 0, maxDepth⟩ body = .ok new ∧ r' = r.setBody id new := by
  simp only [walkMethod, lift_eq, bind_eq_ok, Registry.getMethod_eq_ok, Registry.putBody_withoutBody,
    Registry.putBody_eq_ok] at h
  obtain ⟨m, hm, body, hbody, new, hnew, -, rfl⟩ := h
  exact ⟨m, body, new, hm, hbody, hnew, rfl⟩

/-- What the methods of a class keep: the outline, every class, and the methods that are not visited. -/
private theorem walkMethods_keep {ids : List MethodId} (h : ids.foldlM (walkMethod pass maxDepth owner) r = .ok r') :
    r'.outline = r.outline ∧ (∀ k, r'.class? k = r.class? k) ∧ ∀ k, k ∉ ids → r'.method? k = r.method? k := by
  refine foldlM_preserves
    (P := fun r' => r'.outline = r.outline ∧ (∀ k, r'.class? k = r.class? k) ∧
      ∀ k, k ∉ ids → r'.method? k = r.method? k)
    h ⟨rfl, fun _ => rfl, fun _ _ => rfl⟩ ?_
  rintro id hid r₁ r₂ hstep ⟨houtline, hclass, hmethod⟩
  obtain ⟨m, body, new, -, -, -, rfl⟩ := walkMethod_eq_ok hstep
  refine ⟨(r₁.outline_setBody id new).trans houtline, hclass, ?_⟩
  intro k hk
  have hne : k ≠ id := fun he => hk (he ▸ hid)
  rw [Registry.method?_setBody_of_ne hne, hmethod k hk]

/-- What becomes of the body of a method that a list of methods has once. -/
private theorem walkMethods_body {ids : List MethodId} (h : ids.foldlM (walkMethod pass maxDepth owner) r = .ok r')
    {k : MethodId} (hk : ids.count k = 1) :
    ∃ r₁ m body new, r₁.outline = r.outline ∧ r.method? k = some m ∧
      walkBlock pass ⟨r₁, owner, some k, 0, maxDepth⟩ m.body = .ok body ∧
        pass.onMethod ⟨r₁, owner, some k, 0, maxDepth⟩ body = .ok new ∧
          r'.method? k = some { m with body := new } := by
  obtain ⟨pre, post, rfl, hpre, hpost⟩ := split_of_count_eq_one hk
  obtain ⟨r₁, h₁, h⟩ := foldlM_append_eq_ok.1 h
  rw [List.foldlM_cons, bind_eq_ok] at h
  obtain ⟨r₂, h₂, h⟩ := h
  obtain ⟨houtline, -, hbefore⟩ := walkMethods_keep h₁
  obtain ⟨m, body, new, hm, hbody, hnew, rfl⟩ := walkMethod_eq_ok h₂
  obtain ⟨-, -, hafter⟩ := walkMethods_keep h
  refine ⟨r₁.withoutBody k, m, body, new, (r₁.outline_withoutBody k).trans houtline, hbefore k hpre ▸ hm, hbody, hnew,
    ?_⟩
  rw [hafter k hpost, Registry.method?_setBody_self hm]

/-! ## A class -/

/-- What a visit of a class does: first the fields are replaced, then the methods are visited. -/
theorem walkClass_eq_ok {id : ClassId} (h : walkClass pass maxDepth r id = .ok r') :
    ∃ c fields, r.class? id = some c ∧
      walkFields pass ⟨r.withoutFields id, id, none, 0, maxDepth⟩ c.fields = .ok fields ∧
        c.methods.foldlM (walkMethod pass maxDepth id) (r.setFields id fields) = .ok r' := by
  simp only [walkClass, lift_eq, bind_eq_ok, Registry.getClass_eq_ok, Registry.putFields_withoutFields,
    Registry.putFields_eq_ok] at h
  obtain ⟨c, hc, -, -, fields, hfields, _, ⟨-, rfl⟩, h⟩ := h
  exact ⟨c, fields, hc, hfields, h⟩

/-- What a class keeps: the outline, the other classes, and the methods that it does not list. -/
private theorem walkClass_keep {id : ClassId} (h : walkClass pass maxDepth r id = .ok r') :
    r'.outline = r.outline ∧ (∀ k, k ≠ id → r'.class? k = r.class? k) ∧
      ∀ k, k ∉ r.methodsOf id → r'.method? k = r.method? k := by
  obtain ⟨c, fields, hc, -, h⟩ := walkClass_eq_ok h
  obtain ⟨houtline, hclass, hmethod⟩ := walkMethods_keep h
  refine ⟨houtline.trans (r.outline_setFields id fields), ?_, ?_⟩
  · intro k hk
    rw [hclass k, Registry.setFields, Registry.class?_modifyClass, if_neg hk]
  · intro k hk
    rw [Registry.methodsOf_eq hc] at hk
    exact hmethod k hk

private theorem walkClasses_keep {ids : List ClassId} (h : ids.foldlM (walkClass pass maxDepth) r = .ok r') :
    r'.outline = r.outline ∧ (∀ k, k ∉ ids → r'.class? k = r.class? k) ∧
      ∀ k, k ∉ ids.flatMap r.methodsOf → r'.method? k = r.method? k := by
  refine foldlM_preserves
    (P := fun r' => r'.outline = r.outline ∧ (∀ k, k ∉ ids → r'.class? k = r.class? k) ∧
      ∀ k, k ∉ ids.flatMap r.methodsOf → r'.method? k = r.method? k)
    h ⟨rfl, fun _ _ => rfl, fun _ _ => rfl⟩ ?_
  rintro id hid r₁ r₂ hstep ⟨houtline, hclass, hmethod⟩
  obtain ⟨houtline', hclass', hmethod'⟩ := walkClass_keep hstep
  refine ⟨houtline'.trans houtline, ?_, ?_⟩
  · intro k hk
    rw [hclass' k fun he => hk (he ▸ hid), hclass k hk]
  · intro k hk
    have hne : k ∉ r₁.methodsOf id := by
      rw [Registry.methodsOf_congr (Registry.skeleton_eq_of_outline_eq houtline)]
      exact fun hmem => hk (List.mem_flatMap.2 ⟨id, hid, hmem⟩)
    rw [hmethod' k hne, hmethod k hk]

/-! ## The traversal -/

/-- A traversal keeps everything but fields and bodies. -/
theorem outline_walk {t : Template} (h : walk pass maxDepth t r = .ok r') : r'.outline = r.outline :=
  (walkClasses_keep h).1

/-- A class that is listed once gets the fields that the pass makes of its own. -/
theorem walk_fields {t : Template} (h : walk pass maxDepth t r = .ok r') {id : ClassId}
    (hid : t.classes.count id = 1) :
    ∃ r₁ c fields, r₁.outline = r.outline ∧ r.class? id = some c ∧
      walkFields pass ⟨r₁, id, none, 0, maxDepth⟩ c.fields = .ok fields ∧
        r'.class? id = some { c with fields } := by
  obtain ⟨pre, post, hsplit, hpre, hpost⟩ := split_of_count_eq_one hid
  rw [walk, hsplit] at h
  obtain ⟨r₁, h₁, h⟩ := foldlM_append_eq_ok.1 h
  rw [List.foldlM_cons, bind_eq_ok] at h
  obtain ⟨r₂, h₂, h⟩ := h
  obtain ⟨houtline, hbefore, -⟩ := walkClasses_keep h₁
  obtain ⟨c, fields, hc, hfields, h₂⟩ := walkClass_eq_ok h₂
  obtain ⟨-, hafter, -⟩ := walkClasses_keep h
  obtain ⟨-, hclass, -⟩ := walkMethods_keep h₂
  refine ⟨r₁.withoutFields id, c, fields, (r₁.outline_withoutFields id).trans houtline, hbefore id hpre ▸ hc, hfields,
    ?_⟩
  rw [hafter id hpost, hclass id, Registry.setFields, Registry.class?_modifyClass, if_pos rfl, hc]
  rfl

/-- What each visit of a class carries one step further, a row of visits carries as far as it visits the class. -/
private theorem walkClasses_fields {P : Nat → List Field → Prop} {id : ClassId} {c : ClassDecl}
    (hstep : ∀ n r₁ fs fs', r₁.outline = r.outline → walkFields pass ⟨r₁, id, none, 0, maxDepth⟩ fs = .ok fs' →
      P n fs → P (n + 1) fs') {ids : List ClassId} {n : Nat} {r₁ r₂ : Registry} {fs : List Field}
    (h : ids.foldlM (walkClass pass maxDepth) r₁ = .ok r₂) (houtline : r₁.outline = r.outline)
    (hc : r₁.class? id = some { c with fields := fs }) (hfs : P n fs) :
    ∃ fs', r₂.class? id = some { c with fields := fs' } ∧ P (n + ids.count id) fs' := by
  induction ids generalizing n r₁ fs with
  | nil =>
    rw [List.foldlM_nil, pure_eq_ok] at h
    subst h
    exact ⟨fs, hc, hfs⟩
  | cons k ids ih =>
    rw [List.foldlM_cons, bind_eq_ok] at h
    obtain ⟨r₃, h₃, h⟩ := h
    obtain ⟨houtline₃, hother, -⟩ := walkClass_keep h₃
    by_cases hk : k = id
    · subst hk
      obtain ⟨c₁, fields, hc₁, hfields, hmethods⟩ := walkClass_eq_ok h₃
      obtain rfl := Option.some.inj (hc₁.symm.trans hc)
      obtain ⟨-, hclass, -⟩ := walkMethods_keep hmethods
      have hc₃ : r₃.class? k = some { c with fields } := by
        rw [hclass k, Registry.setFields, Registry.class?_modifyClass, if_pos rfl, hc]
        rfl
      have hnext := hstep n (r₁.withoutFields k) fs fields ((r₁.outline_withoutFields k).trans houtline) hfields hfs
      obtain ⟨fs', hresult, hP⟩ := ih h (houtline₃.trans houtline) hc₃ hnext
      refine ⟨fs', hresult, ?_⟩
      rw [List.count_cons_self, ← Nat.add_assoc, Nat.add_right_comm]
      exact hP
    · have hc₃ : r₃.class? id = some { c with fields := fs } := by rw [hother id (Ne.symm hk), hc]
      rw [List.count_cons_of_ne hk]
      exact ih h (houtline₃.trans houtline) hc₃ hfs

/-- The fields of a class after the traversal, which visits the class as often as the template lists it. -/
theorem walk_fieldSteps {t : Template} {P : Nat → List Field → Prop} {id : ClassId} {c : ClassDecl}
    (hstep : ∀ n r₁ fs fs', r₁.outline = r.outline → walkFields pass ⟨r₁, id, none, 0, maxDepth⟩ fs = .ok fs' →
      P n fs → P (n + 1) fs') (h : walk pass maxDepth t r = .ok r') (hc : r.class? id = some c)
    (hinit : P 0 c.fields) : ∃ fs, r'.class? id = some { c with fields := fs } ∧ P (t.classes.count id) fs := by
  obtain ⟨fs, hfs, hP⟩ := walkClasses_fields hstep h rfl hc hinit
  rw [Nat.zero_add] at hP
  exact ⟨fs, hfs, hP⟩

/-- A method that is listed once gets the body that the pass makes of its own. -/
theorem walk_body {t : Template} (h : walk pass maxDepth t r = .ok r') {id : ClassId} (hid : id ∈ t.classes)
    {k : MethodId} (hk : k ∈ r.methodsOf id) (honce : (t.classes.flatMap r.methodsOf).count k = 1) :
    ∃ r₁ m body new, r₁.outline = r.outline ∧ r.method? k = some m ∧
      walkBlock pass ⟨r₁, id, some k, 0, maxDepth⟩ m.body = .ok body ∧
        pass.onMethod ⟨r₁, id, some k, 0, maxDepth⟩ body = .ok new ∧ r'.method? k = some { m with body := new } := by
  obtain ⟨pre, post, hsplit⟩ := List.append_of_mem hid
  -- The class lists the method, so no class before or after it does, and it does so once.
  rw [hsplit, List.flatMap_append, List.flatMap_cons, List.count_append, List.count_append] at honce
  have hin : 0 < (r.methodsOf id).count k := List.count_pos_iff.2 hk
  have hpre : k ∉ pre.flatMap r.methodsOf := fun hmem => absurd (List.count_pos_iff.2 hmem) (by omega)
  have hpost : k ∉ post.flatMap r.methodsOf := fun hmem => absurd (List.count_pos_iff.2 hmem) (by omega)
  rw [walk, hsplit] at h
  obtain ⟨r₁, h₁, h⟩ := foldlM_append_eq_ok.1 h
  rw [List.foldlM_cons, bind_eq_ok] at h
  obtain ⟨r₂, h₂, h⟩ := h
  obtain ⟨houtline, -, hbefore⟩ := walkClasses_keep h₁
  have houtline₂ := (walkClass_keep h₂).1.trans houtline
  obtain ⟨c, fields, hc, -, h₂⟩ := walkClass_eq_ok h₂
  have hlisted : c.methods.count k = 1 := by
    rw [← Registry.methodsOf_eq hc, Registry.methodsOf_congr (Registry.skeleton_eq_of_outline_eq houtline)]
    omega
  obtain ⟨r₃, m, body, new, houtline₃, hm, hbody, hnew, hresult⟩ := walkMethods_body h₂ hlisted
  obtain ⟨-, -, hafter⟩ := walkClasses_keep h
  refine ⟨r₃, m, body, new, ?_, hbefore k hpre ▸ hm, hbody, hnew, ?_⟩
  · rw [houtline₃, Registry.outline_setFields, houtline]
  · rw [hafter k (by rwa [Registry.methodsOf_congr (Registry.skeleton_eq_of_outline_eq houtline₂)]), hresult]

/-! ## Methods that are listed more than once -/

section Bodies

variable {k : MethodId} {P Q : Block → Prop}

/-- Whatever visits of a method make of a body with one property has another one. -/
def Establish (pass : Pass (Except DecodeFault)) (maxDepth : Nat) (r : Registry) (k : MethodId)
    (P Q : Block → Prop) : Prop :=
  ∀ r₁ owner b body new, r₁.outline = r.outline →
    walkBlock pass ⟨r₁, owner, some k, 0, maxDepth⟩ b = .ok body →
      pass.onMethod ⟨r₁, owner, some k, 0, maxDepth⟩ body = .ok new → P b → Q new

/-- A registry with the outline of another one in which the body of a method has a property. -/
structure BodyHas (r : Registry) (k : MethodId) (P : Block → Prop) (r' : Registry) : Prop where
  outline : r'.outline = r.outline
  body : ∀ m, r'.method? k = some m → P m.body

private theorem walkMethod_establishes (hvisit : Establish pass maxDepth r k P Q) {r₁ r₂ : Registry}
    (h : walkMethod pass maxDepth owner r₁ k = .ok r₂) (hr₁ : BodyHas r k P r₁) : BodyHas r k Q r₂ := by
  obtain ⟨m, body, new, hm, hbody, hnew, rfl⟩ := walkMethod_eq_ok h
  refine ⟨(r₁.outline_setBody k new).trans hr₁.outline, ?_⟩
  intro m' hm'
  rw [Registry.method?_setBody_self hm] at hm'
  cases hm'
  exact hvisit (r₁.withoutBody k) owner m.body body new ((r₁.outline_withoutBody k).trans hr₁.outline) hbody hnew
    (hr₁.body m hm)

private theorem walkMethods_keepBody (hvisit : Establish pass maxDepth r k P P) {ids : List MethodId}
    {r₁ r₂ : Registry} (h : ids.foldlM (walkMethod pass maxDepth owner) r₁ = .ok r₂) (hr₁ : BodyHas r k P r₁) :
    BodyHas r k P r₂ := by
  refine foldlM_preserves h hr₁ ?_
  intro id _ r₃ r₄ hstep hr₃
  by_cases hid : id = k
  · subst hid
    exact walkMethod_establishes hvisit hstep hr₃
  · obtain ⟨m, body, new, -, -, -, rfl⟩ := walkMethod_eq_ok hstep
    refine ⟨(r₃.outline_setBody id new).trans hr₃.outline, ?_⟩
    intro m' hm'
    rw [Registry.method?_setBody_of_ne (Ne.symm hid)] at hm'
    exact hr₃.body m' hm'

private theorem walkClass_keepBody (hvisit : Establish pass maxDepth r k P P) {id : ClassId} {r₁ r₂ : Registry}
    (h : walkClass pass maxDepth r₁ id = .ok r₂) (hr₁ : BodyHas r k P r₁) : BodyHas r k P r₂ := by
  obtain ⟨c, fields, -, -, h⟩ := walkClass_eq_ok h
  exact walkMethods_keepBody hvisit h ⟨(r₁.outline_setFields id fields).trans hr₁.outline, hr₁.body⟩

/-- A method that is listed, however often, gets a body with what every visit establishes, if a visit needs
no more than this to establish it again. -/
theorem walk_bodies {t : Template} (hvisit : Establish pass maxDepth r k P Q) (hagain : ∀ b, Q b → P b)
    (h : walk pass maxDepth t r = .ok r') {id : ClassId} (hid : id ∈ t.classes) (hk : k ∈ r.methodsOf id)
    (hbody : ∀ m, r.method? k = some m → P m.body) : ∀ m, r'.method? k = some m → Q m.body := by
  have hP : Establish pass maxDepth r k P P := fun r₁ owner b body new houtline hblock hnew hb =>
    hagain _ (hvisit r₁ owner b body new houtline hblock hnew hb)
  have hQ : Establish pass maxDepth r k Q Q := fun r₁ owner b body new houtline hblock hnew hb =>
    hvisit r₁ owner b body new houtline hblock hnew (hagain b hb)
  obtain ⟨pre, post, hsplit⟩ := List.append_of_mem hid
  rw [walk, hsplit] at h
  obtain ⟨r₁, h₁, h⟩ := foldlM_append_eq_ok.1 h
  rw [List.foldlM_cons, bind_eq_ok] at h
  obtain ⟨r₂, h₂, h⟩ := h
  have hr₁ : BodyHas r k P r₁ :=
    foldlM_preserves h₁ ⟨rfl, hbody⟩ fun _ _ _ _ hstep hr => walkClass_keepBody hP hstep hr
  -- In the class that lists the method, the first visit of it establishes the property.
  have hr₂ : BodyHas r k Q r₂ := by
    obtain ⟨c, fields, hc, -, h₂⟩ := walkClass_eq_ok h₂
    rw [← Registry.methodsOf_congr (Registry.skeleton_eq_of_outline_eq hr₁.outline), Registry.methodsOf_eq hc] at hk
    obtain ⟨before, after, hmethods⟩ := List.append_of_mem hk
    rw [hmethods] at h₂
    obtain ⟨r₃, h₃, h₂⟩ := foldlM_append_eq_ok.1 h₂
    rw [List.foldlM_cons, bind_eq_ok] at h₂
    obtain ⟨r₄, h₄, h₂⟩ := h₂
    have hr₃ := walkMethods_keepBody hP h₃ ⟨(r₁.outline_setFields id fields).trans hr₁.outline, hr₁.body⟩
    exact walkMethods_keepBody hQ h₂ (walkMethod_establishes hvisit h₄ hr₃)
  have hr' : BodyHas r k Q r' := foldlM_preserves h hr₂ fun _ _ _ _ hstep hr => walkClass_keepBody hQ hstep hr
  exact hr'.body

end Bodies

/-! ## The row of visits of a method -/

/-- A visit of a method at a class makes one body of another. -/
structure Visits (pass : Pass (Except DecodeFault)) (maxDepth : Nat) (r : Registry) (owner : ClassId) (k : MethodId)
    (b new : Block) : Prop where
  listed : k ∈ r.methodsOf owner
  outcome : ∃ r₁ body, r₁.outline = r.outline ∧ walkBlock pass ⟨r₁, owner, some k, 0, maxDepth⟩ b = .ok body ∧
    pass.onMethod ⟨r₁, owner, some k, 0, maxDepth⟩ body = .ok new

/-- What a number of visits of a method make of its body, each at one of the classes. -/
inductive Visited (pass : Pass (Except DecodeFault)) (maxDepth : Nat) (classes : List ClassId) (r : Registry)
    (k : MethodId) (start : Block) : Nat → Block → Prop
  | start : Visited pass maxDepth classes r k start 0 start
  | visit {n : Nat} {owner : ClassId} {b new : Block} (before : Visited pass maxDepth classes r k start n b)
      (owner_mem : owner ∈ classes) (last : Visits pass maxDepth r owner k b new) :
      Visited pass maxDepth classes r k start (n + 1) new

section Visits

variable {classes : List ClassId} {k : MethodId} {m : MethodDecl} {n : Nat} {b : Block} {r₁ r₂ : Registry}

private theorem walkMethods_visited {ids : List MethodId}
    (h : ids.foldlM (walkMethod pass maxDepth owner) r₁ = .ok r₂) (houtline : r₁.outline = r.outline)
    (howner : owner ∈ classes) (hlisted : ∀ id ∈ ids, id ∈ r.methodsOf owner)
    (hk : r₁.method? k = some { m with body := b }) (hb : Visited pass maxDepth classes r k m.body n b) :
    ∃ b', r₂.method? k = some { m with body := b' } ∧
      Visited pass maxDepth classes r k m.body (n + ids.count k) b' := by
  induction ids generalizing n b r₁ with
  | nil =>
    rw [List.foldlM_nil, pure_eq_ok] at h
    subst h
    exact ⟨b, hk, hb⟩
  | cons id ids ih =>
    rw [List.foldlM_cons, bind_eq_ok] at h
    obtain ⟨r₃, h₃, h⟩ := h
    obtain ⟨m₁, body, new, hm₁, hbody, hnew, rfl⟩ := walkMethod_eq_ok h₃
    have houtline₃ := (r₁.outline_setBody id new).trans houtline
    have hrest : ∀ id ∈ ids, id ∈ r.methodsOf owner := fun id hid => hlisted id (List.mem_cons_of_mem _ hid)
    by_cases hid : id = k
    · subst hid
      obtain rfl := Option.some.inj (hm₁.symm.trans hk)
      have hk₃ : (r₁.setBody id new).method? id = some { m with body := new } := Registry.method?_setBody_self hk new
      have hvisit := hb.visit howner ⟨hlisted id List.mem_cons_self, r₁.withoutBody id, body,
        (r₁.outline_withoutBody id).trans houtline, hbody, hnew⟩
      obtain ⟨b', hb', hvisited⟩ := ih h houtline₃ hrest hk₃ hvisit
      refine ⟨b', hb', ?_⟩
      rw [List.count_cons_self, ← Nat.add_assoc, Nat.add_right_comm]
      exact hvisited
    · have hk₃ : (r₁.setBody id new).method? k = some { m with body := b } := by
        rw [Registry.method?_setBody_of_ne (Ne.symm hid), hk]
      rw [List.count_cons_of_ne hid]
      exact ih h houtline₃ hrest hk₃ hb

private theorem walkClasses_visited {ids : List ClassId} (h : ids.foldlM (walkClass pass maxDepth) r₁ = .ok r₂)
    (houtline : r₁.outline = r.outline) (hids : ids ⊆ classes) (hk : r₁.method? k = some { m with body := b })
    (hb : Visited pass maxDepth classes r k m.body n b) :
    ∃ b', r₂.method? k = some { m with body := b' } ∧
      Visited pass maxDepth classes r k m.body (n + (ids.flatMap r.methodsOf).count k) b' := by
  induction ids generalizing n b r₁ with
  | nil =>
    rw [List.foldlM_nil, pure_eq_ok] at h
    subst h
    exact ⟨b, hk, hb⟩
  | cons id ids ih =>
    rw [List.foldlM_cons, bind_eq_ok] at h
    obtain ⟨r₃, h₃, h⟩ := h
    obtain ⟨houtline₃, -, -⟩ := walkClass_keep h₃
    obtain ⟨c, fields, hc, -, hmethods⟩ := walkClass_eq_ok h₃
    have hsame : c.methods = r.methodsOf id := by
      rw [← Registry.methodsOf_eq hc, Registry.methodsOf_congr (Registry.skeleton_eq_of_outline_eq houtline)]
    obtain ⟨hid, hids⟩ := List.cons_subset.1 hids
    obtain ⟨b₁, hb₁, hvisited₁⟩ := walkMethods_visited hmethods ((r₁.outline_setFields id fields).trans houtline) hid
      (fun id hid => hsame ▸ hid) hk hb
    obtain ⟨b', hb', hvisited⟩ := ih h (houtline₃.trans houtline) hids hb₁ hvisited₁
    refine ⟨b', hb', ?_⟩
    rw [List.flatMap_cons, List.count_append, ← hsame, ← Nat.add_assoc]
    exact hvisited

/-- The body of a method after the traversal is what as many visits make of it as the classes list the method. -/
theorem walk_visited {t : Template} (h : walk pass maxDepth t r = .ok r') (hm : r.method? k = some m) :
    ∃ b, r'.method? k = some { m with body := b } ∧
      Visited pass maxDepth t.classes r k m.body ((t.classes.flatMap r.methodsOf).count k) b := by
  obtain ⟨b, hb, hvisited⟩ := walkClasses_visited h rfl (List.Subset.refl _) hm .start
  rw [Nat.zero_add] at hvisited
  exact ⟨b, hb, hvisited⟩

end Visits

end Walk

end ObserverPattern
