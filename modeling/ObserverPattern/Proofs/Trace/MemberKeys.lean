import Mathlib.Data.List.TakeWhile
import ObserverPattern.Proofs.Syntax.Parts
import ObserverPattern.Proofs.Text.Rewording
import ObserverPattern.Syntax.Source
import ObserverPattern.Trace.MemberKey

/-!
# Member keys of paths

An operand is a path: a name, a member of a path, or a call of either. Its key is read off its source text.

* `afterLast_append_of_mem`, `afterLast_append_of_notMem`: the last component of a text, from those of its parts;
* `IsPath.afterLast_named`: a name or a member of a path ends in its name;
* `memberKey_source`: so the key of a path is that of the name it ends in, unless it is a call with the member of
  something among its arguments. Then the dot of that member is the last one of the text, and the key is that of the
  arguments.
-/

namespace ObserverPattern

/-! ## The last component of a text -/

section Components

variable {c : Char} {s t : List Char}

theorem afterLast_append_of_mem (h : c ∈ t) : afterLast c (s ++ t) = afterLast c t := by
  unfold afterLast
  rw [List.reverse_append, List.takeWhile_append, if_neg]
  intro heq
  -- The whole of `t` would be free of the character.
  have hall : t.reverse.takeWhile (· != c) = t.reverse := (List.takeWhile_prefix _).eq_of_length heq
  have hne := List.takeWhile_eq_self_iff.1 hall c (List.mem_reverse.2 h)
  simp at hne

theorem afterLast_append_of_notMem (h : c ∉ t) : afterLast c (s ++ t) = afterLast c s ++ t := by
  unfold afterLast
  have hall : ∀ x ∈ t.reverse, (x != c) = true := by
    intro x hx
    have hne : x ≠ c := fun heq => h (heq ▸ List.mem_reverse.1 hx)
    simpa using hne
  rw [List.reverse_append, List.takeWhile_append_of_pos hall, List.reverse_append, List.reverse_reverse]

theorem afterLast_of_notMem (h : c ∉ t) : afterLast c t = t := by
  have happend := afterLast_append_of_notMem (s := []) h
  rwa [List.nil_append] at happend

theorem afterLast_append_cons (h : c ∉ t) : afterLast c (s ++ c :: t) = t := by
  have hcons : afterLast c (c :: t) = t := by
    have happend := afterLast_append_of_notMem (s := [c]) h
    simpa [afterLast] using happend
  rw [afterLast_append_of_mem List.mem_cons_self, hcons]

end Components

/-! ## Texts of paths -/

/-- A parenthesis, which is dropped at the ends of an operand. -/
def isParenthesis (c : Char) : Bool := c == '(' || c == ')'

/-- A text without the parentheses at its end. -/
def withoutClosing (s : List Char) : List Char := (s.reverse.dropWhile isParenthesis).reverse

/-- A text that starts with a character of a name and ends with one or with a parenthesis. -/
structure PathText (s : List Char) : Prop where
  start : ∃ c rest, s = c :: rest ∧ Text.isGroupChar c = true
  stop : ∃ rest c, s = rest ++ [c] ∧ (Text.isGroupChar c = true ∨ c = ')')

private theorem isBlank_of_isGroupChar {c : Char} (h : Text.isGroupChar c = true) : Text.isBlank c = false := by
  have hall : ∀ n < 128, Text.isGroupChar (Char.ofNat n) = true → Text.isBlank (Char.ofNat n) = false := by
    decide +kernel
  have hc := hall c.toNat (Text.isAscii_of_isGroupChar h)
  rw [Char.ofNat_toNat] at hc
  exact hc h

theorem ne_of_isGroupChar {c d : Char} (h : Text.isGroupChar c = true) (hd : Text.isGroupChar d = false) : c ≠ d := by
  rintro rfl
  rw [h] at hd
  cases hd

private theorem not_isParenthesis {c : Char} (h : Text.isGroupChar c = true) : isParenthesis c = false := by
  have hopen : c ≠ '(' := ne_of_isGroupChar h (by decide)
  have hclose : c ≠ ')' := ne_of_isGroupChar h (by decide)
  simp [isParenthesis, hopen, hclose]

section PathText

variable {s t : List Char}

theorem withoutClosing_append_of_all (h : ∀ c ∈ t, isParenthesis c = true) :
    withoutClosing (s ++ t) = withoutClosing s := by
  unfold withoutClosing
  have hall : ∀ c ∈ t.reverse, isParenthesis c = true := fun c hc => h c (List.mem_reverse.1 hc)
  rw [List.reverse_append, List.dropWhile_append_of_pos hall]

theorem withoutClosing_append {c : Char} (hc : c ∈ t) (hparen : isParenthesis c = false) :
    withoutClosing (s ++ t) = s ++ withoutClosing t := by
  unfold withoutClosing
  have hne : (t.reverse.dropWhile isParenthesis).isEmpty = false := by
    rw [List.isEmpty_eq_false_iff, ne_eq, List.dropWhile_eq_nil_iff]
    intro hall
    have htrue := hall c (List.mem_reverse.2 hc)
    rw [hparen] at htrue
    cases htrue
  rw [List.reverse_append, List.dropWhile_append, hne]
  simp

theorem mem_withoutClosing {c : Char} (hc : isParenthesis c = false) : c ∈ withoutClosing s ↔ c ∈ s := by
  unfold withoutClosing
  rw [List.mem_reverse]
  refine ⟨fun h => List.mem_reverse.1 ((List.dropWhile_suffix _).subset h), fun h => ?_⟩
  -- A character that is dropped is a parenthesis.
  rw [← List.mem_reverse, ← List.takeWhile_append_dropWhile (p := isParenthesis) (l := s.reverse)] at h
  rcases List.mem_append.1 h with h | h
  · rw [List.mem_takeWhile_imp h] at hc
    cases hc
  · exact h

theorem PathText.append (hs : PathText s) (ht : PathText t) (between : List Char) :
    PathText (s ++ (between ++ t)) := by
  obtain ⟨c, rest, rfl, hc⟩ := hs.start
  obtain ⟨rest', c', rfl, hc'⟩ := ht.stop
  exact ⟨⟨c, _, rfl, hc⟩, ⟨(c :: rest) ++ (between ++ rest'), c', by simp, hc'⟩⟩

theorem lastMember_pathText (h : PathText s) :
    lastMember s = (afterLast '.' (withoutClosing s)).takeWhile (· != '(') := by
  obtain ⟨c, rest, hstart, hc⟩ := h.start
  obtain ⟨rest', c', hstop, hc'⟩ := h.stop
  have hblank : Text.isBlank c = false := isBlank_of_isGroupChar hc
  have hblank' : Text.isBlank c' = false := by
    rcases hc' with hc' | rfl
    · exact isBlank_of_isGroupChar hc'
    · decide
  have htrim : Text.trim s = s := by
    have hfirst : s.dropWhile Text.isBlank = s := by
      rw [hstart, List.dropWhile_cons, hblank]
      rfl
    rw [Text.trim, Text.trimEnds, hfirst, hstop, List.reverse_append, List.reverse_singleton, List.singleton_append,
      List.dropWhile_cons, hblank']
    simp
  have hfirst : s.dropWhile isParenthesis = s := by
    rw [hstart, List.dropWhile_cons, not_isParenthesis hc]
    rfl
  show (afterLast '.' (Text.trimEnds isParenthesis (Text.trim s))).takeWhile (· != '(') = _
  rw [htrim, Text.trimEnds, hfirst, withoutClosing]

end PathText

/-! ## Paths -/

/-- A name of ASCII letters, digits and underscores. -/
def IsPlainName (name : String) : Prop := name.toList ≠ [] ∧ ∀ c ∈ name.toList, Text.isGroupChar c = true

instance (name : String) : Decidable (IsPlainName name) :=
  decidable_of_iff (name.toList ≠ [] ∧ name.toList.all Text.isGroupChar = true) <| by
    rw [IsPlainName, List.all_eq_true]

theorem IsPlainName.notMem {name : String} (h : IsPlainName name) {c : Char} (hc : Text.isGroupChar c = false) :
    c ∉ name.toList := fun hmem => ne_of_isGroupChar (h.2 c hmem) hc rfl

theorem IsPlainName.pathText {name : String} (h : IsPlainName name) : PathText name.toList := by
  obtain ⟨hne, hall⟩ := h
  refine ⟨?_, ?_⟩
  · obtain ⟨c, rest, hcons⟩ := List.exists_cons_of_ne_nil hne
    exact ⟨c, rest, hcons, hall c (by simp [hcons])⟩
  · have hlast := List.dropLast_append_getLast hne
    exact ⟨_, _, hlast.symm, .inl (hall _ (List.getLast_mem hne))⟩

theorem IsPlainName.withoutClosing_append {name : String} (h : IsPlainName name) (s : List Char) :
    withoutClosing (s ++ name.toList) = s ++ name.toList := by
  obtain ⟨hne, hall⟩ := h
  have hlast := hall _ (List.getLast_mem hne)
  rw [← List.dropLast_append_getLast hne, withoutClosing]
  simp [not_isParenthesis hlast]

/-- A name is what stands before the first parenthesis. -/
theorem IsPlainName.takeWhile_append {name : String} (h : IsPlainName name) {t : List Char}
    (ht : t.takeWhile (· != '(') = []) : (name.toList ++ t).takeWhile (· != '(') = name.toList := by
  have hall : ∀ c ∈ name.toList, (c != '(') = true := by
    intro c hc
    simpa using ne_of_isGroupChar (h.2 c hc) (by decide : Text.isGroupChar '(' = false)
  rw [List.takeWhile_append_of_pos hall, ht, List.append_nil]

/-- What is left of the text of a path is its last name, if what follows this name starts with a parenthesis. -/
private theorem lastMember_of_afterLast {s t : List Char} {name : String} (hs : PathText s) (hname : IsPlainName name)
    (hlast : afterLast '.' (withoutClosing s) = name.toList ++ t) (ht : t.takeWhile (· != '(') = []) :
    lastMember s = name.toList := by
  rw [lastMember_pathText hs, hlast, hname.takeWhile_append ht]

theorem IsPlainName.lastMember_eq {name : String} (h : IsPlainName name) : lastMember name.toList = name.toList := by
  have hclosing := h.withoutClosing_append []
  have hdot : '.' ∉ name.toList := h.notMem (by decide)
  refine lastMember_of_afterLast (t := []) h.pathText h ?_ rfl
  rw [List.nil_append] at hclosing
  rw [hclosing, afterLast_of_notMem hdot, List.append_nil]

theorem memberKey_congr {path path' : String} (h : lastMember path.toList = lastMember path'.toList) :
    memberKey path = memberKey path' := by
  unfold memberKey
  rw [h]

namespace Expr

/-- Whether an expression is a name or the member of another one. -/
def isNamed : Expr → Bool
  | .id _ => true
  | .field _ _ => true
  | _ => false

/-- What a call is given. -/
def arguments : Expr → List Expr
  | .call _ args => args
  | _ => []

/-- Among the parts of an expression is a member of something. -/
def NamesMember (e : Expr) : Prop := ∃ receiver name, .field receiver name ∈ e.parts

/-- A path of plain names, members and calls. -/
inductive IsPath : Expr → Prop
  | id {name : String} (hname : IsPlainName name) : IsPath (.id name)
  | field {receiver : Expr} {name : String} (hreceiver : IsPath receiver) (hname : IsPlainName name) :
    IsPath (.field receiver name)
  | call {callee : Expr} {args : List Expr} (hnamed : callee.isNamed = true) (hcallee : IsPath callee)
    (hargs : ∀ a ∈ args, IsPath a) : IsPath (.call callee args)

theorem IsPath.isCompound_eq {e : Expr} (h : e.IsPath) : e.isCompound = false := by
  cases h <;> rfl

theorem IsPath.chars_field {receiver : Expr} (h : receiver.IsPath) (name : String) :
    (Expr.field receiver name).chars = receiver.chars ++ '.' :: name.toList := by
  simp [chars, h.isCompound_eq, inParens]

/-- The text of a row of expressions, of which each is a text of a path. -/
theorem pathText_listChars {es : List Expr} (hne : es ≠ []) (h : ∀ e ∈ es, PathText e.chars) :
    PathText (listChars es) := by
  induction es with
  | nil => exact absurd rfl hne
  | cons e es ih =>
    have he := h e List.mem_cons_self
    cases es with
    | nil => simpa [listChars] using he
    | cons e' es =>
      have hrest := ih (by simp) fun e'' he'' => h e'' (List.mem_cons_of_mem e he'')
      simpa [listChars] using he.append hrest [',', ' ']

theorem IsPath.pathText {e : Expr} (h : e.IsPath) : PathText e.chars := by
  induction h with
  | id hname => simpa [chars] using hname.pathText
  | field hreceiver hname ih =>
    rw [hreceiver.chars_field]
    simpa using ih.append hname.pathText ['.']
  | @call callee args hnamed hcallee hargs ih ihargs =>
    obtain ⟨c, rest, hstart, hc⟩ := ih.start
    have hfirst : (Expr.call callee args).chars = c :: (rest ++ '(' :: (listChars args ++ [')'])) := by
      simp [chars, hstart]
    have hlast : (Expr.call callee args).chars = (callee.chars ++ '(' :: listChars args) ++ [')'] := by
      simp [chars]
    exact ⟨⟨c, _, hfirst, hc⟩, ⟨_, ')', hlast, .inr rfl⟩⟩

/-- Some expressions have a dot in their text exactly if one of them has. -/
theorem dot_mem_listChars {es : List Expr} : '.' ∈ listChars es ↔ ∃ e ∈ es, '.' ∈ e.chars := by
  induction es with
  | nil => simp [listChars]
  | cons e es ih =>
    cases es with
    | nil => simp [listChars]
    | cons e' es =>
      have hchars : listChars (e :: e' :: es) = e.chars ++ ',' :: ' ' :: listChars (e' :: es) := rfl
      rw [hchars, List.mem_append, List.mem_cons, List.mem_cons, ih]
      simp

private theorem dot_mem_listChars_iff {args : List Expr} (h : ∀ a ∈ args, '.' ∈ a.chars ↔ a.NamesMember) :
    '.' ∈ listChars args ↔ ∃ a ∈ args, a.NamesMember :=
  dot_mem_listChars.trans (exists_congr fun a => and_congr_right fun ha => h a ha)

/-- The text of a path has a dot exactly if the path or a part of it is a member of something. -/
theorem IsPath.dot_mem_chars {e : Expr} (h : e.IsPath) : '.' ∈ e.chars ↔ e.NamesMember := by
  induction h with
  | @id name hname =>
    have hdot : '.' ∉ name.toList := hname.notMem (by decide)
    simp [chars, NamesMember, parts, hdot]
  | @field receiver name hreceiver hname ih =>
    refine ⟨fun _ => ⟨receiver, name, self_mem_parts _⟩, fun _ => ?_⟩
    rw [hreceiver.chars_field]
    simp
  | @call callee args hnamed hcallee hargs ih ihargs =>
    have hcall : (Expr.call callee args).NamesMember ↔ callee.NamesMember ∨ ∃ a ∈ args, a.NamesMember := by
      constructor
      · rintro ⟨receiver, name, hmem⟩
        rcases List.mem_append.1 ((List.mem_cons.1 hmem).resolve_left (by simp)) with hmem | hmem
        · exact .inl ⟨receiver, name, hmem⟩
        · obtain ⟨a, ha, hpart⟩ := mem_listParts.1 hmem
          exact .inr ⟨a, ha, receiver, name, hpart⟩
      · rintro (⟨receiver, name, hmem⟩ | ⟨a, ha, receiver, name, hpart⟩)
        · exact ⟨receiver, name, List.mem_cons_of_mem _ (List.mem_append_left _ hmem)⟩
        · have hlist := mem_listParts.2 ⟨a, ha, hpart⟩
          exact ⟨receiver, name, List.mem_cons_of_mem _ (List.mem_append_right _ hlist)⟩
    rw [hcall, ← ih, ← dot_mem_listChars_iff ihargs, chars]
    simp

/-! ## Keys -/

/-- A name or a member of a path ends in its name. -/
theorem IsPath.afterLast_named {e : Expr} (h : e.IsPath) (hnamed : e.isNamed = true) :
    ∃ name, e.lastName? = some name ∧ IsPlainName name ∧ withoutClosing e.chars = e.chars ∧
      afterLast '.' e.chars = name.toList := by
  cases h with
  | @id name hname =>
    have hclosing := hname.withoutClosing_append []
    rw [List.nil_append] at hclosing
    have hdot : '.' ∉ name.toList := hname.notMem (by decide)
    exact ⟨name, rfl, hname, hclosing, afterLast_of_notMem hdot⟩
  | @field receiver name hreceiver hname =>
    have hclosing := hname.withoutClosing_append (receiver.chars ++ ['.'])
    have hdot : '.' ∉ name.toList := hname.notMem (by decide)
    rw [hreceiver.chars_field]
    exact ⟨name, rfl, hname, by simpa using hclosing, afterLast_append_cons hdot⟩
  | call hcallee _ _ => cases hnamed

/-- Of the text of a call only the parentheses behind its last argument are dropped. -/
private theorem withoutClosing_call {callee : Expr} {args : List Expr} {c : Char} (hc : c ∈ listChars args)
    (hparen : isParenthesis c = false) :
    withoutClosing (call callee args).chars = callee.chars ++ ['('] ++ withoutClosing (listChars args) := by
  have hchars : (call callee args).chars = (callee.chars ++ ['(']) ++ (listChars args ++ [')']) := by
    simp [chars]
  have hmem : c ∈ listChars args ++ [')'] := List.mem_append_left _ hc
  have hall : ∀ d ∈ [')'], isParenthesis d = true := List.all_eq_true.1 rfl
  rw [hchars, withoutClosing_append hmem hparen, withoutClosing_append_of_all hall]

/-- What is left of the text of a call whose arguments have no dot. -/
private theorem exists_withoutClosing_call {callee : Expr} {args : List Expr}
    (hclosing : withoutClosing callee.chars = callee.chars) (hargs : ∀ a ∈ args, PathText a.chars)
    (hdot : '.' ∉ listChars args) :
    ∃ tail, withoutClosing (call callee args).chars = callee.chars ++ tail ∧ '.' ∉ tail ∧
      tail.takeWhile (· != '(') = [] := by
  by_cases hne : args = []
  · subst hne
    have hall : ∀ c ∈ ['(', ')'], isParenthesis c = true := List.all_eq_true.1 rfl
    refine ⟨[], ?_, by simp, rfl⟩
    rw [List.append_nil]
    exact (withoutClosing_append_of_all hall).trans hclosing
  · obtain ⟨c, rest, hstart, hc⟩ := (pathText_listChars hne hargs).start
    have hmem : c ∈ listChars args := by
      rw [hstart]
      exact List.mem_cons_self
    refine ⟨'(' :: withoutClosing (listChars args), ?_, ?_, rfl⟩
    · rw [withoutClosing_call hmem (not_isParenthesis hc), List.append_assoc, List.singleton_append]
    · intro hmem
      rcases List.mem_cons.1 hmem with hopen | hmem
      · cases hopen
      · exact hdot ((mem_withoutClosing (by decide)).1 hmem)

/-- What is left of the text of a call whose arguments have a dot. -/
private theorem afterLast_call {callee : Expr} {args : List Expr} (hdot : '.' ∈ listChars args) :
    afterLast '.' (withoutClosing (call callee args).chars) = afterLast '.' (withoutClosing (listChars args)) := by
  have hleft : '.' ∈ withoutClosing (listChars args) := (mem_withoutClosing (by decide)).2 hdot
  rw [withoutClosing_call hdot (by decide), afterLast_append_of_mem hleft]

/-- A call without the member of anything in its arguments ends in the name that is called. -/
private theorem lastMember_call {callee : Expr} {args : List Expr} (hnamed : callee.isNamed = true)
    (hcallee : callee.IsPath) (hargs : ∀ a ∈ args, a.IsPath) (hdot : '.' ∉ listChars args) :
    ∃ name, callee.lastName? = some name ∧ IsPlainName name ∧
      lastMember (call callee args).chars = name.toList := by
  obtain ⟨name, hlast, hname, hclosing, hafter⟩ := hcallee.afterLast_named hnamed
  obtain ⟨tail, htail, htaildot, hopen⟩ :=
    exists_withoutClosing_call hclosing (fun a ha => (hargs a ha).pathText) hdot
  refine ⟨name, hlast, hname, lastMember_of_afterLast (IsPath.call hnamed hcallee hargs).pathText hname ?_ hopen⟩
  rw [htail, afterLast_append_of_notMem htaildot, hafter]

/-- A call with the member of something in its arguments ends in what its arguments end in. -/
private theorem lastMember_call_of_dot {callee : Expr} {args : List Expr} (h : (call callee args).IsPath)
    (hargs : ∀ a ∈ args, a.IsPath) (hdot : '.' ∈ listChars args) :
    lastMember (call callee args).chars = lastMember (listChars args) := by
  have hne : args ≠ [] := by
    rintro rfl
    simp [listChars] at hdot
  have htext := pathText_listChars hne fun a ha => (hargs a ha).pathText
  rw [lastMember_pathText h.pathText, afterLast_call hdot, lastMember_pathText htext]

/-- The key of a path is that of its last name, unless a member of something is named in the arguments of the call
that the path is. Then it is the key of the text of these arguments, whatever is called. -/
theorem memberKey_source {e : Expr} (h : e.IsPath) :
    ∃ name, e.lastName? = some name ∧
      ((∀ a ∈ e.arguments, ¬a.NamesMember) → memberKey e.source = memberKey name) ∧
      ((∃ a ∈ e.arguments, a.NamesMember) →
        memberKey e.source = memberKey (String.ofList (listChars e.arguments))) := by
  have hsource : ∀ {path : String}, lastMember e.chars = lastMember path.toList →
      memberKey e.source = memberKey path := by
    intro path hlast
    exact memberKey_congr (by rw [source, String.toList_ofList, hlast])
  by_cases hnamed : e.isNamed = true
  · obtain ⟨name, hlast, hname, hclosing, hafter⟩ := h.afterLast_named hnamed
    have hnone : e.arguments = [] := by
      cases h with
      | id _ => rfl
      | field _ _ => rfl
      | call _ _ _ => cases hnamed
    refine ⟨name, hlast, fun _ => hsource ?_, fun ⟨a, ha, _⟩ => ?_⟩
    · rw [hname.lastMember_eq]
      exact lastMember_of_afterLast (t := []) h.pathText hname (by rw [hclosing, hafter, List.append_nil]) rfl
    · rw [hnone] at ha
      cases ha
  · cases h with
    | id _ => exact absurd rfl hnamed
    | field _ _ => exact absurd rfl hnamed
    | @call callee args hcalled hcallee hargs =>
      have hdot := dot_mem_listChars_iff fun a ha => (hargs a ha).dot_mem_chars
      obtain ⟨name, hlast, hname, -, -⟩ := hcallee.afterLast_named hcalled
      refine ⟨name, hlast, fun hnone => hsource ?_, fun hsome => hsource ?_⟩
      · have hfree : '.' ∉ listChars args := fun hmem => by
          obtain ⟨a, ha, hmember⟩ := hdot.1 hmem
          exact hnone a ha hmember
        obtain ⟨name', hlast', -, hcall⟩ := lastMember_call hcalled hcallee hargs hfree
        obtain rfl : name = name' := Option.some.inj (hlast.symm.trans hlast')
        rw [hcall, hname.lastMember_eq]
      · rw [String.toList_ofList]
        exact lastMember_call_of_dot (.call hcalled hcallee hargs) hargs (hdot.2 hsome)

/-- `a.getDate(b.zone)` has the key of the zone, not that of the date. -/
theorem memberKey_source_zone :
    let e : Expr := .call (.field (.id "a") "getDate") [.field (.id "b") "zone"]
    e.IsPath ∧ e.lastName? = some "getDate" ∧ memberKey e.source = memberKey "b.zone" ∧
      memberKey e.source ≠ memberKey "getDate" := by
  intro e
  have hpath : e.IsPath := by
    have hdate : (field (id "a") "getDate").IsPath := .field (.id (by decide)) (by decide)
    have hzone : (field (id "b") "zone").IsPath := .field (.id (by decide)) (by decide)
    exact .call rfl hdate fun x hx => List.mem_singleton.1 hx ▸ hzone
  obtain ⟨name, hlast, -, hmember⟩ := memberKey_source hpath
  have hzone : memberKey e.source = memberKey "b.zone" :=
    hmember ⟨_, List.mem_singleton_self _, id "b", "zone", self_mem_parts _⟩
  have hdiffer : memberKey "b.zone" ≠ memberKey "getDate" := by decide +kernel
  exact ⟨hpath, rfl, hzone, fun hdate => hdiffer (hzone.symm.trans hdate)⟩

end Expr

end ObserverPattern
