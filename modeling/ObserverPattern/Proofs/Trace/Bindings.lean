import Mathlib.Data.List.TakeWhile
import ObserverPattern.Participants
import ObserverPattern.Proofs.Text.Cuts
import ObserverPattern.Trace.Payload

/-!
# Bindings

A payload binds a hole if it is written like `subject_AuxObserverOpening_s = 3`: a role, a dispatcher with the marker,
any text and an index. It is read in one way only.

* `IsBinding` is the shape, without what the index is written with;
* `bindingOf?_eq_some`, `splitIndex?_eq_some`: how a payload is cut;
* `readIndex_eq_ok`: an index is read exactly if its digits are ASCII ones and its value stays below `2 ^ 64`;
* `binding?_eq_some`, `binding?_eq_error`, `binding?_eq_none`: the three things that a payload can tell;
* `binding?_reads`: a payload binds, fails or is passed over exactly by its shape and its index, and what it binds is
  the hole that a dispatcher's role is looked up in.
-/

namespace ObserverPattern.Payload

/-- A payload that binds a hole of the dispatcher called after the marker and a name. -/
structure IsBinding (marker payload : String) (role : Role) (name text index : String) : Prop where
  payload : payload = role.name ++ "_" ++ marker ++ name ++ "_" ++ text ++ " = " ++ index
  name_ne : name ≠ ""
  name_plain : '_' ∉ name.toList
  text_line : '\n' ∉ text.toList
  index_ne : index ≠ ""

/-! ## The index -/

section Index

variable {s before digits : List Char} {value n : Nat}

theorem isDecimalDigit_of_isDigit {c : Char} (h : c.isDigit = true) : Text.isDecimalDigit c = true := by
  have hdigits : ∀ n, n ≤ 0x39 → 0x30 ≤ n → Text.inRanges n Text.decimalDigitRanges = true := by decide +kernel
  have hbounds := Char.isDigit_iff_toNat.1 h
  exact hdigits _ hbounds.2 hbounds.1

private theorem le_ofDigitChars (value : Nat) (digits : List Char) : value ≤ Nat.ofDigitChars 10 digits value := by
  induction digits generalizing value with
  | nil => exact Nat.le_refl _
  | cons c digits ih =>
    rw [Nat.ofDigitChars_cons]
    exact Nat.le_trans (by omega) (ih _)

private theorem readIndexFrom_cons (value : Nat) (c : Char) (digits : List Char) :
    readIndexFrom value (c :: digits) =
      if c.isDigit = true then
        if 10 * value + (c.toNat - '0'.toNat) < UInt64.size then
          readIndexFrom (10 * value + (c.toNat - '0'.toNat)) digits
        else .error .indexTooLarge
      else .error .foreignDigit := rfl

private theorem readIndexFrom_eq_ok (hvalue : value < UInt64.size) : readIndexFrom value digits = .ok n ↔
    (∀ c ∈ digits, c.isDigit = true) ∧ Nat.ofDigitChars 10 digits value = n ∧ n < UInt64.size := by
  induction digits generalizing value with
  | nil =>
    constructor
    · intro h
      obtain rfl : value = n := Except.ok.inj h
      exact ⟨by simp, rfl, hvalue⟩
    · rintro ⟨-, rfl, -⟩
      rfl
  | cons c digits ih =>
    rw [readIndexFrom_cons, List.forall_mem_cons, Nat.ofDigitChars_cons]
    split
    · next hc =>
      simp only [hc, true_and]
      split
      · next hlt => exact ih hlt
      · next hge =>
        -- The value only grows.
        have hle := le_ofDigitChars (10 * value + (c.toNat - '0'.toNat)) digits
        constructor
        · intro h
          cases h
        · rintro ⟨-, rfl, hlt⟩
          omega
    · next hc => simp [hc]

/-- An index is read exactly if its digits are ASCII ones and its value fits into 64 bits. -/
theorem readIndex_eq_ok : readIndex digits = .ok n ↔
    (∀ c ∈ digits, c.isDigit = true) ∧ Nat.ofDigitChars 10 digits 0 = n ∧ n < UInt64.size :=
  readIndexFrom_eq_ok (by decide)

theorem readIndex_eq_error : (∃ cause, readIndex digits = .error cause) ↔
    (∃ c ∈ digits, c.isDigit = false) ∨ UInt64.size ≤ Nat.ofDigitChars 10 digits 0 := by
  cases hread : readIndex digits with
  | ok n =>
    obtain ⟨hdigits, hvalue, hlt⟩ := readIndex_eq_ok.1 hread
    refine iff_of_false (by simp) ?_
    rintro (⟨c, hc, hnot⟩ | hge)
    · rw [hdigits c hc] at hnot
      cases hnot
    · omega
  | error cause =>
    refine iff_of_true ⟨cause, rfl⟩ ?_
    by_contra h
    simp only [not_or, not_exists, not_and, Bool.not_eq_false, Nat.not_le] at h
    rw [readIndex_eq_ok.2 ⟨h.1, rfl, h.2⟩] at hread
    cases hread

/-- The digits of the index are all digits at the end of a payload. -/
theorem splitIndex?_eq_some : splitIndex? s = some (before, digits) ↔
    s = before ++ (" = ".toList ++ digits) ∧ digits ≠ [] ∧ ∀ c ∈ digits, Text.isDecimalDigit c = true := by
  have hsplit := List.takeWhile_append_dropWhile (p := Text.isDecimalDigit) (l := s.reverse)
  constructor
  · intro h
    unfold splitIndex? at h
    split at h
    · next rest hrest =>
      simp only at h
      split at h
      · cases h
      · next hne =>
        obtain ⟨rfl, rfl⟩ : rest.reverse = before ∧ (s.reverse.takeWhile Text.isDecimalDigit).reverse = digits := by
          simpa using h
        refine ⟨?_, by simpa using hne, ?_⟩
        · rw [hrest] at hsplit
          exact List.reverse_inj.1 (hsplit.symm.trans (by simp))
        · intro c hc
          exact List.mem_takeWhile_imp (List.mem_reverse.1 hc)
    · cases h
  · rintro ⟨rfl, hne, hdigits⟩
    have hblank : Text.isDecimalDigit ' ' = false := by decide +kernel
    have hreverse : (before ++ (" = ".toList ++ digits)).reverse =
        digits.reverse ++ ' ' :: '=' :: ' ' :: before.reverse := by simp
    have hall : ∀ c ∈ digits.reverse, Text.isDecimalDigit c = true := fun c hc => hdigits c (List.mem_reverse.1 hc)
    have htake : (before ++ (" = ".toList ++ digits)).reverse.takeWhile Text.isDecimalDigit = digits.reverse := by
      rw [hreverse, List.takeWhile_append_of_pos hall, List.takeWhile_cons_of_neg (by simp [hblank]), List.append_nil]
    have hdrop : (before ++ (" = ".toList ++ digits)).reverse.dropWhile Text.isDecimalDigit =
        ' ' :: '=' :: ' ' :: before.reverse := by
      rw [hreverse, List.dropWhile_append_of_pos hall, List.dropWhile_cons_of_neg (by simp [hblank])]
    unfold splitIndex?
    rw [htake, hdrop]
    simp [hne]

end Index

/-! ## The hole -/

section Hole

variable {marker payload : String} {role role' : Role} {name text index hole : String} {digits : List Char}

/-- A payload of this shape starts with the hole that the marker alone would have. -/
private theorem isBinding_iff : IsBinding marker payload role name text index ↔
    payload.toList = (role.hole marker).toList ++
      (name.toList ++ '_' :: (text.toList ++ (" = ".toList ++ index.toList))) ∧
      name.toList ≠ [] ∧ '_' ∉ name.toList ∧ '\n' ∉ text.toList ∧ index.toList ≠ [] := by
  have hpayload : payload = role.name ++ "_" ++ marker ++ name ++ "_" ++ text ++ " = " ++ index ↔
      payload.toList = (role.hole marker).toList ++
        (name.toList ++ '_' :: (text.toList ++ (" = ".toList ++ index.toList))) := by
    rw [← String.toList_inj]
    simp [Role.hole]
  rw [← hpayload]
  simp only [ne_eq, String.toList_eq_nil_iff]
  exact ⟨fun ⟨h, hname, hplain, hline, hindex⟩ => ⟨h, hname, hplain, hline, hindex⟩,
    fun ⟨h, hname, hplain, hline, hindex⟩ => ⟨h, hname, hplain, hline, hindex⟩⟩

/-- A name that ends at the first underscore. -/
private theorem takeWhile_plain {name : List Char} (hname : '_' ∉ name) (rest : List Char) :
    (name ++ '_' :: rest).takeWhile (· != '_') = name ∧ (name ++ '_' :: rest).dropWhile (· != '_') = '_' :: rest := by
  have hall : ∀ c ∈ name, (c != '_') = true := by
    intro c hc
    rw [bne_iff_ne]
    rintro rfl
    exact hname hc
  constructor
  · rw [List.takeWhile_append_of_pos hall]
    simp
  · rw [List.dropWhile_append_of_pos hall]
    simp

/-- The hole and the digits of a payload that is cut for a role. -/
theorem bindingOf?_eq_some : bindingOf? marker payload.toList role = some (hole, digits) ↔
    ∃ name text, IsBinding marker payload role name text (String.ofList digits) ∧
      (∀ c ∈ digits, Text.isDecimalDigit c = true) ∧ hole = role.hole (marker ++ name) := by
  constructor
  · intro h
    simp only [bindingOf?, Option.bind_eq_bind, Option.bind_eq_some_iff] at h
    obtain ⟨rest, hrest, h⟩ := h
    have hsplit := List.takeWhile_append_dropWhile (p := fun c => c != '_') (l := rest)
    split at h
    · next a name b tail hname htail =>
      simp only [Option.bind_eq_some_iff, Prod.exists] at h
      obtain ⟨between, digits', hindex, h⟩ := h
      split at h
      · cases h
      · next hline =>
        obtain ⟨rfl, rfl⟩ :
            role.hole (marker ++ String.ofList (rest.takeWhile (· != '_'))) = hole ∧ digits' = digits := by
          simpa using h
        obtain rfl : b = '_' := by
          have hstop := List.head?_dropWhile_not (fun c => c != '_') rest
          rw [htail] at hstop
          simpa using hstop
        obtain ⟨rfl, hne, hdigits⟩ := splitIndex?_eq_some.1 hindex
        rw [htail] at hsplit
        refine ⟨_, String.ofList between, isBinding_iff.2 ⟨?_, ?_, ?_, ?_, ?_⟩, hdigits, rfl⟩
        · rw [Text.afterPrefix?_eq_some_iff.1 hrest]
          simp only [String.toList_ofList]
          exact congrArg _ hsplit.symm
        · simp [hname]
        · intro hmem
          rw [String.toList_ofList] at hmem
          simpa using List.mem_takeWhile_imp hmem
        · simpa using hline
        · simpa using hne
    · cases h
  · rintro ⟨name, text, h, hdigits, rfl⟩
    obtain ⟨hpayload, hne, hplain, hline, hindex⟩ := isBinding_iff.1 h
    have hindexList : (String.ofList digits).toList = digits := String.toList_ofList
    rw [hindexList] at hpayload hindex
    have hsplit : splitIndex? (text.toList ++ (" = ".toList ++ digits)) = some (text.toList, digits) :=
      splitIndex?_eq_some.2 ⟨rfl, hindex, hdigits⟩
    generalize text.toList ++ (" = ".toList ++ digits) = rest at hpayload hsplit
    obtain ⟨htake, hdrop⟩ := takeWhile_plain hplain rest
    obtain ⟨a, tail, hname⟩ := List.exists_cons_of_ne_nil hne
    have hnameString : name = String.ofList (a :: tail) := by rw [← hname, String.ofList_toList]
    have hrest := Text.afterPrefix?_eq_some_iff.2 hpayload
    simp only [bindingOf?, Option.bind_eq_bind, hrest, Option.bind_some]
    rw [htake, hdrop]
    simp [hsplit, hline, hnameString]

private theorem underscore_notMem_name (role : Role) : '_' ∉ role.name.toList := by
  cases role <;> decide

private theorem role_of_name (h : role.name = role'.name) : role = role' := by
  revert h
  cases role <;> cases role' <;> decide

/-- A payload starts with one role at most. -/
theorem IsBinding.role_unique {name' text' index' : String} (h : IsBinding marker payload role name text index)
    (h' : IsBinding marker payload role' name' text' index') : role = role' := by
  have heq : role.name.toList ++ '_' :: (marker ++ name ++ "_" ++ text ++ " = " ++ index).toList =
      role'.name.toList ++ '_' :: (marker ++ name' ++ "_" ++ text' ++ " = " ++ index').toList := by
    have := congrArg String.toList (h.payload.symm.trans h'.payload)
    simpa using this
  obtain ⟨hrole, -⟩ := Text.append_cons_inj (underscore_notMem_name role) (underscore_notMem_name role') heq
  exact role_of_name (String.toList_inj.1 hrole)

/-- It names one dispatcher at most. -/
theorem IsBinding.name_unique {name' text' index' : String} (h : IsBinding marker payload role name text index)
    (h' : IsBinding marker payload role name' text' index') : name = name' := by
  obtain ⟨hpayload, -, hplain, -⟩ := isBinding_iff.1 h
  obtain ⟨hpayload', -, hplain', -⟩ := isBinding_iff.1 h'
  have hrest := List.append_cancel_left (hpayload.symm.trans hpayload')
  exact String.toList_inj.1 (Text.append_cons_inj hplain hplain' hrest).1

/-- A payload of the right shape is found to bind its hole. -/
private theorem find_bindingOf? (h : IsBinding marker payload role name text index)
    (hindex : ∀ c ∈ index.toList, Text.isDecimalDigit c = true) :
    Role.all.findSome? (bindingOf? marker payload.toList) = some (role.hole (marker ++ name), index.toList) := by
  have hcut := bindingOf?_eq_some.2 ⟨name, text, by simpa using h, hindex, rfl⟩
  refine Text.findSome?_eq_some_of_unique (a := role) (by cases role <;> decide) hcut fun role' _ pair hpair => ?_
  obtain ⟨hole, digits⟩ := pair
  obtain ⟨name', text', h', -, -⟩ := bindingOf?_eq_some.1 hpair
  obtain rfl := h.role_unique h'
  exact Option.some.inj (hpair.symm.trans hcut)

/-- What a payload of the right shape binds is decided by its index. -/
private theorem binding?_of_isBinding (h : IsBinding marker payload role name text index)
    (hindex : ∀ c ∈ index.toList, Text.isDecimalDigit c = true) :
    binding? marker payload = match readIndex index.toList with
      | .ok n => .ok (some (role.hole (marker ++ name), n))
      | .error cause => .error (.malformedFact payload cause) := by
  cases hread : readIndex index.toList <;> simp [binding?, find_bindingOf? h hindex, hread]

private theorem exists_isBinding_or (marker payload : String) : (∃ role name text index,
    IsBinding marker payload role name text index ∧ ∀ c ∈ index.toList, Text.isDecimalDigit c = true) ∨
      binding? marker payload = .ok none := by
  cases hfind : Role.all.findSome? (bindingOf? marker payload.toList) with
  | none => exact .inr (by rw [binding?, hfind])
  | some pair =>
    obtain ⟨hole, digits⟩ := pair
    obtain ⟨role, -, h⟩ := List.exists_of_findSome?_eq_some hfind
    obtain ⟨name, text, h, hdigits, -⟩ := bindingOf?_eq_some.1 h
    exact .inl ⟨role, name, text, _, h, by simpa using hdigits⟩

theorem binding?_eq_some {n : Nat} : binding? marker payload = .ok (some (hole, n)) ↔ ∃ role name text index,
    IsBinding marker payload role name text index ∧ (∀ c ∈ index.toList, c.isDigit = true) ∧
      Nat.ofDigitChars 10 index.toList 0 = n ∧ n < UInt64.size ∧ hole = role.hole (marker ++ name) := by
  constructor
  · intro h
    rcases exists_isBinding_or marker payload with ⟨role, name, text, index, hbinding, hindex⟩ | hnone
    · rw [binding?_of_isBinding hbinding hindex] at h
      split at h
      · next n' hread =>
        obtain ⟨rfl, rfl⟩ : role.hole (marker ++ name) = hole ∧ n' = n := by simpa using h
        obtain ⟨hascii, hvalue, hlt⟩ := readIndex_eq_ok.1 hread
        exact ⟨role, name, text, index, hbinding, hascii, hvalue, hlt, rfl⟩
      · cases h
    · rw [hnone] at h
      cases h
  · rintro ⟨role, name, text, index, hbinding, hascii, hvalue, hlt, rfl⟩
    rw [binding?_of_isBinding hbinding fun c hc => isDecimalDigit_of_isDigit (hascii c hc),
      readIndex_eq_ok.2 ⟨hascii, hvalue, hlt⟩]

theorem binding?_eq_error {fault : DecodeFault} : binding? marker payload = .error fault ↔
    ∃ cause, fault = .malformedFact payload cause ∧ ∃ role name text index,
      IsBinding marker payload role name text index ∧ (∀ c ∈ index.toList, Text.isDecimalDigit c = true) ∧
        readIndex index.toList = .error cause := by
  constructor
  · intro h
    rcases exists_isBinding_or marker payload with ⟨role, name, text, index, hbinding, hindex⟩ | hnone
    · rw [binding?_of_isBinding hbinding hindex] at h
      split at h
      · cases h
      · next cause hread =>
        exact ⟨cause, (Except.error.inj h).symm, role, name, text, index, hbinding, hindex, hread⟩
    · rw [hnone] at h
      cases h
  · rintro ⟨cause, rfl, role, name, text, index, hbinding, hindex, hread⟩
    rw [binding?_of_isBinding hbinding hindex, hread]

theorem binding?_eq_none : binding? marker payload = .ok none ↔ ∀ role name text index,
    IsBinding marker payload role name text index → ∃ c ∈ index.toList, Text.isDecimalDigit c = false := by
  constructor
  · intro h role name text index hbinding
    by_contra hindex
    simp only [not_exists, not_and, Bool.not_eq_false] at hindex
    rw [binding?_of_isBinding hbinding hindex] at h
    split at h <;> cases h
  · intro h
    rcases exists_isBinding_or marker payload with ⟨role, name, text, index, hbinding, hindex⟩ | hnone
    · obtain ⟨c, hc, hother⟩ := h role name text index hbinding
      rw [hindex c hc] at hother
      cases hother
    · exact hnone

end Hole

/-- A payload binds a hole exactly if it has the shape of a binding and an index of ASCII digits below `2 ^ 64`. It is
faulty if it has an index of other decimal digits, or of a greater value; every other payload binds nothing. The hole
is the one that the role is looked up in for the dispatcher called after the marker and the name. -/
theorem binding?_reads (marker payload : String) :
    (∀ hole index, binding? marker payload = .ok (some (hole, index)) ↔ ∃ role name text digits,
      IsBinding marker payload role name text digits ∧ (∀ c ∈ digits.toList, c.isDigit = true) ∧
        Nat.ofDigitChars 10 digits.toList 0 = index ∧ index < UInt64.size ∧ hole = role.hole (marker ++ name)) ∧
    ((∃ cause, binding? marker payload = .error (.malformedFact payload cause)) ↔ ∃ role name text digits,
      IsBinding marker payload role name text digits ∧ (∀ c ∈ digits.toList, Text.isDecimalDigit c = true) ∧
        ((∃ c ∈ digits.toList, c.isDigit = false) ∨ UInt64.size ≤ Nat.ofDigitChars 10 digits.toList 0)) ∧
    (binding? marker payload = .ok none ↔ ∀ role name text digits,
      IsBinding marker payload role name text digits → ∃ c ∈ digits.toList, Text.isDecimalDigit c = false) ∧
    (∀ fault, binding? marker payload = .error fault → ∃ cause, fault = .malformedFact payload cause) ∧
    ∀ role name text digits, IsBinding marker payload role name text digits → ∀ hole index,
      binding? marker payload = .ok (some (hole, index)) →
        ∀ b : Bindings, Participants.boundIndex (b.insert hole index) (marker ++ name) role = .ok index := by
  refine ⟨fun hole index => binding?_eq_some, ?_, binding?_eq_none, fun fault h => ?_, ?_⟩
  · constructor
    · rintro ⟨cause, h⟩
      obtain ⟨_, -, role, name, text, digits, hbinding, hdigits, hread⟩ := binding?_eq_error.1 h
      exact ⟨role, name, text, digits, hbinding, hdigits, readIndex_eq_error.1 ⟨_, hread⟩⟩
    · rintro ⟨role, name, text, digits, hbinding, hdigits, hfault⟩
      obtain ⟨cause, hread⟩ := readIndex_eq_error.2 hfault
      exact ⟨cause, binding?_eq_error.2 ⟨cause, rfl, role, name, text, digits, hbinding, hdigits, hread⟩⟩
  · obtain ⟨cause, rfl, -⟩ := binding?_eq_error.1 h
    exact ⟨cause, rfl⟩
  · intro role name text digits hbinding hole index h b
    obtain ⟨role', name', _, _, hbinding', -, -, -, rfl⟩ := binding?_eq_some.1 h
    obtain rfl := hbinding.role_unique hbinding'
    obtain rfl := hbinding.name_unique hbinding'
    simp [Participants.boundIndex, Table.get?_insert]

end ObserverPattern.Payload
