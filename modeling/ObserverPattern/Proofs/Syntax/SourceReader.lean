import ObserverPattern.Syntax.Source
import ObserverPattern.Text.Reference

/-!
# A reader of expressions

Source text is read without looking back. An operand is read from its head, which is no member and no call, and from
the suffixes that follow it. An opening parenthesis starts a cast if the characters of a type and a closing
parenthesis follow, and else an operand in parentheses.

* `Reading.expr?` reads an expression;
* `Reading.IsWordOf`: a name, a number or a keyword is read as a whole;
* `Reading.string?_escaped`: so is an escaped text, whatever follows its closing quote;
* `Reading.StartsOperand` tells which texts are not taken for casts;
* `Reading.expr?_binary` and the lemmas with it are the steps of the reader: what it reads, from what it reads of the
  parts.
-/

namespace ObserverPattern

/-! ## Names and types -/

/-- A character of a name in source text. -/
def isNameChar (c : Char) : Bool := Text.isGroupChar c || c == '$'

/-- A character of a type in source text. -/
def isTypeChar (c : Char) : Bool := Text.isGroupChar c || c == '.' || c == '<' || c == '>'

/-- A text of some kind of characters that is not empty and does not start with a digit. -/
def IsWord (p : Char → Bool) (s : String) : Prop :=
  (∀ c ∈ s.toList, p c = true) ∧ ∃ c rest, s.toList = c :: rest ∧ c.isDigit = false

def keywords : List String := ["null", "true", "false", "new"]

structure IsNameText (name : String) : Prop where
  word : IsWord isNameChar name
  not_keyword : name ∉ keywords

def Literal.unescape : Char → Char
  | 'n' => '\n'
  | 'r' => '\r'
  | 't' => '\t'
  | c => c

namespace Reading

/-! ## A reader -/

/-- The text of a string behind its opening quote, and what follows the closing one. -/
def string? : List Char → Option (List Char × List Char)
  | [] => none
  | '"' :: s => some ([], s)
  | '\\' :: c :: s => (string? s).map fun (text, s) => (Literal.unescape c :: text, s)
  | c :: s => (string? s).map fun (text, s) => (c :: text, s)

def int : List Char → Int
  | '-' :: s => -(Nat.ofDigitChars 10 s 0 : Int)
  | s => Nat.ofDigitChars 10 s 0

/-- A character of a name, a number or a keyword. -/
def isWordChar (c : Char) : Bool := isNameChar c || c == '-'

def startsNumber : List Char → Bool
  | [] => false
  | c :: _ => c.isDigit || c == '-'

def word (w : List Char) : Expr :=
  if startsNumber w then .literal (.int (Int64.ofInt (int w)))
  else if w = "null".toList then .null
  else if w = "true".toList then .bool true
  else if w = "false".toList then .bool false
  else .id (String.ofList w)

/-- The type of a cast, and the text of what is cast. -/
def castType? : List Char → Option (String × List Char)
  | '(' :: s =>
    match s.dropWhile isTypeChar with
    | ')' :: ' ' :: rest => some (String.ofList (s.takeWhile isTypeChar), rest)
    | _ => none
  | _ => none

/-- The type behind `new`, and what follows it. -/
def newType? : List Char → Option (String × List Char)
  | 'n' :: 'e' :: 'w' :: ' ' :: s => some (String.ofList (s.takeWhile isTypeChar), s.dropWhile isTypeChar)
  | _ => none

/-- An operator between blanks, and what follows it. -/
def operator? : List Char → Option (Operator × List Char)
  | ' ' :: s =>
    (Operator.ofSymbol? (String.ofList (s.takeWhile (· != ' ')))).map fun op => (op, (s.dropWhile (· != ' ')).tail)
  | _ => none

/-- The text behind what has been read, if anything has: so the reader comes to an end. -/
def shorter? (s rest : List Char) : Option {t : List Char // t.length < s.length} :=
  if h : rest.length < s.length then some ⟨rest, h⟩ else none

theorem shorter?_eq {s rest : List Char} (h : rest.length < s.length) : shorter? s rest = some ⟨rest, h⟩ :=
  dif_pos h

mutual

/-- The expression at the start of a text, and what follows it. -/
def expr? (s : List Char) : Option (Expr × List Char) :=
  match castType? s with
  | some (ty, rest) => do
    let ⟨rest, _⟩ ← shorter? s rest
    let (e, rest) ← operand? rest
    return (.cast ty e, rest)
  | none => do
    let (left, rest) ← operand? s
    match operator? rest with
    | some (op, rest) =>
      let ⟨rest, _⟩ ← shorter? s rest
      let (right, rest) ← operand? rest
      return (.binary op left right, rest)
    | none => return (left, rest)
termination_by (s.length, 2)

def operand? (s : List Char) : Option (Expr × List Char) := do
  let (e, rest) ← head? s
  let ⟨rest, _⟩ ← shorter? s rest
  suffixes? e rest
termination_by (s.length, 1)

/-- What an operand starts with. -/
def head? (s : List Char) : Option (Expr × List Char) :=
  match s with
  | '(' :: s => do
    let (e, rest) ← expr? s
    return (e, rest.tail)
  | '"' :: s => do
    let (text, rest) ← string? s
    return (.literal (.str (String.ofList text)), rest)
  | '@' :: s => do
    let ⟨rest, _⟩ ← shorter? ('@' :: s) (s.dropWhile isNameChar)
    let (operands, rest) ← row? rest
    return (.placeholder (String.ofList (s.takeWhile isNameChar)) operands, rest)
  | s =>
    match newType? s with
    | some (ty, rest) => do
      let ⟨rest, _⟩ ← shorter? s rest
      let (args, rest) ← row? rest
      return (.new ty args, rest)
    | none => some (word (s.takeWhile isWordChar), s.dropWhile isWordChar)
termination_by (s.length, 0)

/-- The members and calls that follow what an operand starts with. -/
def suffixes? (e : Expr) (s : List Char) : Option (Expr × List Char) :=
  match s with
  | '.' :: s => do
    let ⟨rest, _⟩ ← shorter? ('.' :: s) (s.dropWhile isNameChar)
    suffixes? (.field e (String.ofList (s.takeWhile isNameChar))) rest
  | '(' :: s => do
    let (args, rest) ← row? ('(' :: s)
    let ⟨rest, _⟩ ← shorter? ('(' :: s) rest
    suffixes? (.call e args) rest
  | s => some (e, s)
termination_by (s.length, 2)

/-- A row of expressions in parentheses. -/
def row? (s : List Char) : Option (List Expr × List Char) :=
  match s with
  | '(' :: ')' :: s => some ([], s)
  | '(' :: s => items? s
  | _ => none
termination_by (s.length, 1)

/-- At least one expression, up to a closing parenthesis. -/
def items? (s : List Char) : Option (List Expr × List Char) := do
  let (e, rest) ← expr? s
  match rest with
  | ',' :: ' ' :: rest => do
    let ⟨rest, _⟩ ← shorter? s rest
    let (es, rest) ← items? rest
    return (e :: es, rest)
  | ')' :: rest => return ([e], rest)
  | _ => none
termination_by (s.length, 3)

end

/-! ## Words -/

/-- Nothing at the start of a text belongs to a row of such characters before it. -/
def Stops (p : Char → Bool) (s : List Char) : Prop := ∀ c ∈ s.head?, p c = false

theorem Stops.cons {p : Char → Bool} {c : Char} (h : p c = false) (s : List Char) : Stops p (c :: s) := by
  intro c' hc'
  obtain rfl := Option.some.inj hc'
  exact h

theorem Stops.names {s : List Char} (h : Stops isWordChar s) : Stops isNameChar s := by
  intro c hc
  have hword := h c hc
  rw [isWordChar, Bool.or_eq_false_iff] at hword
  exact hword.1

/-- The characters of one kind at the start of a text. -/
theorem span_append {p : Char → Bool} {w rest : List Char} (hw : ∀ c ∈ w, p c = true) (hrest : Stops p rest) :
    (w ++ rest).takeWhile p = w ∧ (w ++ rest).dropWhile p = rest := by
  rw [List.takeWhile_append_of_pos hw, List.dropWhile_append_of_pos hw]
  cases rest with
  | nil => simp
  | cons c rest => simp [hrest c rfl]

theorem isWordChar_of_isNameChar {c : Char} (h : isNameChar c = true) : isWordChar c = true := by
  simp [isWordChar, h]

/-- A word and the expression it is read as. -/
structure IsWordOf (w : List Char) (e : Expr) : Prop where
  ne_nil : w ≠ []
  all : ∀ c ∈ w, isWordChar c = true
  not_new : w ≠ "new".toList
  word_eq : word w = e

namespace IsWordOf

variable {w rest : List Char} {e : Expr}

theorem notMem (h : IsWordOf w e) {c : Char} (hc : isWordChar c = false) : c ∉ w := by
  intro hmem
  rw [h.all c hmem] at hc
  cases hc

/-- A word starts with none of the other characters that operands start with. -/
theorem append_ne (h : IsWordOf w e) {c : Char} (hc : isWordChar c = false) {s : List Char} : w ++ rest ≠ c :: s := by
  intro heq
  obtain ⟨d, ds, rfl⟩ := List.exists_cons_of_ne_nil h.ne_nil
  obtain ⟨rfl, -⟩ := List.cons_eq_cons.1 heq
  exact h.notMem hc List.mem_cons_self

theorem length_lt (h : IsWordOf w e) : rest.length < (w ++ rest).length := by
  have hpos := List.length_pos_iff.2 h.ne_nil
  rw [List.length_append]
  omega

theorem newType?_eq_none (h : IsWordOf w e) (hrest : Stops isWordChar rest) : newType? (w ++ rest) = none := by
  unfold newType?
  split
  next s heq =>
    have htake := (span_append h.all hrest).1
    rw [heq] at htake
    exact absurd htake.symm h.not_new
  next => rfl

/-- A word is read as a whole. -/
theorem head?_eq (h : IsWordOf w e) (hrest : Stops isWordChar rest) : head? (w ++ rest) = some (e, rest) := by
  obtain ⟨htake, hdrop⟩ := span_append h.all hrest
  unfold head?
  split
  next s heq => exact absurd heq (h.append_ne (by decide))
  next s heq => exact absurd heq (h.append_ne (by decide))
  next s heq => exact absurd heq (h.append_ne (by decide))
  next => rw [h.newType?_eq_none hrest, htake, hdrop, h.word_eq]

end IsWordOf

/-! ## Literals -/

private theorem escape_cases (c : Char) :
    (∃ e, Literal.escape c = ['\\', e] ∧ Literal.unescape e = c) ∨
      (c ≠ '"' ∧ c ≠ '\\' ∧ Literal.escape c = [c]) := by
  unfold Literal.escape
  split
  · exact .inl ⟨'"', rfl, rfl⟩
  · exact .inl ⟨'\\', rfl, rfl⟩
  · exact .inl ⟨'n', rfl, rfl⟩
  · exact .inl ⟨'r', rfl, rfl⟩
  · exact .inl ⟨'t', rfl, rfl⟩
  · next hquote hbackslash _ _ _ => exact .inr ⟨hquote, hbackslash, rfl⟩

/-- An escaped text is read up to the quote behind it. -/
theorem string?_escaped (s rest : List Char) :
    string? (s.flatMap Literal.escape ++ '"' :: rest) = some (s, rest) := by
  induction s with
  | nil => rfl
  | cons c s ih =>
    rw [List.flatMap_cons, List.append_assoc]
    rcases escape_cases c with ⟨e, hescape, he⟩ | ⟨hquote, hbackslash, hescape⟩
    · rw [hescape, List.cons_append, List.singleton_append, string?, ih, Option.map_some, he]
    · rw [hescape, List.singleton_append, string?, ih, Option.map_some]
      · exact hquote
      · intro c' s' hc'
        exact absurd hc' hbackslash

private theorem toList_toString (k : Int) :
    (∃ n : Nat, k = n ∧ (toString k).toList = Nat.toDigits 10 n) ∨
      ∃ n : Nat, k = -(n : Int) ∧ (toString k).toList = '-' :: Nat.toDigits 10 n := by
  cases k with
  | ofNat n =>
    refine .inl ⟨n, rfl, ?_⟩
    show (toString n).toList = Nat.toDigits 10 n
    simp
  | negSucc n =>
    refine .inr ⟨n + 1, rfl, ?_⟩
    show ("-" ++ toString (n + 1)).toList = '-' :: Nat.toDigits 10 (n + 1)
    simp

private theorem isWordChar_of_isDigit {c : Char} (h : c.isDigit = true) : isWordChar c = true := by
  simp [isWordChar, isNameChar, Text.isGroupChar, Char.isAlphanum, h]

/-- A written number is a word that starts with a digit or a minus sign, and read as the number. -/
theorem int_toString (k : Int) :
    startsNumber (toString k).toList = true ∧ (∀ c ∈ (toString k).toList, isWordChar c = true) ∧
      int (toString k).toList = k := by
  have hdigit : ∀ {n : Nat} {c : Char}, c ∈ Nat.toDigits 10 n → c.isDigit = true :=
    fun hc => Nat.isDigit_of_mem_toDigits (by decide) (by decide) hc
  rcases toList_toString k with ⟨n, rfl, hchars⟩ | ⟨n, rfl, hchars⟩
  · obtain ⟨c, cs, hcons⟩ := List.exists_cons_of_ne_nil (Nat.toDigits_ne_nil (n := n) (b := 10))
    have hc : c.isDigit = true := hdigit (hcons ▸ List.mem_cons_self)
    rw [hchars]
    refine ⟨by simp [hcons, startsNumber, hc], fun c' hc' => isWordChar_of_isDigit (hdigit hc'), ?_⟩
    unfold int
    split
    next s heq =>
      -- A digit is no minus sign.
      rw [hcons, List.cons_eq_cons] at heq
      rw [heq.1] at hc
      cases hc
    next => rw [Nat.ofDigitChars_ten_toDigits]
  · rw [hchars]
    refine ⟨rfl, fun c hc => ?_, ?_⟩
    · rcases List.mem_cons.1 hc with rfl | hc
      · rfl
      · exact isWordChar_of_isDigit (hdigit hc)
    · rw [int, Nat.ofDigitChars_ten_toDigits]

/-- A literal that is no string is written as a word. -/
theorem isWordOf_literal (l : Literal) : (∃ s, l = .str s) ∨ IsWordOf l.chars (.literal l) := by
  cases l with
  | null => exact .inr ⟨by decide, List.all_eq_true.1 (by decide), by decide, rfl⟩
  | bool b => cases b <;> exact .inr ⟨by decide, List.all_eq_true.1 (by decide), by decide, rfl⟩
  | str s => exact .inl ⟨s, rfl⟩
  | int n =>
    obtain ⟨hstarts, hall, hint⟩ := int_toString n.toInt
    have hne : ∀ {w : List Char}, startsNumber w = false → (toString n.toInt).toList ≠ w := by
      rintro w hw rfl
      rw [hstarts] at hw
      cases hw
    refine .inr ⟨hne rfl, hall, hne rfl, ?_⟩
    rw [Literal.chars, word, if_pos hstarts, hint, Int64.ofInt_toInt]

theorem isWordOf_name {name : String} (h : IsNameText name) : IsWordOf name.toList (.id name) := by
  obtain ⟨⟨hall, c, rest, hcons, hdigit⟩, hkeyword⟩ := h
  have hne : ∀ {k : String}, k ∈ keywords → name.toList ≠ k.toList := by
    rintro k hk heq
    exact hkeyword (String.toList_inj.1 heq ▸ hk)
  have hminus : c ≠ '-' := by
    rintro rfl
    have hname := hall '-' (by simp [hcons])
    revert hname
    decide
  have hstarts : ¬startsNumber name.toList = true := by
    simp [hcons, startsNumber, hdigit, hminus]
  refine ⟨by simp [hcons], fun c hc => isWordChar_of_isNameChar (hall c hc), hne (by decide), ?_⟩
  rw [word, if_neg hstarts, if_neg (hne (by decide)), if_neg (hne (by decide)), if_neg (hne (by decide)),
    String.ofList_toList]

/-! ## Casts -/

/-- The characters of a type and then a closing parenthesis. -/
def Closes (s : List Char) : Prop := (s.dropWhile isTypeChar).head? = some ')'

section Closes

variable {w s : List Char}

theorem not_closes_cons {c : Char} (hc : isTypeChar c = false) (hne : c ≠ ')') : ¬Closes (c :: s) := by
  intro h
  rw [Closes, List.dropWhile_cons, hc] at h
  exact hne (Option.some.inj h)

theorem not_closes_append (hw : ')' ∉ w) (hs : ¬Closes s) : ¬Closes (w ++ s) := by
  induction w with
  | nil => exact hs
  | cons c w ih =>
    rw [List.mem_cons, not_or] at hw
    cases hc : isTypeChar c with
    | false => exact not_closes_cons hc (Ne.symm hw.1)
    | true =>
      rw [Closes, List.cons_append, List.dropWhile_cons, hc]
      exact ih hw.2

/-- The type of a cast is read. -/
theorem castType?_type {ty : String} (h : IsWord isTypeChar ty) :
    castType? ('(' :: (ty.toList ++ ')' :: ' ' :: s)) = some (ty, s) := by
  obtain ⟨htake, hdrop⟩ := span_append h.1 (.cons (c := ')') rfl (' ' :: s))
  rw [castType?, hdrop, htake]
  simp

end Closes

/-- The start of an operand: no closing parenthesis, and no type behind an opening one. -/
def StartsOperand (s : List Char) : Prop := ∃ c t, s = c :: t ∧ c ≠ ')' ∧ (c = '(' → ¬Closes t)

namespace StartsOperand

variable {s : List Char}

theorem cons {c : Char} (hclose : c ≠ ')') (hopen : c ≠ '(') (s : List Char) : StartsOperand (c :: s) :=
  ⟨c, s, rfl, hclose, fun h => absurd h hopen⟩

theorem parenthesis (h : ¬Closes s) : StartsOperand ('(' :: s) :=
  ⟨'(', s, rfl, by decide, fun _ => h⟩

theorem ne (h : StartsOperand s) (t : List Char) : s ≠ ')' :: t := by
  obtain ⟨c, s, rfl, hclose, -⟩ := h
  intro heq
  exact hclose (List.cons_eq_cons.1 heq).1

theorem castType?_eq_none (h : StartsOperand s) : castType? s = none := by
  obtain ⟨c, s, rfl, -, hopen⟩ := h
  unfold castType?
  split
  next s' heq =>
    obtain ⟨rfl, rfl⟩ := List.cons_eq_cons.1 heq
    split
    next rest hdrop => exact absurd (congrArg List.head? hdrop) (hopen rfl)
    next => rfl
  next => rfl

end StartsOperand

theorem IsWordOf.startsOperand {w : List Char} {e : Expr} (h : IsWordOf w e) (rest : List Char) :
    StartsOperand (w ++ rest) := by
  obtain ⟨c, cs, rfl⟩ := List.exists_cons_of_ne_nil h.ne_nil
  refine .cons ?_ ?_ _
  · rintro rfl
    exact h.notMem (c := ')') (by decide) List.mem_cons_self
  · rintro rfl
    exact h.notMem (c := '(') (by decide) List.mem_cons_self

/-! ## Operators -/

/-- The operator between two operands is read. -/
theorem operator?_symbol (op : Operator) (rest : List Char) :
    operator? (' ' :: (op.symbol.toList ++ ' ' :: rest)) = some (op, rest) := by
  have hsymbol : ∀ c ∈ op.symbol.toList, (c != ' ') = true := by
    cases op <;> exact List.all_eq_true.1 (by decide)
  obtain ⟨htake, hdrop⟩ := span_append hsymbol (.cons (c := ' ') rfl rest)
  rw [operator?, htake, hdrop, String.ofList_toList, Operator.ofSymbol?_symbol]
  rfl

/-! ## Steps of the reader -/

section Steps

variable {s t u rest : List Char} {e e' : Expr} {es : List Expr}

theorem expr?_cast {ty : String} (hty : IsWord isTypeChar ty) (h : operand? t = some (e, rest)) :
    expr? ('(' :: (ty.toList ++ ')' :: ' ' :: t)) = some (.cast ty e, rest) := by
  have hshort : t.length < ('(' :: (ty.toList ++ ')' :: ' ' :: t)).length := by grind
  simp [expr?, castType?_type hty, shorter?_eq hshort, h]

theorem expr?_binary {op : Operator} (hcast : castType? s = none) (h : operand? s = some (e, t))
    (hop : operator? t = some (op, u)) (hshort : u.length < s.length) (h' : operand? u = some (e', rest)) :
    expr? s = some (.binary op e e', rest) := by
  simp [expr?, hcast, h, hop, shorter?_eq hshort, h']

theorem expr?_operand (hcast : castType? s = none) (h : operand? s = some (e, rest)) (hop : operator? rest = none) :
    expr? s = some (e, rest) := by
  simp [expr?, hcast, h, hop]

theorem operand?_head (h : head? s = some (e, rest)) (hshort : rest.length < s.length) :
    operand? s = suffixes? e rest := by
  simp [operand?, h, shorter?_eq hshort]

theorem head?_parenthesis (h : expr? s = some (e, ')' :: rest)) : head? ('(' :: s) = some (e, rest) := by
  simp [head?, h]

theorem head?_string (text : String) :
    head? ('"' :: (text.toList.flatMap Literal.escape ++ '"' :: rest)) = some (.literal (.str text), rest) := by
  simp [head?, string?_escaped]

theorem head?_placeholder {name : String} (hname : ∀ c ∈ name.toList, isNameChar c = true)
    (hs : Stops isNameChar s) (h : row? s = some (es, rest)) :
    head? ('@' :: (name.toList ++ s)) = some (.placeholder name es, rest) := by
  obtain ⟨htake, hdrop⟩ := span_append hname hs
  have hshort : s.length < ('@' :: (name.toList ++ s)).length := by grind
  simp [head?, htake, hdrop, shorter?_eq hshort, h]

theorem head?_new {ty : String} (hty : ∀ c ∈ ty.toList, isTypeChar c = true)
    (hs : Stops isTypeChar s) (h : row? s = some (es, rest)) :
    head? ('n' :: 'e' :: 'w' :: ' ' :: (ty.toList ++ s)) = some (.new ty es, rest) := by
  obtain ⟨htake, hdrop⟩ := span_append hty hs
  have hshort : s.length < ('n' :: 'e' :: 'w' :: ' ' :: (ty.toList ++ s)).length := by grind
  simp [head?, newType?, htake, hdrop, shorter?_eq hshort, h]

theorem suffixes?_field {name : String} (hname : ∀ c ∈ name.toList, isNameChar c = true)
    (hrest : Stops isNameChar rest) :
    suffixes? e ('.' :: (name.toList ++ rest)) = suffixes? (.field e name) rest := by
  obtain ⟨htake, hdrop⟩ := span_append hname hrest
  have hshort : rest.length < ('.' :: (name.toList ++ rest)).length := by grind
  rw [suffixes?]
  simp [htake, hdrop, shorter?_eq hshort]

theorem suffixes?_call (h : row? ('(' :: s) = some (es, rest)) (hshort : rest.length < ('(' :: s).length) :
    suffixes? e ('(' :: s) = suffixes? (.call e es) rest := by
  rw [suffixes?]
  simp [h, shorter?_eq hshort]

/-- An operand ends where no member and no call follows. -/
theorem suffixes?_done (h : ∀ c ∈ s.head?, c ≠ '.' ∧ c ≠ '(') (e : Expr) : suffixes? e s = some (e, s) := by
  unfold suffixes?
  split
  next s' => exact absurd rfl (h '.' rfl).1
  next s' => exact absurd rfl (h '(' rfl).2
  next => rfl

theorem row?_items (hs : ∀ t, s ≠ ')' :: t) (h : items? s = some (es, rest)) : row? ('(' :: s) = some (es, rest) := by
  unfold row?
  split
  next t heq => exact absurd (List.cons_eq_cons.1 heq).2 (hs t)
  next t _ heq =>
    obtain ⟨-, rfl⟩ := List.cons_eq_cons.1 heq
    exact h
  next hrow => exact absurd rfl (hrow _)

theorem items?_last (h : expr? s = some (e, ')' :: rest)) : items? s = some ([e], rest) := by
  rw [items?, h]
  rfl

theorem items?_cons (h : expr? s = some (e, ',' :: ' ' :: t)) (hshort : t.length < s.length)
    (hitems : items? t = some (es, rest)) : items? s = some (e :: es, rest) := by
  rw [items?, h]
  simp [shorter?_eq hshort, hitems]

end Steps

end Reading

end ObserverPattern
