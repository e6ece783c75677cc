import ObserverPattern.Proofs.Syntax.SourceReader

/-!
# Reading expressions back

An expression of plain names and types is told by its source text: the reader gives it back.

* `Expr.Legible.not_closes`: behind the parenthesis of an operand stands something that is no part of a type, before
  any closing parenthesis, so the operand is not taken for a cast (`Expr.Legible.startsOperand`);
* `Reading.Reads.operand`: the text of an operand is read as what follows it is read behind the operand itself. In
  this way the members and calls that are written to the right of their receivers are read from left to right;
* `Reading.expr?_chars`: the text of an expression is read as the expression;
* `Expr.source_inj`: so expressions with the same text are the same.
-/

namespace ObserverPattern

/-- An expression with plain names and types, in which no callee needs parentheses: a callee gets none. -/
inductive Expr.Legible : Expr → Prop
  | literal (l : Literal) : Legible (.literal l)
  | id {name : String} (hname : IsNameText name) : Legible (.id name)
  | field {receiver : Expr} {name : String} (hreceiver : Legible receiver) (hname : IsNameText name) :
    Legible (.field receiver name)
  | call {callee : Expr} {args : List Expr} (hsimple : callee.isCompound = false) (hcallee : Legible callee)
    (hargs : ∀ a ∈ args, Legible a) : Legible (.call callee args)
  | new {ty : String} {args : List Expr} (hty : IsWord isTypeChar ty) (hargs : ∀ a ∈ args, Legible a) :
    Legible (.new ty args)
  | binary {op : Operator} {left right : Expr} (hleft : Legible left) (hright : Legible right) :
    Legible (.binary op left right)
  | cast {ty : String} {e : Expr} (hty : IsWord isTypeChar ty) (he : Legible e) : Legible (.cast ty e)
  | placeholder {name : String} {operands : List Expr} (hname : IsNameText name)
    (hoperands : ∀ a ∈ operands, Legible a) : Legible (.placeholder name operands)

namespace Expr

open Reading

/-! ## Texts of operands -/

def operandChars (e : Expr) : List Char := inParens e.isCompound e.chars

theorem operandChars_of_simple {e : Expr} (h : e.isCompound = false) : e.operandChars = e.chars := by
  rw [operandChars, h]
  rfl

theorem operandChars_of_compound {e : Expr} (h : e.isCompound = true) (rest : List Char) :
    e.operandChars ++ rest = '(' :: (e.chars ++ ')' :: rest) := by
  simp [operandChars, inParens, h]

theorem operandChars_field (receiver : Expr) (name : String) (rest : List Char) :
    (field receiver name).operandChars ++ rest = receiver.operandChars ++ '.' :: (name.toList ++ rest) := by
  simp [operandChars, inParens, isCompound, chars]

theorem operandChars_call (callee : Expr) (args : List Expr) (rest : List Char) :
    (call callee args).operandChars ++ rest = callee.chars ++ '(' :: (listChars args ++ ')' :: rest) := by
  simp [operandChars, inParens, isCompound, chars]

theorem operandChars_new (ty : String) (args : List Expr) (rest : List Char) :
    (new ty args).operandChars ++ rest =
      'n' :: 'e' :: 'w' :: ' ' :: (ty.toList ++ '(' :: (listChars args ++ ')' :: rest)) := by
  simp [operandChars, inParens, isCompound, chars]

theorem chars_binary (op : Operator) (left right : Expr) (rest : List Char) :
    (binary op left right).chars ++ rest =
      left.operandChars ++ ' ' :: (op.symbol.toList ++ ' ' :: (right.operandChars ++ rest)) := by
  simp [operandChars, chars]

theorem chars_cast (ty : String) (e : Expr) (rest : List Char) :
    (cast ty e).chars ++ rest = '(' :: (ty.toList ++ ')' :: ' ' :: (e.operandChars ++ rest)) := by
  simp [operandChars, chars]

theorem operandChars_placeholder (name : String) (operands : List Expr) (rest : List Char) :
    (placeholder name operands).operandChars ++ rest =
      '@' :: (name.toList ++ '(' :: (listChars operands ++ ')' :: rest)) := by
  simp [operandChars, inParens, isCompound, chars]

theorem listChars_cons_cons (e e' : Expr) (es : List Expr) (rest : List Char) :
    listChars (e :: e' :: es) ++ rest = e.chars ++ ',' :: ' ' :: (listChars (e' :: es) ++ rest) := by
  simp [listChars]

/-! ## Where an operand starts -/

/-- The text of an operand does not close a parenthesis as a type does, if what follows it does not. -/
theorem Legible.not_closes {e : Expr} (h : e.Legible) {rest : List Char} (hrest : ¬Closes rest) :
    ¬Closes (e.operandChars ++ rest) := by
  induction h generalizing rest with
  | literal l =>
    rcases isWordOf_literal l with ⟨s, rfl⟩ | hword
    · exact not_closes_cons (by decide) (by decide)
    · exact not_closes_append (hword.notMem (by decide)) hrest
  | id hname => exact not_closes_append ((isWordOf_name hname).notMem (by decide)) hrest
  | @field receiver name hreceiver hname ih =>
    rw [operandChars_field]
    have hname' := not_closes_append ((isWordOf_name hname).notMem (by decide)) hrest
    exact ih (not_closes_append (w := ['.']) (by decide) hname')
  | call hsimple hcallee hargs ih ihargs =>
    rw [operandChars_call, ← operandChars_of_simple hsimple]
    exact ih (not_closes_cons (by decide) (by decide))
  | @new ty args hty hargs ih =>
    rw [operandChars_new]
    exact not_closes_append (w := ['n', 'e', 'w']) (by decide) (not_closes_cons (by decide) (by decide))
  | @binary op left right hleft hright ih ih' =>
    rw [operandChars_of_compound rfl]
    exact not_closes_cons (by decide) (by decide)
  | @cast ty e hty he ih =>
    rw [operandChars_of_compound rfl]
    exact not_closes_cons (by decide) (by decide)
  | placeholder hname hoperands ih =>
    rw [operandChars_placeholder]
    exact not_closes_cons (by decide) (by decide)

/-- Behind the parenthesis of a binary operation or a cast no type is closed. -/
theorem Legible.not_closes_compound {e : Expr} (h : e.Legible) (hcompound : e.isCompound = true) (rest : List Char) :
    ¬Closes (e.chars ++ rest) := by
  cases h with
  | binary hleft hright =>
    rw [chars_binary]
    exact hleft.not_closes (not_closes_cons (by decide) (by decide))
  | cast hty he =>
    rw [chars_cast]
    exact not_closes_cons (by decide) (by decide)
  | _ => cases hcompound

/-- An operand is not taken for a cast. -/
theorem Legible.startsOperand {e : Expr} (h : e.Legible) (rest : List Char) :
    StartsOperand (e.operandChars ++ rest) := by
  induction h generalizing rest with
  | literal l =>
    rcases isWordOf_literal l with ⟨s, rfl⟩ | hword
    · exact .cons (by decide) (by decide) _
    · exact hword.startsOperand rest
  | id hname => exact (isWordOf_name hname).startsOperand rest
  | field hreceiver hname ih =>
    rw [operandChars_field]
    exact ih _
  | call hsimple hcallee hargs ih ihargs =>
    rw [operandChars_call, ← operandChars_of_simple hsimple]
    exact ih _
  | new hty hargs ih =>
    rw [operandChars_new]
    exact .cons (by decide) (by decide) _
  | binary hleft hright ih ih' =>
    rw [operandChars_of_compound rfl]
    exact .parenthesis ((Legible.binary hleft hright).not_closes_compound rfl _)
  | cast hty he ih =>
    rw [operandChars_of_compound rfl]
    exact .parenthesis ((Legible.cast hty he).not_closes_compound rfl _)
  | placeholder hname hoperands ih =>
    rw [operandChars_placeholder]
    exact .cons (by decide) (by decide) _

/-- No expression starts with a closing parenthesis. -/
theorem Legible.chars_ne {e : Expr} (h : e.Legible) (rest s : List Char) : e.chars ++ rest ≠ ')' :: s := by
  cases hcompound : e.isCompound with
  | false =>
    rw [← operandChars_of_simple hcompound]
    exact (h.startsOperand rest).ne s
  | true =>
    cases h with
    | binary hleft hright =>
      rw [chars_binary]
      exact (hleft.startsOperand _).ne s
    | cast hty he =>
      rw [chars_cast]
      nofun
    | _ => cases hcompound

end Expr

namespace Reading

open ObserverPattern.Expr

/-! ## Expressions -/

/-- The end of an expression in a row or in parentheses. -/
def Ends (s : List Char) : Prop := ∀ c ∈ s.head?, c = ')' ∨ c = ','

theorem Ends.stops {s : List Char} (h : Ends s) : Stops isWordChar s := by
  intro c hc
  rcases h c hc with rfl | rfl <;> decide

theorem Ends.cons {c : Char} (h : c = ')' ∨ c = ',') (s : List Char) : Ends (c :: s) := by
  intro c' hc'
  obtain rfl := Option.some.inj hc'
  exact h

theorem operator?_of_ends {s : List Char} (h : Ends s) : operator? s = none := by
  unfold operator?
  split
  next s' => simpa using h ' ' rfl
  next => rfl

theorem suffixes?_of_ends {s : List Char} (h : Ends s) (e : Expr) : suffixes? e s = some (e, s) := by
  refine suffixes?_done (fun c hc => ?_) e
  rcases h c hc with rfl | rfl <;> decide

/-- The text of an expression is read as the expression. -/
structure Reads (e : Expr) : Prop where
  operand : ∀ rest, Stops isWordChar rest → operand? (e.operandChars ++ rest) = suffixes? e rest
  expr : ∀ rest, Ends rest → expr? (e.chars ++ rest) = some (e, rest)

namespace Reads

variable {e : Expr} {rest : List Char}

theorem operand_of_ends (h : Reads e) (hrest : Ends rest) : operand? (e.operandChars ++ rest) = some (e, rest) :=
  (h.operand rest hrest.stops).trans (suffixes?_of_ends hrest e)

/-- An expression that needs no parentheses is read as an operand. -/
theorem of_simple (hlegible : e.Legible) (hsimple : e.isCompound = false)
    (h : ∀ rest, Stops isWordChar rest → operand? (e.operandChars ++ rest) = suffixes? e rest) : Reads e := by
  refine ⟨h, fun rest hrest => ?_⟩
  have hcast := (hlegible.startsOperand rest).castType?_eq_none
  have hoperand := (h rest hrest.stops).trans (suffixes?_of_ends hrest e)
  rw [operandChars_of_simple hsimple] at hcast hoperand
  exact expr?_operand hcast hoperand (operator?_of_ends hrest)

/-- A binary operation or a cast is read as an operand behind its parenthesis. -/
theorem of_compound (hcompound : e.isCompound = true)
    (h : ∀ rest, Ends rest → expr? (e.chars ++ rest) = some (e, rest)) : Reads e := by
  refine ⟨fun rest _ => ?_, h⟩
  rw [operandChars_of_compound hcompound]
  exact operand?_head (head?_parenthesis (h (')' :: rest) (.cons (.inl rfl) rest))) (by grind)

/-- Expressions between commas are read up to the parenthesis behind them. -/
theorem items {es : List Expr} (hne : es ≠ []) (h : ∀ e ∈ es, Reads e) (rest : List Char) :
    items? (listChars es ++ ')' :: rest) = some (es, rest) := by
  induction es with
  | nil => exact absurd rfl hne
  | cons e es ih =>
    have he := (h e List.mem_cons_self).expr
    cases es with
    | nil => exact items?_last (he (')' :: rest) (.cons (.inl rfl) rest))
    | cons e' es =>
      have hrest := ih (List.cons_ne_nil e' es) fun e'' he'' => h e'' (List.mem_cons_of_mem e he'')
      rw [listChars_cons_cons]
      exact items?_cons (he _ (.cons (.inr rfl) _)) (by grind) hrest

/-- A row of expressions is read behind its parenthesis. -/
theorem row {es : List Expr} (hlegible : ∀ e ∈ es, e.Legible) (h : ∀ e ∈ es, Reads e) (rest : List Char) :
    row? ('(' :: (listChars es ++ ')' :: rest)) = some (es, rest) := by
  cases es with
  | nil => rw [listChars, List.nil_append, row?]
  | cons e es =>
    refine row?_items (fun t => ?_) (items (List.cons_ne_nil e es) h rest)
    have he := hlegible e List.mem_cons_self
    cases es with
    | nil => exact he.chars_ne _ t
    | cons e' es =>
      rw [listChars_cons_cons]
      exact he.chars_ne _ t

theorem literal (l : Literal) : Reads (.literal l) := by
  refine of_simple (.literal l) rfl fun rest hrest => ?_
  rcases isWordOf_literal l with ⟨s, rfl⟩ | hword
  · have hchars : (Expr.literal (.str s)).operandChars ++ rest =
        '"' :: (s.toList.flatMap Literal.escape ++ '"' :: rest) := by
      simp [operandChars, inParens, isCompound, chars, Literal.chars]
    rw [hchars]
    exact operand?_head (head?_string s) (by grind)
  · exact operand?_head (hword.head?_eq hrest) hword.length_lt

theorem id {name : String} (hname : IsNameText name) : Reads (.id name) := by
  have hword := isWordOf_name hname
  exact of_simple (.id hname) rfl fun rest hrest => operand?_head (hword.head?_eq hrest) hword.length_lt

theorem field {receiver : Expr} {name : String} (h : (Expr.field receiver name).Legible) (hname : IsNameText name)
    (hreceiver : Reads receiver) : Reads (.field receiver name) := by
  refine of_simple h rfl fun rest hrest => ?_
  rw [operandChars_field, hreceiver.operand _ (.cons (by decide) _)]
  exact suffixes?_field hname.word.1 hrest.names

theorem call {callee : Expr} {args : List Expr} (h : (Expr.call callee args).Legible)
    (hsimple : callee.isCompound = false) (hcallee : Reads callee) (hargs : ∀ a ∈ args, a.Legible)
    (hreads : ∀ a ∈ args, Reads a) : Reads (.call callee args) := by
  refine of_simple h rfl fun rest hrest => ?_
  rw [operandChars_call, ← operandChars_of_simple hsimple, hcallee.operand _ (.cons (by decide) _)]
  exact suffixes?_call (row hargs hreads rest) (by grind)

theorem new {ty : String} {args : List Expr} (h : (Expr.new ty args).Legible) (hty : IsWord isTypeChar ty)
    (hargs : ∀ a ∈ args, a.Legible) (hreads : ∀ a ∈ args, Reads a) : Reads (.new ty args) := by
  refine of_simple h rfl fun rest hrest => ?_
  rw [operandChars_new]
  exact operand?_head (head?_new hty.1 (.cons (by decide) _) (row hargs hreads rest)) (by grind)

theorem placeholder {name : String} {operands : List Expr} (h : (Expr.placeholder name operands).Legible)
    (hname : IsNameText name) (hoperands : ∀ a ∈ operands, a.Legible) (hreads : ∀ a ∈ operands, Reads a) :
    Reads (.placeholder name operands) := by
  refine of_simple h rfl fun rest hrest => ?_
  rw [operandChars_placeholder]
  exact operand?_head (head?_placeholder hname.word.1 (.cons (by decide) _) (row hoperands hreads rest)) (by grind)

theorem binary {op : Operator} {left right : Expr} (hlegible : left.Legible) (hleft : Reads left)
    (hright : Reads right) : Reads (.binary op left right) := by
  refine of_compound rfl fun rest hrest => ?_
  have hblank : ∀ s, suffixes? left (' ' :: s) = some (left, ' ' :: s) := by
    intro s
    refine suffixes?_done (fun c hc => ?_) left
    obtain rfl := Option.some.inj hc
    decide
  have hleft' := fun s => (hleft.operand (' ' :: s) (.cons (by decide) s)).trans (hblank s)
  rw [chars_binary]
  exact expr?_binary (hlegible.startsOperand _).castType?_eq_none (hleft' _) (operator?_symbol op _) (by grind)
    (hright.operand_of_ends hrest)

theorem cast {ty : String} (hty : IsWord isTypeChar ty) (he : Reads e) : Reads (.cast ty e) := by
  refine of_compound rfl fun rest hrest => ?_
  rw [chars_cast]
  exact expr?_cast hty (he.operand_of_ends hrest)

end Reads

theorem reads {e : Expr} (h : e.Legible) : Reads e := by
  induction h with
  | literal l => exact .literal l
  | id hname => exact .id hname
  | field hreceiver hname ih => exact .field (.field hreceiver hname) hname ih
  | call hsimple hcallee hargs ih ihargs => exact .call (.call hsimple hcallee hargs) hsimple ih hargs ihargs
  | new hty hargs ih => exact .new (.new hty hargs) hty hargs ih
  | binary hleft hright ih ih' => exact .binary hleft ih ih'
  | cast hty he ih => exact .cast hty ih
  | placeholder hname hoperands ih => exact .placeholder (.placeholder hname hoperands) hname hoperands ih

/-- The text of an expression is read back. -/
theorem expr?_chars {e : Expr} (h : e.Legible) : expr? e.chars = some (e, []) := by
  have hexpr := (reads h).expr [] nofun
  rwa [List.append_nil] at hexpr

end Reading

/-- Expressions of plain names and types are told by their texts. -/
theorem Expr.source_inj {e e' : Expr} (h : e.Legible) (h' : e'.Legible) : e.source = e'.source ↔ e = e' := by
  refine ⟨fun heq => ?_, fun heq => heq ▸ rfl⟩
  have hchars : e.chars = e'.chars := String.ofList_injective heq
  have hread := Reading.expr?_chars h
  rw [hchars, Reading.expr?_chars h'] at hread
  exact (Prod.mk.inj (Option.some.inj hread)).1.symm

/-- A minus sign belongs to the number that is cast, or it is the operator between the operands. -/
theorem Expr.source_inj_minus :
    let castNumber : Expr := .cast "a" (.literal (.int (-1)))
    let difference : Expr := .binary .sub (.id "a") (.literal (.int 1))
    castNumber.Legible ∧ difference.Legible ∧ castNumber.source ≠ difference.source := by
  intro castNumber difference
  have hcast : castNumber.Legible := .cast ⟨List.all_eq_true.1 (by decide), 'a', [], rfl, rfl⟩ (.literal _)
  have hdifference : difference.Legible :=
    .binary (.id ⟨⟨List.all_eq_true.1 (by decide), 'a', [], rfl, rfl⟩, by decide⟩) (.literal _)
  exact ⟨hcast, hdifference, fun heq => nomatch (source_inj hcast hdifference).1 heq⟩

end ObserverPattern
