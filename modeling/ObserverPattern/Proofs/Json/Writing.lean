import ObserverPattern.Json.Reading
import ObserverPattern.Proofs.Json.Scanning

/-!
# Written values are read back

A value is plain if each of its strings is a text and each of its numbers an integer (`Json.Plain`). Written without
blanks or on many lines, it is read back as it was.

* `spells_compact`, `spells_pretty`: what is written are the tokens of the value, with blanks between them;
* `parseValue_tokens`: from its tokens any value is read back;
* `ofText?_compact`, `ofText?_pretty`: to read a typed value from the text of a plain value is to read it from the
  value.
-/

namespace ObserverPattern.Json

mutual

/-- Every string of a value is a text and every number an integer. -/
def Plain : Json → Prop
  | null | bool _ => True
  | number (.int _) => True
  | number (.real _) => False
  | string s => s.isSome
  | array items => PlainItems items
  | object members => PlainMembers members

def PlainItems : List Json → Prop
  | [] => True
  | v :: rest => v.Plain ∧ PlainItems rest

def PlainMembers : List (Option String × Json) → Prop
  | [] => True
  | (name, v) :: rest => name.isSome ∧ v.Plain ∧ PlainMembers rest

end

section Plain

@[simp] theorem plain_null : null.Plain := trivial

@[simp] theorem plain_bool (b : Bool) : (bool b).Plain := trivial

@[simp] theorem plain_text (s : String) : (text s).Plain := rfl

@[simp] theorem plain_nat (n : Nat) : (nat n).Plain := trivial

@[simp] theorem plain_int (n : Int) : (int n).Plain := trivial

@[simp] theorem plain_array {items : List Json} : (array items).Plain ↔ PlainItems items := .rfl

theorem plainItems_map {α : Type} {encode : α → Json} {l : List α} (h : ∀ x ∈ l, (encode x).Plain) :
    PlainItems (l.map encode) := by
  induction l with
  | nil => trivial
  | cons x l ih => exact ⟨h x (by simp), ih fun y hy => h y (by simp [hy])⟩

@[simp] theorem plain_record {ms : List (String × Json)} : (record ms).Plain ↔ ∀ m ∈ ms, m.2.Plain := by
  show PlainMembers (ms.map fun m => (some m.1, m.2)) ↔ _
  induction ms with
  | nil => simp [PlainMembers]
  | cons m ms ih => simp [PlainMembers, ih]

@[simp] theorem plain_tagged {tag : String} {v : Json} : (tagged tag v).Plain ↔ v.Plain := by
  simp [tagged]

theorem plain_option {α : Type} {encode : α → Json} {a : Option α} (h : ∀ x ∈ a, (encode x).Plain) :
    (Json.option encode a).Plain := by
  cases a with
  | none => exact plain_null
  | some x => exact h x rfl

@[simp] theorem plain_option_text (o : Option String) : (Json.option text o).Plain :=
  plain_option fun s _ => plain_text s

end Plain

mutual

/-- The tokens of a value. -/
def tokens : Json → List Token
  | null => [.null]
  | bool b => [.bool b]
  | number n => [.number n]
  | string s => [.string s]
  | array items => .openBracket :: (tokensOfItems items ++ [.closeBracket])
  | object members => .openBrace :: (tokensOfMembers members ++ [.closeBrace])

def tokensOfItems : List Json → List Token
  | [] => []
  | [v] => v.tokens
  | v :: rest => v.tokens ++ .comma :: tokensOfItems rest

def tokensOfMembers : List (Option String × Json) → List Token
  | [] => []
  | [(name, v)] => .string name :: .colon :: v.tokens
  | (name, v) :: rest => .string name :: .colon :: (v.tokens ++ .comma :: tokensOfMembers rest)

end

private theorem tokensOfItems_cons (v w : Json) (items : List Json) :
    tokensOfItems (v :: w :: items) = v.tokens ++ .comma :: tokensOfItems (w :: items) := rfl

private theorem tokensOfMembers_cons (name : Option String) (v : Json) (m : Option String × Json)
    (members : List (Option String × Json)) : tokensOfMembers ((name, v) :: m :: members) =
      .string name :: .colon :: (v.tokens ++ .comma :: tokensOfMembers (m :: members)) := rfl

/-! ## Tokens are read as the value -/

/-- No value starts with a closing bracket. -/
private theorem tokens_ne_closeBracket (v : Json) (rest ts : List Token) :
    v.tokens ++ rest ≠ .closeBracket :: ts := by
  cases v <;> simp [tokens]

private theorem tokensOfItems_ne_closeBracket (v : Json) (items : List Json) (rest ts : List Token) :
    tokensOfItems (v :: items) ++ rest ≠ .closeBracket :: ts := by
  cases items with
  | nil => exact tokens_ne_closeBracket v rest ts
  | cons w items =>
    rw [tokensOfItems_cons, List.append_assoc]
    exact tokens_ne_closeBracket v _ ts

/-- Members start with the name of the first one. -/
private theorem tokensOfMembers_ne_closeBrace (name : Option String) (v : Json)
    (members : List (Option String × Json)) (rest ts : List Token) :
    tokensOfMembers ((name, v) :: members) ++ rest ≠ .closeBrace :: ts := by
  cases members with
  | nil => simp [tokensOfMembers]
  | cons m members => simp [tokensOfMembers_cons]

private theorem length_tokens_pos (v : Json) : 0 < v.tokens.length := by
  cases v <;> simp [tokens]

private theorem parseValue_openBracket {ts : List Token} (hts : ∀ rest, ts ≠ .closeBracket :: rest) (fuel : Nat) :
    parseValue (fuel + 1) (.openBracket :: ts) =
      (parseItems fuel ts).map fun (items, rest) => (.array items, rest) := by
  unfold parseValue
  split <;> simp_all

private theorem parseValue_openBrace {ts : List Token} (hts : ∀ rest, ts ≠ .closeBrace :: rest) (fuel : Nat) :
    parseValue (fuel + 1) (.openBrace :: ts) =
      (parseMembers fuel ts).map fun (members, rest) => (.object members, rest) := by
  unfold parseValue
  split <;> simp_all

-- A value of n tokens is read in at most 2n - 1 steps: an array or an object takes a step for itself, and one for
-- each item, before it comes to the value of the item.
mutual

/-- From its tokens a value is read back, whatever follows. -/
theorem parseValue_tokens : ∀ (v : Json) (fuel : Nat) (rest : List Token), 2 * v.tokens.length ≤ fuel + 1 →
    parseValue fuel (v.tokens ++ rest) = some (v, rest)
  | v, 0, rest, hfuel => by
    have := length_tokens_pos v
    omega
  | .null, fuel + 1, rest, _ => rfl
  | .bool b, fuel + 1, rest, _ => rfl
  | .number n, fuel + 1, rest, _ => rfl
  | .string s, fuel + 1, rest, _ => rfl
  | .array [], fuel + 1, rest, _ => rfl
  | .array (v :: items), fuel + 1, rest, hfuel => by
    simp only [tokens, List.length_cons, List.length_append] at hfuel
    have hitems := parseItems_tokens v items fuel rest (by omega)
    rw [tokens, List.cons_append, List.append_assoc,
      parseValue_openBracket (tokensOfItems_ne_closeBracket v items _), List.singleton_append, hitems]
    rfl
  | .object [], fuel + 1, rest, _ => rfl
  | .object ((name, v) :: members), fuel + 1, rest, hfuel => by
    simp only [tokens, List.length_cons, List.length_append] at hfuel
    have hmembers := parseMembers_tokens name v members fuel rest (by omega)
    rw [tokens, List.cons_append, List.append_assoc,
      parseValue_openBrace (tokensOfMembers_ne_closeBrace name v members _), List.singleton_append, hmembers]
    rfl

private theorem parseItems_tokens : ∀ (v : Json) (items : List Json) (fuel : Nat) (rest : List Token),
    2 * (tokensOfItems (v :: items)).length ≤ fuel →
      parseItems fuel (tokensOfItems (v :: items) ++ .closeBracket :: rest) = some (v :: items, rest)
  | v, [], 0, rest, hfuel => by
    have := length_tokens_pos v
    rw [tokensOfItems] at hfuel
    omega
  | v, w :: items, 0, rest, hfuel => by
    rw [tokensOfItems_cons, List.length_append, List.length_cons] at hfuel
    omega
  | v, [], fuel + 1, rest, hfuel => by
    rw [tokensOfItems] at hfuel ⊢
    rw [parseItems, parseValue_tokens v fuel _ (by omega)]
  | v, w :: items, fuel + 1, rest, hfuel => by
    rw [tokensOfItems_cons] at hfuel ⊢
    rw [List.length_append, List.length_cons] at hfuel
    rw [List.append_assoc, List.cons_append, parseItems, parseValue_tokens v fuel _ (by omega)]
    simp only
    rw [parseItems_tokens w items fuel rest (by omega)]
    rfl

private theorem parseMembers_tokens : ∀ (name : Option String) (v : Json) (members : List (Option String × Json))
    (fuel : Nat) (rest : List Token), 2 * (tokensOfMembers ((name, v) :: members)).length ≤ fuel →
      parseMembers fuel (tokensOfMembers ((name, v) :: members) ++ .closeBrace :: rest) =
        some ((name, v) :: members, rest)
  | name, v, [], 0, rest, hfuel => by
    rw [tokensOfMembers, List.length_cons] at hfuel
    omega
  | name, v, m :: members, 0, rest, hfuel => by
    rw [tokensOfMembers_cons, List.length_cons] at hfuel
    omega
  | name, v, [], fuel + 1, rest, hfuel => by
    rw [tokensOfMembers, List.length_cons, List.length_cons] at hfuel
    rw [tokensOfMembers, List.cons_append, List.cons_append, parseMembers, parseValue_tokens v fuel _ (by omega)]
  | name, v, (name', w) :: members, fuel + 1, rest, hfuel => by
    rw [tokensOfMembers_cons] at hfuel ⊢
    simp only [List.length_append, List.length_cons] at hfuel
    rw [List.cons_append, List.cons_append, List.append_assoc, List.cons_append, parseMembers,
      parseValue_tokens v fuel _ (by omega)]
    simp only
    rw [parseMembers_tokens name' w members fuel rest (by omega)]
    rfl

end

/-- A text that spells the tokens of a value is read as the value. -/
theorem parse?_of_spells {s : String} {v : Json} (h : Spells s.toList v.tokens) : parse? s = some v := by
  have hvalue := parseValue_tokens v (2 * v.tokens.length) [] (by omega)
  rw [List.append_nil] at hvalue
  simp only [parse?, h.tokens?_eq, Option.bind_eq_bind, Option.bind_some, hvalue]

/-! ## Values are written as their tokens -/

theorem detached_comma (s : List Char) : Detached (',' :: s) := by
  simp [detached_cons]

theorem detached_closeBracket (s : List Char) : Detached (']' :: s) := by
  simp [detached_cons]

theorem detached_closeBrace (s : List Char) : Detached ('\x7d' :: s) := by
  simp [detached_cons]

mutual

/-- Without blanks a plain value is written as its tokens, if nothing follows that could belong to it. -/
theorem spells_compact : ∀ (v : Json) (rest : List Char) (ts : List Token), v.Plain → Detached rest → Spells rest ts →
    Spells (v.compactChars ++ rest) (v.tokens ++ ts)
  | .null, rest, ts, _, _, h => .token (show "null".toList ≠ [] by decide) rfl h
  | .bool true, rest, ts, _, _, h => .token (show "true".toList ≠ [] by decide) rfl h
  | .bool false, rest, ts, _, _, h => .token (show "false".toList ≠ [] by decide) rfl h
  | .number (.int k), rest, ts, _, hrest, h => h.number k hrest
  | .string (some s), rest, ts, _, _, h => h.string s
  | .array items, rest, ts, hplain, _, h => by
    have hclose : Spells (']' :: rest) (.closeBracket :: ts) := h.punctuation fun _ => rfl
    have hitems := spells_compactItems items _ _ hplain (detached_closeBracket rest) hclose
    have hopen := hitems.punctuation (c := '[') (t := .openBracket) fun _ => rfl
    simpa [compactChars, tokens] using hopen
  | .object members, rest, ts, hplain, _, h => by
    have hclose : Spells ('\x7d' :: rest) (.closeBrace :: ts) := h.punctuation fun _ => rfl
    have hmembers := spells_compactMembers members _ _ hplain (detached_closeBrace rest) hclose
    have hopen := hmembers.punctuation (c := '\x7b') (t := .openBrace) fun _ => rfl
    simpa [compactChars, tokens] using hopen

private theorem spells_compactItems : ∀ (items : List Json) (rest : List Char) (ts : List Token), PlainItems items →
    Detached rest → Spells rest ts → Spells (compactItems items ++ rest) (tokensOfItems items ++ ts)
  | [], rest, ts, _, _, h => h
  | [v], rest, ts, hplain, hrest, h => spells_compact v rest ts hplain.1 hrest h
  | v :: w :: items, rest, ts, hplain, hrest, h => by
    have hitems := spells_compactItems (w :: items) rest ts hplain.2 hrest h
    have hcomma := hitems.punctuation (c := ',') (t := .comma) fun _ => rfl
    have hvalue := spells_compact v _ _ hplain.1 (detached_comma _) hcomma
    simpa [compactItems, tokensOfItems] using hvalue

private theorem spells_compactMembers :
    ∀ (members : List (Option String × Json)) (rest : List Char) (ts : List Token),
      PlainMembers members → Detached rest → Spells rest ts →
      Spells (compactMembers members ++ rest) (tokensOfMembers members ++ ts)
  | [], rest, ts, _, _, h => h
  | [(some name, v)], rest, ts, hplain, hrest, h => by
    have hvalue := spells_compact v rest ts hplain.2.1 hrest h
    have hcolon := hvalue.punctuation (c := ':') (t := .colon) fun _ => rfl
    simpa [compactMembers, tokensOfMembers] using hcolon.string name
  | (some name, v) :: m :: members, rest, ts, hplain, hrest, h => by
    have hmembers := spells_compactMembers (m :: members) rest ts hplain.2.2 hrest h
    have hcomma := hmembers.punctuation (c := ',') (t := .comma) fun _ => rfl
    have hvalue := spells_compact v _ _ hplain.2.1 (detached_comma _) hcomma
    have hcolon := hvalue.punctuation (c := ':') (t := .colon) fun _ => rfl
    simpa [compactMembers, tokensOfMembers] using hcolon.string name

end

private theorem isSpace_newLine (depth : Nat) : ∀ c ∈ newLine depth, isSpace c = true := by
  intro c hc
  rcases List.mem_cons.1 hc with rfl | hc
  · rfl
  · rw [(List.mem_replicate.1 hc).2]
    rfl

private theorem detached_newLine (depth : Nat) (s : List Char) : Detached (newLine depth ++ s) := by
  simp [newLine, detached_cons]

mutual

/-- On many lines a plain value is written as its tokens too. -/
theorem spells_pretty : ∀ (v : Json) (depth : Nat) (rest : List Char) (ts : List Token), v.Plain → Detached rest →
    Spells rest ts → Spells (v.prettyChars depth ++ rest) (v.tokens ++ ts)
  | .null, depth, rest, ts, _, _, h => .token (show "null".toList ≠ [] by decide) rfl h
  | .bool true, depth, rest, ts, _, _, h => .token (show "true".toList ≠ [] by decide) rfl h
  | .bool false, depth, rest, ts, _, _, h => .token (show "false".toList ≠ [] by decide) rfl h
  | .number (.int k), depth, rest, ts, _, hrest, h => h.number k hrest
  | .string (some s), depth, rest, ts, _, _, h => h.string s
  | .array [], depth, rest, ts, hplain, _, h => (h.punctuation fun _ => rfl).punctuation fun _ => rfl
  | .array (v :: items), depth, rest, ts, hplain, _, h => by
    have hclose : Spells (']' :: rest) (.closeBracket :: ts) := h.punctuation fun _ => rfl
    have hline := hclose.blanks (isSpace_newLine depth)
    have hitems := spells_prettyItems (v :: items) (depth + 1) _ _ hplain (detached_newLine depth _) hline
    have hopen := hitems.punctuation (c := '[') (t := .openBracket) fun _ => rfl
    simpa [prettyChars, tokens] using hopen
  | .object [], depth, rest, ts, hplain, _, h => (h.punctuation fun _ => rfl).punctuation fun _ => rfl
  | .object (m :: members), depth, rest, ts, hplain, _, h => by
    have hclose : Spells ('\x7d' :: rest) (.closeBrace :: ts) := h.punctuation fun _ => rfl
    have hline := hclose.blanks (isSpace_newLine depth)
    have hmembers := spells_prettyMembers (m :: members) (depth + 1) _ _ hplain (detached_newLine depth _) hline
    have hopen := hmembers.punctuation (c := '\x7b') (t := .openBrace) fun _ => rfl
    simpa [prettyChars, tokens] using hopen

private theorem spells_prettyItems : ∀ (items : List Json) (depth : Nat) (rest : List Char) (ts : List Token),
    PlainItems items → Detached rest → Spells rest ts →
      Spells (prettyItems depth items ++ rest) (tokensOfItems items ++ ts)
  | [], depth, rest, ts, _, _, h => h
  | [v], depth, rest, ts, hplain, hrest, h => by
    have hline := (spells_pretty v depth rest ts hplain.1 hrest h).blanks (isSpace_newLine depth)
    simpa [prettyItems, tokensOfItems] using hline
  | v :: w :: items, depth, rest, ts, hplain, hrest, h => by
    have hitems := spells_prettyItems (w :: items) depth rest ts hplain.2 hrest h
    have hcomma := hitems.punctuation (c := ',') (t := .comma) fun _ => rfl
    have hline := (spells_pretty v depth _ _ hplain.1 (detached_comma _) hcomma).blanks (isSpace_newLine depth)
    simpa [prettyItems, tokensOfItems] using hline

private theorem spells_prettyMembers : ∀ (members : List (Option String × Json)) (depth : Nat) (rest : List Char)
    (ts : List Token), PlainMembers members → Detached rest → Spells rest ts →
      Spells (prettyMembers depth members ++ rest) (tokensOfMembers members ++ ts)
  | [], depth, rest, ts, _, _, h => h
  | [(some name, v)], depth, rest, ts, hplain, hrest, h => by
    have hvalue := spells_pretty v depth rest ts hplain.2.1 hrest h
    have hcolon := (hvalue.blank (c := ' ') rfl).punctuation (c := ':') (t := .colon) fun _ => rfl
    simpa [prettyMembers, tokensOfMembers] using (hcolon.string name).blanks (isSpace_newLine depth)
  | (some name, v) :: m :: members, depth, rest, ts, hplain, hrest, h => by
    have hmembers := spells_prettyMembers (m :: members) depth rest ts hplain.2.2 hrest h
    have hcomma := hmembers.punctuation (c := ',') (t := .comma) fun _ => rfl
    have hvalue := spells_pretty v depth _ _ hplain.2.1 (detached_comma _) hcomma
    have hcolon := (hvalue.blank (c := ' ') rfl).punctuation (c := ':') (t := .colon) fun _ => rfl
    simpa [prettyMembers, tokensOfMembers] using (hcolon.string name).blanks (isSpace_newLine depth)

end

/-! ## Texts -/

variable {v : Json}

theorem parse?_compact (h : v.Plain) : parse? v.compact = some v := by
  refine parse?_of_spells ?_
  have hspells := spells_compact v [] [] h detached_nil .nil
  rwa [List.append_nil, List.append_nil, ← String.toList_ofList (l := v.compactChars)] at hspells

theorem parse?_pretty (h : v.Plain) : parse? v.pretty = some v := by
  refine parse?_of_spells ?_
  have hspells := spells_pretty v 0 [] [] h detached_nil .nil
  rwa [List.append_nil, List.append_nil, ← String.toList_ofList (l := v.prettyChars 0)] at hspells

theorem ofText?_compact {α : Type} (read : Reader α) (h : v.Plain) :
    ofText? read v.compact = read maxNesting v := by
  rw [ofText?, parse?_compact h]
  rfl

theorem ofText?_pretty {α : Type} (read : Reader α) (h : v.Plain) :
    ofText? read v.pretty = read maxNesting v := by
  rw [ofText?, parse?_pretty h]
  rfl

end ObserverPattern.Json
