import ObserverPattern.Trace.Basic

/-!
# What the lines of a trace tell

A line records at most one fact and binds at most one hole. What it tells does not depend on the lines
before it (`fact?`, `binding?`, `fault?`).

* `Reads`: under each producer a trace has the facts of its lines in their order, and for each hole the
  index of the last line that binds it;
* `feedAll_eq`: lines are taken in up to the first faulty one, and what they tell is entered in order;
* `ofText_reads`: a text without a faulty line gives a trace that reads its lines, and any other text the
  fault of the first one. Lines of different producers and holes may change places.
-/

namespace ObserverPattern

/-- The values that a list gives to a key, in order. -/
def valuesOf {α : Type} (key : String) (entries : List (String × α)) : List α :=
  (entries.filter (·.1 = key)).map (·.2)

section Values

variable {α : Type} {key : String}

theorem valuesOf_cons (e : String × α) (entries : List (String × α)) :
    valuesOf key (e :: entries) = if e.1 = key then e.2 :: valuesOf key entries else valuesOf key entries := by
  by_cases h : e.1 = key <;> simp [valuesOf, h]

theorem valuesOf_eq_nil_iff {entries : List (String × α)} :
    valuesOf key entries = [] ↔ key ∉ entries.map Prod.fst := by
  simp only [valuesOf, List.map_eq_nil_iff, List.filter_eq_nil_iff, decide_eq_true_eq, List.mem_map, not_exists,
    not_and]

/-- Which values a key gets is up to the items that give it one. -/
theorem valuesOf_filterMap {β : Type} (f : β → Option (String × α)) (items : List β) :
    valuesOf key (items.filterMap f) =
      (items.filter fun item => (f item).any (·.1 == key)).filterMap fun item => (f item).map (·.2) := by
  induction items with
  | nil => rfl
  | cons item items ih =>
    cases hitem : f item with
    | none => simp [hitem, ih]
    | some e =>
      rw [List.filterMap_cons_some hitem, valuesOf_cons, ih]
      by_cases hkey : e.1 = key <;> simp [hitem, hkey]

/-- Only the keys that some item gives a value matter. -/
theorem filter_any_eq {β : Type} {f : β → Option (String × α)} {items items' : List β} (keys : List String)
    (hkeys : ∀ item ∈ items ++ items', (f item).all (keys.contains ·.1) = true)
    (h : ∀ key ∈ keys, (items'.filter fun item => (f item).any (·.1 == key)) =
      items.filter fun item => (f item).any (·.1 == key)) (key : String) :
    (items'.filter fun item => (f item).any (·.1 == key)) =
      items.filter fun item => (f item).any (·.1 == key) := by
  by_cases hkey : key ∈ keys
  · exact h key hkey
  · have hnone : ∀ item ∈ items ++ items', ¬(f item).any (·.1 == key) = true := by
      intro item hitem hany
      obtain ⟨e, he, hekey⟩ : ∃ e, f item = some e ∧ e.1 = key := by simpa [Option.any_eq_true] using hany
      have := hkeys item hitem
      simp [he, hekey, hkey] at this
    rw [List.filter_eq_nil_iff.2 fun item hitem => hnone item (List.mem_append_left _ hitem),
      List.filter_eq_nil_iff.2 fun item hitem => hnone item (List.mem_append_right _ hitem)]

end Values

/-! ## Tables filled from a list -/

namespace Facts

def pushAll (t : Facts) (entries : List (String × Fact)) : Facts := entries.foldl (fun t e => t.push e.1 e.2) t

theorem get?_push (t : Facts) (key : String) (fact : Fact) (k : String) :
    (t.push key fact).get? k = if k = key then some (t.factsOf key ++ [fact]) else t.get? k :=
  Table.get?_insert _ _ _ _

/-- Facts are added behind those that a key has. -/
theorem factsOf_pushAll (t : Facts) (entries : List (String × Fact)) (key : String) :
    (t.pushAll entries).factsOf key = t.factsOf key ++ valuesOf key entries := by
  induction entries generalizing t with
  | nil => simp [pushAll, valuesOf]
  | cons e entries ih =>
    rw [pushAll, List.foldl_cons, ← pushAll, ih, valuesOf_cons]
    by_cases h : e.1 = key
    · simp [factsOf, get?_push, h]
    · simp [factsOf, get?_push, h, Ne.symm h]

theorem get?_eq_of_factsOf_eq {t t' : Facts} {key : String} (h : t'.factsOf key = t.factsOf key)
    (hkey : key ∈ t'.keys ↔ key ∈ t.keys) : t'.get? key = t.get? key := by
  rw [← Table.isSome_get?, ← Table.isSome_get?] at hkey
  unfold factsOf at h
  cases ht : t.get? key <;> cases ht' : t'.get? key <;> simp_all

end Facts

namespace Table

variable {α : Type}

def insertAll (t : Table α) (entries : List (String × α)) : Table α :=
  entries.foldl (fun t e => t.insert e.1 e.2) t

/-- The last value that is entered for a key counts. -/
theorem get?_insertAll (t : Table α) (entries : List (String × α)) (key : String) :
    (t.insertAll entries).get? key = (valuesOf key entries).getLast?.or (t.get? key) := by
  induction entries generalizing t with
  | nil => rfl
  | cons e entries ih =>
    rw [insertAll, List.foldl_cons, ← insertAll, ih, valuesOf_cons, get?_insert]
    by_cases h : e.1 = key
    · simp only [h, if_true, List.getLast?_cons]
      cases (valuesOf key entries).getLast? <;> rfl
    · simp [h, Ne.symm h]

/-- The keys of a table that is filled step by step stand in the order of their first entry. -/
theorem keys_foldl {β : Type} {step : Table α → String × β → Table α}
    (hstep : ∀ t e, (step t e).keys = if e.1 ∈ t.keys then t.keys else t.keys ++ [e.1])
    (entries : List (String × β)) (before : List String) {t : Table α} (ht : t.keys = before.eraseDups) :
    (entries.foldl step t).keys = (before ++ entries.map Prod.fst).eraseDups := by
  induction entries generalizing t before with
  | nil => rw [List.foldl_nil, ht, List.map_nil, List.append_nil]
  | cons e entries ih =>
    rw [List.foldl_cons, List.map_cons, List.append_cons]
    refine ih _ ?_
    rw [hstep, ht, List.eraseDups_append]
    by_cases he : e.1 ∈ before <;> simp [he, List.removeAll, List.eraseDups_cons]

end Table

namespace Trace

/-! ## Lines -/

private theorem Line.cut?_cons {ch : Char} (h : ch ≠ ',') (s : List Char) :
    cut? (ch :: s) = (cut? s).map fun x => (ch :: x.1, x.2) := by
  simp only [cut?, bne_iff_ne, ne_eq, h, not_false_eq_true, List.dropWhile_cons_of_pos,
    List.takeWhile_cons_of_pos]
  cases s.dropWhile (· != ',') <;> rfl

/-- A text is cut at its first comma. -/
theorem Line.cut?_eq_some {s before after : List Char} :
    cut? s = some (before, after) ↔ s = before ++ ',' :: after ∧ ',' ∉ before := by
  induction s generalizing before with
  | nil => simp [cut?]
  | cons ch s ih =>
    by_cases hch : ch = ','
    · subst hch
      cases before with
      | nil => simp [cut?]
      | cons ch' before =>
        constructor
        · intro h
          simp [cut?] at h
        · rintro ⟨h, hbefore⟩
          exact absurd (List.head_eq_of_cons_eq h) fun hch => hbefore (hch ▸ List.mem_cons_self)
    · rw [cut?_cons hch, Option.map_eq_some_iff]
      cases before with
      | nil => simp [hch]
      | cons ch' before =>
        constructor
        · rintro ⟨⟨tail, _⟩, htail, h⟩
          obtain ⟨⟨rfl, rfl⟩, rfl⟩ : (ch = ch' ∧ tail = before) ∧ _ = after := by simpa using h
          obtain ⟨rfl, hbefore⟩ := ih.1 htail
          exact ⟨rfl, by simp [Ne.symm hch, hbefore]⟩
        · rintro ⟨h, hbefore⟩
          obtain ⟨rfl, rfl⟩ := List.cons_eq_cons.1 h
          exact ⟨(before, after), ih.2 ⟨rfl, fun hmem => hbefore (List.mem_cons_of_mem _ hmem)⟩, rfl⟩

/-- The producer of a line is what stands before its first comma, the payload what stands behind its second
one. -/
theorem Line.ofChars?_eq_some {s : List Char} {l : Line} : Line.ofChars? s = some l ↔
    s = l.producer.toList ++ ',' :: (l.kind.toList ++ ',' :: l.payload.toList) ∧ ',' ∉ l.producer.toList ∧
      ',' ∉ l.kind.toList := by
  simp only [ofChars?, Option.bind_eq_bind, Option.bind_eq_some_iff, Prod.exists, cut?_eq_some, Option.some_inj]
  constructor
  · rintro ⟨producer, _, ⟨rfl, hproducer⟩, kind, payload, ⟨rfl, hkind⟩, rfl⟩
    simp [hproducer, hkind]
  · rintro ⟨rfl, hproducer, hkind⟩
    exact ⟨_, _, ⟨rfl, hproducer⟩, _, _, ⟨rfl, hkind⟩, by simp⟩

theorem keeps_iff {c : Conventions} {producer : String} :
    keeps c producer = true ↔ ∃ role ∈ c.producers, role.toList <+: producer.toList := by
  simp only [keeps, Text.startsWith, List.any_eq_true, List.isPrefixOf_iff_prefix]

private theorem toOption_join_eq_some {α : Type} {x : Except DecodeFault (Option α)} {a : α} :
    x.toOption.join = some a ↔ x = .ok (some a) := by
  cases x <;> simp [Except.toOption]

/-- The fact that a line records, with its producer. -/
def fact? (c : Conventions) (line : String) : Option (String × Fact) := do
  let line ← Line.ofChars? (Text.trim line.toList)
  let fact ← (Payload.fact? c.auxMarker line.payload).toOption.join
  if keeps c line.producer then some (line.producer, fact) else none

/-- The hole that a line binds, with the index. -/
def binding? (c : Conventions) (line : String) : Option (String × Nat) := do
  let line ← Line.ofChars? (Text.trim line.toList)
  (Payload.binding? c.auxMarker line.payload).toOption.join

theorem fact?_eq_some {c : Conventions} {line producer : String} {fact : Fact} :
    fact? c line = some (producer, fact) ↔ ∃ kind payload : String,
      Text.trim line.toList = producer.toList ++ ',' :: (kind.toList ++ ',' :: payload.toList) ∧
        ',' ∉ producer.toList ∧ ',' ∉ kind.toList ∧ (∃ role ∈ c.producers, role.toList <+: producer.toList) ∧
          Payload.fact? c.auxMarker payload = .ok (some fact) := by
  simp only [fact?, Option.bind_eq_bind, Option.bind_eq_some_iff, Line.ofChars?_eq_some, toOption_join_eq_some,
    Option.ite_none_right_eq_some, keeps_iff, Option.some_inj, Prod.mk.injEq]
  constructor
  · rintro ⟨⟨_, kind, payload⟩, ⟨htext, hproducer, hkind⟩, _, hfact, hkeeps, rfl, rfl⟩
    exact ⟨kind, payload, htext, hproducer, hkind, hkeeps, hfact⟩
  · rintro ⟨kind, payload, htext, hproducer, hkind, hkeeps, hfact⟩
    exact ⟨⟨producer, kind, payload⟩, ⟨htext, hproducer, hkind⟩, fact, hfact, hkeeps, rfl, rfl⟩

theorem binding?_eq_some {c : Conventions} {line : String} {binding : String × Nat} :
    binding? c line = some binding ↔ ∃ producer kind payload : String,
      Text.trim line.toList = producer.toList ++ ',' :: (kind.toList ++ ',' :: payload.toList) ∧
        ',' ∉ producer.toList ∧ ',' ∉ kind.toList ∧
          Payload.binding? c.auxMarker payload = .ok (some binding) := by
  simp only [binding?, Option.bind_eq_bind, Option.bind_eq_some_iff, Line.ofChars?_eq_some,
    toOption_join_eq_some]
  constructor
  · rintro ⟨⟨producer, kind, payload⟩, ⟨htext, hproducer, hkind⟩, hbinding⟩
    exact ⟨producer, kind, payload, htext, hproducer, hkind, hbinding⟩
  · rintro ⟨producer, kind, payload, htext, hproducer, hkind, hbinding⟩
    exact ⟨⟨producer, kind, payload⟩, ⟨htext, hproducer, hkind⟩, hbinding⟩

/-- What is wrong with a line, if anything is. -/
def fault? (c : Conventions) (line : String) : Option DecodeFault := do
  let line ← Line.ofChars? (Text.trim line.toList)
  match Payload.fact? c.auxMarker line.payload with
  | .error e => some e
  | .ok _ =>
    match Payload.binding? c.auxMarker line.payload with
    | .error e => some e
    | .ok _ => none

/-- A trace with what some lines tell entered into it. -/
def told (c : Conventions) (t : Trace) (lines : List String) : Trace where
  facts := t.facts.pushAll (lines.filterMap (fact? c))
  bindings := t.bindings.insertAll (lines.filterMap (binding? c))

theorem told_append (c : Conventions) (t : Trace) (lines lines' : List String) :
    t.told c (lines ++ lines') = (t.told c lines).told c lines' := by
  simp only [told, List.filterMap_append, Facts.pushAll, Table.insertAll, List.foldl_append]

private theorem told_singleton (c : Conventions) (t : Trace) (line : String) :
    t.told c [line] =
      ⟨t.facts.pushAll (fact? c line).toList, t.bindings.insertAll (binding? c line).toList⟩ := by
  unfold told
  cases hfact : fact? c line <;> cases hbinding : binding? c line <;> simp [hfact, hbinding]

theorem record_eq (c : Conventions) (t : Trace) (producer : String) (fact : Option Fact) :
    t.record c producer fact = { t with
      facts := t.facts.pushAll
        (fact.bind fun fact => if keeps c producer then some (producer, fact) else none).toList } := by
  cases fact with
  | none => rfl
  | some fact => by_cases hkeeps : keeps c producer = true <;> simp [record, hkeeps, Facts.pushAll]

/-- A line is taken in with what it tells, unless it is faulty. -/
theorem feed_eq (c : Conventions) (t : Trace) (line : String) :
    (t.feed c line).2 = fault? c line ∧ (fault? c line = none → (t.feed c line).1 = t.told c [line]) := by
  rw [told_singleton]
  unfold feed fault? fact? binding?
  cases Line.ofChars? (Text.trim line.toList) with
  | none => exact ⟨rfl, fun _ => rfl⟩
  | some l =>
    simp only [Option.bind_eq_bind, Option.bind_some, record_eq]
    cases Payload.fact? c.auxMarker l.payload with
    | error e => exact ⟨rfl, fun h => by cases h⟩
    | ok fact =>
      cases Payload.binding? c.auxMarker l.payload with
      | error e => exact ⟨rfl, fun h => by cases h⟩
      | ok binding => cases binding <;> exact ⟨rfl, fun _ => rfl⟩

/-- Lines are taken in up to the first that is faulty. -/
theorem feedAll_eq (c : Conventions) (t : Trace) (lines : List String) :
    feedAll c t (lines.map some) =
      match lines.findSome? (fault? c) with
      | some e => .error e
      | none => .ok (t.told c lines) := by
  induction lines generalizing t with
  | nil => rfl
  | cons line lines ih =>
    obtain ⟨hfault, htold⟩ := feed_eq c t line
    rw [List.map_cons, feedAll, List.findSome?_cons]
    cases hline : t.feed c line with
    | mk t' fault =>
      rw [hline] at hfault htold
      obtain rfl := hfault
      cases hnone : fault? c line with
      | some e => rfl
      | none =>
        obtain rfl := htold hnone
        have hrest : t.told c (line :: lines) = (t.told c [line]).told c lines := told_append c t [line] lines
        rw [hrest]
        exact ih _

/-! ## Texts -/

/-- A trace tells what some lines tell. -/
structure Reads (c : Conventions) (lines : List String) (t : Trace) : Prop where
  /-- The facts of a producer are those that its lines record, in their order. -/
  facts : ∀ key, t.facts.factsOf key = valuesOf key (lines.filterMap (fact? c))
  /-- A hole has the index that the last line which binds it tells. -/
  bindings : ∀ hole, t.bindings.get? hole = (valuesOf hole (lines.filterMap (binding? c))).getLast?
  producers : t.facts.keys = ((lines.filterMap (fact? c)).map Prod.fst).eraseDups ∧ t.facts.keys.Nodup
  holes : t.bindings.keys = ((lines.filterMap (binding? c)).map Prod.fst).eraseDups ∧ t.bindings.keys.Nodup

theorem reads_told (c : Conventions) (lines : List String) : Reads c lines (empty.told c lines) where
  facts key := Facts.factsOf_pushAll _ _ _
  bindings hole := by
    rw [told, Table.get?_insertAll]
    exact Option.or_none
  producers := ⟨Table.keys_foldl (fun t e => Table.keys_insert _ _ _) _ [] rfl, Table.nodup _⟩
  holes := ⟨Table.keys_foldl (fun t e => Table.keys_insert _ _ _) _ [] rfl, Table.nodup _⟩

/-- Whether a line records a fact of a producer. -/
def records (c : Conventions) (producer line : String) : Bool := (fact? c line).any (·.1 == producer)

/-- Whether a line binds a hole. -/
def binds (c : Conventions) (hole line : String) : Bool := (binding? c line).any (·.1 == hole)

theorem Reads.mem_keys {c : Conventions} {lines : List String} {t : Trace} (h : Reads c lines t)
    (key : String) : key ∈ t.facts.keys ↔ valuesOf key (lines.filterMap (fact? c)) ≠ [] := by
  rw [h.producers.1, List.mem_eraseDups, Ne, valuesOf_eq_nil_iff, Decidable.not_not]

/-- Traces that read lines which are the same for each producer and for each hole are the same to every
look-up. -/
theorem Reads.congr {c : Conventions} {lines lines' : List String} {t t' : Trace} (h : Reads c lines t)
    (h' : Reads c lines' t') (hfacts : ∀ key, lines'.filter (records c key) = lines.filter (records c key))
    (hbindings : ∀ hole, lines'.filter (binds c hole) = lines.filter (binds c hole)) :
    (∀ key, t'.facts.get? key = t.facts.get? key) ∧ ∀ hole, t'.bindings.get? hole = t.bindings.get? hole := by
  constructor
  · intro key
    have hvalues : valuesOf key (lines'.filterMap (fact? c)) = valuesOf key (lines.filterMap (fact? c)) := by
      rw [valuesOf_filterMap, valuesOf_filterMap]
      exact congrArg _ (hfacts key)
    refine Facts.get?_eq_of_factsOf_eq ?_ ?_
    · rw [h.facts, h'.facts, hvalues]
    · rw [h.mem_keys, h'.mem_keys, hvalues]
  · intro hole
    rw [h.bindings, h'.bindings, valuesOf_filterMap, valuesOf_filterMap]
    exact congrArg (fun lines => (List.filterMap _ lines).getLast?) (hbindings hole)

/-- A text is read up to its first faulty line, whose fault is the answer. If no line is faulty, each producer
has the facts of its lines in their order and each hole the index of the last line that binds it. So every
text without a faulty line whose lines are the same for each producer and for each hole gives a trace that is
the same to every look-up, whatever the order of the lines and whatever else there is. -/
theorem ofText_reads (c : Conventions) (s : String) :
    (∀ line producer fact, fact? c line = some (producer, fact) ↔ ∃ kind payload : String,
      Text.trim line.toList = producer.toList ++ ',' :: (kind.toList ++ ',' :: payload.toList) ∧
        ',' ∉ producer.toList ∧ ',' ∉ kind.toList ∧ (∃ role ∈ c.producers, role.toList <+: producer.toList) ∧
          Payload.fact? c.auxMarker payload = .ok (some fact)) ∧
    (∀ line binding, binding? c line = some binding ↔ ∃ producer kind payload : String,
      Text.trim line.toList = producer.toList ++ ',' :: (kind.toList ++ ',' :: payload.toList) ∧
        ',' ∉ producer.toList ∧ ',' ∉ kind.toList ∧
          Payload.binding? c.auxMarker payload = .ok (some binding)) ∧
    (∀ e, ofText c s = .error e ↔ (linesOfText s).findSome? (fault? c) = some e) ∧
    ((∀ line ∈ linesOfText s, fault? c line = none) → ∃ t, ofText c s = .ok t ∧ Reads c (linesOfText s) t ∧
      ∀ s', (∀ line ∈ linesOfText s', fault? c line = none) →
        (∀ key, (linesOfText s').filter (records c key) = (linesOfText s).filter (records c key)) →
        (∀ hole, (linesOfText s').filter (binds c hole) = (linesOfText s).filter (binds c hole)) →
          ∃ t', ofText c s' = .ok t' ∧ (∀ key, t'.facts.get? key = t.facts.get? key) ∧
            ∀ hole, t'.bindings.get? hole = t.bindings.get? hole) := by
  have sound : ∀ s, (∀ line ∈ linesOfText s, fault? c line = none) →
      ofText c s = .ok (empty.told c (linesOfText s)) := by
    intro s hs
    rw [ofText, feedAll_eq, List.findSome?_eq_none_iff.2 hs]
  refine ⟨fun _ _ _ => fact?_eq_some, fun _ _ => binding?_eq_some, ?_, ?_⟩
  · intro e
    rw [ofText, feedAll_eq]
    cases (linesOfText s).findSome? (fault? c) <;> simp
  · intro hs
    refine ⟨_, sound s hs, reads_told c _, ?_⟩
    intro s' hs' hfacts hbindings
    exact ⟨_, sound s' hs', (reads_told c _).congr (reads_told c _) hfacts hbindings⟩

/-- Two producers whose lines are interleaved, a hole that is bound twice, and a line that tells nothing. -/
def interleaved : String :=
  "u,,idx - 1\ng,,attach_AX_a = 3\nh,,a.x < b.x\nu,,idx + 1\ng,,a.x < b.x\ng,,attach_AX_b = 1"

/-- The lines of `interleaved` that tell something, those of each producer in one row. -/
def sorted : String := "g,,attach_AX_a = 3\ng,,attach_AX_b = 1\n\nh,,a.x < b.x\nu,,idx - 1\nu,,idx + 1"

/-- The order between a producer and another one, and lines that tell nothing, make no difference. -/
theorem ofText_sorted : ∃ c t t', ofText c interleaved = .ok t ∧ ofText c sorted = .ok t' ∧
    t.facts.factsOf "u" = [.direction .reverse, .direction .forward] ∧ t.bindings.get? "attach_AX" = some 1 ∧
    (∀ key, t'.facts.get? key = t.facts.get? key) ∧ ∀ hole, t'.bindings.get? hole = t.bindings.get? hole := by
  let c : Conventions := { Conventions.default with auxMarker := "A", producers := ["u", "h"] }
  have hlines : linesOfText interleaved = ["u,,idx - 1", "g,,attach_AX_a = 3", "h,,a.x < b.x", "u,,idx + 1",
    "g,,a.x < b.x", "g,,attach_AX_b = 1"] := by decide +kernel
  have hlines' : linesOfText sorted = ["g,,attach_AX_a = 3", "g,,attach_AX_b = 1", "", "h,,a.x < b.x",
    "u,,idx - 1", "u,,idx + 1"] := by decide +kernel
  have sound : ∀ line ∈ linesOfText interleaved, fault? c line = none := by
    rw [hlines]
    decide +kernel
  have sound' : ∀ line ∈ linesOfText sorted, fault? c line = none := by
    rw [hlines']
    decide +kernel
  have hrecords : ∀ key, (linesOfText sorted).filter (records c key) =
      (linesOfText interleaved).filter (records c key) := by
    rw [hlines, hlines']
    exact filter_any_eq ["u", "h"] (by decide +kernel) (by decide +kernel)
  have hbinds : ∀ hole, (linesOfText sorted).filter (binds c hole) =
      (linesOfText interleaved).filter (binds c hole) := by
    rw [hlines, hlines']
    exact filter_any_eq ["attach_AX"] (by decide +kernel) (by decide +kernel)
  obtain ⟨-, -, -, hreads⟩ := ofText_reads c interleaved
  obtain ⟨t, ht, htold, hcongr⟩ := hreads sound
  obtain ⟨t', ht', hcongr⟩ := hcongr sorted sound' hrecords hbinds
  refine ⟨c, t, t', ht, ht', ?_, ?_, hcongr⟩
  · rw [htold.facts, hlines]
    decide +kernel
  · rw [htold.bindings, hlines]
    decide +kernel

end Trace

end ObserverPattern
