import ObserverPattern.Program.Encoding
import ObserverPattern.Proofs.Syntax.Encoding

/-!
# Programs survive their encoding

Indices are written as words of 64 bits. A program all of whose indices are words (`Program.Words`) is read back from
the value that encodes it (`Program.read_toJson`), and from the texts that are written for this value, compact and
pretty, as long as the value is not nested too deep (`Program.ofText?_toJson`).
-/

namespace ObserverPattern

open Json

/-- The methods that a class lists and the indices of its dispatcher are words. -/
structure ClassDecl.Words (c : ClassDecl) : Prop where
  methods : ∀ id ∈ c.methods, id.index < UInt64.size
  dispatcher : ∀ d ∈ c.dispatcher, d.event.index < UInt64.size ∧ d.handle.index < UInt64.size

/-- All indices in a registry are words. -/
structure Registry.Words (r : Registry) : Prop where
  classes : ∀ c ∈ r.classes, c.Words
  owners : ∀ m ∈ r.methods, m.owner.index < UInt64.size

/-- All indices in a program are words. -/
structure Program.Words (p : Program) : Prop where
  template : ∀ id ∈ p.template.classes, id.index < UInt64.size
  registry : p.registry.Words

/-! ## Declarations -/

theorem ClassId.read_toJson {id : ClassId} (h : id.index < UInt64.size) : ReadsBack ClassId.read id.toJson id := by
  intro depth
  rw [ClassId.read, toJson, readWord_nat h depth]
  split <;> rfl

theorem MethodId.read_toJson {id : MethodId} (h : id.index < UInt64.size) :
    ReadsBack MethodId.read id.toJson id := by
  intro depth
  rw [MethodId.read, toJson, readWord_nat h depth]
  split <;> rfl

theorem Param.read_toJson (p : Param) : ReadsBack Param.read p.toJson p := by
  refine .of_record rfl fun depth => ?_
  simp [Param.read, fields?_record, ite_and, readString_text p.ty depth, readString_text p.name depth]

theorem Field.read_toJson (f : Field) : ReadsBack Field.read f.toJson f := by
  refine .of_record rfl fun depth => ?_
  have hinit := readOption_option (fun e _ => e.toJson_ne_null) (fun e (_ : e ∈ f.init) => e.read_toJson) depth
  simp [Field.read, slots?_record, ite_and, readOr, hinit, readString_text f.ty depth, readString_text f.name depth]

theorem MethodDecl.read_toJson {m : MethodDecl} (h : m.owner.index < UInt64.size) :
    ReadsBack MethodDecl.read m.toJson m := by
  refine .of_record rfl fun depth => ?_
  have hparams := readList_array (fun p (_ : p ∈ m.params) => p.read_toJson) depth
  have hbody := readList_array (fun s (_ : s ∈ m.body) => s.read_toJson) depth
  simp [MethodDecl.read, slots?_record, ite_and, readOr, Stmt.listToJson_eq, hparams, hbody,
    ClassId.read_toJson h depth, readString_text m.name depth, readString_text m.returnType depth,
    readBool_bool m.isInit depth]

theorem Dispatcher.read_toJson {d : Dispatcher} (hevent : d.event.index < UInt64.size)
    (hhandle : d.handle.index < UInt64.size) : ReadsBack Dispatcher.read d.toJson d := by
  refine .of_record rfl fun depth => ?_
  simp [Dispatcher.read, fields?_record, ite_and, ClassId.read_toJson hevent depth,
    MethodId.read_toJson hhandle depth]

theorem ClassDecl.read_toJson {c : ClassDecl} (h : c.Words) : ReadsBack ClassDecl.read c.toJson c := by
  refine .of_record rfl fun depth => ?_
  have hinterfaces := readList_array (fun s (_ : s ∈ c.interfaces) => readString_text s) depth
  have hfields := readList_array (fun f (_ : f ∈ c.fields) => f.read_toJson) depth
  have hmethods := readList_array (fun id hid => MethodId.read_toJson (h.methods id hid)) depth
  have hdispatcher := readOption_option (fun d _ => by simp [Dispatcher.toJson, record])
    (fun d hd => Dispatcher.read_toJson (h.dispatcher d hd).1 (h.dispatcher d hd).2) depth
  simp [ClassDecl.read, slots?_record, ite_and, readOr, hinterfaces, hfields, hmethods, hdispatcher,
    readOption_text c.superclass depth, readOption_text c.collection depth, readString_text c.name depth,
    readBool_bool c.isInterface depth]

/-! ## Programs -/

theorem Registry.read_toJson {r : Registry} (h : r.Words) : ReadsBack Registry.read r.toJson r := by
  refine .of_record rfl fun depth => ?_
  have hclasses := readList_array (fun c hc => ClassDecl.read_toJson (h.classes c hc)) depth
  have hmethods := readList_array (fun m hm => MethodDecl.read_toJson (h.owners m hm)) depth
  simp [Registry.read, fields?_record, ite_and, hclasses, hmethods]

theorem Template.read_toJson {t : Template} (h : ∀ id ∈ t.classes, id.index < UInt64.size) :
    ReadsBack Template.read t.toJson t := by
  refine .of_record rfl fun depth => ?_
  have hclasses := readList_array (fun id hid => ClassId.read_toJson (h id hid)) depth
  have hauxs := readList_array (fun s (_ : s ∈ t.auxs) => readString_text s) depth
  simp [Template.read, slots?_record, ite_and, readOr, hclasses, hauxs]

/-- A program is read back from the value that encodes it. -/
theorem Program.read_toJson {p : Program} (h : p.Words) : ReadsBack Program.read p.toJson p := by
  refine .of_record rfl fun depth => ?_
  simp [Program.read, fields?_record, ite_and, Template.read_toJson h.template depth,
    Registry.read_toJson h.registry depth]

/-! ## Programs that have been read -/

/-- Each item of a list that has been read has been read. -/
private theorem read_of_mem {α : Type} {f : Json → Option α} {items : List Json} {l : List α}
    (h : items.mapM f = some l) {x : α} (hx : x ∈ l) : ∃ v, f v = some x := by
  induction items generalizing l with
  | nil =>
    obtain rfl : [] = l := by simpa using h
    cases hx
  | cons v items ih =>
    rw [List.mapM_cons] at h
    obtain ⟨y, hy, h⟩ := Option.bind_eq_some_iff.1 h
    obtain ⟨ys, hys, h⟩ := Option.bind_eq_some_iff.1 h
    obtain rfl := Option.some.inj h
    rcases List.mem_cons.1 hx with rfl | hx
    · exact ⟨v, hy⟩
    · exact ih hys hx

private theorem read_of_mem_list {α : Type} {read : Reader α} {depth : Nat} {v : Json} {l : List α}
    (h : readList read depth v = some l) {x : α} (hx : x ∈ l) : ∃ depth v, read depth v = some x := by
  unfold readList at h
  split at h
  · next depth items =>
    obtain ⟨v, hv⟩ := read_of_mem h hx
    exact ⟨depth, v, hv⟩
  · cases h

private theorem read_of_mem_slot {α : Type} {read : Reader α} {depth : Nat} {slot : Option Json} {l : List α}
    (h : readOr (readList read) [] depth slot = some l) {x : α} (hx : x ∈ l) : ∃ depth v, read depth v = some x := by
  cases slot with
  | none =>
    obtain rfl := Option.some.inj h
    cases hx
  | some v => exact read_of_mem_list h hx

private theorem read_of_mem_option {α : Type} {read : Reader α} {depth : Nat} {slot : Option Json} {o : Option α}
    (h : readOr (readOption read) none depth slot = some o) {x : α} (hx : x ∈ o) : ∃ v, read depth v = some x := by
  cases slot with
  | none =>
    obtain rfl := Option.some.inj h
    cases hx
  | some v =>
    rw [readOr, readOption.eq_def] at h
    split at h
    · obtain rfl := Option.some.inj h
      cases hx
    · obtain ⟨y, hy, rfl⟩ := Option.map_eq_some_iff.1 h
      exact ⟨v, Option.some.inj hx ▸ hy⟩

private theorem word_of_readWord {depth n : Nat} {v : Json} (h : readWord depth v = some n) : n < UInt64.size := by
  unfold readWord readNatBelow at h
  split at h
  · split at h
    · next hlt => exact Option.some.inj h ▸ hlt
    · cases h
  · cases h

theorem ClassId.word_of_read {depth : Nat} {v : Json} {id : ClassId} (h : ClassId.read depth v = some id) :
    id.index < UInt64.size := by
  obtain ⟨n, hn, rfl⟩ := Option.map_eq_some_iff.1 h
  exact word_of_readWord hn

theorem MethodId.word_of_read {depth : Nat} {v : Json} {id : MethodId} (h : MethodId.read depth v = some id) :
    id.index < UInt64.size := by
  obtain ⟨n, hn, rfl⟩ := Option.map_eq_some_iff.1 h
  exact word_of_readWord hn

private theorem Dispatcher.words_of_read {depth : Nat} {v : Json} {d : Dispatcher}
    (h : Dispatcher.read depth v = some d) : d.event.index < UInt64.size ∧ d.handle.index < UInt64.size := by
  cases depth with
  | zero => cases h
  | succ depth =>
    rw [Dispatcher.read] at h
    obtain ⟨fields, -, h⟩ := Option.bind_eq_some_iff.1 h
    split at h
    · simp only [Option.bind_eq_bind, Option.bind_eq_some_iff, Option.some.injEq] at h
      obtain ⟨event, hevent, handle, hhandle, rfl⟩ := h
      exact ⟨ClassId.word_of_read hevent, MethodId.word_of_read hhandle⟩
    · cases h

private theorem ClassDecl.words_of_read {depth : Nat} {v : Json} {c : ClassDecl}
    (h : ClassDecl.read depth v = some c) : c.Words := by
  cases depth with
  | zero => cases h
  | succ depth =>
    rw [ClassDecl.read] at h
    obtain ⟨slots, -, h⟩ := Option.bind_eq_some_iff.1 h
    split at h
    · simp only [Option.bind_eq_bind, Option.bind_eq_some_iff, Option.some.injEq] at h
      obtain ⟨_, -, _, -, _, -, _, -, _, -, methods, hmethods, dispatcher, hdispatcher, _, -, rfl⟩ := h
      constructor
      · intro id hid
        obtain ⟨_, _, hread⟩ := read_of_mem_slot hmethods hid
        exact MethodId.word_of_read hread
      · intro d hd
        obtain ⟨_, hread⟩ := read_of_mem_option hdispatcher hd
        exact Dispatcher.words_of_read hread
    · cases h

private theorem MethodDecl.word_of_read {depth : Nat} {v : Json} {m : MethodDecl}
    (h : MethodDecl.read depth v = some m) : m.owner.index < UInt64.size := by
  cases depth with
  | zero => cases h
  | succ depth =>
    rw [MethodDecl.read] at h
    obtain ⟨slots, -, h⟩ := Option.bind_eq_some_iff.1 h
    split at h
    · simp only [Option.bind_eq_bind, Option.bind_eq_some_iff, Option.some.injEq] at h
      obtain ⟨_, -, owner, howner, _, -, _, -, _, -, _, -, rfl⟩ := h
      exact ClassId.word_of_read howner
    · cases h

private theorem Registry.words_of_read {depth : Nat} {v : Json} {r : Registry} (h : Registry.read depth v = some r) :
    r.Words := by
  cases depth with
  | zero => cases h
  | succ depth =>
    rw [Registry.read] at h
    obtain ⟨fields, -, h⟩ := Option.bind_eq_some_iff.1 h
    split at h
    · simp only [Option.bind_eq_bind, Option.bind_eq_some_iff, Option.some.injEq] at h
      obtain ⟨classes, hclasses, methods, hmethods, rfl⟩ := h
      constructor
      · intro c hc
        obtain ⟨_, _, hread⟩ := read_of_mem_list hclasses hc
        exact ClassDecl.words_of_read hread
      · intro m hm
        obtain ⟨_, _, hread⟩ := read_of_mem_list hmethods hm
        exact MethodDecl.word_of_read hread
    · cases h

private theorem Template.words_of_read {depth : Nat} {v : Json} {t : Template} (h : Template.read depth v = some t) :
    ∀ id ∈ t.classes, id.index < UInt64.size := by
  cases depth with
  | zero => cases h
  | succ depth =>
    rw [Template.read] at h
    obtain ⟨slots, -, h⟩ := Option.bind_eq_some_iff.1 h
    split at h
    · simp only [Option.bind_eq_bind, Option.bind_eq_some_iff, Option.some.injEq] at h
      obtain ⟨classes, hclasses, _, -, rfl⟩ := h
      intro id hid
      obtain ⟨_, _, hread⟩ := read_of_mem_list hclasses hid
      exact ClassId.word_of_read hread
    · cases h

/-- In a program that has been read all indices are words. -/
theorem Program.words_of_read {depth : Nat} {v : Json} {p : Program} (h : Program.read depth v = some p) :
    p.Words := by
  cases depth with
  | zero => cases h
  | succ depth =>
    rw [Program.read] at h
    obtain ⟨fields, -, h⟩ := Option.bind_eq_some_iff.1 h
    split at h
    · simp only [Option.bind_eq_bind, Option.bind_eq_some_iff, Option.some.injEq] at h
      obtain ⟨template, htemplate, registry, hregistry, rfl⟩ := h
      exact ⟨Template.words_of_read htemplate, Registry.words_of_read hregistry⟩
    · cases h

/-! ## How deep a program is nested -/

theorem Field.nesting_toJson_le {f : Field} {n : Nat} :
    f.toJson.nesting ≤ n + 1 ↔ ∀ e ∈ f.init, e.toJson.nesting ≤ n := by
  cases h : f.init <;> simp [toJson, nesting_record, nestingItems, text, nesting, Json.option, h]

theorem MethodDecl.nesting_toJson_le {m : MethodDecl} {n : Nat} :
    m.toJson.nesting ≤ n + 3 ↔ nestingItems (Stmt.listToJson m.body) ≤ n + 1 := by
  simp [toJson, nesting_record, text, nat, nesting, nestingItems_map_le, ClassId.toJson, Param.toJson]

theorem ClassDecl.nesting_toJson_le {c : ClassDecl} {n : Nat} :
    c.toJson.nesting ≤ n + 3 ↔ ∀ f ∈ c.fields, ∀ e ∈ f.init, e.toJson.nesting ≤ n := by
  have htext : ∀ o : Option String, (Json.option text o).nesting = 0 := fun o => by cases o <;> rfl
  have hdispatcher : (Json.option Dispatcher.toJson c.dispatcher).nesting ≤ n + 2 := by
    cases c.dispatcher with
    | none => exact Nat.zero_le _
    | some d => simp [Json.option, Dispatcher.toJson, nesting_record, ClassId.toJson, MethodId.toJson, nat, nesting]
  simp [toJson, nesting_record, text, nat, nesting, nestingItems_map_le, MethodId.toJson, htext, hdispatcher,
    Field.nesting_toJson_le]

/-- Above six levels a program is nested as deep as its code. -/
theorem Program.nesting_toJson_le {p : Program} {n : Nat} : p.toJson.nesting ≤ n + 6 ↔
    (∀ c ∈ p.registry.classes, ∀ f ∈ c.fields, ∀ e ∈ f.init, e.toJson.nesting ≤ n) ∧
      ∀ m ∈ p.registry.methods, nestingItems (Stmt.listToJson m.body) ≤ n + 1 := by
  simp [toJson, Registry.toJson, Template.toJson, nesting_record, text, nat, nesting, nestingItems_map_le,
    ClassId.toJson, ClassDecl.nesting_toJson_le, MethodDecl.nesting_toJson_le]

/-! ## Texts -/

theorem Field.plain_toJson (f : Field) : f.toJson.Plain := by
  have hinit := plain_option fun e (_ : e ∈ f.init) => e.plain_toJson
  simp [toJson, hinit]

theorem MethodDecl.plain_toJson (m : MethodDecl) : m.toJson.Plain := by
  have hparams := plainItems_map fun p (_ : p ∈ m.params) => (show p.toJson.Plain by simp [Param.toJson])
  have hbody := plainItems_map fun s (_ : s ∈ m.body) => s.plain_toJson
  simp [toJson, ClassId.toJson, Stmt.listToJson_eq, hparams, hbody]

theorem ClassDecl.plain_toJson (c : ClassDecl) : c.toJson.Plain := by
  have hinterfaces := plainItems_map fun s (_ : s ∈ c.interfaces) => plain_text s
  have hfields := plainItems_map fun f (_ : f ∈ c.fields) => f.plain_toJson
  have hmethods : PlainItems (c.methods.map MethodId.toJson) := plainItems_map fun id _ => plain_nat id.index
  have hdispatcher : (Json.option Dispatcher.toJson c.dispatcher).Plain :=
    plain_option fun d _ => by simp [Dispatcher.toJson, ClassId.toJson, MethodId.toJson]
  simp [toJson, hinterfaces, hfields, hmethods, hdispatcher]

theorem Program.plain_toJson (p : Program) : p.toJson.Plain := by
  have hlisted : PlainItems (p.template.classes.map ClassId.toJson) := plainItems_map fun id _ => plain_nat id.index
  have hauxs := plainItems_map fun s (_ : s ∈ p.template.auxs) => plain_text s
  have hclasses := plainItems_map fun c (_ : c ∈ p.registry.classes) => c.plain_toJson
  have hmethods := plainItems_map fun m (_ : m ∈ p.registry.methods) => m.plain_toJson
  simp [toJson, Template.toJson, Registry.toJson, hlisted, hauxs, hclasses, hmethods]

/-- From the text that is written for it a program is read, unless it is nested too deep. -/
theorem Program.ofText?_pretty_toJson {p : Program} (h : p.Words) :
    ofText? Program.read p.toJson.pretty = if p.toJson.nesting ≤ maxNesting then some p else none := by
  rw [ofText?_pretty _ p.plain_toJson]
  exact Program.read_toJson h maxNesting

/-- From both texts that are written for it a program is read, if it is not nested too deep. -/
theorem Program.ofText?_toJson {p : Program} (h : p.Words) (hnesting : p.toJson.nesting < 128) :
    ofText? Program.read p.toJson.compact = some p ∧ ofText? Program.read p.toJson.pretty = some p := by
  have hread : Program.read maxNesting p.toJson = some p := by
    have hle : p.toJson.nesting ≤ maxNesting := Nat.le_of_lt_succ hnesting
    rw [Program.read_toJson h maxNesting, if_pos hle]
  rw [ofText?_compact _ p.plain_toJson, ofText?_pretty _ p.plain_toJson]
  exact ⟨hread, hread⟩

/-- A program with quotes, control characters and the least integer in its code. -/
def Program.speaker : Program where
  template := ⟨[⟨0⟩], []⟩
  registry.classes :=
    [{ ClassDecl.empty "Speaker\"\\" with
      fields := [⟨"long", "volume", some (.literal (.int (-9223372036854775808)))⟩], methods := [⟨0⟩] }]
  registry.methods :=
    [⟨"say", ⟨0⟩, [], "String", false,
      [.whileLoop (.binary .ne (.id "line") .null) [.expr (.methodCall (.id "line") "feed\n" [])],
        .ret (some (.literal (.str "\x00\x1f\t\u2028𝔘")))]⟩]

theorem Program.ofText?_toJson_speaker :
    ofText? Program.read Program.speaker.toJson.compact = some Program.speaker ∧
      ofText? Program.read Program.speaker.toJson.pretty = some Program.speaker := by
  have hregistry : Program.speaker.registry.Words :=
    ⟨fun c hc => by obtain rfl := List.mem_singleton.1 hc; exact ⟨by decide, by decide⟩, by decide⟩
  exact Program.ofText?_toJson ⟨by decide, hregistry⟩ (by decide +kernel)

end ObserverPattern
