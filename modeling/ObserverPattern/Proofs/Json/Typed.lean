import Mathlib.Logic.Basic
import Mathlib.Tactic.SplitIfs
import ObserverPattern.Json.Reading

/-!
# Reading encoded values

A reader reads a value back from its encoding if it gives the value as soon as the encoding may be entered to its
full depth, and refuses it before (`ReadsBack`).

* Texts, truth values, words and integers are read back, and so are options and lists of what is read back;
* `slots?_record`, `fields?_record`: the fields of a record whose members have different names.
-/

namespace ObserverPattern.Json

/-- A value is read from a JSON value to whose full depth a reader may go, and to no lesser depth. -/
def ReadsBack {α : Type} (read : Reader α) (v : Json) (a : α) : Prop :=
  ∀ depth, read depth v = if v.nesting ≤ depth then some a else none

/-! ## Records and alternatives -/

theorem nesting_record (ms : List (String × Json)) : (record ms).nesting = nestingItems (ms.map Prod.snd) + 1 := by
  have hmembers : nestingMembers (ms.map fun m => (some m.1, m.2)) = nestingItems (ms.map Prod.snd) := by
    induction ms with
    | nil => rfl
    | cons m ms ih => rw [List.map_cons, List.map_cons, nestingMembers, nestingItems, ih]
  exact congrArg (· + 1) hmembers

theorem nesting_tagged (tag : String) (v : Json) : (tagged tag v).nesting = v.nesting + 1 := by
  simp [tagged, nesting_record, nestingItems]

@[simp] theorem variant?_tagged (tag : String) (v : Json) : variant? (tagged tag v) = some (tag, v) := rfl

theorem constant?_tagged (tag : String) {v : Json} (h : v ≠ .null) (depth : Nat) :
    constant? depth (tagged tag v) = none := by
  unfold constant? tagged record
  split <;> simp_all

@[simp] theorem nestingItems_nil_le (depth : Nat) : nestingItems [] ≤ depth := Nat.zero_le depth

@[simp] theorem nestingItems_cons_le {v : Json} {items : List Json} {depth : Nat} :
    nestingItems (v :: items) ≤ depth ↔ v.nesting ≤ depth ∧ nestingItems items ≤ depth := Nat.max_le

theorem nestingItems_map_le {α : Type} {encode : α → Json} {l : List α} {depth : Nat} :
    nestingItems (l.map encode) ≤ depth ↔ ∀ x ∈ l, (encode x).nesting ≤ depth := by
  induction l with
  | nil => simp
  | cons x l ih => rw [List.map_cons, nestingItems_cons_le, ih, List.forall_mem_cons]

namespace ReadsBack

variable {α : Type} {read : Reader α} {a : α}

/-- An alternative is read back if what it holds is, one level further in. -/
theorem of_tagged {tag : String} {v : Json} (hzero : read 0 (tagged tag v) = none)
    (hsucc : ∀ depth, read (depth + 1) (tagged tag v) = if v.nesting ≤ depth then some a else none) :
    ReadsBack read (tagged tag v) a := by
  intro depth
  cases depth with
  | zero => rw [hzero, nesting_tagged, if_neg (by omega)]
  | succ depth => simp only [hsucc, nesting_tagged, Nat.add_le_add_iff_right]

/-- A record is read back if its fields are, one level further in. -/
theorem of_record {ms : List (String × Json)} (hzero : read 0 (record ms) = none)
    (hsucc : ∀ depth, read (depth + 1) (record ms) =
      if nestingItems (ms.map Prod.snd) ≤ depth then some a else none) : ReadsBack read (record ms) a := by
  intro depth
  cases depth with
  | zero => rw [hzero, nesting_record, if_neg (by omega)]
  | succ depth => simp only [hsucc, nesting_record, Nat.add_le_add_iff_right]

/-- An alternative that holds a record is read back if the fields are, two levels further in. -/
theorem of_tagged_record {tag : String} {ms : List (String × Json)} (hzero : read 0 (tagged tag (record ms)) = none)
    (hone : read 1 (tagged tag (record ms)) = none)
    (hsucc : ∀ depth, read (depth + 2) (tagged tag (record ms)) =
      if nestingItems (ms.map Prod.snd) ≤ depth then some a else none) :
    ReadsBack read (tagged tag (record ms)) a := by
  refine .of_tagged hzero fun depth => ?_
  cases depth with
  | zero => rw [hone, nesting_record, if_neg (by omega)]
  | succ depth => simp only [hsucc, nesting_record, Nat.add_le_add_iff_right]

end ReadsBack

section Conditional

variable {α β : Type} {c : Prop} [Decidable c]

/-- What is read under a condition is gone on with under that condition. -/
@[simp] theorem ite_bind (a : α) (f : α → Option β) :
    (if c then some a else none).bind f = if c then f a else none := by
  split <;> rfl

end Conditional

/-! ## Scalars -/

theorem readString_text (s : String) : ReadsBack readString (.text s) s := by
  intro depth
  simp [readString, text, nesting]

theorem readBool_bool (b : Bool) : ReadsBack readBool (.bool b) b := by
  intro depth
  simp [readBool, nesting]

theorem readWord_nat {n : Nat} (h : n < UInt64.size) : ReadsBack readWord (.nat n) n := by
  intro depth
  simp [readWord, readNatBelow, nat, nesting, h]

theorem readInt64_int (n : Int64) : ReadsBack readInt64 (.int n.toInt) n := by
  intro depth
  have hrange : Int64.minValue.toInt ≤ n.toInt ∧ n.toInt ≤ Int64.maxValue.toInt := ⟨n.minValue_le_toInt, n.toInt_le⟩
  simp only [readInt64, int, if_pos hrange, Int64.ofInt_toInt, nesting, Nat.zero_le, if_true]

/-! ## Options and lists -/

section Compound

variable {α : Type} {read : Reader α} {encode : α → Json}

theorem readOption_option {a : Option α} (hnull : ∀ x ∈ a, encode x ≠ .null)
    (h : ∀ x ∈ a, ReadsBack read (encode x) x) : ReadsBack (readOption read) (.option encode a) a := by
  intro depth
  cases a with
  | none => simp [readOption, option, nesting]
  | some x =>
    have hx := h x rfl depth
    unfold readOption
    split
    · next heq => exact absurd heq (hnull x rfl)
    · rw [option, hx]
      split <;> rfl

theorem readOption_text (o : Option String) : ReadsBack (readOption readString) (.option .text o) o :=
  readOption_option (by simp [text]) fun s _ => readString_text s

/-- A list is read back if each of its items is. -/
theorem mapM_items {l : List α} (h : ∀ x ∈ l, ReadsBack read (encode x) x) (depth : Nat) :
    (l.map encode).mapM (read depth) = if nestingItems (l.map encode) ≤ depth then some l else none := by
  induction l with
  | nil => simp [nestingItems]
  | cons x l ih =>
    have hx := h x (by simp) depth
    have hl := ih fun y hy => h y (by simp [hy])
    rw [List.map_cons, List.mapM_cons, hx, hl, nestingItems]
    split_ifs <;> simp_all <;> omega

theorem readList_array {l : List α} (h : ∀ x ∈ l, ReadsBack read (encode x) x) :
    ReadsBack (readList read) (.array (l.map encode)) l := by
  intro depth
  cases depth with
  | zero => simp [readList, nesting]
  | succ depth => simp [readList, nesting, mapM_items h]

end Compound

/-! ## Fields -/

section Records

variable {shape : Shape} {ms : List (String × Json)}

private theorem namedMembers?_record (ms : List (String × Json)) :
    namedMembers? (ms.map fun m => (some m.1, m.2)) = some ms := by
  induction ms with
  | nil => rfl
  | cons m ms ih =>
    unfold namedMembers? at ih ⊢
    rw [List.map_cons, List.mapM_cons, ih]
    rfl

private theorem filter_of_mem (hnodup : (ms.map Prod.fst).Nodup) {m : String × Json} (h : m ∈ ms) :
    ms.filter (·.1 == m.1) = [m] := by
  induction ms with
  | nil => cases h
  | cons k ms ih =>
    rw [List.map_cons, List.nodup_cons] at hnodup
    rcases List.mem_cons.1 h with rfl | h
    · have hrest : ms.filter (·.1 == m.1) = [] := by
        rw [List.filter_eq_nil_iff]
        intro other hother heq
        exact hnodup.1 (beq_iff_eq.1 heq ▸ List.mem_map_of_mem hother)
      rw [List.filter_cons_of_pos (by simp), hrest]
    · have hne : k.1 ≠ m.1 := fun heq => hnodup.1 (heq ▸ List.mem_map_of_mem h)
      rw [List.filter_cons_of_neg (by simpa using hne), ih hnodup.2 h]

private theorem slotOfMembers_of_mem (hnodup : (ms.map Prod.fst).Nodup) {m : String × Json} (h : m ∈ ms)
    (absence : Absence) : slotOfMembers ms m.1 absence = some (some m.2) := by
  simp only [slotOfMembers, filter_of_mem hnodup h]

/-- The fields of a record whose members have different names. -/
theorem slots?_record (hnames : ms.map Prod.fst = shape.map Prod.fst) (hnodup : (shape.map Prod.fst).Nodup) :
    slots? shape (record ms) = some (ms.map fun m => some m.2) := by
  rw [← hnames] at hnodup
  -- The slots run through the names, and each looks for its member in the whole record.
  have hslots : ∀ (shape : Shape) (front : List (String × Json)), front.map Prod.fst = shape.map Prod.fst →
      front ⊆ ms → (shape.mapM fun field => slotOfMembers ms field.1 field.2) =
        some (front.map fun m => some m.2) := by
    intro shape front hnames hsub
    induction front generalizing shape with
    | nil =>
      obtain rfl := List.map_eq_nil_iff.1 hnames.symm
      rfl
    | cons m front ih =>
      obtain ⟨⟨name, absence⟩, shape, rfl⟩ := List.exists_cons_of_ne_nil (l := shape) (by rintro rfl; cases hnames)
      obtain ⟨rfl, hrest⟩ := List.cons_eq_cons.1 hnames
      obtain ⟨hm, hfront⟩ := List.cons_subset.1 hsub
      have hslot : slotOfMembers ms m.1 absence = some (some m.2) := slotOfMembers_of_mem hnodup hm absence
      simp only [List.mapM_cons, hslot, ih shape hrest hfront]
      rfl
  have hnamed : slots? shape (record ms) =
      (namedMembers? (ms.map fun m => (some m.1, m.2))).bind fun members =>
        shape.mapM fun field => slotOfMembers members field.1 field.2 := rfl
  rw [hnamed, namedMembers?_record]
  exact hslots shape ms hnames fun _ h => h

theorem fields?_record {names : List String} (hnames : ms.map Prod.fst = names) (hnodup : names.Nodup) :
    fields? names (record ms) = some (ms.map Prod.snd) := by
  have hsome : ∀ l : List (String × Json), (l.map fun m => some m.2).mapM id = some (l.map Prod.snd) := by
    intro l
    induction l with
    | nil => rfl
    | cons m l ih =>
      rw [List.map_cons, List.mapM_cons, ih]
      rfl
  have hshape : (fullShape names).map Prod.fst = names := by simp [fullShape, Function.comp_def]
  have hslots := slots?_record (hnames.trans hshape.symm) (by rwa [hshape])
  rw [fields?, hslots]
  exact hsome ms

end Records

end ObserverPattern.Json
