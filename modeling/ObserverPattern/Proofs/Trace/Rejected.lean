import ObserverPattern.Proofs.Trace.Bindings
import ObserverPattern.Proofs.Trace.Reading

/-!
# Faulty lines

A line that is refused binds no hole. Its fact is recorded before its binding is read, so a payload that is both can
leave a fact behind.

* `feed_of_fault?`: a refused line leaves the fact that it records, if there is one;
* `fault?_eq_some`: such a fact is a comparison, and the fault is that of the binding in the same payload;
* `feed_rejected`: a refused line leaves everything as it was, unless it tells such a comparison, and then it leaves
  just that; `feed_leaves_comparison` is a line that does.
-/

namespace ObserverPattern

/-- A step of the index is no binding. -/
theorem Payload.binding?_text_direction (marker : String) (d : Direction) :
    Payload.binding? marker d.text = .ok none := by
  refine binding?_eq_none.2 fun role name text index h => ?_
  have hhead : d.text.toList.head? = role.name.toList.head? := by
    rw [h.payload]
    cases role <;> simp [Role.name]
  have hne : d.text.toList.head? ≠ role.name.toList.head? := by
    cases d <;> cases role <;> decide
  exact absurd hhead hne

theorem Payload.direction?_eq_some {s : List Char} {d : Direction} (h : direction? s = some d) :
    s = d.text.toList := by
  unfold direction? at h
  split at h
  · next htext => exact Option.some.inj h ▸ htext
  · split at h
    · next htext => exact Option.some.inj h ▸ htext
    · cases h

/-- Only a step of the index tells a direction. -/
theorem Payload.eq_text_of_fact? {marker payload : String} {d : Direction}
    (h : fact? marker payload = .ok (some (.direction d))) : payload = d.text := by
  cases hread : direction? payload.toList with
  | some d' =>
    simp only [fact?, hread] at h
    obtain rfl := Fact.direction.inj (Option.some.inj (Except.ok.inj h))
    exact String.toList_inj.1 (direction?_eq_some hread)
  | none =>
    simp only [fact?, hread] at h
    split at h
    · cases h
    · split at h <;> cases h

namespace Trace

variable {c : Conventions} {t : Trace} {line : String} {e : DecodeFault}

/-- A refused line leaves the fact that it records, if there is one, and nothing else. -/
theorem feed_of_fault? (h : fault? c line = some e) :
    (t.feed c line).1 = { t with facts := t.facts.pushAll (fact? c line).toList } := by
  unfold feed
  unfold fault? at h
  unfold fact?
  cases hline : Line.ofChars? (Text.trim line.toList) with
  | none =>
    rw [hline] at h
    cases h
  | some l =>
    simp only [hline, Option.bind_eq_bind, Option.bind_some] at h ⊢
    cases hfact : Payload.fact? c.auxMarker l.payload with
    | error e' => rfl
    | ok fact =>
      simp only [hfact] at h
      cases hbinding : Payload.binding? c.auxMarker l.payload with
      | error e' => exact record_eq c t l.producer fact
      | ok binding =>
        rw [hbinding] at h
        cases h

/-- A refused line that records a fact records a comparison, and its fault is that of the binding beside it. -/
theorem exists_of_fault?_of_fact? {producer : String} {fact : Fact} (h : fault? c line = some e)
    (hfact : fact? c line = some (producer, fact)) :
    ∃ (kind payload left : String) (op : Operator) (right : String) (cause : FactFault),
      Text.trim line.toList = producer.toList ++ ',' :: (kind.toList ++ ',' :: payload.toList) ∧
        ',' ∉ producer.toList ∧ ',' ∉ kind.toList ∧ (∃ role ∈ c.producers, role.toList <+: producer.toList) ∧
          fact = .compare left op right ∧ Payload.fact? c.auxMarker payload = .ok (some fact) ∧
            e = .malformedFact payload cause ∧ Payload.binding? c.auxMarker payload = .error e := by
  obtain ⟨kind, payload, htext, hproducer, hkind, hkeeps, hread⟩ := fact?_eq_some.1 hfact
  have hline : Line.ofChars? (Text.trim line.toList) = some ⟨producer, kind, payload⟩ :=
    Line.ofChars?_eq_some.2 ⟨htext, hproducer, hkind⟩
  have hbinding : Payload.binding? c.auxMarker payload = .error e := by
    simp only [fault?, hline, Option.bind_eq_bind, Option.bind_some, hread] at h
    cases hbinding : Payload.binding? c.auxMarker payload with
    | error e' =>
      rw [hbinding] at h
      rw [Option.some.inj h]
    | ok binding =>
      rw [hbinding] at h
      cases h
  obtain ⟨cause, he, -⟩ := Payload.binding?_eq_error.1 hbinding
  cases fact with
  | direction d =>
    obtain rfl := Payload.eq_text_of_fact? hread
    rw [Payload.binding?_text_direction] at hbinding
    cases hbinding
  | compare left op right =>
    exact ⟨kind, payload, left, op, right, cause, htext, hproducer, hkind, hkeeps, rfl, hread, he, hbinding⟩

/-- A refused line leaves a trace as it was. There is one exception: a payload that is a comparison of a producer
whose facts are kept and at the same time binds a hole to an index that cannot be read. Then the comparison, and
nothing else, has been added to the facts of the producer. -/
theorem feed_rejected (h : (t.feed c line).2 = some e) :
    (t.feed c line).1.bindings = t.bindings ∧ (fact? c line = none → (t.feed c line).1 = t) ∧
    ∀ producer fact, fact? c line = some (producer, fact) →
      (t.feed c line).1 = { t with facts := t.facts.push producer fact } ∧
      ∃ (kind payload left : String) (op : Operator) (right : String) (cause : FactFault),
        Text.trim line.toList = producer.toList ++ ',' :: (kind.toList ++ ',' :: payload.toList) ∧
          ',' ∉ producer.toList ∧ ',' ∉ kind.toList ∧ (∃ role ∈ c.producers, role.toList <+: producer.toList) ∧
            fact = .compare left op right ∧ Payload.fact? c.auxMarker payload = .ok (some fact) ∧
              e = .malformedFact payload cause ∧ Payload.binding? c.auxMarker payload = .error e := by
  have hfault : fault? c line = some e := (feed_eq c t line).1.symm.trans h
  rw [feed_of_fault? hfault]
  refine ⟨rfl, fun hnone => ?_, fun producer fact hfact => ⟨?_, exists_of_fault?_of_fact? hfault hfact⟩⟩
  · rw [hnone]
    rfl
  · rw [hfact]
    rfl

/-- A payload that compares two members and binds the subject to an index that is too large. -/
def overlap : String := "subject_AuxObserverA._x == b.y = 18446744073709551616"

/-- The line is refused, and its comparison stays behind. -/
theorem feed_leaves_comparison :
    (empty.feed .default ("handle,," ++ overlap)).2 = some (.malformedFact overlap .indexTooLarge) ∧
      (empty.feed .default ("handle,," ++ overlap)).1 ≠ empty := by
  decide +kernel

/-- The comparison stays behind a producer whose facts are kept, and nothing behind another one. -/
theorem feed_rejected_overlap :
    (empty.feed .default ("handle,," ++ overlap)).1 = { empty with
      facts := Facts.push .empty "handle" (.compare "subject_AuxObserverA._x" .eq "b.y = 18446744073709551616") } ∧
    (empty.feed .default ("main,," ++ overlap)).1 = empty := by
  have hkept : (empty.feed .default ("handle,," ++ overlap)).2 = some (.malformedFact overlap .indexTooLarge) ∧
      fact? .default ("handle,," ++ overlap) =
        some ("handle", .compare "subject_AuxObserverA._x" .eq "b.y = 18446744073709551616") := by decide +kernel
  have hother : (empty.feed .default ("main,," ++ overlap)).2 = some (.malformedFact overlap .indexTooLarge) ∧
      fact? .default ("main,," ++ overlap) = none := by decide +kernel
  obtain ⟨-, -, hleft⟩ := feed_rejected hkept.1
  obtain ⟨-, hsame, -⟩ := feed_rejected hother.1
  exact ⟨(hleft _ _ hkept.2).1, hsame hother.2⟩

end Trace

end ObserverPattern
