import Mathlib
import ObserverPattern.Proofs.Decoder.Reach
import ObserverPattern.Proofs.Decoder.Skeleton
import ObserverPattern.Proofs.Program.Encoding
import ObserverPattern.Run

/-!
# What a run writes can be read

* `Files.read?_write?`: a file that has been written is read as it was written;
* `Program.words_of_read`, `Decoder.decode_words`: all indices are words in a program that has been read, and in the
  program that it is decoded to;
* `Run.run_reopen`: the JSON text that a run writes is read as the decoded program, unless that program is nested too
  deep, which it is not if the given program leaves room for what a decode adds.
-/

namespace ObserverPattern

/-! ## Files -/

namespace Files

variable {files files' : Files} {path : List String} {bytes : ByteArray}

/-- Where there are more directories, a path leads to where it led before. -/
private theorem follow_mono (hdirectory : ∀ d, files.isDirectory d = true → files'.isDirectory d = true)
    {here parts : List String} (h : files.follow here parts = some path) : files'.follow here parts = some path := by
  induction parts generalizing here with
  | nil => exact h
  | cons part rest ih =>
    rw [follow] at h ⊢
    by_cases hhere : files.isDirectory here = true
    · simp only [hhere, hdirectory here hhere, Bool.not_true, Bool.false_eq_true, if_false] at h ⊢
      split_ifs at h ⊢ <;> exact ih h
    · simp [hhere] at h

private theorem isDirectory_put {d : List String} (h : files.isDirectory d = true) :
    (files.put path bytes).isDirectory d = true := by
  rw [isDirectory, Bool.or_eq_true] at h ⊢
  refine h.imp id fun h => ?_
  rw [List.any_eq_true] at h ⊢
  obtain ⟨⟨file, old⟩, hfile, hd⟩ := h
  by_cases hpath : file = path
  · exact ⟨(path, bytes), by simp [put], hpath ▸ hd⟩
  · exact ⟨(file, old), by simp [put, hfile, hpath], hd⟩

/-- A file that has been written is read as it was written. -/
theorem read?_write? {path : String} (h : files.write? path bytes = some files') :
    files'.read? path = some bytes := by
  obtain ⟨place, hplace, h⟩ := Option.bind_eq_some_iff.1 h
  split at h
  · cases h
  obtain rfl := Option.some.inj h
  have hlocate : (files.put place bytes).locate? path = some place := by
    unfold locate? at hplace ⊢
    split at hplace
    · next hpath => rw [if_pos hpath, follow_mono (fun _ => isDirectory_put) hplace]
    · cases hplace
  have hold : (files.entries.filter (·.1 != place)).find? (·.1 == place) = none := by
    rw [List.find?_eq_none]
    intro entry hentry
    simpa using (List.mem_filter.1 hentry).2
  have hfind : (files.put place bytes).entries.find? (·.1 == place) = some (place, bytes) := by
    simp [put, List.find?_append, hold]
  simp [read?, hlocate, hfind]

end Files

/-! ## Words -/

private theorem Registry.words_skeleton (r : Registry) : r.skeleton.Words ↔ r.Words := by
  constructor
  · intro h
    constructor
    · intro c hc
      have hwords := h.classes c.skeleton (List.mem_map_of_mem hc)
      exact ⟨hwords.methods, hwords.dispatcher⟩
    · intro m hm
      exact h.owners m.header (List.mem_map_of_mem hm)
  · intro h
    constructor
    · intro c hc
      obtain ⟨c₀, hc₀, rfl⟩ := List.mem_map.1 hc
      exact ⟨(h.classes c₀ hc₀).methods, (h.classes c₀ hc₀).dispatcher⟩
    · intro m hm
      obtain ⟨m₀, hm₀, rfl⟩ := List.mem_map.1 hm
      exact h.owners m₀ hm₀

/-- Decoding brings in no new indices. -/
theorem Decoder.decode_words {d d' : Decoder} {p p' : Program} {s : Summary} (h : d.decode p = .ok (d', p', s))
    (hp : p.Words) : p'.Words := by
  have hskeleton := (decode_later h).skeleton
  have hstruck := (decode_struck h).2
  constructor
  · intro id hid
    exact hp.template id (hstruck.sublist.subset hid)
  · rw [← Registry.words_skeleton, hskeleton, Registry.words_skeleton]
    exact hp.registry

/-! ## Runs -/

namespace Run

variable {files files' : Files} {request : Request} {report : Report} {stdout : Option String}

theorem readText_eq_ok {read : String → Option ByteArray} {step : RunStep} {path text : String} :
    readText read step path = .ok text ↔ (read path).bind String.fromUTF8? = some text := by
  unfold readText
  cases (read path).bind String.fromUTF8? <;> simp

theorem parseProgram_eq_ok {path text : String} {p : Program} :
    parseProgram path text = .ok p ↔ Json.ofText? Program.read text = some p := by
  unfold parseProgram
  cases Json.ofText? Program.read text <;> simp

theorem inStep_eq_ok {α : Type} {step : RunStep} {x : Except DecodeFault α} {a : α} :
    inStep step x = .ok a ↔ x = .ok a := by
  cases x <;> simp [inStep]

/-- In a program that has been opened all indices are words. -/
theorem openProgram_words {read : String → Option ByteArray} {path : String} {p : Program}
    (h : openProgram read path = .ok p) : p.Words := by
  obtain ⟨text, -, h⟩ := bind_eq_ok.1 h
  obtain ⟨v, -, hread⟩ := Option.bind_eq_some_iff.1 (parseProgram_eq_ok.1 h)
  exact Program.words_of_read hread

/-- A file that holds the bytes of a text is opened as the program that the text describes. -/
theorem openProgram_toUTF8 {read : String → Option ByteArray} {path text : String}
    (h : read path = some text.toUTF8) : openProgram read path = parseProgram path text := by
  have htext : (read path).bind String.fromUTF8? = some text := by
    rw [h, Option.bind_some, String.fromUTF8?, String.toUTF8, dif_pos text.isValidUTF8]
    rfl
  rw [openProgram, readText_eq_ok.2 htext]
  rfl

/-- The text written for a program is read as the program, unless it is nested too deep. -/
theorem parseProgram_pretty {p : Program} (h : p.Words) (path : String) :
    parseProgram path p.toJson.pretty =
      if p.toJson.nesting < 128 then .ok p else .error ⟨.parseProgram path, .json⟩ := by
  have hread := Program.ofText?_pretty_toJson h
  by_cases hnesting : p.toJson.nesting < 128
  · have hle : p.toJson.nesting ≤ Json.maxNesting := Nat.le_of_lt_succ hnesting
    rw [if_pos hle] at hread
    simp only [parseProgram, hread, if_pos hnesting]
  · have hle : ¬p.toJson.nesting ≤ Json.maxNesting := fun h => hnesting (Nat.lt_succ_of_le h)
    rw [if_neg hle] at hread
    simp only [parseProgram, hread, if_neg hnesting]

/-- A run that succeeds has opened its files and decoded the program, and has written what it rendered to its output
file, if it has one. -/
theorem run_eq_ok (h : run files request = .ok (report, stdout, files')) : ∃ p c events d d' q s text,
    openProgram files.read? request.program = .ok p ∧ openConventions files.read? request.config = .ok c ∧
      openEvents files.read? request.events = .ok events ∧
        openDecoder files.read? c events request.trace = .ok d ∧ d.decode p = .ok (d', q, s) ∧
          renderProgram q request.emitSource = .ok text ∧ match request.output with
            | none => stdout = some text ∧ files' = files
            | some path => stdout = none ∧ files'.read? path = some text.toUTF8 := by
  obtain ⟨⟨report, text⟩, hrender, h⟩ := bind_eq_ok.1 h
  simp only [render, bind_eq_ok, inStep_eq_ok, pure_eq_ok, Prod.mk.injEq] at hrender
  obtain ⟨p, hp, c, hc, events, hevents, d, hd, ⟨d', q, s⟩, hdecode, _, -, _, htext, -, rfl⟩ := hrender
  refine ⟨p, c, events, d, d', q, s, _, hp, hc, hevents, hd, hdecode, htext, ?_⟩
  cases houtput : request.output with
  | none =>
    simp only [houtput, pure_eq_ok, Prod.mk.injEq] at h
    exact ⟨h.2.1.symm, h.2.2.symm⟩
  | some path =>
    simp only [houtput] at h
    split at h
    · next hwrite =>
      simp only [pure_eq_ok, Prod.mk.injEq] at h
      exact ⟨h.2.1.symm, h.2.2 ▸ Files.read?_write? hwrite⟩
    · exact absurd h throw_ne_ok

/-- A run that writes JSON decodes its program and writes a text, to its output file if it has one. This text is read
as the decoded program if its encoding is nested less than 128 deep, and is refused otherwise. A program that is
nested no more than 91 deep is decoded to one that can be read again. -/
theorem run_reopen (h : run files request = .ok (report, stdout, files')) (hjson : request.emitSource = false) :
    ∃ p c events d d' q s, openProgram files.read? request.program = .ok p ∧
      openConventions files.read? request.config = .ok c ∧ openEvents files.read? request.events = .ok events ∧
        openDecoder files.read? c events request.trace = .ok d ∧ d.decode p = .ok (d', q, s) ∧
          (p.toJson.nesting ≤ 91 → q.toJson.nesting < 128) ∧ match request.output with
          | none => ∃ text, stdout = some text ∧ ∀ path, parseProgram path text =
              if q.toJson.nesting < 128 then .ok q else .error ⟨.parseProgram path, .json⟩
          | some path => openProgram files'.read? path =
              if q.toJson.nesting < 128 then .ok q else .error ⟨.parseProgram path, .json⟩ := by
  obtain ⟨p, c, events, d, d', q, s, text, hp, hc, hevents, hd, hdecode, htext, hwritten⟩ := run_eq_ok h
  have hwords := Decoder.decode_words hdecode (openProgram_words hp)
  have hpretty : text = q.toJson.pretty := by
    rw [hjson] at htext
    exact (Except.ok.inj htext).symm
  have hnesting := Decoder.decode_nesting_le hdecode
  refine ⟨p, c, events, d, d', q, s, hp, hc, hevents, hd, hdecode, by omega, ?_⟩
  cases houtput : request.output with
  | none =>
    rw [houtput] at hwritten
    exact ⟨text, hwritten.1, fun path => hpretty ▸ parseProgram_pretty hwords path⟩
  | some path =>
    rw [houtput] at hwritten
    show openProgram files'.read? path = _
    rw [openProgram_toUTF8 hwritten.2, hpretty, parseProgram_pretty hwords]

/-! ## A run that writes too deep a text -/

/-- A body inside a number of loops. -/
def nested : Nat → Block → Block
  | 0, body => body
  | n + 1, body => [.whileLoop (.id "open") (nested n body)]

/-- A loop over the collection of a station, as deep inside other loops as a program may hold it. -/
def deepStation : Program where
  template := ⟨[⟨0⟩], []⟩
  registry.classes := [{ ClassDecl.empty "Station" with methods := [⟨0⟩], collection := some "_obs" }]
  registry.methods :=
    [⟨"raise", ⟨0⟩, [], "void", false,
      nested 37 [.forEach "Siren" "o" (.id "_obs") [.expr (.methodCall (.id "o") "sound" [])]]⟩]

/-- The program and an empty trace. -/
def deepFiles : Files := ⟨[(["p"], deepStation.toJson.pretty.toUTF8), (["t"], ByteArray.empty)]⟩

def deepRequest : Request := ⟨"p", "t", none, none, none, false⟩

private theorem read?_pair (a b : ByteArray) : (⟨[(["p"], a), (["t"], b)]⟩ : Files).read? "p" = some a ∧
    (⟨[(["p"], a), (["t"], b)]⟩ : Files).read? "t" = some b := by
  have hp : "p".splitOn "/" = ["p"] ∧ Files.isPath "p" = true ∧ ¬Files.maxNameSize < "p".utf8ByteSize :=
    ⟨by cbv, by decide +kernel, by decide +kernel⟩
  have ht : "t".splitOn "/" = ["t"] ∧ Files.isPath "t" = true ∧ ¬Files.maxNameSize < "t".utf8ByteSize :=
    ⟨by cbv, by decide +kernel, by decide +kernel⟩
  constructor
  · simp [Files.read?, Files.locate?, hp, Files.follow, Files.isDirectory, Files.isAbove]
  · simp [Files.read?, Files.locate?, ht, Files.follow, Files.isDirectory, Files.isAbove]

private theorem openProgram_deep : openProgram deepFiles.read? "p" = .ok deepStation := by
  have hwords : deepStation.Words := by
    refine ⟨by decide, ⟨fun c hc => ?_, by decide +kernel⟩⟩
    obtain rfl := List.mem_singleton.1 hc
    exact ⟨by decide, by decide⟩
  have hread : deepFiles.read? "p" = some deepStation.toJson.pretty.toUTF8 := (read?_pair _ _).1
  rw [openProgram_toUTF8 hread, parseProgram_pretty hwords, if_pos (by decide +kernel)]

private theorem openDecoder_deep :
    openDecoder deepFiles.read? .default .empty "t" = .ok (.ofTrace .default .empty .empty) := by
  have hread : deepFiles.read? "t" = some ByteArray.empty := (read?_pair _ _).2
  rw [openDecoder, hread]
  rfl

/-- A program that is read is decoded to one that cannot be read from what is written for it. -/
theorem run_reopen_deep : ∃ report text, run deepFiles deepRequest = .ok (report, some text, deepFiles) ∧
    ∀ path, parseProgram path text = .error ⟨.parseProgram path, .json⟩ := by
  have hdecode : okAnd ((Decoder.ofTrace .default .empty .empty).decode deepStation)
      (fun x => x.2.1.toJson.nesting = 128 ∧ x.1.subjects = []) = true := by
    decide +kernel
  obtain ⟨⟨d, q, s⟩, hdecode, hresult⟩ := okAnd_eq_true.1 hdecode
  obtain ⟨hnesting, hsubjects⟩ := of_decide_eq_true hresult
  have hreport : Run.report d q s = .ok ⟨s.auxs, [], s.tally.transformations, s.tally.removals⟩ := by
    simp only [Run.report, hsubjects]
    rfl
  have hrun : run deepFiles deepRequest =
      .ok (⟨s.auxs, [], s.tally.transformations, s.tally.removals⟩, some q.toJson.pretty, deepFiles) := by
    simp only [run, render, deepRequest, openProgram_deep, openConventions, openEvents, openDecoder_deep, hdecode,
      hreport, renderProgram, ok_bind, inStep]
    rfl
  obtain ⟨p, c, events, d₁, d', q', s', hp, hc, hevents, hd, hdecode', -, text, htext, hparse⟩ := run_reopen hrun rfl
  obtain rfl := Except.ok.inj (openProgram_deep.symm.trans hp)
  obtain rfl := Except.ok.inj hc
  obtain rfl := Except.ok.inj hevents
  obtain rfl := Except.ok.inj (openDecoder_deep.symm.trans hd)
  rw [hdecode, Except.ok.injEq, Prod.mk.injEq, Prod.mk.injEq] at hdecode'
  obtain ⟨-, rfl, -⟩ := hdecode'
  refine ⟨_, text, htext ▸ hrun, fun path => ?_⟩
  rw [hparse, hnesting]
  rfl

end Run

end ObserverPattern
