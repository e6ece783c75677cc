import ObserverPattern.Decoder.Decode
import ObserverPattern.Files
import ObserverPattern.Json.Printer
import ObserverPattern.Program.Encoding

/-!
# Runs

One run of the program: it loads a skeleton program, the configuration and a trace, decodes the
program and writes it, as JSON or as source text.

* `Run.render` does all but the writing, for files that are read through a function; the first input
  that cannot be had stops it.
* `Run.run` also writes the output file, if one is asked for.
-/

namespace ObserverPattern

structure Request where
  program : String
  trace : String
  events : Option String
  config : Option String
  output : Option String
  emitSource : Bool

/-- The steps of a run that can fail, with the file that is read or written. -/
inductive RunStep where
  | readProgram (path : String)
  | parseProgram (path : String)
  | loadConfig (path : String)
  | loadEvents (path : String)
  | readTrace (path : String)
  | decode
  | write (path : String)
  deriving DecidableEq

def RunStep.text : RunStep → String
  | .readProgram path => "reading program " ++ path
  | .parseProgram path => "parsing program " ++ path
  | .loadConfig path => "loading decoder config " ++ path
  | .loadEvents path => "loading event config " ++ path
  | .readTrace path => "reading trace " ++ path
  | .decode => "decoding failed"
  | .write path => "writing " ++ path

inductive RunFault where
  | file
  | json
  | decode (e : DecodeFault)
  deriving DecidableEq

def RunFault.message : RunFault → String
  | .file => "the file cannot be accessed"
  | .json => "the text does not describe a program"
  | .decode e => e.message

structure RunFailure where
  step : RunStep
  fault : RunFault
  deriving DecidableEq

structure Report where
  auxs : List String
  subjects : List (String × String)
  transformations : Nat
  removals : Nat
  deriving DecidableEq

def Report.toJson (report : Report) : Json :=
  .record [("auxs_decoded", .array (report.auxs.map .text)),
    ("subjects", .array (report.subjects.map fun (aux, subject) => .array [.text aux, .text subject])),
    ("transformations", .nat report.transformations), ("removals", .nat report.removals)]

namespace Run

/-- The outcome of a decoder's work, as that of a step. -/
def inStep {α : Type} (step : RunStep) : Except DecodeFault α → Except RunFailure α
  | .ok a => .ok a
  | .error e => .error ⟨step, .decode e⟩

def readText (read : String → Option ByteArray) (step : RunStep) (path : String) : Except RunFailure String :=
  match (read path).bind String.fromUTF8? with
  | some text => .ok text
  | none => .error ⟨step, .file⟩

def parseProgram (path text : String) : Except RunFailure Program :=
  match Json.ofText? Program.read text with
  | some program => .ok program
  | none => .error ⟨.parseProgram path, .json⟩

def openProgram (read : String → Option ByteArray) (path : String) : Except RunFailure Program := do
  let text ← readText read (.readProgram path) path
  parseProgram path text

def openConventions (read : String → Option ByteArray) : Option String → Except RunFailure Conventions
  | none => .ok .default
  | some path => do
    let text ← readText read (.loadConfig path) path
    inStep (.loadConfig path) (Conventions.ofText text)

def openEvents (read : String → Option ByteArray) : Option String → Except RunFailure EventTable
  | none => .ok .empty
  | some path => do
    let text ← readText read (.loadEvents path) path
    inStep (.loadEvents path) (EventTable.ofText text)

def openDecoder (read : String → Option ByteArray) (c : Conventions) (events : EventTable) (path : String) :
    Except RunFailure Decoder :=
  match read path with
  | none => .error ⟨.readTrace path, .file⟩
  | some bytes => inStep (.readTrace path) (Decoder.ofBytes c events bytes)

def report (d : Decoder) (program : Program) (summary : Summary) : Except DecodeFault Report := do
  let subjects ← d.subjects.mapM fun (aux, subject) => do
    return (aux, ← program.registry.className subject)
  return {
    auxs := summary.auxs
    subjects
    transformations := summary.tally.transformations
    removals := summary.tally.removals }

def renderProgram (program : Program) (emitSource : Bool) : Except DecodeFault String :=
  if emitSource then program.source else .ok program.toJson.pretty

def render (read : String → Option ByteArray) (request : Request) : Except RunFailure (Report × String) := do
  let program ← openProgram read request.program
  let config ← openConventions read request.config
  let events ← openEvents read request.events
  let decoder ← openDecoder read config events request.trace
  inStep .decode do
    let (decoder, program, summary) ← decoder.decode program
    let report ← report decoder program summary
    let output ← renderProgram program request.emitSource
    return (report, output)

def run (files : Files) (request : Request) : Except RunFailure (Report × Option String × Files) := do
  let (report, output) ← render files.read? request
  match request.output with
  | none => return (report, some output, files)
  | some path =>
    match files.write? path output.toUTF8 with
    | some files => return (report, none, files)
    | none => throw ⟨.write path, .file⟩

end Run

end ObserverPattern
