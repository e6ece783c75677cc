import ObserverPattern.Run

/-!
# Command line

`--program FILE --trace FILE` name the skeleton program and the solver trace, `--events FILE` and
`--config FILE` the configuration, `-o FILE` or `--output FILE` the output file, and `--emit-source`
asks for source text. The report goes to the standard error.
-/

namespace ObserverPattern.CommandLine

def usage : String :=
  "usage: --program FILE --trace FILE [--events FILE] [--config FILE] [--output FILE] [--emit-source]"

def options? : List String → Option (List (String × String))
  | [] => some []
  | "--emit-source" :: rest => (options? rest).map (("--emit-source", "") :: ·)
  | "-o" :: value :: rest => (options? rest).map (("--output", value) :: ·)
  | name :: value :: rest =>
    if ["--program", "--trace", "--events", "--config", "--output"].contains name then
      (options? rest).map ((name, value) :: ·)
    else none
  | _ => none

def request? (args : List String) : Option Request := do
  let options ← options? args
  some
    { program := ← options.lookup "--program"
      trace := ← options.lookup "--trace"
      events := options.lookup "--events"
      config := options.lookup "--config"
      output := options.lookup "--output"
      emitSource := (options.lookup "--emit-source").isSome }

def readFile? (path : String) : IO (Option ByteArray) := do
  try
    return some (← IO.FS.readBinFile path)
  catch _ => return none

/-- Reads the files of a request and decodes what they hold. -/
def render (request : Request) : IO (Except RunFailure (Report × String)) := do
  let paths := [request.program, request.trace] ++ request.config.toList ++ request.events.toList
  let contents ← paths.mapM fun path => do return (path, ← readFile? path)
  return Run.render (fun path => (contents.lookup path).join) request

def deliver (request : Request) (output : String) : IO (Except RunFailure Unit) := do
  match request.output with
  | none =>
    IO.println output
    return .ok ()
  | some path =>
    try
      IO.FS.writeFile path output
      return .ok ()
    catch _ => return .error ⟨.write path, .file⟩

def complain (failure : RunFailure) : IO UInt32 := do
  IO.eprintln ("Error: " ++ failure.step.text ++ ": " ++ failure.fault.message)
  return 1

end ObserverPattern.CommandLine

open ObserverPattern ObserverPattern.CommandLine in
def main (args : List String) : IO UInt32 := do
  let some request := request? args
    | do
      IO.eprintln usage
      return 2
  match ← render request with
  | .error failure => complain failure
  | .ok (report, output) =>
    match ← deliver request output with
    | .error failure => complain failure
    | .ok () =>
      IO.eprintln report.toJson.compact
      return 0
