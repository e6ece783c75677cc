/-!
# Trace lines

A line of a trace has a producer, a kind and a payload, with commas between them. The payload may
hold commas itself. A line with fewer than two commas is none.
-/

namespace ObserverPattern

structure Trace.Line where
  producer : String
  kind : String
  payload : String
  deriving DecidableEq

namespace Trace.Line

def cut? (s : List Char) : Option (List Char × List Char) :=
  match s.dropWhile (· != ',') with
  | [] => none
  | _ :: rest => some (s.takeWhile (· != ','), rest)

def ofChars? (s : List Char) : Option Trace.Line := do
  let (producer, s) ← cut? s
  let (kind, payload) ← cut? s
  some ⟨String.ofList producer, String.ofList kind, String.ofList payload⟩

def ofText? (s : String) : Option Trace.Line := ofChars? s.toList

end Trace.Line

end ObserverPattern
