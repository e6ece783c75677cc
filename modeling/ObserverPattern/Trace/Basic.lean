import ObserverPattern.Conventions
import ObserverPattern.Text.Blank
import ObserverPattern.Text.Lines
import ObserverPattern.Trace.Line
import ObserverPattern.Trace.Payload

/-!
# Traces

A trace is the line-oriented output of a solver. What a decoder needs of it are the facts about
expressions and the role bindings; all other lines are skipped.

* `Trace.feed` takes one line in. A line may record a fact and still
  fail over its binding; the fact stays.
* `Trace.ofText` and `Trace.ofBytes` read a whole trace and stop at the first line that fails. Bytes
  are decoded line by line, so that a line which is not UTF-8 fails only when it is reached.
-/

namespace ObserverPattern

structure Trace where
  facts : Facts
  bindings : Bindings
  deriving DecidableEq

namespace Trace

def empty : Trace := ⟨.empty, .empty⟩

/-- Whether the facts of a producer are kept. -/
def keeps (c : Conventions) (producer : String) : Bool := c.producers.any (Text.startsWith producer)

def record (c : Conventions) (t : Trace) (producer : String) : Option Fact → Trace
  | none => t
  | some fact => if keeps c producer then { t with facts := t.facts.push producer fact } else t

/-- Takes a line in, and tells what is wrong with it, if anything is. -/
def feed (c : Conventions) (t : Trace) (line : String) : Trace × Option DecodeFault :=
  match Trace.Line.ofChars? (Text.trim line.toList) with
  | none => (t, none)
  | some line =>
    match Payload.fact? c.auxMarker line.payload with
    | .error e => (t, some e)
    | .ok fact =>
      let t := t.record c line.producer fact
      match Payload.binding? c.auxMarker line.payload with
      | .error e => (t, some e)
      | .ok none => (t, none)
      | .ok (some (hole, index)) => ({ t with bindings := t.bindings.insert hole index }, none)

/-- Takes lines in up to the first that fails; `none` is a line that is no text. -/
def feedAll (c : Conventions) (t : Trace) : List (Option String) → Except DecodeFault Trace
  | [] => .ok t
  | none :: _ => .error .encoding
  | some line :: rest =>
    match t.feed c line with
    | (t, none) => feedAll c t rest
    | (_, some e) => .error e

def linesOfText (s : String) : List String := (Text.lines '\n' '\r' s.toList).map String.ofList

def linesOfBytes (bytes : ByteArray) : List (Option String) :=
  (Text.lines 10 13 bytes.data.toList).map fun line => String.fromUTF8? ⟨line.toArray⟩

def ofText (c : Conventions) (s : String) : Except DecodeFault Trace :=
  feedAll c empty ((linesOfText s).map some)

def ofBytes (c : Conventions) (bytes : ByteArray) : Except DecodeFault Trace :=
  feedAll c empty (linesOfBytes bytes)

end Trace

end ObserverPattern
