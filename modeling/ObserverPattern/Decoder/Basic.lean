import ObserverPattern.Participants
import ObserverPattern.Program.Hierarchy
import ObserverPattern.Trace.Basic

/-!
# Decoders

A decoder knows the conventions of the skeleton builder and what a trace told, and keeps what it
learns while it decodes: the participants of each auxiliary dispatcher, the facts under the names of
the concrete methods, and the class hierarchy.

* `longestFirst` orders names by their length in bytes, and names of one length as they were.
-/

namespace ObserverPattern

/-- The state of a decoder. -/
structure Decoder where
  conventions : Conventions
  events : EventTable
  facts : Facts
  bindings : Bindings
  resolved : Table Participants
  hierarchy : Hierarchy
  /-- The names of the decoded dispatchers, longest first. -/
  auxNames : List String
  deriving DecidableEq

def insertByLength (name : String) : List String → List String
  | [] => [name]
  | other :: rest =>
    if other.utf8ByteSize ≤ name.utf8ByteSize then name :: other :: rest
    else other :: insertByLength name rest

/-- The names in the order of their length in bytes, the longest first. -/
def longestFirst (names : List String) : List String := names.foldr insertByLength []

namespace Decoder

def ofTrace (c : Conventions) (events : EventTable) (t : Trace) : Decoder where
  conventions := c
  events := events
  facts := t.facts
  bindings := t.bindings
  resolved := .empty
  hierarchy := .empty
  auxNames := []

def ofText (c : Conventions) (events : EventTable) (trace : String) : Except DecodeFault Decoder :=
  (Trace.ofText c trace).map (ofTrace c events)

def ofBytes (c : Conventions) (events : EventTable) (trace : ByteArray) : Except DecodeFault Decoder :=
  (Trace.ofBytes c trace).map (ofTrace c events)

def subjects (d : Decoder) : List (String × ClassId) :=
  d.resolved.entries.map fun (aux, p) => (aux, p.subject)

end Decoder

end ObserverPattern
