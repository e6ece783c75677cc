import ObserverPattern.Fault
import ObserverPattern.Json.Reading
import ObserverPattern.Table
import ObserverPattern.Text.Case

/-!
# Conventions

What a decoder has to know about the skeleton builder: the names it uses, and for each event how
many methods the roles of the pattern have. Both are written as JSON; every convention has a
default, and an event that is not mentioned has one method for each role.
-/

namespace ObserverPattern

open Json

/-- The names that the skeleton builder uses, and a bound for the traversal. -/
structure Conventions where
  auxMarker : String
  /-- The generic name of the observer collection. -/
  collectionPrefix : String
  collectionType : String
  /-- What marks a statement of a constructor as temporary. -/
  tmpMarker : String
  /-- What the names of the producers start with whose facts are kept. -/
  producers : List String
  maxDepth : Nat
  deriving DecidableEq

structure RoleCounts where
  handle : Nat
  attach : Nat
  detach : Nat
  deriving DecidableEq

abbrev EventTable := Table RoleCounts

def RoleCounts.default : RoleCounts := ⟨1, 1, 1⟩

def EventTable.counts (events : EventTable) (event : String) : RoleCounts :=
  (events.get? event).getD RoleCounts.default

namespace Conventions

def default : Conventions where
  auxMarker := "AuxObserver"
  collectionPrefix := "_obs"
  collectionType := "LinkedList"
  tmpMarker := "_tmp"
  producers := ["subject", "observer", "attach", "detach", "handle", "update"]
  maxDepth := 256

/-- What the names of generic variables contain: the marker in lower case. -/
def lowerMarker (c : Conventions) : String := Text.lower c.auxMarker

def collectionFor (c : Conventions) (observer : String) : String :=
  c.collectionPrefix ++ "_" ++ observer

def collectionTypeFor (c : Conventions) (observer : String) : String :=
  c.collectionType ++ "<" ++ observer ++ ">"

def toJson (c : Conventions) : Json :=
  .record [("aux_marker", .text c.auxMarker), ("collection_prefix", .text c.collectionPrefix),
    ("collection_type", .text c.collectionType), ("tmp_marker", .text c.tmpMarker),
    ("roles_of_interest", .array (c.producers.map .text)), ("max_depth", .nat c.maxDepth)]

/-- Reads conventions, with the usual ones for what is left out. -/
def read : Reader Conventions
  | 0, _ => none
  | depth + 1, v => do
    let [auxMarker, collectionPrefix, collectionType, tmpMarker, producers, maxDepth] ←
      slots? [("aux_marker", .defaulted), ("collection_prefix", .defaulted), ("collection_type", .defaulted),
        ("tmp_marker", .defaulted), ("roles_of_interest", .defaulted), ("max_depth", .defaulted)] v
      | none
    some
      { auxMarker := ← readOr readString default.auxMarker depth auxMarker
        collectionPrefix := ← readOr readString default.collectionPrefix depth collectionPrefix
        collectionType := ← readOr readString default.collectionType depth collectionType
        tmpMarker := ← readOr readString default.tmpMarker depth tmpMarker
        producers := ← readOr (readList readString) default.producers depth producers
        maxDepth := ← readOr readWord default.maxDepth depth maxDepth }

def ofText (s : String) : Except DecodeFault Conventions :=
  match ofText? read s with
  | some c => .ok c
  | none => .error .config

end Conventions

def RoleCounts.toJson (c : RoleCounts) : Json :=
  .record [("handle", .nat c.handle), ("attach", .nat c.attach), ("detach", .nat c.detach)]

def RoleCounts.read : Reader RoleCounts
  | 0, _ => none
  | depth + 1, v => do
    let [handle, attach, detach] ← fields? ["handle", "attach", "detach"] v | none
    some
      { handle := ← readNatBelow UInt32.size depth handle
        attach := ← readNatBelow UInt32.size depth attach
        detach := ← readNatBelow UInt32.size depth detach }

def EventTable.toJson (events : EventTable) : Json :=
  .record (events.entries.map fun (event, counts) => (event, counts.toJson))

/-- Reads an object with the counts of events; of two members of one name the later counts. -/
def EventTable.read : Reader EventTable
  | depth + 1, .object members => do
    let members ← namedMembers? members
    let entries ← members.mapM fun (event, v) => (RoleCounts.read depth v).map (event, ·)
    some (Table.ofList entries)
  | _, _ => none

def EventTable.ofText (s : String) : Except DecodeFault EventTable :=
  match ofText? EventTable.read s with
  | some events => .ok events
  | none => .error .config

end ObserverPattern
