import ObserverPattern.Json.Token

/-!
# Reading JSON

`Json.parse?` reads a text that holds one JSON value, with blanks around it and nothing else. There
is no limit to the nesting here: a limit belongs to what reads the value.
-/

namespace ObserverPattern.Json

mutual

def parseValue : Nat → List Token → Option (Json × List Token)
  | 0, _ => none
  | fuel + 1, ts =>
    match ts with
    | .null :: rest => some (.null, rest)
    | .bool b :: rest => some (.bool b, rest)
    | .number n :: rest => some (.number n, rest)
    | .string s :: rest => some (.string s, rest)
    | .openBracket :: .closeBracket :: rest => some (.array [], rest)
    | .openBracket :: rest => (parseItems fuel rest).map fun (items, rest) => (.array items, rest)
    | .openBrace :: .closeBrace :: rest => some (.object [], rest)
    | .openBrace :: rest => (parseMembers fuel rest).map fun (members, rest) => (.object members, rest)
    | _ => none

def parseItems : Nat → List Token → Option (List Json × List Token)
  | 0, _ => none
  | fuel + 1, ts =>
    match parseValue fuel ts with
    | some (v, .closeBracket :: rest) => some ([v], rest)
    | some (v, .comma :: rest) => (parseItems fuel rest).map fun (items, rest) => (v :: items, rest)
    | _ => none

def parseMembers : Nat → List Token → Option (List (Option String × Json) × List Token)
  | 0, _ => none
  | fuel + 1, ts =>
    match ts with
    | .string name :: .colon :: ts =>
      match parseValue fuel ts with
      | some (v, .closeBrace :: rest) => some ([(name, v)], rest)
      | some (v, .comma :: rest) =>
        (parseMembers fuel rest).map fun (members, rest) => ((name, v) :: members, rest)
      | _ => none
    | _ => none

end

def parse? (s : String) : Option Json := do
  let ts ← tokens? s.toList
  match parseValue (2 * ts.length) ts with
  | some (v, []) => some v
  | _ => none

end ObserverPattern.Json
