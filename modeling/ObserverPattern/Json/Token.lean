import ObserverPattern.Json.Basic

/-!
# JSON tokens

The lexical level of JSON: punctuation, the three names,
numbers and strings, with blanks between them.

* `Token.scan` reads one token at the start of a text, `tokens?` a whole text;
* a string is first read into characters and escaped 16-bit units, and
  `joinUnits` pairs the surrogates among the units.
-/

namespace ObserverPattern.Json

inductive Token where
  | openBrace
  | closeBrace
  | openBracket
  | closeBracket
  | comma
  | colon
  | null
  | bool (b : Bool)
  | number (n : Number)
  | string (s : Option String)
  deriving DecidableEq

def isSpace (c : Char) : Bool := c == ' ' || c == '\n' || c == '\t' || c == '\r'

/-! ## Numbers -/

def digits? (s : List Char) : Option (List Char × List Char) :=
  let ds := s.takeWhile Char.isDigit
  if ds.isEmpty then none else some (ds, s.dropWhile Char.isDigit)

def fraction? : List Char → Option (List Char × List Char)
  | '.' :: s => (digits? s).map fun (ds, rest) => ('.' :: ds, rest)
  | s => some ([], s)

def exponent? : List Char → Option (List Char × List Char)
  | e :: s =>
    if e = 'e' ∨ e = 'E' then
      match s with
      | '+' :: s => (digits? s).map fun (ds, rest) => (e :: '+' :: ds, rest)
      | '-' :: s => (digits? s).map fun (ds, rest) => (e :: '-' :: ds, rest)
      | s => (digits? s).map fun (ds, rest) => (e :: ds, rest)
    else some ([], e :: s)
  | [] => some ([], [])

/-- The integer part of a number: digits that start with zero only if they are a single zero. -/
def wholePart? (s : List Char) : Option (List Char × List Char) := do
  let (ds, rest) ← digits? s
  if ds.head? = some '0' ∧ ds.length ≠ 1 then none else some (ds, rest)

def scanNumber (s : List Char) : Option (Number × List Char) := do
  let (negative, s) := match s with
    | '-' :: s => (true, s)
    | s => (false, s)
  let (whole, s) ← wholePart? s
  let (fraction, s) ← fraction? s
  let (exponent, s) ← exponent? s
  let magnitude := Nat.ofDigitChars 10 whole 0
  if fraction.isEmpty && exponent.isEmpty && !(negative && magnitude == 0) then
    some (.int (if negative then -(magnitude : Int) else magnitude), s)
  else
    let sign := if negative then ['-'] else []
    some (.real (String.ofList (sign ++ whole ++ fraction ++ exponent)), s)

/-! ## Strings -/

/-- A part of a string: a character, or a 16-bit unit written as an escape. -/
inductive Piece where
  | char (c : Char)
  | unit (u : Nat)

def hexDigit? (c : Char) : Option Nat :=
  if c.isDigit then some (c.toNat - '0'.toNat)
  else if 'a' ≤ c ∧ c ≤ 'f' then some (c.toNat - 'a'.toNat + 10)
  else if 'A' ≤ c ∧ c ≤ 'F' then some (c.toNat - 'A'.toNat + 10)
  else none

def hexUnit? (a b c d : Char) : Option Nat := do
  let a ← hexDigit? a
  let b ← hexDigit? b
  let c ← hexDigit? c
  let d ← hexDigit? d
  some (((a * 16 + b) * 16 + c) * 16 + d)

def escaped? : Char → Option Char
  | '"' => some '"'
  | '\\' => some '\\'
  | '/' => some '/'
  | 'b' => some '\x08'
  | 'f' => some '\x0c'
  | 'n' => some '\n'
  | 'r' => some '\r'
  | 't' => some '\t'
  | _ => none

/-- The parts of a string up to its closing quote, and what follows the quote.
A control character has to be escaped. -/
def scanString : List Char → Option (List Piece × List Char)
  | [] => none
  | '"' :: s => some ([], s)
  | '\\' :: 'u' :: a :: b :: c :: d :: s => do
    let u ← hexUnit? a b c d
    let (pieces, rest) ← scanString s
    some (.unit u :: pieces, rest)
  | '\\' :: e :: s => do
    let c ← escaped? e
    let (pieces, rest) ← scanString s
    some (.char c :: pieces, rest)
  | c :: s => do
    if c.toNat < 0x20 ∨ c = '\\' then none
    let (pieces, rest) ← scanString s
    some (.char c :: pieces, rest)

def isHighSurrogate (u : Nat) : Bool := 0xD800 ≤ u && u < 0xDC00

def isLowSurrogate (u : Nat) : Bool := 0xDC00 ≤ u && u < 0xE000

/-- The text of the parts of a string: two units that are a surrogate pair spell one character, and
a surrogate without its partner spells none. -/
def joinUnits : List Piece → Option (List Char)
  | [] => some []
  | .char c :: rest => (joinUnits rest).map (c :: ·)
  | .unit high :: .unit low :: rest =>
    if isHighSurrogate high && isLowSurrogate low then
      (joinUnits rest).map (Char.ofNat (0x10000 + (high - 0xD800) * 0x400 + (low - 0xDC00)) :: ·)
    else if isHighSurrogate high || isLowSurrogate high then none
    else (joinUnits (.unit low :: rest)).map (Char.ofNat high :: ·)
  | .unit u :: rest =>
    if isHighSurrogate u || isLowSurrogate u then none else (joinUnits rest).map (Char.ofNat u :: ·)

/-! ## Tokens -/

def Token.scan : List Char → Option (Token × List Char)
  | [] => none
  | '\x7b' :: s => some (.openBrace, s)
  | '\x7d' :: s => some (.closeBrace, s)
  | '[' :: s => some (.openBracket, s)
  | ']' :: s => some (.closeBracket, s)
  | ',' :: s => some (.comma, s)
  | ':' :: s => some (.colon, s)
  | 'n' :: 'u' :: 'l' :: 'l' :: s => some (.null, s)
  | 't' :: 'r' :: 'u' :: 'e' :: s => some (.bool true, s)
  | 'f' :: 'a' :: 'l' :: 's' :: 'e' :: s => some (.bool false, s)
  | '"' :: s =>
    (scanString s).map fun (pieces, rest) => (.string ((joinUnits pieces).map String.ofList), rest)
  | s => (scanNumber s).map fun (n, rest) => (.number n, rest)

/-- Reads at most `fuel` tokens, which have to be all. -/
def scanTokens : Nat → List Char → Option (List Token)
  | 0, s => if s.all isSpace then some [] else none
  | fuel + 1, s =>
    match s.dropWhile isSpace with
    | [] => some []
    | s => do
      let (t, rest) ← Token.scan s
      let ts ← scanTokens fuel rest
      some (t :: ts)

/-- The tokens of a text, each of which takes at least one character. -/
def tokens? (s : List Char) : Option (List Token) := scanTokens s.length s

end ObserverPattern.Json
