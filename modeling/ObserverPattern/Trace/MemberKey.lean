import ObserverPattern.Text.Blank
import ObserverPattern.Text.Case
import ObserverPattern.Text.Substring

/-!
# Member keys

Operands are compared by the member they end in: `memberKey` takes the last component of a dotted
path, without the arguments of a call, without the prefix of a getter and without leading
underscores, in lower case. So `(this._date)`, `b._date` and `a.getDate()` have the same key.
-/

namespace ObserverPattern

def afterLast (c : Char) (s : List Char) : List Char := (s.reverse.takeWhile (· != c)).reverse

/-- What follows a prefix if it is an ASCII capital. -/
def afterGetter? (getter : String) (s : List Char) : Option (List Char) :=
  (Text.afterPrefix? getter.toList s).filter fun rest => rest.head?.any Char.isUpper

def withoutGetter (s : List Char) : List Char :=
  ((afterGetter? "get" s).or (afterGetter? "is" s)).getD s

def lastMember (path : List Char) : List Char :=
  let inner := Text.trimEnds (fun c => c == '(' || c == ')') (Text.trim path)
  (afterLast '.' inner).takeWhile (· != '(')

/-- The key by which an operand is compared. -/
def memberKey (path : String) : String :=
  Text.lower (String.ofList ((withoutGetter (lastMember path.toList)).dropWhile (· == '_')))

end ObserverPattern
