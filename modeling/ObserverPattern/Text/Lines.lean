/-!
# Lines

A line ends with a line feed, and a carriage return just before the line feed
belongs to the line end. A text that ends without a line feed has an unfinished
last line, which keeps its carriage return.

`lines` works on characters and on bytes alike: it only asks which element is the
line feed and which the carriage return.
-/

namespace ObserverPattern.Text

variable {α : Type} [DecidableEq α]

/-- Cuts a sequence after each `stop`. -/
def chunks (stop : α) : List α → List (List α)
  | [] => []
  | c :: cs =>
    if c = stop then [c] :: chunks stop cs
    else
      match chunks stop cs with
      | [] => [[c]]
      | line :: rest => (c :: line) :: rest

/-- Takes the line feed off a line, and with it a carriage return before it. -/
def withoutEnd (feed ret : α) (line : List α) : List α :=
  if line.getLast? = some feed then
    let body := line.dropLast
    if body.getLast? = some ret then body.dropLast else body
  else line

def lines (feed ret : α) (s : List α) : List (List α) := (chunks feed s).map (withoutEnd feed ret)

end ObserverPattern.Text
