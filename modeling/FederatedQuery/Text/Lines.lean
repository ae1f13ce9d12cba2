/-!
Lines of a text, indentation and shortening.

A line feed ends a line, together with one carriage return directly before it.
What follows the last line feed is a line of its own unless it is empty.
-/

namespace FederatedQuery.Text

def closeLine : List Char → List Char
  | '\r' :: rest => rest.reverse
  | line => line.reverse

/-- Lines of a text whose first line has begun with `current`, given reversed. -/
def linesFrom : List Char → List Char → List (List Char)
  | [], [] => []
  | current, [] => [current.reverse]
  | current, char :: rest =>
      if char = '\n' then closeLine current :: linesFrom [] rest
      else linesFrom (char :: current) rest

def lines (text : String) : List String := (linesFrom [] text.toList).map String.ofList

def indent (text lead : String) : String :=
  "\n".intercalate ((lines text).map (lead ++ ·))

def truncate (text : String) (limit : Nat) : String :=
  if text.length ≤ limit then text
  else String.ofList (text.toList.take (limit - 3)) ++ "..."

end FederatedQuery.Text
