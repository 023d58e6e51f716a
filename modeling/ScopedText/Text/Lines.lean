/-!
# Lines

A line ends with its line feed; the last line of a text may have none. `lines` drops the line
endings, and with a line feed the carriage return before it.
-/

namespace ScopedText.Text

/-- The lines of a text, each with its line feed. -/
def splitLines : List Char → List (List Char)
  | [] => []
  | c :: cs =>
    if c = '\n' then [c] :: splitLines cs
    else match splitLines cs with
      | [] => [[c]]
      | line :: lines => (c :: line) :: lines

/-- A line without its line ending. -/
def dropLineEnd (line : List Char) : List Char :=
  match line.reverse with
  | '\n' :: '\r' :: rest => rest.reverse
  | '\n' :: rest => rest.reverse
  | _ => line

/-- The lines of a text, each with its line feed. -/
def linesInclusive (s : String) : List String := (splitLines s.toList).map String.ofList

/-- The lines of a text without their line endings. -/
def lines (s : String) : List String :=
  (splitLines s.toList).map fun line => String.ofList (dropLineEnd line)

end ScopedText.Text
