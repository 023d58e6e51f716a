import ScopedText.Text.Blank

/-!
# Free spacing

A pattern that starts with `(?x)` is written freely: blanks and comments outside of character
classes do not count. `strip` removes them; escapes and classes are kept as they are.
-/

namespace ScopedText.Pattern.FreeSpacing

/-- Where in a pattern a character stands. -/
inductive Mode
  /-- Inside of so many nested classes. -/
  | code (depth : Nat)
  | comment
deriving DecidableEq, Repr

/-- Removes the blanks and comments from a pattern read in a given mode. A closing bracket right
after the start of a class is a member of the class. -/
def stripFrom : Mode → List Char → List Char
  | _, [] => []
  | .comment, c :: cs => if c = '\n' then stripFrom (.code 0) cs else stripFrom .comment cs
  | .code depth, '\\' :: c :: cs => '\\' :: c :: stripFrom (.code depth) cs
  | .code depth, '[' :: '^' :: ']' :: cs => '[' :: '^' :: ']' :: stripFrom (.code (depth + 1)) cs
  | .code depth, '[' :: '^' :: cs => '[' :: '^' :: stripFrom (.code (depth + 1)) cs
  | .code depth, '[' :: ']' :: cs => '[' :: ']' :: stripFrom (.code (depth + 1)) cs
  | .code depth, '[' :: cs => '[' :: stripFrom (.code (depth + 1)) cs
  | .code (depth + 1), ']' :: cs => ']' :: stripFrom (.code depth) cs
  | .code (depth + 1), c :: cs => c :: stripFrom (.code (depth + 1)) cs
  | .code 0, c :: cs =>
    if c = '#' then stripFrom .comment cs
    else if Text.isBlank c then stripFrom (.code 0) cs
    else c :: stripFrom (.code 0) cs

/-- The pattern without the blanks and comments that do not count. -/
def strip (pattern : String) : String := String.ofList (stripFrom (.code 0) pattern.toList)

end ScopedText.Pattern.FreeSpacing
