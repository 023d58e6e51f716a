import ScopedText.Pattern.FreeSpacing
import ScopedText.Pattern.Variable

/-!
# Prepared patterns

The patterns of a grammar are prepared before they are read as regular expressions: variables are
expanded first, and a pattern that then starts with `(?x)` is written freely.
-/

namespace ScopedText.Pattern

/-- The start of a pattern that is written freely. -/
def freeSpacingMark : List Char := ['(', '?', 'x', ')']

/-- Expands the variables of a pattern and strips free spacing. -/
def prepare (table : NameMap String) (raw : String) : Except Variable.Unknown String := do
  let expanded ← Variable.expandChars table raw.toList
  if freeSpacingMark.isPrefixOf expanded then
    return String.ofList (FreeSpacing.stripFrom (.code 0) (expanded.drop freeSpacingMark.length))
  else return String.ofList expanded

end ScopedText.Pattern
