import ScopedText.Unicode.Folding
import ScopedText.Unicode.Property

/-!
# Sets of characters

What one character of a regular expression accepts: a literal, a dot, an escape for a class, or a
bracketed class with its ranges, nested classes and intersections.
-/

namespace ScopedText.Regex

inductive CharSet
  | none
  | any
  | single (c : Char)
  | range (first last : Char)
  | property (p : Unicode.Property)
  | union (s t : CharSet)
  | inter (s t : CharSet)
  | compl (s : CharSet)
  /-- The characters that are equal, up to case, to one of `s`. -/
  | folded (s : CharSet)
deriving DecidableEq, Repr

namespace CharSet

def contains : CharSet → Char → Bool
  | none, _ => false
  | any, _ => true
  | single d, c => d == c
  | range first last, c => first ≤ c && c ≤ last
  | property p, c => p.holds c
  | union s t, c => s.contains c || t.contains c
  | inter s t, c => s.contains c && t.contains c
  | compl s, c => !s.contains c
  | folded s, c => s.contains c || (Unicode.caseVariants c).any s.contains

/-- `s`, closed under case if `ignoreCase` is set. -/
def upToCase (ignoreCase : Bool) (s : CharSet) : CharSet := if ignoreCase then folded s else s

/-- `s` or its complement. -/
def negatedIf (negated : Bool) (s : CharSet) : CharSet := if negated then compl s else s

@[simp] theorem contains_single (c d : Char) : (single d).contains c = (d == c) := rfl

end CharSet

end ScopedText.Regex
