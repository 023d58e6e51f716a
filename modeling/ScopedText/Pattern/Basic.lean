import ScopedText.Engine
import ScopedText.Pattern.Backreference

/-!
# Patterns

A `Pattern` is a prepared pattern together with its compiled form, if it has one. Groups are
counted with the backreferences left out, because in an end pattern they get their texts only when
the region opens.
-/

namespace ScopedText

variable [Engine]

/-- A pattern and what it compiles to. -/
structure Pattern where
  text : String
  regex : Except Regex.Error Engine.Compiled := Engine.compile .namedFirst text
  regex_eq : regex = Engine.compile .namedFirst text := by rfl

namespace Pattern

def ofString (text : String) : Pattern := { text }

/-- Whether the pattern is a template for the texts of groups. -/
def hasBackreferences (p : Pattern) : Bool := Backreference.has p.text

def compiles (p : Pattern) : Bool := p.regex.toBool

/-- The number of groups of a pattern without its backreferences. -/
def countGroups (pattern : String) : Except Regex.Error Nat := do
  let stripped := if Backreference.has pattern then Backreference.strip pattern else pattern
  let regex ← Engine.compile .namedFirst stripped
  return Engine.groups regex

/-- The leftmost match at or after a position; a pattern that does not compile has none. -/
def find (p : Pattern) {text : String} (origin : text.Pos) : Option (Regex.Found text origin) :=
  match p.regex with
  | .ok regex => Engine.find regex origin
  | .error _ => none

def isMatch (p : Pattern) (text : String) : Bool := (p.find text.startPos).isSome

end Pattern

end ScopedText
