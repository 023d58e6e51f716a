import ScopedText.Engine
import ScopedText.Regex.Reader

/-!
# Compiled regular expressions

`Regex.compile` turns a pattern into an expression with numbered groups. Which groups capture
depends on the `Capturing` mode: usually, once a group has a name, only the named groups do, and
then a group may not be referred to by its number.
-/

namespace ScopedText

structure Regex where
  expr : Regex.Expr
  /-- The number of groups, not counting the whole match. -/
  groups : Nat
deriving DecidableEq, Repr

namespace Regex

namespace Expr

/-- Whether the expression can stand in a lookbehind: it looks ahead nowhere, does not ask for the
end of the text, and captures nothing if the lookbehind is negative. -/
def allowedBehind (negative : Bool) : Expr → Bool
  | empty | one _ | backref _ _ => true
  | anchor a => a != .textEnd && a != .lastLineEnd
  | group _ e => !negative && e.allowedBehind negative
  | seq e f | alt e f => e.allowedBehind negative && f.allowedBehind negative
  | repeated _ _ _ e | atomic e | behind _ e => e.allowedBehind negative
  | ahead _ _ => false

/-- Finds, from left to right, a reference to a group that does not exist or a lookbehind that is
not allowed. -/
def check (groups : Nat) : Expr → Except Error Unit
  | empty | one _ | anchor _ => .ok ()
  | backref ns _ => if ns.any (groups < ·) then .error .backreference else .ok ()
  | group _ e | repeated _ _ _ e | atomic e | ahead _ e => e.check groups
  | seq e f | alt e f => do
    e.check groups
    f.check groups
  | behind negative e =>
    if e.allowedBehind negative then e.check groups else .error .lookBehind

end Expr

/-- The expression and the number of groups of a pattern that has been read, before the check. -/
def ofReading (capturing : Capturing) (r : Reading) : Except Error Regex := do
  let e ← r.finish
  if capturing = .all || r.names.isEmpty then return ⟨e, r.groups⟩
  else if r.numbered then throw .numberedBackreference
  else
    let numbers := r.names.map (·.2)
    return ⟨e.renumber fun n => (numbers.findIdx? (· == n)).map (· + 1), numbers.length⟩

def compile (capturing : Capturing) (pattern : String) : Except Error Regex := do
  let r ← Reading.ofPattern pattern.toList
  let regex ← ofReading capturing r
  regex.expr.check regex.groups
  return regex

end Regex

end ScopedText
