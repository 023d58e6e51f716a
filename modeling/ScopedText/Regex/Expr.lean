import ScopedText.Regex.CharSet

/-!
# Regular expressions

The abstract form of a regular expression, with its groups numbered from 1. `renumber` changes the
numbers of the groups and drops those that get none; `maxLength` bounds the characters a match can
take, which says how far back a lookbehind has to start.
-/

namespace ScopedText.Regex

inductive Anchor
  /-- The start of the text, and after a line feed unless the text ends there. -/
  | lineStart
  /-- The end of the text, and before a line feed. -/
  | lineEnd
  | textStart
  | textEnd
  /-- The end of the text, and before a line feed that ends it. -/
  | lastLineEnd
  /-- The position at which the search started. -/
  | searchStart
  | wordEdge
  | noWordEdge
deriving DecidableEq, Repr

inductive Expr
  | empty
  | one (s : CharSet)
  | anchor (a : Anchor)
  /-- The text of the first of these groups that participated and whose text follows. -/
  | backref (groups : List Nat) (ignoreCase : Bool)
  | group (n : Nat) (e : Expr)
  | seq (e f : Expr)
  | alt (e f : Expr)
  | repeated (low : Nat) (high : Option Nat) (greedy : Bool) (e : Expr)
  | atomic (e : Expr)
  | ahead (negative : Bool) (e : Expr)
  | behind (negative : Bool) (e : Expr)
deriving DecidableEq, Repr

namespace Expr

def concat : List Expr → Expr
  | [] => empty
  | [e] => e
  | e :: es => seq e (concat es)

/-- The first one that leads to a match. -/
def choice : List Expr → Expr
  | [] => empty
  | [e] => e
  | e :: es => alt e (choice es)

def literal (cs : List Char) : Expr := concat (cs.map fun c => one (.single c))

/-- Gives every group the number that `f` assigns to it; a group without one no longer captures. -/
def renumber (f : Nat → Option Nat) : Expr → Expr
  | empty => empty
  | one s => one s
  | anchor a => anchor a
  | backref groups ic => backref (groups.filterMap f) ic
  | group n e => match f n with
    | some m => group m (e.renumber f)
    | none => e.renumber f
  | seq e g => seq (e.renumber f) (g.renumber f)
  | alt e g => alt (e.renumber f) (g.renumber f)
  | repeated low high greedy e => repeated low high greedy (e.renumber f)
  | atomic e => atomic (e.renumber f)
  | ahead negative e => ahead negative (e.renumber f)
  | behind negative e => behind negative (e.renumber f)

def groupCount : Expr → Nat
  | empty | one _ | anchor _ | backref _ _ => 0
  | group _ e => e.groupCount + 1
  | seq e f | alt e f => e.groupCount + f.groupCount
  | repeated _ _ _ e | atomic e | ahead _ e | behind _ e => e.groupCount

/-- A bound on the number of characters of a match, if there is one. -/
def maxLength : Expr → Option Nat
  | empty | anchor _ | ahead _ _ | behind _ _ => some 0
  | one _ => some 1
  | backref _ _ => none
  | group _ e | atomic e => e.maxLength
  | seq e f => do return (← e.maxLength) + (← f.maxLength)
  | alt e f => do return max (← e.maxLength) (← f.maxLength)
  | repeated _ high _ e => do
    let n ← e.maxLength
    if n = 0 then return 0 else return n * (← high)

end Expr

end ScopedText.Regex
