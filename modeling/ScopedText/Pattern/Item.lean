/-!
# Items of a pattern

Read from left to right, a pattern is a sequence of items: an escape, which is a backslash with the
character after it, any other character, or a backslash that ends the pattern. Escaping a text
writes it as items that stand for its characters one for one.
-/

namespace ScopedText.Pattern

inductive Item
  | escape (c : Char)
  | plain (c : Char)
  /-- A backslash with nothing after it. -/
  | loneBackslash
deriving DecidableEq, Repr

namespace Item

def chars : Item → List Char
  | escape c => ['\\', c]
  | plain c => [c]
  | loneBackslash => ['\\']

def ofPattern : List Char → List Item
  | [] => []
  | '\\' :: [] => [loneBackslash]
  | '\\' :: c :: cs => escape c :: ofPattern cs
  | c :: cs => plain c :: ofPattern cs

def toPattern (items : List Item) : List Char := items.flatMap chars

theorem toPattern_ofPattern (cs : List Char) : toPattern (ofPattern cs) = cs := by
  fun_induction ofPattern cs with
  | case1 => rfl
  | case2 => rfl
  | case3 c cs ih => simpa [toPattern, chars] using ih
  | case4 c cs _ _ ih => simpa [toPattern, chars] using ih

end Item

/-- The characters that have a meaning in a pattern. -/
def specialChars : List Char :=
  ['\\', '|', '-', '*', '+', '?', '.', ',', '^', '$', '(', ')', '[', ']', '{', '}', '#', ' ', '/']

/-- The item that stands for a character literally. -/
def Item.ofLiteral (c : Char) : Item :=
  if specialChars.contains c then .escape c else .plain c

/-- Writes a text so that a pattern matches it literally. -/
def escapeChars (cs : List Char) : List Char := cs.flatMap fun c => (Item.ofLiteral c).chars

theorem escapeChars_cons (c : Char) (cs : List Char) :
    escapeChars (c :: cs) = (Item.ofLiteral c).chars ++ escapeChars cs := List.flatMap_cons

def escape (s : String) : String := String.ofList (escapeChars s.toList)

end ScopedText.Pattern
