import ScopedText.Unicode.Category

/-!
# Quoted texts

`quote` writes a text between double quotes on one line. Quotes, backslashes and the common
control characters are escaped by a backslash; every other character that does not show by itself
is written by its code point in braces.
-/

namespace ScopedText.Text

/-- Whether a character shows by itself: it is no control or format character, no blank other than
the space, is assigned, and does not merge with the character before it. -/
def isVisible (c : Char) : Bool :=
  c == ' ' || match Unicode.Category.of c with
    | .Cc | .Cf | .Cs | .Co | .Cn | .Zl | .Zp | .Zs | .Mn | .Me => false
    | _ => true

def quoteChar (c : Char) : List Char :=
  match c with
  | '"' => ['\\', '"']
  | '\\' => ['\\', '\\']
  | '\n' => ['\\', 'n']
  | '\r' => ['\\', 'r']
  | '\t' => ['\\', 't']
  | '\x00' => ['\\', '0']
  | _ =>
    if (' ' ≤ c && c ≤ '~') || isVisible c then [c]
    else '\\' :: 'u' :: '{' :: (Nat.toDigits 16 c.toNat ++ ['}'])

def quote (s : String) : String :=
  String.ofList ('"' :: (s.toList.flatMap quoteChar ++ ['"']))

end ScopedText.Text
