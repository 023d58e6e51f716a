/-!
# Printing JSON

JSON texts over several lines, each level of nesting two spaces further in. A `Layout` is a value
that is written once the level is known at which it stands.
-/

namespace ScopedText.Json

def hexDigit (n : Nat) : Char := if n < 10 then Char.ofNat (48 + n) else Char.ofNat (87 + n)

def escapeChar (c : Char) : List Char :=
  match c with
  | '"' => ['\\', '"']
  | '\\' => ['\\', '\\']
  | '\x08' => ['\\', 'b']
  | '\t' => ['\\', 't']
  | '\n' => ['\\', 'n']
  | '\x0c' => ['\\', 'f']
  | '\r' => ['\\', 'r']
  | _ =>
    if c < ' ' then ['\\', 'u', '0', '0', hexDigit (c.toNat / 16), hexDigit (c.toNat % 16)]
    else [c]

def quoted (s : String) : String :=
  String.ofList ('"' :: (s.toList.flatMap escapeChar ++ ['"']))

/-- A value, given the level of nesting at which it is written. -/
abbrev Layout := Nat → String

namespace Layout

def margin (level : Nat) : String := String.ofList (List.replicate (2 * level) ' ')

/-- Values between brackets, each on lines of its own. -/
def bracketed (opening closing : String) (items : List Layout) : Layout := fun level =>
  if items.isEmpty then opening ++ closing
  else
    let lines := items.map fun item => margin (level + 1) ++ item (level + 1)
    opening ++ "\n" ++ ",\n".intercalate lines ++ "\n" ++ margin level ++ closing

def number (n : Nat) : Layout := fun _ => toString n

def string (s : String) : Layout := fun _ => quoted s

def array (items : List Layout) : Layout := bracketed "[" "]" items

def object (members : List (String × Layout)) : Layout :=
  bracketed "\x7b" "\x7d"
    (members.map fun (name, value) level => quoted name ++ ": " ++ value level)

end Layout

end ScopedText.Json
