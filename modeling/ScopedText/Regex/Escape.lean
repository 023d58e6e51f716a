import ScopedText.Regex.CharSet
import ScopedText.Regex.Error

/-!
# Escapes

What a backslash sequence means both inside and outside of a bracketed class: a character, a byte
of a longer encoded character, or a set of characters. `Escape.read` reads what follows the
backslash and returns the rest of the pattern.
-/

namespace ScopedText.Regex

inductive Escape
  | char (c : Char)
  /-- One byte, at least 128, of an encoded character. -/
  | byte (n : Nat)
  | set (s : CharSet)
deriving Repr

namespace Escape

/-- The value of a digit in the given base, which is at most 16. -/
def digit? (base : Nat) (c : Char) : Option Nat :=
  let n :=
    if c.isDigit then c.toNat - 48
    else if 'a' ≤ c && c ≤ 'f' then c.toNat - 87
    else if 'A' ≤ c && c ≤ 'F' then c.toNat - 55
    else base
  if n < base then some n else none

/-- Reads at most `limit` digits after the value read so far. -/
def digits (base : Nat) : (limit : Nat) → (value : Nat) → List Char → Nat × List Char
  | 0, value, cs => (value, cs)
  | _, value, [] => (value, [])
  | limit + 1, value, c :: cs => match digit? base c with
    | some d => digits base limit (value * base + d) cs
    | none => (value, c :: cs)

def ofCodePoint (n : Nat) : Except Error Char :=
  if n > 0x10FFFF then .error .bigCodePoint
  else if 0xD800 ≤ n && n ≤ 0xDFFF then .error .codePoint
  else .ok (Char.ofNat n)

/-- A value written as one byte: a character if it is below 128. -/
def ofByte (n : Nat) : Except Error Escape :=
  if n < 128 then .ok (.char (Char.ofNat n))
  else if n < 256 then .ok (.byte n)
  else .error .bigNumber

/-- What `x` stands for: digits in braces are a code point, at most two digits a byte. -/
def readHex (cs : List Char) : Except Error (Escape × List Char) :=
  match cs with
  | [] => .ok (.char 'x', [])
  | '{' :: inner => do
    let (n, rest) := digits 16 8 0 inner
    match rest with
    | '}' :: rest =>
      if inner.head? = some '}' then return (.char 'x', cs)
      else return (.char (← ofCodePoint n), rest)
    | c :: _ => if (digit? 16 c).isSome then .error .bigCodePoint else return (.char 'x', cs)
    | [] => return (.char 'x', cs)
  | _ => do
    let (n, rest) := digits 16 2 0 cs
    return (← ofByte n, rest)

/-- What `u` stands for: exactly four digits. -/
def readUnicode (cs : List Char) : Except Error (Escape × List Char) :=
  match cs with
  | [] => .ok (.char 'u', [])
  | _ => do
    let (n, rest) := digits 16 4 0 cs
    if cs.length < rest.length + 4 then .error .shortDigits
    else return (.char (← ofCodePoint n), rest)

/-- What `o` stands for: octal digits in braces are a code point. -/
def readOctalBraces (cs : List Char) : Except Error (Escape × List Char) :=
  match cs with
  | '{' :: inner => do
    let (n, rest) := digits 8 11 0 inner
    match rest with
    | '}' :: rest =>
      if inner.head? = some '}' then return (.char 'o', cs)
      else return (.char (← ofCodePoint n), rest)
    | c :: _ => if (digit? 8 c).isSome then .error .bigCodePoint else return (.char 'o', cs)
    | [] => return (.char 'o', cs)
  | _ => .ok (.char 'o', cs)

/-- At most three octal digits are a byte. -/
def readOctal (cs : List Char) : Except Error (Escape × List Char) := do
  let (n, rest) := digits 8 3 0 cs
  return (← ofByte n, rest)

/-- A property name up to its closing brace. -/
def propertyName : List Char → Except Error (List Char × List Char)
  | [] => .error (.propertyName "")
  | '}' :: cs => .ok ([], cs)
  | c :: cs =>
    if c = '(' || c = ')' || c = '{' || c = '|' then .error (.propertyName "")
    else do
      let (name, rest) ← propertyName cs
      return (c :: name, rest)

/-- What `p` and `P` stand for; a circumflex after the brace negates once more. -/
def readProperty (letter : Char) (cs : List Char) : Except Error (Escape × List Char) :=
  match cs with
  | '{' :: inner => do
    let (flipped, inner) := match inner with
      | '^' :: inner => (true, inner)
      | _ => (false, inner)
    let (name, rest) ← propertyName inner
    match Unicode.Property.ofName name with
    | some p => return (.set (.negatedIf ((letter == 'P') != flipped) (.property p)), rest)
    | none => .error (.propertyName (String.ofList name))
  | _ => .ok (.char letter, cs)

/-- The code of the character that a letter escape names; other characters stand for
themselves. -/
def letterCode (c : Char) : Nat :=
  match c with
  | 'n' => 10
  | 't' => 9
  | 'r' => 13
  | 'f' => 12
  | 'a' => 7
  | 'b' => 8
  | 'e' => 27
  | 'v' => 11
  | _ => c.toNat

/-- The control character of a code. -/
def controlCode (n : Nat) : Nat := if n = 63 then 127 else n &&& 0x9F

/-- The code of a letter escape, of a control character (`cX`, `C-X`) or of a character with its
high bit set (`M-X`), which can be nested. -/
def readCode : List Char → Except Error (Nat × List Char)
  | [] => .error .endAtEscape
  | 'M' :: cs => match cs with
    | [] => .error .endAtMeta
    | '-' :: [] => .error .endAtMeta
    | '-' :: '\\' :: rest => do
      let (n, rest) ← readCode rest
      return ((n &&& 0xFF) ||| 0x80, rest)
    | '-' :: c :: rest => .ok ((c.toNat &&& 0xFF) ||| 0x80, rest)
    | _ => .error .metaCode
  | 'C' :: cs => match cs with
    | [] => .error .endAtControl
    | '-' :: [] => .error .endAtControl
    | '-' :: '\\' :: rest => do
      let (n, rest) ← readCode rest
      return (n &&& 0x9F, rest)
    | '-' :: c :: rest => .ok (controlCode c.toNat, rest)
    | _ => .error .controlCode
  | 'c' :: cs => match cs with
    | [] => .error .endAtControl
    | '\\' :: rest => do
      let (n, rest) ← readCode rest
      return (n &&& 0x9F, rest)
    | c :: rest => .ok (controlCode c.toNat, rest)
  | c :: cs => .ok (letterCode c, cs)

def read : List Char → Except Error (Escape × List Char)
  | [] => .error .endAtEscape
  | c :: cs => match c with
    | 'w' => .ok (.set (.property .word), cs)
    | 'W' => .ok (.set (.compl (.property .word)), cs)
    | 'd' => .ok (.set (.property .digit), cs)
    | 'D' => .ok (.set (.compl (.property .digit)), cs)
    | 's' => .ok (.set (.property .space), cs)
    | 'S' => .ok (.set (.compl (.property .space)), cs)
    | 'h' => .ok (.set (.property .xdigit), cs)
    | 'H' => .ok (.set (.compl (.property .xdigit)), cs)
    | 'p' => readProperty c cs
    | 'P' => readProperty c cs
    | 'x' => readHex cs
    | 'u' => readUnicode cs
    | 'o' => readOctalBraces cs
    | _ =>
      if (digit? 8 c).isSome then readOctal (c :: cs)
      else do
        let (n, rest) ← readCode (c :: cs)
        return (.char (← ofCodePoint n), rest)

/-- How many bytes an encoded character has, by its first byte. -/
def encodedLength (first : Nat) : Nat :=
  if first < 0xC2 then 1 else if first < 0xE0 then 2 else if first < 0xF0 then 3
  else if first < 0xF5 then 4 else 1

def readBytes : Nat → List Char → Except Error (List Nat × List Char)
  | 0, cs => .ok ([], cs)
  | n + 1, '\\' :: cs => do
    match ← read cs with
    | (.byte b, rest) =>
      let (bs, rest) ← readBytes n rest
      return (b :: bs, rest)
    | _ => .error .shortBytes
  | _ + 1, _ => .error .shortBytes

def ofBytes (first : Nat) (rest : List Nat) : Except Error Char :=
  match rest with
  | [] => .error .codePoint
  | _ =>
    if rest.any fun b => b < 0x80 || 0xC0 ≤ b then .error .codePoint
    else
      let head := match rest.length with
        | 1 => first - 0xC0
        | 2 => first - 0xE0
        | _ => first - 0xF0
      let n := rest.foldl (fun n b => n * 64 + (b - 0x80)) head
      if (rest.length = 2 && n < 0x800) || (rest.length = 3 && n < 0x10000) || n > 0x10FFFF
        || (0xD800 ≤ n && n ≤ 0xDFFF) then .error .codePoint
      else .ok (Char.ofNat n)

/-- Completes a character whose first byte has been read. -/
def finishChar (first : Nat) (cs : List Char) : Except Error (Char × List Char) := do
  let (bytes, rest) ← readBytes (encodedLength first - 1) cs
  return (← ofBytes first bytes, rest)

end Escape

end ScopedText.Regex
