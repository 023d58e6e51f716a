import ScopedText.Json.Value

/-!
# Strings in JSON

A string is first cut into units, characters and escaped 16-bit codes, up to its closing quote.
`decode` then joins the surrogate pairs; half of a pair has no character.
-/

namespace ScopedText.Json.Text

inductive Unit16
  | char (c : Char)
  | code (n : Nat)
deriving Repr

def hexDigit? (c : Char) : Option Nat :=
  if c.isDigit then some (c.toNat - 48)
  else if 'a' ≤ c && c ≤ 'f' then some (c.toNat - 87)
  else if 'A' ≤ c && c ≤ 'F' then some (c.toNat - 55)
  else none

/-- The number that four hexadecimal digits write. -/
def code? (a b c d : Char) : Option Nat := do
  return (((← hexDigit? a) * 16 + (← hexDigit? b)) * 16 + (← hexDigit? c)) * 16 + (← hexDigit? d)

/-- What an escape of one letter stands for. -/
def letter? (c : Char) : Option Char :=
  match c with
  | '"' => some '"'
  | '\\' => some '\\'
  | '/' => some '/'
  | 'b' => some '\x08'
  | 'f' => some '\x0c'
  | 'n' => some '\n'
  | 'r' => some '\r'
  | 't' => some '\t'
  | _ => none

/-- Cuts a string into units, after its opening quote. With the units comes the rest of the text
after the closing quote, or the fault that is met first. -/
def units : List Char → List Unit16 × Except Fault (List Char)
  | [] => ([], .error .truncated)
  | '"' :: cs => ([], .ok cs)
  | '\\' :: 'u' :: a :: b :: c :: d :: cs => match code? a b c d with
    | some n =>
      let (us, rest) := units cs
      (.code n :: us, rest)
    | none => ([], .error .malformed)
  | '\\' :: 'u' :: cs =>
    ([], .error (if (cs.map Char.utf8Size).sum < 4 then .truncated else .malformed))
  | '\\' :: [] => ([], .error .truncated)
  | '\\' :: c :: cs => match letter? c with
    | some d =>
      let (us, rest) := units cs
      (.char d :: us, rest)
    | none => ([], .error .malformed)
  | c :: cs =>
    if c < ' ' then ([], .error .malformed)
    else
      let (us, rest) := units cs
      (.char c :: us, rest)

/-- Whether a code is the first half of a surrogate pair. -/
def isLead (n : Nat) : Bool := 0xD800 ≤ n && n ≤ 0xDBFF

/-- Whether a code is the second half of a surrogate pair. -/
def isTrail (n : Nat) : Bool := 0xDC00 ≤ n && n ≤ 0xDFFF

/-- The characters of the units; `fault` is the fault after the last unit, if there is one. -/
def decode (fault : Option Fault) : List Unit16 → Except Fault (List Char)
  | [] => match fault with
    | some f => .error f
    | none => .ok []
  | .char c :: us => do return c :: (← decode fault us)
  | .code n :: .code m :: us =>
    if isTrail n then .error .malformed
    else if isLead n then
      if isTrail m then do
        return Char.ofNat (0x10000 + (n - 0xD800) * 0x400 + (m - 0xDC00)) :: (← decode fault us)
      else .error .malformed
    else do return Char.ofNat n :: (← decode fault (.code m :: us))
  | .code n :: us =>
    if isTrail n then .error .malformed
    else if isLead n then
      match fault, us with
      | some f, [] => .error f
      | _, _ => .error .malformed
    else do return Char.ofNat n :: (← decode fault us)

def read (cs : List Char) : Except Break (Except Fault String × List Char) :=
  match units cs with
  | (us, .ok rest) => .ok ((decode none us).map String.ofList, rest)
  | (us, .error skipped) => match decode (some skipped) us with
    | .ok _ => .error ⟨skipped, skipped⟩
    | .error read => .error ⟨read, skipped⟩

end ScopedText.Json.Text
