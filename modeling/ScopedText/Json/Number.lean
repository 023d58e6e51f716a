import ScopedText.Json.Value

/-!
# Numbers in JSON

Integers that fit into 64 bits stay exact; other numbers become floating-point numbers. A number
is first collected as a significand of at most 64 bits and a decimal exponent, further digits being
dropped, and the significand is then scaled by a power of ten.
-/

namespace ScopedText.Json.Number

/-- The greatest unsigned integer that stays exact. -/
def maxUnsigned : Nat := (1 <<< 64) - 1

/-- A number in the course of being read: `significand · 10 ^ exponent`. -/
structure Draft where
  negative : Bool
  significand : Nat := 0
  exponent : Int := 0
deriving Repr

def digit (c : Char) : Nat := c.toNat - 48

/-- Reads the digits of the whole part; from the first digit that does not fit on, each digit only
raises the exponent. -/
def Draft.pushWhole (d : Draft) : List Char → Draft
  | [] => d
  | c :: cs =>
    let significand := d.significand * 10 + digit c
    if significand ≤ maxUnsigned then { d with significand }.pushWhole cs
    else { d with exponent := cs.length + 1 }

/-- Reads the digits of the fraction, up to the first one that does not fit. -/
def Draft.pushFraction (d : Draft) : List Char → Draft
  | [] => d
  | c :: cs =>
    let significand := d.significand * 10 + digit c
    if significand ≤ maxUnsigned then
      { d with significand, exponent := d.exponent - 1 }.pushFraction cs
    else d

def powerOfTen (n : Nat) : Float := Float.ofScientific 1 false n

/-- Divides by a power of ten, in steps of at most 308. -/
def divide (x : Float) (n : Nat) : Float :=
  if n ≤ 308 then x / powerOfTen n
  else if x == 0 then x
  else divide (x / powerOfTen 308) (n - 308)
termination_by n

/-- The floating-point number of a draft; a number that is too large is a fault. -/
def Draft.toReal (d : Draft) : Except Fault Number :=
  let x := Float.ofNat d.significand
  let scaled :=
    if d.exponent < 0 then divide x d.exponent.natAbs
    else if d.exponent ≤ 308 then x * powerOfTen d.exponent.toNat
    else if x == 0 then x
    else 1 / 0
  if scaled.isInf then .error .malformed
  else .ok (.real (if d.negative then -scaled else scaled))

/-- The number of a draft without fraction and exponent. -/
def Draft.toInteger (d : Draft) : Except Fault Number :=
  if d.exponent != 0 then d.toReal
  else if d.negative then
    if d.significand = 0 ∨ 1 <<< 63 < d.significand then d.toReal
    else .ok (.integer (-(d.significand : Int)))
  else .ok (.integer d.significand)

/-- A number that was read, with the rest of the text. -/
abbrev Outcome := Except Break (Except Fault Number × List Char)

/-- A number that ends too early. One who skips it takes it for malformed. -/
def cutShort (rest : List Char) : Outcome :=
  if rest.isEmpty then .error ⟨.truncated, .malformed⟩ else .error ⟨.malformed, .malformed⟩

def readExponent (d : Draft) (cs : List Char) : Outcome :=
  let (negative, cs) := match cs with
    | '+' :: cs => (false, cs)
    | '-' :: cs => (true, cs)
    | _ => (false, cs)
  let digits := cs.takeWhile Char.isDigit
  let rest := cs.dropWhile Char.isDigit
  if digits.isEmpty then cutShort cs
  else
    let n := digits.foldl (fun n c => n * 10 + digit c) 0
    if n < 1 <<< 31 then
      let exponent := if negative then d.exponent - n else d.exponent + n
      .ok ({ d with exponent }.toReal, rest)
    else if d.significand != 0 && !negative then .ok (.error .malformed, rest)
    else .ok ({ d with significand := 0, exponent := 0 }.toReal, rest)

def readFraction (d : Draft) (cs : List Char) : Outcome :=
  let digits := cs.takeWhile Char.isDigit
  let rest := cs.dropWhile Char.isDigit
  if digits.isEmpty then cutShort cs
  else
    let d := d.pushFraction digits
    match rest with
    | 'e' :: rest => readExponent d rest
    | 'E' :: rest => readExponent d rest
    | _ => .ok (d.toReal, rest)

/-- Reads a number after its sign. A zero is followed by no further digit. -/
def readUnsigned (negative : Bool) (cs : List Char) : Outcome :=
  let digits := cs.takeWhile Char.isDigit
  let rest := cs.dropWhile Char.isDigit
  match digits with
  | [] => cutShort cs
  | '0' :: _ :: _ => .error ⟨.malformed, .malformed⟩
  | _ =>
    let d := { negative : Draft }.pushWhole digits
    match rest with
    | '.' :: rest => readFraction d rest
    | 'e' :: rest => readExponent d rest
    | 'E' :: rest => readExponent d rest
    | _ => .ok (d.toInteger, rest)

def read : List Char → Outcome
  | '-' :: cs => readUnsigned true cs
  | cs => readUnsigned false cs

end ScopedText.Json.Number
