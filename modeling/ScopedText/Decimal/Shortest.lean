/-!
# The shortest decimal of a floating-point number

A finite number is `m · 2 ^ q`, and the decimals that read back as it fill an interval around it.
`shortest` looks for the fewest digits with which a decimal lies in that interval, and of two such
decimals takes the nearer one. Everything is computed in exact arithmetic on natural numbers.
-/

namespace ScopedText.Decimal

structure Numeral where
  digits : Nat
  exponent : Int
deriving DecidableEq, Repr

/-- A positive number as a fraction, with the ends of the interval that rounds to it. -/
structure Rounded where
  numerator : Nat
  denominator : Nat
  low : Nat
  high : Nat
  /-- Whether the ends themselves round to the number. -/
  closed : Bool
deriving Repr

/-- The number of decimal digits, one for zero. -/
def digitCount (n : Nat) : Nat := (Nat.toDigits 10 n).length

namespace Rounded

/-- The positive number with the given significand and exponent, in units of a quarter of the
last place; below a power of two the interval is half as wide. -/
def ofParts (m : Nat) (q : Int) (narrow : Bool) : Rounded :=
  let up := (q - 2).toNat
  let down := (2 - q).toNat
  { numerator := (4 * m) <<< up
    denominator := 1 <<< down
    low := (4 * m - (if narrow then 1 else 2)) <<< up
    high := (4 * m + 2) <<< up
    closed := m % 2 == 0 }

def contains (r : Rounded) (d : Numeral) : Bool :=
  let scaled := d.digits * Nat.pow 10 d.exponent.toNat * r.denominator
  let unit := Nat.pow 10 (-d.exponent).toNat
  let low := r.low * unit
  let high := r.high * unit
  if r.closed then low ≤ scaled && scaled ≤ high else low < scaled && scaled < high

/-- The exponent of the first decimal digit. -/
def magnitude (r : Rounded) : Int :=
  if r.denominator ≤ r.numerator then digitCount (r.numerator / r.denominator) - 1
  else -(digitCount ((r.denominator + r.numerator - 1) / r.numerator - 1) : Int)

/-- The decimal with so many digits that is nearest to the number among those that round to it. -/
def withDigits (r : Rounded) (count : Nat) : Option Numeral :=
  let exponent := r.magnitude - count + 1
  let numerator := r.numerator * Nat.pow 10 (-exponent).toNat
  let denominator := r.denominator * Nat.pow 10 exponent.toNat
  let below := numerator / denominator
  let rest := numerator % denominator
  let lower : Numeral := ⟨below, exponent⟩
  let upper : Numeral := ⟨below + 1, exponent⟩
  let upperFirst := denominator < 2 * rest || (denominator == 2 * rest && below % 2 == 1)
  let order := if upperFirst then [upper, lower] else [lower, upper]
  order.find? r.contains

def shortest (r : Rounded) : Option Numeral :=
  (List.range 17).findSome? fun n => r.withDigits (n + 1)

end Rounded

def trimZeros (digits : List Char) : List Char := (digits.reverse.dropWhile (· == '0')).reverse

/-- How the text of a number is laid out. -/
structure Layout where
  /-- The least and the greatest exponent of the first digit that is written positionally. -/
  leastPositional : Int
  greatestPositional : Int
  /-- The least number of digits of a written exponent. -/
  exponentDigits : Nat

def Layout.write (l : Layout) (digits : List Char) (first : Int) : List Char :=
  if l.leastPositional ≤ first && first ≤ l.greatestPositional then
    if first < 0 then '0' :: '.' :: (List.replicate (-first - 1).toNat '0' ++ digits)
    else
      let whole := digits.take (first.toNat + 1)
      let fraction := digits.drop (first.toNat + 1)
      whole ++ List.replicate (first.toNat + 1 - digits.length) '0' ++ '.' ::
        (if fraction.isEmpty then ['0'] else fraction)
  else
    let mantissa := match digits with
      | [d] => [d]
      | d :: ds => d :: '.' :: ds
      | [] => ['0']
    let exponent := Nat.toDigits 10 first.natAbs
    mantissa ++ 'e' :: (if first < 0 then '-' else '+') ::
      (List.replicate (l.exponentDigits - exponent.length) '0' ++ exponent)

/-- The bit of the significand that is not stored. -/
def hiddenBit : Nat := 1 <<< 52

/-- The shortest text of a number that reads back. -/
def write (l : Layout) (x : Float) : String :=
  let bits : Nat := x.toBits.toNat
  let fraction : Nat := bits % hiddenBit
  let biased : Nat := (bits >>> 52) % 2048
  let sign := if bits >>> 63 == 1 then ['-'] else []
  let body :=
    if biased == 2047 then if fraction == 0 then "inf".toList else "NaN".toList
    else if biased == 0 && fraction == 0 then ['0', '.', '0']
    else
      let r :=
        if biased == 0 then Rounded.ofParts fraction (-1074) false
        else Rounded.ofParts (hiddenBit + fraction) ((biased : Int) - 1075)
          (fraction == 0 && biased > 1)
      match r.shortest with
      | none => ['0', '.', '0']
      | some d =>
        let digits := Nat.toDigits 10 d.digits
        l.write (trimZeros digits) (d.exponent + digits.length - 1)
  String.ofList (sign ++ body)

end ScopedText.Decimal
