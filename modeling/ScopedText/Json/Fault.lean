import ScopedText.Decimal.Shortest
import ScopedText.Text.Quoted

/-!
# What is wrong with a JSON document

A document is read from its start, and the first fault met is the one that counts: the text may end
early, it may not be JSON, or a value may not be what is wanted at its place.
-/

namespace ScopedText.Json

/-- What stands where something else is wanted. -/
inductive Found
  | null
  | bool (b : Bool)
  | integer (n : Int)
  | real (x : Float)
  | string (s : String)
  | array
  | object

inductive Fault
  /-- The text ends too early. -/
  | truncated
  /-- The text is not JSON. -/
  | malformed
  | wrongType (found : Found) (wanted : String)
  | outOfRange (n : Int) (wanted : String)
  | missingField (name : String)
  | duplicateField (name : String)
  | captureKey (key : String)
  | shortArray (length : Nat) (wanted : String)

inductive Category
  | eof
  | malformed
  | data
deriving DecidableEq, Repr

/-- Numbers are written positionally from 10⁻⁵ up to 10¹⁶, otherwise with an exponent of at least
two digits. -/
def numberLayout : Decimal.Layout := ⟨-5, 15, 2⟩

def Found.describe : Found → String
  | null => "null"
  | bool b => "boolean `" ++ toString b ++ "`"
  | integer n => "integer `" ++ toString n ++ "`"
  | real x => "floating point `" ++ Decimal.write numberLayout x ++ "`"
  | string s => "string " ++ Text.quote s
  | array => "sequence"
  | object => "map"

namespace Fault

/-- What a fault says about the data; faults of the text itself say nothing more. -/
def message : Fault → String
  | truncated | malformed => ""
  | wrongType found wanted => "invalid type: " ++ found.describe ++ ", expected " ++ wanted
  | outOfRange n wanted =>
    "invalid value: " ++ (Found.integer n).describe ++ ", expected " ++ wanted
  | missingField name => "missing field `" ++ name ++ "`"
  | duplicateField name => "duplicate field `" ++ name ++ "`"
  | captureKey key => "capture key '" ++ key ++ "' is not a group index"
  | shortArray length wanted =>
    "invalid length " ++ toString length ++ ", expected " ++ wanted

def category : Fault → Category
  | truncated => .eof
  | malformed => .malformed
  | _ => .data

end Fault

end ScopedText.Json
