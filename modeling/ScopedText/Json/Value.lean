import ScopedText.Json.Fault

/-!
# JSON values, as far as they can be read

The text of a document may stop being JSON at some point. A `Value` is what stands before that
point, with the fault in its place, so that a reader of the value meets the faults of the text and
its own objections in the order of the text.

Some faults depend on whether the value is read or skipped: a skipped string may hold half of a
surrogate pair, and a skipped number may be too large.
-/

namespace ScopedText.Json

inductive Number
  | integer (n : Int)
  | real (x : Float)

/-- A fault that ends the document, as one meets it who reads the value and one who skips it. -/
structure Break where
  read : Fault
  skipped : Fault

mutual

inductive Value
  | null
  | bool (b : Bool)
  | number (n : Except Fault Number)
  | string (s : Except Fault String)
  | array (items : Items)
  | object (members : Members)
  | broken (b : Break)

inductive Items
  | done
  | broken (f : Fault)
  | cons (item : Value) (rest : Items)

inductive Members
  | done
  | broken (b : Break)
  | cons (key : Except Fault String) (value : Value) (rest : Members)

end

mutual

/-- The fault met by skipping a value. -/
def Value.skip : Value → Except Fault Unit
  | .null | .bool _ | .number _ | .string _ => .ok ()
  | .array items => items.skip
  | .object members => members.skip
  | .broken b => .error b.skipped

def Items.skip : Items → Except Fault Unit
  | .done => .ok ()
  | .broken f => .error f
  | .cons item rest => do
    item.skip
    rest.skip

def Members.skip : Members → Except Fault Unit
  | .done => .ok ()
  | .broken b => .error b.skipped
  | .cons _ value rest => do
    value.skip
    rest.skip

end

def Items.ofList : List Value → Items
  | [] => .done
  | v :: vs => .cons v (Items.ofList vs)

def Members.ofList : List (String × Value) → Members
  | [] => .done
  | (key, v) :: rest => .cons (.ok key) v (Members.ofList rest)

/-- What a value is; a value that cannot be read is a fault. -/
def Value.found : Value → Except Fault Found
  | .null => .ok .null
  | .bool b => .ok (.bool b)
  | .number n => do match ← n with
    | .integer n => return .integer n
    | .real x => return .real x
  | .string s => do return .string (← s)
  | .array _ => .ok .array
  | .object _ => .ok .object
  | .broken b => .error b.read

end ScopedText.Json
