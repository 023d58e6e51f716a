import ScopedText.Json.Reader
import ScopedText.NameMap

/-!
# Typed reading of JSON values

Readers for the values that documents are made of. Each reads the parts of a value in the order of
the text, so that the first fault wins. Readers of arrays and objects take the number of further
arrays and objects that may be opened inside; going deeper is a fault of the text.
-/

namespace ScopedText.Json

/-- How many arrays and objects may be open at once. -/
def maxDepth : Nat := 127

/-- The fault of a value that is not what is wanted. -/
def mismatch {α : Type} (wanted : String) (v : Value) : Except Fault α := do
  throw (.wrongType (← v.found) wanted)

def readString (v : Value) : Except Fault String :=
  match v with
  | .string s => s
  | _ => mismatch "a string" v

/-- `null`, or what `read` reads. -/
def readOptional {α : Type} (read : Value → Except Fault α) (v : Value) :
    Except Fault (Option α) :=
  match v with
  | .null => .ok none
  | _ => do return some (← read v)

def maxUnsigned32 : Nat := (1 <<< 32) - 1

def readUnsigned32 (v : Value) : Except Fault Nat :=
  match v with
  | .number n => do match ← n with
    | .integer i =>
      if 0 ≤ i ∧ i ≤ maxUnsigned32 then return i.toNat else throw (.outOfRange i "u32")
    | .real x => throw (.wrongType (.real x) "u32")
  | _ => mismatch "u32" v

def Items.readAll {α : Type} (read : Value → Except Fault α) : Items → Except Fault (List α)
  | .done => .ok []
  | .broken f => .error f
  | .cons item rest => do
    let a ← read item
    return a :: (← rest.readAll read)

def readList {α : Type} (read : Value → Except Fault α) (depth : Nat) (v : Value) :
    Except Fault (List α) :=
  match v, depth with
  | .array _, 0 => .error .malformed
  | .array items, _ + 1 => items.readAll read
  | _, _ => mismatch "a sequence" v

def Members.readAll {α : Type} (read : Value → Except Fault α) :
    Members → Except Fault (List (String × α))
  | .done => .ok []
  | .broken b => .error b.read
  | .cons key value rest => do
    let name ← key
    let a ← read value
    return (name, a) :: (← rest.readAll read)

/-- An object with any names; of two members with one name, the last counts. -/
def readMap {α : Type} (read : Value → Except Fault α) (depth : Nat) (v : Value) :
    Except Fault (NameMap α) :=
  match v, depth with
  | .object _, 0 => .error .malformed
  | .object members, _ + 1 => do return .ofList (← members.readAll read)
  | _, _ => mismatch "a map" v

/-- A field of a record that is built from an object. -/
structure FieldReader (σ : Type) where
  name : String
  /-- Whether the record cannot do without the field. -/
  required : Bool := false
  /-- Reads a value of the field into the record. -/
  read : Value → σ → Except Fault σ

/-- Fills a record from the members of an object. Members with other names are skipped, and a
field may be given once. -/
def Members.readFields {σ : Type} (fields : List (FieldReader σ)) (given : List String)
    (record : σ) : Members → Except Fault σ
  | .done => match fields.find? fun f => f.required && !given.contains f.name with
    | some f => .error (.missingField f.name)
    | none => .ok record
  | .broken b => .error b.read
  | .cons key value rest => do
    let name ← key
    match fields.find? (·.name == name) with
    | none =>
      value.skip
      rest.readFields fields given record
    | some f =>
      if given.contains name then throw (.duplicateField name)
      let record ← f.read value record
      rest.readFields fields (name :: given) record

/-- Fills a record from the items of an array, which give the fields in their order; fields that
are not required can be left off at the end. -/
def Items.readFields {σ : Type} (wanted : String) (index : Nat) (record : σ) :
    List (FieldReader σ) → Items → Except Fault σ
  | [], .done => .ok record
  | f :: fields, .done =>
    if f.required then .error (.shortArray index wanted)
    else Items.readFields wanted (index + 1) record fields .done
  | _, .broken f => .error f
  | [], .cons _ _ => .error .malformed
  | f :: fields, .cons item rest => do
    let record ← f.read item record
    Items.readFields wanted (index + 1) record fields rest

/-- A record, written as an object or as an array of its fields. `fields` gets the depth left
inside. -/
def readRecord {σ : Type} (wanted : String) (arrayWanted : String)
    (fields : Nat → List (FieldReader σ)) (record : σ) (depth : Nat) (v : Value) : Except Fault σ :=
  match v, depth with
  | .object _, 0 => .error .malformed
  | .array _, 0 => .error .malformed
  | .object members, depth + 1 => members.readFields (fields depth) [] record
  | .array items, depth + 1 => Items.readFields arrayWanted 0 record (fields depth) items
  | _, _ => mismatch wanted v

end ScopedText.Json
