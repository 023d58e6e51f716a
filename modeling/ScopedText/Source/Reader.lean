import ScopedText.Json.Decode
import ScopedText.Source.Basic

/-!
# Reading grammar sources

The JSON form of grammar sources. A pattern is a string or an array of lines. Captures are an object
from group numbers, or an array in which the place is the group number and an entry without a name
only skips its group.
-/

namespace ScopedText.Source

open Json

/-- A pattern: a string, lines that are joined, or `null` for none. -/
def readPattern (depth : Nat) (v : Value) : Except Fault (Option String) :=
  let wanted := "a pattern string or an array of pattern lines"
  match v, depth with
  | .null, _ => .ok none
  | .string s, _ => s.map some
  | .array _, 0 => .error .malformed
  | .object _, 0 => .error .malformed
  | .array items, _ + 1 => do return some ("\n".intercalate (← items.readAll readString))
  | _, _ => mismatch wanted v

def Capture.read (depth : Nat) (v : Value) : Except Fault Capture :=
  let fields : List (FieldReader Capture) :=
    [{ name := "name",
       read := fun v c => do return { c with name := ← readOptional readString v } }]
  readRecord "struct RawCapture" "struct RawCapture with 1 element" (fun _ => fields) {} depth v

/-- A group number: digits, after a plus sign or none, below 2⁶⁴. -/
def groupNumber? (key : String) : Option Nat :=
  let digits := match key.toList with
    | '+' :: ds => ds
    | ds => ds
  if digits.isEmpty || !digits.all Char.isDigit then none
  else
    let n := digits.foldl (fun n d => n * 10 + (d.toNat - 48)) 0
    if n ≤ Number.maxUnsigned then some n else none

/-- The members of an object of captures. The capture is read before its key is looked at. -/
def readNumbered (depth : Nat) : Members → Except Fault (List (Nat × Capture))
  | .done => .ok []
  | .broken b => .error b.read
  | .cons key value rest => do
    let key ← key
    let c ← Capture.read depth value
    match groupNumber? key with
    | none => throw (.captureKey key)
    | some n => return (n, c) :: (← readNumbered depth rest)

def Captures.read (depth : Nat) (v : Value) : Except Fault Captures :=
  match v, depth with
  | .object _, 0 => .error .malformed
  | .array _, 0 => .error .malformed
  | .object members, depth + 1 => do return .ofList (← readNumbered depth members)
  | .array items, depth + 1 => do return .ofNames (← items.readAll (Capture.read depth))
  | _, _ => mismatch "a map of group index to capture or an array of captures" v

def Rule.fields (rule : Value → Except Fault Rule) (depth : Nat) : List (FieldReader Rule) := [
  { name := "name", read := fun v r => do return { r with name := ← readOptional readString v } },
  { name := "comment",
    read := fun v r => do return { r with comment := ← readOptional readString v } },
  { name := "match", read := fun v r => do return { r with single := ← readPattern depth v } },
  { name := "begin", read := fun v r => do return { r with opening := ← readPattern depth v } },
  { name := "end", read := fun v r => do return { r with closing := ← readPattern depth v } },
  { name := "captures",
    read := fun v r => do return { r with captures := ← Captures.read depth v } },
  { name := "beginCaptures",
    read := fun v r => do return { r with openingCaptures := ← Captures.read depth v } },
  { name := "endCaptures",
    read := fun v r => do return { r with closingCaptures := ← Captures.read depth v } },
  { name := "patterns",
    read := fun v r => do return { r with rules := ← readList rule depth v } },
  { name := "include",
    read := fun v r => do return { r with included := ← readOptional readString v } },
  { name := "applyEndPatternLast",
    read := fun v r => do return { r with closingLast := ← readOptional readUnsigned32 v } }]

/-- A rule. A rule in the list of another one lies two levels deeper. -/
def Rule.read : (depth : Nat) → Value → Except Fault Rule
  | 0, v => record (fun _ => .error .malformed) 0 v
  | 1, v => record (fun _ => .error .malformed) 1 v
  | depth + 2, v => record (Rule.read depth) (depth + 2) v
where
  /-- A rule whose nested rules are read by `rule`. -/
  record (rule : Value → Except Fault Rule) (depth : Nat) (v : Value) : Except Fault Rule :=
    readRecord "struct RawRule" "struct RawRule with 11 elements" (Rule.fields rule) {} depth v

def Grammar.fields (depth : Nat) : List (FieldReader Grammar) := [
  { name := "name", required := true,
    read := fun v g => do return { g with name := ← readString v } },
  { name := "displayName",
    read := fun v g => do return { g with displayName := ← readOptional readString v } },
  { name := "description",
    read := fun v g => do return { g with description := ← readOptional readString v } },
  { name := "comment",
    read := fun v g => do return { g with comment := ← readOptional readString v } },
  { name := "scopeName", required := true,
    read := fun v g => do return { g with scopeName := ← readString v } },
  { name := "fileTypes",
    read := fun v g => do return { g with fileTypes := ← readList readString depth v } },
  { name := "firstLineMatch",
    read := fun v g => do return { g with firstLine := ← readOptional readString v } },
  { name := "variables",
    read := fun v g => do return { g with definitions := ← readMap readString depth v } },
  { name := "patterns",
    read := fun v g => do return { g with rules := ← readList (Rule.read (depth - 1)) depth v } },
  { name := "repository",
    read := fun v g => do
      return { g with repository := ← readMap (Rule.read (depth - 1)) depth v } }]

def Grammar.read (v : Value) : Except Fault Grammar :=
  readRecord "struct RawGrammar" "struct RawGrammar with 10 elements" Grammar.fields {} maxDepth v

def Grammar.ofJson (text : String) : Except Fault Grammar := decode Grammar.read text

end ScopedText.Source
