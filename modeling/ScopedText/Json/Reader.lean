import ScopedText.Json.Number
import ScopedText.Json.Text

/-!
# Reading JSON

The text is cut into tokens, up to the first one that is faulty, and the tokens are put together to
a value. Reading never fails: a fault becomes part of the value. `decode` applies a reader to the
value of a text and then checks that nothing follows it.
-/

namespace ScopedText.Json

inductive Token
  | openArray
  | closeArray
  | openObject
  | closeObject
  | colon
  | comma
  | null
  | bool (b : Bool)
  | number (n : Except Fault Number)
  | string (s : Except Fault String)
  /-- The fault at which the tokens end; `text` tells that it lies in a string. -/
  | broken (text : Bool) (b : Break)

/-- The fault of a text that does not go on as it should. -/
def Break.same (f : Fault) : Break := ⟨f, f⟩

/-- Reads the rest of a word such as `true`. -/
def readWord (t : Token) : List Char → List Char → Token × List Char
  | [], cs => (t, cs)
  | _ :: _, [] => (.broken false (.same .truncated), [])
  | w :: word, c :: cs =>
    if c = w then readWord t word cs else (.broken false (.same .malformed), [])

def isSpace (c : Char) : Bool := c == ' ' || c == '\n' || c == '\t' || c == '\r'

/-- The token that starts with the given character, and the rest of the text. -/
def readToken (c : Char) (cs : List Char) : Token × List Char :=
  match c with
  | '[' => (.openArray, cs)
  | ']' => (.closeArray, cs)
  | '{' => (.openObject, cs)
  | '}' => (.closeObject, cs)
  | ':' => (.colon, cs)
  | ',' => (.comma, cs)
  | 'n' => readWord .null ['u', 'l', 'l'] cs
  | 't' => readWord (.bool true) ['r', 'u', 'e'] cs
  | 'f' => readWord (.bool false) ['a', 'l', 's', 'e'] cs
  | '"' => match Text.read cs with
    | .ok (s, rest) => (.string s, rest)
    | .error b => (.broken true b, [])
  | _ =>
    if c == '-' || c.isDigit then
      match Number.read (c :: cs) with
      | .ok (n, rest) => (.number n, rest)
      | .error b => (.broken false b, [])
    else (.broken false (.same .malformed), [])

/-- The tokens of a text. Every token takes at least one character. -/
def tokens (cs : List Char) : List Token :=
  match cs with
  | [] => []
  | c :: rest =>
    if isSpace c then tokens rest
    else
      let (t, after) := readToken c rest
      if after.length ≤ rest.length then t :: tokens after else [t]
termination_by cs.length

/-- What is left of a list of tokens after a value was taken off. -/
abbrev Left (ts : List Token) := { rest : List Token // rest.length ≤ ts.length - 1 }

mutual

/-- Takes a value off the tokens. -/
def value (ts : List Token) : Value × Left ts :=
  match ts with
  | [] => (.broken (.same .truncated), ⟨[], Nat.zero_le _⟩)
  | t :: rest => match t with
    | .null => (.null, ⟨rest, Nat.le_refl _⟩)
    | .bool b => (.bool b, ⟨rest, Nat.le_refl _⟩)
    | .number n => (.number n, ⟨rest, Nat.le_refl _⟩)
    | .string s => (.string s, ⟨rest, Nat.le_refl _⟩)
    | .openArray =>
      let (is, ⟨after, h⟩) := items true rest
      (.array is, ⟨after, h⟩)
    | .openObject =>
      let (ms, ⟨after, h⟩) := members true rest
      (.object ms, ⟨after, h⟩)
    | .broken _ b => (.broken b, ⟨[], Nat.zero_le _⟩)
    | _ => (.broken (.same .malformed), ⟨[], Nat.zero_le _⟩)
termination_by (ts.length, 0)

def items (first : Bool) (ts : List Token) :
    Items × { rest : List Token // rest.length ≤ ts.length } :=
  match ts with
  | [] => (.broken .truncated, ⟨[], Nat.zero_le _⟩)
  | .closeArray :: rest => (.done, ⟨rest, Nat.le_succ _⟩)
  | t :: rest =>
    if first then
      let (v, ⟨after, h⟩) := value (t :: rest)
      have : after.length ≤ rest.length := h
      let (is, ⟨after, h'⟩) := items false after
      (.cons v is, ⟨after, by simp only [List.length_cons]; omega⟩)
    else match t, rest with
      | .comma, .closeArray :: _ => (.broken .malformed, ⟨[], Nat.zero_le _⟩)
      | .comma, rest =>
        let (v, ⟨after, h⟩) := value rest
        have : after.length ≤ rest.length := by omega
        let (is, ⟨after, h'⟩) := items false after
        (.cons v is, ⟨after, by simp only [List.length_cons]; omega⟩)
      | _, _ => (.broken .malformed, ⟨[], Nat.zero_le _⟩)
termination_by (ts.length, 1)

def members (first : Bool) (ts : List Token) :
    Members × { rest : List Token // rest.length ≤ ts.length } :=
  match ts with
  | [] => (.broken (.same .truncated), ⟨[], Nat.zero_le _⟩)
  | .closeObject :: rest => (.done, ⟨rest, Nat.le_succ _⟩)
  | t :: rest =>
    if first then
      let (ms, ⟨after, h⟩) := member (t :: rest)
      (ms, ⟨after, h⟩)
    else match t with
      | .comma =>
        let (ms, ⟨after, h⟩) := member rest
        (ms, ⟨after, by simp only [List.length_cons]; omega⟩)
      | _ => (.broken (.same .malformed), ⟨[], Nat.zero_le _⟩)
termination_by (ts.length, 2)

def member (ts : List Token) : Members × { rest : List Token // rest.length ≤ ts.length } :=
  match ts with
  | [] => (.broken (.same .truncated), ⟨[], Nat.zero_le _⟩)
  | .string key :: .colon :: rest =>
    let (v, ⟨after, h⟩) := value rest
    have : after.length ≤ rest.length := by omega
    let (ms, ⟨after, h'⟩) := members false after
    (.cons key v ms, ⟨after, by simp only [List.length_cons]; omega⟩)
  | .string key :: [] => (.cons key (.broken (.same .truncated)) .done, ⟨[], Nat.zero_le _⟩)
  | .string key :: _ :: _ => (.cons key (.broken (.same .malformed)) .done, ⟨[], Nat.zero_le _⟩)
  | .broken true b :: _ => (.broken b, ⟨[], Nat.zero_le _⟩)
  | _ :: _ => (.broken (.same .malformed), ⟨[], Nat.zero_le _⟩)
termination_by (ts.length, 1)

end

/-- The value of a text, and whether anything follows it. -/
def parse (text : String) : Value × Bool :=
  let (v, rest) := value (tokens text.toList)
  (v, !rest.val.isEmpty)

/-- Reads a document: the value has to be what `read` wants, and nothing may follow it. -/
def decode {α : Type} (read : Value → Except Fault α) (text : String) : Except Fault α := do
  let (v, trailing) := parse text
  let a ← read v
  if trailing then throw .malformed else return a

end ScopedText.Json
