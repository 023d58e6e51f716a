import ScopedText.Regex.Escape

/-!
# Bracketed classes

A `Bracket` is a class in the course of being read. A character may turn out to start a range, so
it stays pending until the next item shows what it is. Nested classes are kept on a list of the
classes around them, innermost first, and `Bracket.read` reads up to the bracket that closes the
outermost one.
-/

namespace ScopedText.Regex

/-- What the last item of a class leaves open. -/
inductive Pending
  /-- Nothing has been read since the class or a part of an intersection started. -/
  | start
  /-- A range or a nested class ended. -/
  | complete
  /-- A character, which may start a range. -/
  | char (c : Char)
  /-- A class escape, which may not start a range. -/
  | set
  /-- The first character of a range. -/
  | range (first : Char)
deriving Repr

/-- A class in the course of being read. -/
structure Bracket where
  negated : Bool
  /-- The intersection of the parts before the last `&&`. -/
  earlier : Option CharSet := none
  /-- The union of the items read since. -/
  items : CharSet := .none
  pending : Pending := .start
deriving Repr

namespace Bracket

def add (b : Bracket) (s : CharSet) : Bracket :=
  { b with items := match b.items with
    | .none => s
    | items => .union items s }

def flush (b : Bracket) : Bracket :=
  match b.pending with
  | .char c => b.add (.single c)
  | _ => b

def pushChar (b : Bracket) (c : Char) : Except Error Bracket :=
  match b.pending with
  | .range first =>
    if first ≤ c then .ok { b.add (.range first c) with pending := .complete }
    else .error .emptyRange
  | _ => .ok { b.flush with pending := .char c }

def pushSet (b : Bracket) (s : CharSet) : Except Error Bracket :=
  match b.pending with
  | .range _ => .error .classAtRangeEnd
  | _ => .ok { b.flush.add s with pending := .set }

def pushNested (b : Bracket) (s : CharSet) : Bracket :=
  { b.flush.add s with pending := .complete }

/-- Reads a hyphen; `last` says whether the class or the part ends after it. -/
def pushHyphen (b : Bracket) (last : Bool) : Except Error Bracket :=
  match b.pending with
  | .char c => if last then b.pushChar '-' else .ok { b with pending := .range c }
  | .set => if last then b.pushChar '-' else .error .loneRangeMark
  | _ => b.pushChar '-'

/-- What the parts read so far have in common. -/
def meet (b : Bracket) : CharSet :=
  match b.earlier with
  | none => b.flush.items
  | some s => .inter s b.flush.items

def pushAnd (b : Bracket) : Bracket := { negated := b.negated, earlier := some b.meet }

def close (b : Bracket) (ignoreCase : Bool) : CharSet :=
  .negatedIf b.negated (.upToCase ignoreCase b.meet)

/-- Starts a class after its opening bracket. A closing bracket that comes first is a literal if
another one follows. -/
def start (cs : List Char) : Except Error (Bracket × List Char) :=
  let (negated, cs) := match cs with
    | '^' :: rest => (true, rest)
    | _ => (false, cs)
  match cs with
  | ']' :: rest =>
    if rest.contains ']' then .ok ({ negated, pending := .char ']' }, rest)
    else .error .emptyClass
  | _ => .ok ({ negated }, cs)

/-- Whether `:]` comes before the next bracket that is not escaped. -/
def closesPosix : List Char → Bool
  | ':' :: ']' :: _ => true
  | ']' :: _ => false
  | '\\' :: _ :: cs => closesPosix cs
  | _ :: cs => closesPosix cs
  | [] => false

/-- Reads a POSIX class after `[:`; `none` if there is no such class and the bracket is a
literal. -/
def readPosix (cs : List Char) : Except Error (Option (CharSet × List Char)) :=
  let (negated, cs) := match cs with
    | '^' :: rest => (true, rest)
    | _ => (false, cs)
  let named := if cs.length < 7 then none
    else Unicode.Property.posix.find? fun (name, _) => name.toList.isPrefixOf cs
  match named with
  | some (name, p) =>
    match cs.drop name.length with
    | ':' :: ']' :: rest => .ok (some (.negatedIf negated (.property p), rest))
    | _ => .error .posixName
  | none =>
    let word := cs.takeWhile fun c => c != ':' && c != ']'
    match cs.drop word.length with
    | ':' :: ']' :: _ => if word.length ≤ 20 then .error .posixName else .ok none
    | _ => .ok none

/-- What one item leads to: the outermost class is closed, or reading goes on. -/
inductive Progress
  | closed (s : CharSet) (rest : List Char)
  | inside (b : Bracket) (outer : List Bracket) (rest : List Char)

def pushEscape (b : Bracket) (cs : List Char) : Except Error (Bracket × List Char) := do
  match ← Escape.read cs with
  | (.char c, rest) => return (← b.pushChar c, rest)
  | (.set s, rest) => return (← b.pushSet s, rest)
  | (.byte n, rest) =>
    let (c, rest) ← Escape.finishChar n rest
    return (← b.pushChar c, rest)

/-- Reads one item of the innermost class. -/
def item (ignoreCase : Bool) (b : Bracket) (outer : List Bracket) :
    List Char → Except Error Progress
  | [] => .error .unclosedClass
  | ']' :: rest => match outer with
    | [] => .ok (.closed (b.close ignoreCase) rest)
    | parent :: outer => .ok (.inside (parent.pushNested (b.close false)) outer rest)
  | '\\' :: rest => do
    let (b, rest) ← b.pushEscape rest
    return .inside b outer rest
  | '-' :: rest => do
    let last := match rest with
      | ']' :: _ => true
      | '&' :: '&' :: _ => true
      | _ => false
    return .inside (← b.pushHyphen last) outer rest
  | '&' :: '&' :: rest => .ok (.inside b.pushAnd outer rest)
  | '[' :: rest => do
    let nested := do
      let (inner, rest) ← start rest
      return Progress.inside inner (b :: outer) rest
    match rest with
    | ':' :: name =>
      if closesPosix name then
        match ← readPosix name with
        | some (s, rest) => return .inside (← b.pushSet s) outer rest
        | none => return .inside (← b.pushChar '[') outer rest
      else nested
    | _ => nested
  | c :: rest => do return .inside (← b.pushChar c) outer rest

/-- Reads items up to the end of the outermost class. Every item takes at least one character. -/
def readItems (ignoreCase : Bool) (b : Bracket) (outer : List Bracket) (cs : List Char) :
    Except Error (CharSet × List Char) := do
  match ← item ignoreCase b outer cs with
  | .closed s rest => return (s, rest)
  | .inside b outer rest =>
    if rest.length < cs.length then readItems ignoreCase b outer rest else .error .unclosedClass
termination_by cs.length

def read (ignoreCase : Bool) (cs : List Char) : Except Error (CharSet × List Char) := do
  let (b, rest) ← start cs
  readItems ignoreCase b [] rest

end Bracket

end ScopedText.Regex
