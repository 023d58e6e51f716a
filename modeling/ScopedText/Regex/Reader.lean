import ScopedText.Regex.Bracket
import ScopedText.Regex.Expr

/-!
# Reading regular expressions

A pattern is read from left to right, one item at a time. A `Reading` holds the group that is open
at that point, the groups around it, and what has been numbered and named so far; an inline option
such as `(?i)` opens a group of its own that closes with the group around it, so that it also
covers the alternatives after it. `Reading.ofPattern` reads a whole pattern.
-/

namespace ScopedText.Regex

/-- The options that a pattern can switch on and off. -/
structure Options where
  ignoreCase : Bool := false
  /-- Blanks and comments in the pattern do not count. -/
  extended : Bool := false
  /-- A dot also accepts a line feed. -/
  dotAll : Bool := false
deriving DecidableEq, Repr

inductive Opening
  | plain
  | capture (n : Nat)
  | atomic
  | ahead (negative : Bool)
  | behind (negative : Bool)
  /-- By an inline option; it has no closing parenthesis of its own. -/
  | inlineOption
deriving DecidableEq, Repr

namespace Opening

/-- The expression that a group with the given content stands for. -/
def wrap (o : Opening) (e : Expr) : Expr :=
  match o with
  | plain | inlineOption => e
  | capture n => .group n e
  | atomic => .atomic e
  | ahead negative => .ahead negative e
  | behind negative => .behind negative e

end Opening

/-- An open group: its finished alternatives and the items of the current one, latest first. -/
structure Level where
  opening : Opening
  /-- The options that hold again after the group. -/
  outside : Options
  branches : List Expr := []
  items : List Expr := []
deriving Repr

namespace Level

def expr (l : Level) : Expr := .choice ((.concat l.items.reverse :: l.branches).reverse)

def push (l : Level) (e : Expr) : Level := { l with items := e :: l.items }

def nextBranch (l : Level) : Level :=
  { l with branches := .concat l.items.reverse :: l.branches, items := [] }

/-- Closes the groups that inline options opened, up to the first other group. -/
def settle (l : Level) : List Level → Level × List Level
  | [] => (l, [])
  | parent :: outer =>
    if l.opening = .inlineOption then (parent.push l.expr).settle outer else (l, parent :: outer)

end Level

/-- A pattern in the course of being read. -/
structure Reading where
  options : Options := {}
  level : Level := { opening := .plain, outside := {} }
  outer : List Level := []
  /-- The number of groups opened so far that may capture. -/
  groups : Nat := 0
  /-- The named groups with their numbers, in order. -/
  names : List (String × Nat) := []
  /-- Whether a group was referred to by its number. -/
  numbered : Bool := false
deriving Repr

namespace Reading

def push (r : Reading) (e : Expr) : Reading := { r with level := r.level.push e }

def pushChar (r : Reading) (c : Char) : Reading :=
  r.push (.one (.upToCase r.options.ignoreCase (.single c)))

/-- Opens a group; `inside` are the options that hold in it. -/
def openGroup (r : Reading) (o : Opening) (inside : Options) : Reading :=
  { r with
    options := inside
    level := { opening := o, outside := r.options }
    outer := r.level :: r.outer }

/-- Opens a group that may capture. -/
def openCapture (r : Reading) : Reading :=
  { r.openGroup (.capture (r.groups + 1)) r.options with groups := r.groups + 1 }

def openNamed (r : Reading) (name : String) : Reading :=
  { r.openCapture with names := r.names ++ [(name, r.groups + 1)] }

/-- Closes the innermost group that has a closing parenthesis. -/
def closeGroup (r : Reading) : Except Error Reading :=
  match r.level.settle r.outer with
  | (_, []) => .error .closedTwice
  | (level, parent :: outer) =>
    .ok { r with
      options := level.outside
      level := parent.push (level.opening.wrap level.expr)
      outer }

def finish (r : Reading) : Except Error Expr :=
  match r.level.settle r.outer with
  | (level, []) => .ok level.expr
  | (_, _ :: _) => .error .unclosedGroup

/-- Repeats the last item; a possessive repetition gives nothing back. -/
def quantify (r : Reading) (low : Nat) (high : Option Nat) (greedy possessive : Bool) :
    Except Error Reading :=
  match r.level.items with
  | [] => .error .nothingToRepeat
  | e :: es =>
    let e := .repeated low high greedy e
    .ok { r with level := { r.level with items := (if possessive then .atomic e else e) :: es } }

/-- Reads the suffix of `*`, `+` and `?`, which makes them lazy or possessive. -/
def pushSuffixed (r : Reading) (low : Nat) (high : Option Nat) (cs : List Char) :
    Except Error (Reading × List Char) := do
  match cs with
  | '?' :: rest => return (← r.quantify low high false false, rest)
  | '+' :: rest => return (← r.quantify low high true true, rest)
  | _ => return (← r.quantify low high true false, cs)

def maxRepeat : Nat := 100000

/-- Decimal digits and their value. -/
def number (cs : List Char) : Option Nat × List Char :=
  match cs.takeWhile Char.isDigit with
  | [] => (none, cs)
  | ds => (some (ds.foldl (fun n d => n * 10 + (d.toNat - 48)) 0), cs.dropWhile Char.isDigit)

/-- Reads the bounds after an opening brace, up to the closing one; `none` if the brace is a
literal. The third component says whether there is one bound only. -/
def readBounds (cs : List Char) :
    Except Error (Option (Nat × Option Nat × Bool × List Char)) := do
  let (low, rest) := number cs
  if low.getD 0 > maxRepeat then throw .bigRepeat
  match rest with
  | ',' :: rest =>
    let (high, rest) := number rest
    if high.getD 0 > maxRepeat then throw .bigRepeat
    match low, high, rest with
    | none, none, _ => return none
    | _, _, '}' :: rest => return some (low.getD 0, high, false, rest)
    | _, _, _ => return none
  | '}' :: rest => return low.map fun n => (n, some n, true, rest)
  | _ => return none

/-- Reads a repetition in braces. Bounds in the wrong order are exchanged and make it possessive;
a single bound cannot be lazy. -/
def pushBraced (r : Reading) (cs : List Char) : Except Error (Reading × List Char) := do
  match ← readBounds cs with
  | none => return (r.pushChar '{', cs)
  | some (n, high, true, rest) => return (← r.quantify n high true false, rest)
  | some (low, some high, false, rest) =>
    if high < low then return (← r.quantify high (some low) true true, rest)
    else match rest with
      | '?' :: rest => return (← r.quantify low (some high) false false, rest)
      | _ => return (← r.quantify low (some high) true false, rest)
  | some (low, none, false, rest) => match rest with
    | '?' :: rest => return (← r.quantify low none false false, rest)
    | _ => return (← r.quantify low none true false, rest)

/-- A group as a reference names it. -/
inductive Name
  | text (s : String)
  | absolute (n : Nat)
  /-- Counted from here: backwards if `back` is set. -/
  | relative (back : Bool) (n : Nat)
deriving DecidableEq, Repr

/-- Reads a name up to its closing mark. Only a reference may give a number. -/
def readName (mark : Char) (isReference : Bool) (cs : List Char) :
    Except Error (Name × List Char) :=
  match cs with
  | [] => .error .emptyName
  | c :: cs' =>
    if c = mark then .error .emptyName
    else
      let tail := cs'.takeWhile fun d => d != mark && d != ')'
      let rest := cs'.drop tail.length
      let body := c :: tail
      let text := String.ofList body
      let isSign := c == '-' || c == '+'
      let isNumeral := c.isDigit || isSign
      if isNumeral && !isReference then .error (.badName text)
      else if !isNumeral && !Unicode.Property.isWord c then .error (.badNameCharacter text)
      else match rest with
        | d :: after =>
          if d = mark then
            if isNumeral then
              let digits := if isSign then tail else body
              if digits.all Char.isDigit then
                match number digits with
                | (some n, _) =>
                  .ok (if isSign then .relative (c == '-') n else .absolute n, after)
                | (none, _) => .error (.badName text)
              else if digits.all Unicode.Property.isWord then .error (.badName text)
              else .error (.badNameCharacter text)
            else if tail.all Unicode.Property.isWord then .ok (.text text, after)
            else .error (.badNameCharacter text)
          else .error (.badName (String.ofList cs))
        | [] => .error (.badName (String.ofList cs))

def pushNumbered (r : Reading) (n : Nat) : Except Error Reading :=
  if n = 0 then .error .backreference
  else .ok { r.push (.backref [n] r.options.ignoreCase) with numbered := true }

/-- Adds a reference to a named group; of several groups with the name, the last comes first. -/
def pushNamed (r : Reading) (name : Name) : Except Error Reading :=
  match name with
  | .text s =>
    match r.names.filter (·.1 == s) with
    | [] => .error (.undefinedName s)
    | groups => .ok (r.push (.backref (groups.map (·.2)).reverse r.options.ignoreCase))
  | .absolute n => r.pushNumbered n
  | .relative true n => if n = 0 then .error .backreference else r.pushNumbered (r.groups + 1 - n)
  | .relative false n => if n = 0 then .error .backreference else r.pushNumbered (r.groups + n)

/-- Any line ending, without going back on it. -/
def lineBreak : Expr :=
  .atomic (.alt (.literal ['\r', '\n'])
    (.one (.union (.range '\n' '\r')
      (.union (.single '\u0085') (.range '\u2028' '\u2029')))))

/-- The greatest number that can be a reference to a group. -/
def maxReference : Nat := 1000

def pushEscape (r : Reading) (cs : List Char) : Except Error (Reading × List Char) := do
  match cs with
  | [] => throw .endAtEscape
  | c :: rest =>
    let other := do
      match ← Escape.read cs with
      | (.char d, rest) => return (r.pushChar d, rest)
      | (.set s, rest) => return (r.push (.one s), rest)
      | (.byte n, rest) =>
        let (d, rest) ← Escape.finishChar n rest
        return (r.pushChar d, rest)
    match c with
    | 'b' => return (r.push (.anchor .wordEdge), rest)
    | 'B' => return (r.push (.anchor .noWordEdge), rest)
    | 'A' => return (r.push (.anchor .textStart), rest)
    | 'Z' => return (r.push (.anchor .lastLineEnd), rest)
    | 'z' => return (r.push (.anchor .textEnd), rest)
    | 'G' => return (r.push (.anchor .searchStart), rest)
    | 'R' => return (r.push lineBreak, rest)
    | 'N' => return (r.push (.one (.compl (.single '\n'))), rest)
    | 'O' => return (r.push (.one .any), rest)
    | 'X' => throw .unsupported
    | 'K' => throw .unsupported
    | 'y' => throw .unsupported
    | 'Y' => throw .unsupported
    | 'k' => match rest with
      | '<' :: name =>
        let (name, rest) ← readName '>' true name
        return (← r.pushNamed name, rest)
      | '\'' :: name =>
        let (name, rest) ← readName '\'' true name
        return (← r.pushNamed name, rest)
      | _ => return (r.pushChar 'k', rest)
    | 'g' => match rest with
      | '<' :: _ => throw .unsupported
      | '\'' :: _ => throw .unsupported
      | _ => return (r.pushChar 'g', rest)
    | _ =>
      if '1' ≤ c && c ≤ '9' then
        let (n, afterNumber) := number cs
        let n := n.getD 0
        if n ≤ maxReference && (n ≤ r.groups || n ≤ 9) then
          return (← r.pushNumbered n, afterNumber)
        else if c == '8' || c == '9' then return (r.pushChar c, rest)
        else other
      else other

/-- Drops a comment up to the parenthesis that closes it. -/
def dropComment : List Char → Except Error (List Char)
  | [] => .error .endInGroup
  | ')' :: cs => .ok cs
  | '\\' :: [] => .error .endInGroup
  | '\\' :: _ :: cs => dropComment cs
  | _ :: cs => dropComment cs

/-- The letters of options that exist but are not implemented. -/
def otherOptions : List Char := ['W', 'D', 'S', 'P', 'y', 'I', 'L', 'C']

/-- Reads option letters up to a colon or a closing parenthesis; the flag tells the colon. -/
def readOptions (o : Options) (off : Bool) : List Char → Except Error (Options × Bool × List Char)
  | [] => .error .endInGroup
  | ':' :: cs => .ok (o, true, cs)
  | ')' :: cs => .ok (o, false, cs)
  | '-' :: cs => readOptions o true cs
  | 'i' :: cs => readOptions { o with ignoreCase := !off } off cs
  | 'x' :: cs => readOptions { o with extended := !off } off cs
  | 'm' :: cs => readOptions { o with dotAll := !off } off cs
  | c :: _ => .error (if otherOptions.contains c then .unsupported else .groupOption)

def pushNamedGroup (r : Reading) (mark : Char) (cs : List Char) :
    Except Error (Reading × List Char) := do
  match ← readName mark false cs with
  | (.text name, rest) => return (r.openNamed name, rest)
  | _ => throw .emptyName

def isCalloutChar (c : Char) : Bool := c.isAlphanum || c == '_'

/-- Callouts `(*NAME)` are read for their faults only. -/
def refuseCallout (cs : List Char) : Error :=
  let name := cs.takeWhile fun c => c != ')' && c != '[' && c != '{'
  if name.length = cs.length then .calloutPattern
  else match name with
    | [] => .calloutName
    | c :: _ => if c.isDigit || !name.all isCalloutChar then .calloutName else .undefinedCallout

def pushParenthesis (r : Reading) (cs : List Char) : Except Error (Reading × List Char) := do
  match cs with
  | '?' :: rest => match rest with
    | [] => throw .endInGroup
    | c :: rest => match c with
      | '#' => return (r, ← dropComment rest)
      | ':' => return (r.openGroup .plain r.options, rest)
      | '=' => return (r.openGroup (.ahead false) r.options, rest)
      | '!' => return (r.openGroup (.ahead true) r.options, rest)
      | '>' => return (r.openGroup .atomic r.options, rest)
      | '<' => match rest with
        | [] => throw .unclosedGroup
        | '=' :: rest => return (r.openGroup (.behind false) r.options, rest)
        | '!' :: rest => return (r.openGroup (.behind true) r.options, rest)
        | _ => r.pushNamedGroup '>' rest
      | '\'' => r.pushNamedGroup '\'' rest
      | '~' => throw .unsupported
      | '{' => throw .unsupported
      | '(' => throw .unsupported
      | ')' => throw .groupOption
      | _ =>
        match ← readOptions r.options false (c :: rest) with
        | (o, true, rest) => return (r.openGroup .plain o, rest)
        | (o, false, rest) => return (r.openGroup .inlineOption o, rest)
  | '*' :: rest => throw (refuseCallout rest)
  | _ => return (r.openCapture, cs)

/-- Blanks that do not count in an extended pattern. -/
def isPatternBlank (c : Char) : Bool :=
  c == ' ' || c == '\t' || c == '\n' || c == '\r' || c == '\x0c'

def next (r : Reading) : List Char → Except Error (Reading × List Char)
  | [] => .ok (r, [])
  | c :: cs => do
    match c with
    | '\\' => r.pushEscape cs
    | '.' =>
      return (r.push (.one (if r.options.dotAll then .any else .compl (.single '\n'))), cs)
    | '^' => return (r.push (.anchor .lineStart), cs)
    | '$' => return (r.push (.anchor .lineEnd), cs)
    | '[' =>
      let (s, rest) ← Bracket.read r.options.ignoreCase cs
      return (r.push (.one s), rest)
    | '(' => r.pushParenthesis cs
    | ')' => return (← r.closeGroup, cs)
    | '|' => return ({ r with level := r.level.nextBranch }, cs)
    | '*' => r.pushSuffixed 0 none cs
    | '+' => r.pushSuffixed 1 none cs
    | '?' => r.pushSuffixed 0 (some 1) cs
    | '{' => r.pushBraced cs
    | _ =>
      if r.options.extended && c == '#' then
        return (r, (cs.dropWhile (· != '\n')).drop 1)
      else if r.options.extended && isPatternBlank c then return (r, cs)
      else return (r.pushChar c, cs)

def readAll (r : Reading) (cs : List Char) : Except Error Reading := do
  if cs.isEmpty then return r
  let (r, rest) ← r.next cs
  if rest.length < cs.length then readAll r rest else throw .unclosedGroup
termination_by cs.length

def ofPattern (pattern : List Char) : Except Error Reading := readAll {} pattern

end Reading

end ScopedText.Regex
