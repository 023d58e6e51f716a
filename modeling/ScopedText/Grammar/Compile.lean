import ScopedText.Grammar.Basic
import ScopedText.Grammar.Error
import ScopedText.Pattern.Basic
import ScopedText.Pattern.Prepare
import ScopedText.Source.Basic

/-!
# Compiling grammars

Rules are numbered in the order in which they are met: the list of the grammar first, then the
entries of the repository by name, and each rule before the rules inside of it. A rule takes its
place in the table before its parts are compiled. References are checked at the end, when all
entries of the repository are known.
-/

namespace ScopedText

/-- The tables of a grammar in the course of being compiled. -/
structure Tables where
  patterns : Array String := #[]
  rules : Array Rule := #[]
deriving Repr

namespace Tables

def reserve (t : Tables) : Tables := { t with rules := t.rules.push .inert }

def setRule (t : Tables) (id : RuleId) (r : Rule) : Tables :=
  { t with rules := t.rules.setIfInBounds id r }

def addPattern (t : Tables) (pattern : String) : Tables :=
  { t with patterns := t.patterns.push pattern }

end Tables

structure Prepared where
  text : String
  groups : Nat

/-- Prepares a pattern and checks that it is a regular expression. -/
def preparePattern [Engine] (definitions : NameMap String) (raw : String) :
    Except CompileError Prepared :=
  match Pattern.prepare definitions raw with
  | .error fault => .error (.unknownVariable fault.name)
  | .ok text => match Pattern.countGroups text with
    | .error cause => .error (.invalidRegex text cause)
    | .ok groups => .ok ⟨text, groups⟩

/-- The table of the captures of a pattern, as long as its greatest group number asks for. -/
def captureTable (captures : Source.Captures) (p : Prepared) : Except CompileError CaptureTable :=
  match captures.greatest? with
  | none => .ok []
  | some greatest =>
    if greatest > p.groups then .error (.invalidCaptureIndex p.text greatest)
    else .ok ((List.range (greatest + 1)).map fun group =>
      ((captures.find? group).bind (·.name)).map Scope.ofString)

/-- The entry that an included name stands for. -/
def referenceEntry (included : String) : Except CompileError Entry :=
  match Reference.ofString? included with
  | some r => .ok (.reference r)
  | none => .error (.unresolvedInclude included)

/-- The captures of a field, or those of the general field if it has none. -/
def Source.Captures.orElse (captures general : Source.Captures) : Source.Captures :=
  if captures.isEmpty then general else captures

theorem Source.Rule.sizeOf_rules_lt (r : Source.Rule) : sizeOf r.rules < sizeOf r := by
  cases r
  simp only [Source.Rule.mk.sizeOf_spec]
  omega

mutual

def compileRule [Engine] (definitions : NameMap String) (raw : Source.Rule) (t : Tables) :
    Except CompileError (RuleId × Tables) := do
  let id := t.rules.size
  let t := t.reserve
  let scope := raw.name.map Scope.ofString
  match raw.single, raw.opening with
  | some single, _ =>
    let p ← preparePattern definitions single
    let pattern := t.patterns.size
    let t := t.addPattern p.text
    let captures ← captureTable raw.captures p
    return (id, t.setRule id (.span { id, scope, pattern, captures }))
  | none, some opening =>
    let p ← preparePattern definitions opening
    let opening := t.patterns.size
    let t := t.addPattern p.text
    let openingCaptures ← captureTable (raw.openingCaptures.orElse raw.captures) p
    match raw.closing with
    | none =>
      return (id, t.setRule id
        (.span { id, scope, pattern := opening, captures := openingCaptures }))
    | some closing =>
      let p ← preparePattern definitions closing
      let closing := t.patterns.size
      let t := t.addPattern p.text
      let closingCaptures ← captureTable (raw.closingCaptures.orElse raw.captures) p
      let (entries, t) ← compileRules definitions raw.rules t
      return (id, t.setRule id (.region {
        id, scope, opening, openingCaptures, closing
        closingIsTemplate := Pattern.Backreference.has p.text
        closingCaptures
        closingFirst := raw.closingLast == some 0
        entries }))
  | none, none => match raw.included with
    | some included =>
      let entry ← referenceEntry included
      return (id, t.setRule id (.container { id, entries := [entry] }))
    | none =>
      if raw.rules.isEmpty then return (id, t)
      else
        let (entries, t) ← compileRules definitions raw.rules t
        return (id, t.setRule id (.container { id, entries }))
termination_by sizeOf raw
decreasing_by all_goals exact Source.Rule.sizeOf_rules_lt raw

/-- Compiles a list of rules. A rule that includes others by name is nothing else. -/
def compileRules [Engine] (definitions : NameMap String) (raws : List Source.Rule) (t : Tables) :
    Except CompileError (List Entry × Tables) := do
  match raws with
  | [] => return ([], t)
  | raw :: raws => match raw.included with
    | some included =>
      let entry ← referenceEntry included
      let (entries, t) ← compileRules definitions raws t
      return (entry :: entries, t)
    | none =>
      let (id, t) ← compileRule definitions raw t
      let (entries, t) ← compileRules definitions raws t
      return (.rule id :: entries, t)
termination_by sizeOf raws

end

variable [Engine]

/-- Compiles the entries of a repository, in the order of their names. -/
def compileRepository (definitions : NameMap String) :
    List (String × Source.Rule) → Tables → Except CompileError (List (String × RuleId) × Tables)
  | [], t => .ok ([], t)
  | (name, raw) :: rest, t => do
    let (id, t) ← compileRule definitions raw t
    let (entries, t) ← compileRepository definitions rest t
    return ((name, id) :: entries, t)

namespace Grammar

/-- The first reference, in the order of the rules, that stands for no rule. -/
def dangling? (g : Grammar) : Option Reference :=
  (g.rules.toList.flatMap Rule.entries).findSome? fun e => match e with
    | .reference r => if (g.resolve r).isNone then some r else none
    | .rule _ => none

def ofSource (source : Source.Grammar) : Except CompileError Grammar := do
  let definitions ← match Pattern.Variable.expandTable source.definitions with
    | .ok table => pure table
    | .error fault => throw (.unknownVariable fault.name)
  let (entries, t) ← compileRules definitions source.rules ({} : Tables).reserve
  let t := t.setRule rootRule (.container { id := rootRule, entries })
  let (repository, t) ← compileRepository definitions source.repository.entries t
  let g : Grammar := {
    name := source.name
    displayName := source.displayName
    description := source.description
    scopeName := source.scopeName
    scope := Scope.ofString source.scopeName
    fileTypes := source.fileTypes
    firstLine := source.firstLine
    patterns := t.patterns
    rules := t.rules
    repository := ⟨repository⟩ }
  match g.dangling? with
  | some r => throw (.unresolvedInclude r.text)
  | none => return g

end Grammar

end ScopedText
