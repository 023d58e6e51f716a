import ScopedText.NameMap
import ScopedText.Scope

/-!
# Grammars

A compiled grammar is a table of rules. A rule matches a single span, or it is a region with an
opening and a closing pattern, or a container that only lists other rules. Lists name rules by their
number in the table, or by a reference that is looked up when the list is used, so that rules can
include each other.
-/

namespace ScopedText

/-- The number of a rule in the table of its grammar. Tables of up to 2 ^ 16 rules are modelled, in
which a rule's place is its number in 16 bits. -/
abbrev RuleId := Nat

abbrev PatternId := Nat

/-- The rule list of the grammar itself. -/
def rootRule : RuleId := 0

/-- The number that marks the match of a closing pattern, the greatest of 16 bits. -/
def closingMark : RuleId := 65535

/-- A rule that is included by name. -/
inductive Reference
  /-- The rule list of the grammar itself. -/
  | root
  /-- An entry of the repository. -/
  | named (name : String)
deriving DecidableEq, Repr

namespace Reference

/-- Reads a reference: `$self` and `$base` are the grammar itself, `#name` is an entry of the
repository. -/
def ofString? (s : String) : Option Reference :=
  if s = "$self" ∨ s = "$base" then some root
  else match s.toList with
    | '#' :: c :: cs => some (named (String.ofList (c :: cs)))
    | _ => none

def text : Reference → String
  | root => "$self"
  | named name => "#" ++ name

end Reference

inductive Entry
  | rule (id : RuleId)
  | reference (r : Reference)
deriving DecidableEq, Repr

/-- The scopes of the groups of a match, from the whole match on. -/
abbrev CaptureTable := List (Option Scope)

/-- A rule that matches a single span. -/
structure SpanRule where
  id : RuleId
  scope : Option Scope
  pattern : PatternId
  captures : CaptureTable
deriving DecidableEq, Repr

/-- A region between an opening and a closing match. -/
structure Region where
  id : RuleId
  scope : Option Scope
  opening : PatternId
  openingCaptures : CaptureTable
  closing : PatternId
  /-- Whether the closing pattern needs the texts of the opening match. -/
  closingIsTemplate : Bool
  closingCaptures : CaptureTable
  /-- Whether the closing pattern comes before the rules of the region. -/
  closingFirst : Bool
  entries : List Entry
deriving DecidableEq, Repr

/-- A rule that only lists other rules. -/
structure Container where
  id : RuleId
  entries : List Entry
deriving DecidableEq, Repr

inductive Rule
  | span (r : SpanRule)
  | region (r : Region)
  | container (r : Container)
  /-- A rule without any effect. -/
  | inert
deriving DecidableEq, Repr

namespace Rule

/-- The rules that are active inside of a rule. -/
def entries : Rule → List Entry
  | region r => r.entries
  | container r => r.entries
  | span _ | inert => []

end Rule

structure Grammar where
  name : String
  displayName : Option String
  description : Option String
  scopeName : String
  scope : Scope
  fileTypes : List String
  firstLine : Option String
  /-- The prepared patterns. -/
  patterns : Array String
  rules : Array Rule
  repository : NameMap RuleId
deriving DecidableEq, Repr

namespace Grammar

def resolve (g : Grammar) : Reference → Option RuleId
  | .root => some rootRule
  | .named name => g.repository.find? name

def target? (g : Grammar) : Entry → Option RuleId
  | .rule id => some id
  | .reference r => g.resolve r

def patternText (g : Grammar) (id : PatternId) : String := g.patterns[id]?.getD ""

/-- Whether a rule bears the number that marks closing matches. -/
def marks (g : Grammar) (id : RuleId) : Bool := id == closingMark && decide (id < g.rules.size)

def entries (g : Grammar) (id : RuleId) : List Entry := (g.rules[id]?.map Rule.entries).getD []

theorem marks_eq_false {g : Grammar} (h : g.rules.size ≤ closingMark) (id : RuleId) :
    g.marks id = false := by
  unfold marks
  by_cases hid : id = closingMark
  · subst hid
    simp [Nat.not_lt.mpr h]
  · simp [hid]

end Grammar

end ScopedText
