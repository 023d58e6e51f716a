import ScopedText.Grammar.Compile
import ScopedText.Source.Settings

/-!
# Editor settings

Settings apply to the scope of their selector and to every scope that continues it. The patterns of
a file are checked when it is compiled, and one that is refused refuses the whole file.
-/

namespace ScopedText

variable [Engine]

/-- The settings for a scope and everything below it. -/
structure Settings where
  selector : Scope
  /-- What to put at the start of a line to comment it out. -/
  commentStart : Option String
  increaseIndent : Option Pattern
  decreaseIndent : Option Pattern

namespace Settings

/-- The scope that a selector names; dots in front of it do not count. -/
def selectorScope (selector : String) : Scope :=
  Scope.ofString (String.ofList (selector.toList.dropWhile (· == '.')))

def compileHint : Option String → Except CompileError (Option Pattern)
  | none => .ok none
  | some raw => do
    let p ← preparePattern {} raw
    return some (Pattern.ofString p.text)

def ofEntry (selector : String) (source : Source.EditorSettings) :
    Except CompileError Settings := do
  let increaseIndent ← compileHint source.increaseIndent
  let decreaseIndent ← compileHint source.decreaseIndent
  return {
    selector := selectorScope selector
    commentStart := source.commentStart
    increaseIndent
    decreaseIndent }

def ofSource (source : Source.Settings) : Except CompileError (List Settings) :=
  source.entries.mapM fun (selector, entry) => ofEntry selector entry

def appliesTo (s : Settings) (scope : Scope) : Bool := s.selector.isPrefixOf scope

/-- Whether the line after this one is to be indented one level more. -/
def suggestsIncrease (s : Settings) (line : String) : Bool :=
  s.increaseIndent.any (·.isMatch line)

/-- Whether this line is to be indented one level less than the one before it. -/
def suggestsDecrease (s : Settings) (line : String) : Bool :=
  s.decreaseIndent.any (·.isMatch line)

/-- The settings that apply to a scope with the longest selector; of several such, the last. -/
def choose? (settings : List Settings) (scope : Scope) : Option Settings :=
  (settings.filter (·.appliesTo scope)).foldl (fun best s =>
    match best with
    | none => some s
    | some b => if s.selector.length < b.selector.length then some b else some s) none

end Settings

end ScopedText
