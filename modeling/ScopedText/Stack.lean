import ScopedText.Grammar.Basic
import ScopedText.Pattern.Basic
import ScopedText.Text.Quoted

/-!
# Open regions

The regions that are open at a position of a text, each with the scopes that apply inside of it.
Below all of them lies the grammar itself, which never closes, so a `Stack` is the grammar's scope
and a list of frames. Saving the stack at the end of a line is all it takes to go on from there
later.
-/

namespace ScopedText

variable [Engine]

/-- The closing pattern of an open region, with the texts of the opening match filled in. -/
structure Closer where
  pattern : Pattern
  /-- Whether it comes before the rules of the region where both match. -/
  first : Bool

def Closer.describe (c : Closer) : String :=
  "EndMatcher(" ++ Text.quote c.pattern.text ++ ", first=" ++ toString c.first ++ ")"

structure Frame where
  rule : RuleId
  /-- The scopes that apply inside of the region, outermost first. -/
  scopes : List Scope
  closer : Closer
  /-- The offset at which the opening match began, in the text that is being scanned. -/
  entered : Option Nat

/-- The open regions, innermost first. -/
structure Stack where
  /-- The scope of the grammar. -/
  scope : Scope
  frames : List Frame := []

namespace Stack

def depth (s : Stack) : Nat := s.frames.length

def rule (s : Stack) : RuleId :=
  match s.frames with
  | frame :: _ => frame.rule
  | [] => rootRule

/-- The scopes that apply, outermost first. -/
def scopes (s : Stack) : List Scope :=
  match s.frames with
  | frame :: _ => frame.scopes
  | [] => [s.scope]

def push (s : Stack) (rule : RuleId) (scope : Option Scope) (closer : Closer) (entered : Nat) :
    Stack :=
  { s with frames := ⟨rule, s.scopes ++ scope.toList, closer, some entered⟩ :: s.frames }

/-- The innermost region and the stack without it; nothing if no region is open. -/
def pop? (s : Stack) : Option (Frame × Stack) :=
  match s.frames with
  | frame :: frames => some (frame, { s with frames })
  | [] => none

/-- Whether a rule was entered at an offset and is still open. -/
def enteredAt (s : Stack) (rule : RuleId) (offset : Nat) : Bool :=
  s.frames.any fun frame => frame.rule == rule && frame.entered == some offset

/-- Forgets where the regions were entered. Offsets mean nothing in another text. -/
def forgetEntries (s : Stack) : Stack :=
  { s with frames := s.frames.map fun frame => { frame with entered := none } }

/-- The line that shows a level of the stack. -/
def describeLevel (depth : Nat) (rule : RuleId) (scope : Option Scope) (closer : Option Closer)
    (entered : Option Nat) : String :=
  String.ofList (List.replicate (2 * depth) ' ') ++ "rule=" ++ toString rule
    ++ (match scope with
      | some scope => " scope=" ++ scope.name
      | none => "")
    ++ (match closer with
      | some closer => ", end_pattern=\"" ++ closer.pattern.text ++ "\""
      | none => "")
    ++ (match entered with
      | some offset => ", enter_pos=" ++ toString offset
      | none => "")
    ++ "\n"

/-- How a stack is shown: a line for each level, the grammar first. -/
def describe (s : Stack) : String :=
  "ScopeStack:\n" ++ describeLevel 0 rootRule (some s.scope) none none
    ++ String.join (s.frames.reverse.zipIdx.map fun (frame, i) =>
      describeLevel (i + 1) frame.rule frame.scopes.getLast? (some frame.closer) frame.entered)

@[simp] theorem scopes_push (s : Stack) (rule : RuleId) (scope : Option Scope) (closer : Closer)
    (entered : Nat) : (s.push rule scope closer entered).scopes = s.scopes ++ scope.toList := rfl

theorem enteredAt_push (s : Stack) (rule : RuleId) (scope : Option Scope) (closer : Closer)
    (entered : Nat) (id : RuleId) (offset : Nat) :
    (s.push rule scope closer entered).enteredAt id offset
      = (rule == id && entered == offset || s.enteredAt id offset) := by
  simp [push, enteredAt]

end Stack

end ScopedText
