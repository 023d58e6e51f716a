import ScopedText.Scan.Move
import ScopedText.Text.Lines

/-!
# Scanning

A scan makes moves from the start of a text until no pattern matches any more; the text that is left
then belongs to the regions that are open. The result is the tokens and the stack at the end, from
which the next line can be scanned. `scan` works with any `Supply` of patterns, in any monad: the
`Supply` decides how a refused pattern stops the scan and whether compiled patterns are kept, and
what to answer for a scan that would make the same move for ever.
-/

namespace ScopedText

variable [Engine] {m : Type → Type} [Monad m]

/-- The move that the closing match of a frame asks for; nothing at the end of the text. -/
def Move.close? {g : Grammar} {text : String} {stack : Stack} {pos : text.Pos} (frame : Frame)
    (outer : List Frame) (frames_eq : stack.frames = frame :: outer)
    (found : Regex.Found text pos) : Option (Move g stack pos) :=
  if h : pos < found.span.stop ∨ frame.entered ≠ some pos.offset.byteIdx then
    some (.closes frame outer found frames_eq h)
  else Move.skip?

/-- The move that a match asks for if it is taken for a closing one. -/
def Move.closeInnermost? {g : Grammar} {text : String} {stack : Stack} {pos : text.Pos}
    (found : Regex.Found text pos) : Option (Move g stack pos) :=
  match h : stack.frames with
  | frame :: outer => Move.close? frame outer h found
  | [] => some (.closesNone found h)

/-- The move that the match of a rule asks for; nothing at the end of the text. -/
@[specialize]
def respondRule (supply : Supply m) (g : Grammar) {text : String} (stack : Stack) (pos : text.Pos)
    (id : RuleId) (found : Regex.Found text pos) : m (Option (Move g stack pos)) :=
  match hr : g.rules[id]? with
  | some (.span rule) =>
    if h : pos < found.span.stop then return some (.span rule found h)
    else return Move.skip?
  | some (.region region) =>
    if h : pos < found.span.stop
        ∨ stack.enteredAt region.id found.span.start.offset.byteIdx = false then do
      let pattern ← supply.closing (region.closingText g found)
      return some (.opens region found pattern.1 (Array.mem_of_getElem? hr) pattern.2 h)
    else return Move.skip?
  | some (.container _) | some .inert | none => return Move.skip?

/-- The move that a match asks for; nothing at the end of the text. Whether the match is a closing
one is told by its number. -/
@[specialize]
def respond (supply : Supply m) (g : Grammar) {text : String} (stack : Stack) (pos : text.Pos) :
    Target stack × Regex.Found text pos → m (Option (Move g stack pos))
  | (.closing frame outer frames_eq, found) => return Move.close? frame outer frames_eq found
  | (.rule id, found) =>
    if g.marks id then return Move.closeInnermost? found
    else respondRule supply g stack pos id found

/-- The move that the first match from a position on asks for; nothing at the end of the scan. -/
@[specialize]
def nextMove (supply : Supply m) (g : Grammar) {text : String} (stack : Stack) (pos : text.Pos) :
    m (Option (Move g stack pos)) := do
  let active ← supply.active stack.rule
  match (stack.targets active).find pos with
  | none => return none
  | some answer => respond supply g stack pos answer

/-- Scans the text from a position on, of which the part before it is covered. -/
@[specialize]
def scanFrom (supply : Supply m) (g : Grammar) {text : String} (stack : Stack) (pos : text.Pos)
    (c : Cover text) : m (Cover text × Stack) := do
  match ← nextMove supply g stack pos with
  | none => return (c.extend text.endPos stack.scopes, stack)
  | some move =>
    if _h : move.stays then supply.never
    else scanFrom supply g move.after move.next (move.extend c)
termination_by (pos.remainingBytes, Move.standing g stack pos)
decreasing_by exact move.measure_lt (Bool.eq_false_iff.mpr _h)

@[specialize]
def scan (supply : Supply m) (g : Grammar) (text : String) (stack : Stack) :
    m (List (Token text) × Stack) := do
  let (c, stack) ← scanFrom supply g stack text.startPos {}
  return (c.tokens, stack)

structure Line where
  text : String
  tokens : List (Token text)

/-- Scans lines one after the other; a region that is open at the end of a line goes on in the next
one. -/
@[specialize]
def scanLines (supply : Supply m) (g : Grammar) (stack : Stack) : List String → m (List Line)
  | [] => return []
  | text :: texts => do
    let (tokens, stack) ← scan supply g text stack
    let lines ← scanLines supply g stack.forgetEntries texts
    return ⟨text, tokens⟩ :: lines

namespace Grammar

def initialStack (g : Grammar) : Stack := { scope := g.scope }

/-- The tokens of a text and the regions that are open at its end. -/
def tokenizeFrom (g : Grammar) (text : String) (stack : Stack) :
    Except ScanError (List (Token text) × Stack) :=
  scan (Supply.direct g) g text stack

/-- The tokens of a text. A region that is open at the end goes up to the end. -/
def tokenize (g : Grammar) (text : String) : Except ScanError (List (Token text)) := do
  let (tokens, _) ← g.tokenizeFrom text g.initialStack
  return tokens

/-- The lines of a text, each with the line feed that ends it, and their tokens. -/
def tokenizeLines (g : Grammar) (text : String) : Except ScanError (List Line) :=
  scanLines (Supply.direct g) g g.initialStack (Text.linesInclusive text)

end Grammar

end ScopedText
