import ScopedText.Memo
import ScopedText.Scan

/-!
# Tokenizers

A `Tokenizer` scans one text after the other with a grammar and keeps the patterns it has compiled,
also after a scan that failed. What it keeps is never seen: every answer is the one that the grammar
gives without it.
-/

namespace ScopedText

variable [Engine]

/-- The patterns of a grammar that have been compiled so far. -/
structure Tokenizer (g : Grammar) where
  active : Memo g.activeSet := {}
  closing : Memo compileClosing := {}

/-- Work with a tokenizer. An error leaves what has been compiled up to it. -/
abbrev Tokenizing (g : Grammar) : Type → Type := ExceptT ScanError (StateM (Tokenizer g))

namespace Tokenizer

variable {g : Grammar}

def new (g : Grammar) : Tokenizer g := {}

def askActive (t : Tokenizer g) (id : RuleId) :
    Except ScanError (Regex.Set RuleId) × Tokenizer g :=
  let (answer, active) := t.active.ask id
  (answer, { t with active })

def askClosing (t : Tokenizer g) (text : String) :
    Except ScanError (PatternOf text) × Tokenizer g :=
  let asked := t.closing.ask text
  (withText text asked.1 (Memo.ask_fst ..), { t with closing := asked.2 })

def supply (g : Grammar) : Supply (Tokenizing g) where
  active id := ExceptT.mk fun t => t.askActive id
  closing text := ExceptT.mk fun t => t.askClosing text
  endless := throw .endless

@[simp] theorem askActive_fst (t : Tokenizer g) (id : RuleId) :
    (t.askActive id).1 = (Supply.direct g).active id := by
  simp [askActive, Supply.direct]

@[simp] theorem askClosing_fst (t : Tokenizer g) (text : String) :
    (t.askClosing text).1 = (Supply.direct g).closing text := by
  simp [askClosing, Supply.direct]

def tokenizeFrom (text : String) (stack : Stack) : Tokenizing g (List (Token text) × Stack) :=
  scan (supply g) g text stack

def tokenize (text : String) : Tokenizing g (List (Token text)) := do
  let (tokens, _) ← tokenizeFrom text g.initialStack
  return tokens

def tokenizeLines (text : String) : Tokenizing g (List Line) :=
  scanLines (supply g) g g.initialStack (Text.linesInclusive text)

/-- The answer of some work that a tokenizer does. -/
def run {α : Type} (t : Tokenizer g) (work : Tokenizing g α) : Except ScanError α :=
  (StateT.run (ExceptT.run work) t).1

/-- Runs some work with a new tokenizer. -/
def runNew {α : Type} (work : Tokenizing g α) : Except ScanError α := (new g).run work

end Tokenizer

end ScopedText
