import ScopedText.Grammar.Active
import ScopedText.Grammar.Error
import ScopedText.Pattern.Basic

/-!
# The patterns of a scan

A scan needs the active patterns of a rule, compiled together, and the closing pattern of a region
that opens. Both are compiled only when a scan gets there, so both can be refused in the middle of a
text. A `Supply` is where a scan takes them from; `Supply.direct` compiles them each time.
-/

namespace ScopedText

/-- Why a scan has no tokens for a text. -/
inductive ScanError
  /-- A closing pattern that is refused, with the texts of the opening match in it. -/
  | closing (pattern : String)
  /-- One of so many active patterns is refused. -/
  | active (patterns : Nat) (cause : Regex.Error)
  /-- Nothing is refused, but the scan goes on for ever. -/
  | endless
deriving DecidableEq, Repr

/-- The report of a scan that goes on for ever: one turn comes after the other, so there is none. -/
def ScanError.unreported (turn : Nat) : Option String :=
  repeatM (fun turn => some (.inl (turn + 1))) turn

def ScanError.message : ScanError → String
  | closing pattern => "End pattern '" ++ pattern ++ "' does not compile"
  | active patterns cause =>
    "Failed to compile pattern set with " ++ toString patterns ++ " patterns: Error(OnigError("
      ++ toString cause.code ++ "), " ++ cause.description ++ ")"
  | endless => (unreported 0).getD ""

variable [Engine]

def compileTogether (patterns : List (RuleId × String)) : Except ScanError (Regex.Set RuleId) :=
  (Regex.Set.ofPatterns patterns).mapError (.active patterns.length)

def Grammar.activeSet (g : Grammar) (id : RuleId) : Except ScanError (Regex.Set RuleId) :=
  compileTogether (g.active id)

abbrev PatternOf (text : String) := { p : Pattern // p.text = text }

def compileClosing (text : String) : Except ScanError Pattern :=
  let p := Pattern.ofString text
  if p.compiles then .ok p else .error (.closing text)

theorem text_of_compileClosing {text : String} {p : Pattern} (h : compileClosing text = .ok p) :
    p.text = text := by
  unfold compileClosing at h
  simp only at h
  split at h
  · injection h with h
    subst h
    rfl
  · contradiction

/-- Where the scans of a grammar take their patterns from. -/
structure Supply (m : Type → Type) where
  /-- The active patterns of a rule. -/
  active : RuleId → m (Regex.Set RuleId)
  /-- The closing pattern with the given text. -/
  closing : (text : String) → m (PatternOf text)
  /-- What stands for a scan that goes on for ever; it comes to no result. -/
  endless : m Empty

/-- A computed closing pattern together with the fact that it has the text it was asked for. -/
def withText (text : String) (r : Except ScanError Pattern) (h : r = compileClosing text) :
    Except ScanError (PatternOf text) :=
  match r, h with
  | .ok p, h => .ok ⟨p, text_of_compileClosing h.symm⟩
  | .error e, _ => .error e

namespace Supply

/-- The answer of a scan that goes on for ever. -/
def never {m : Type → Type} [Monad m] {α : Type} (supply : Supply m) : m α := do
  nomatch ← supply.endless

/-- Nothing comes after a scan that goes on for ever. -/
theorem map_never {m : Type → Type} [Monad m] [LawfulMonad m] {α β : Type} (supply : Supply m)
    (f : α → β) : f <$> (supply.never : m α) = supply.never := by
  simp only [never, map_bind]
  congr 1
  funext impossible
  cases impossible

/-- Compiles every pattern when it is asked for. -/
def direct (g : Grammar) : Supply (Except ScanError) where
  active := g.activeSet
  closing text := withText text (compileClosing text) rfl
  endless := .error .endless

end Supply

end ScopedText
