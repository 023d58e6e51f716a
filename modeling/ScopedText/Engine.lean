import ScopedText.Regex.Error
import ScopedText.Span

/-!
# Engines

Patterns are regular expressions of an engine from outside. `Engine` is what a scanner asks of it:
to compile a pattern, and to search a text for one expression or for several at once. A match lies
in the text, at or after the position from which it was searched for, and so does each group that
took part in it (`Found`).

The whole text is searched, not the part from that position on, so that lookbehinds and anchors see
what comes before. Most of what is known of a scan needs no more than that. What depends on which
match is found relies on a `LawfulEngine`: the leftmost match wins, and of several expressions that
match there the one listed first.
-/

namespace ScopedText

namespace Regex

/-- Which groups of a pattern capture. -/
inductive Capturing
  /-- The named groups, or all groups if none has a name. -/
  | namedFirst
  /-- Named and plain groups alike. -/
  | all
deriving DecidableEq, Repr

/-- What each group matched last, from group 1 on. -/
abbrev Groups (text : String) := List (Option (Span text))

/-- A match found by a search from the position `origin`. -/
structure Found (text : String) (origin : text.Pos) where
  span : Span text
  le : origin ≤ span.start
  /-- What the groups matched, from group 1 on. -/
  captured : Groups text

variable {text : String} {origin : text.Pos}

/-- What the groups matched, the whole match first. -/
def Found.groups (m : Found text origin) : Groups text := some m.span :: m.captured

/-- The first answer at `p` or a later position. -/
def firstFrom {β : Type} (attempt : (p : text.Pos) → origin ≤ p → Option β) (p : text.Pos)
    (hp : origin ≤ p) : Option β :=
  match attempt p hp with
  | some b => some b
  | none =>
    if h : p = text.endPos then none
    else
      firstFrom attempt (p.next h)
        (String.Pos.le_trans hp (String.Pos.le_of_lt String.Pos.lt_next))
termination_by p.remainingBytes
decreasing_by exact (String.Pos.lt_iff_remainingBytes_lt _ _).mp String.Pos.lt_next

/-- The first answer of a list, with its label. -/
def firstAmong {ι α β : Type} (attempt : α → Option β) : List (ι × α) → Option (ι × β)
  | [] => none
  | (label, a) :: items => match attempt a with
    | some b => some (label, b)
    | none => firstAmong attempt items

end Regex

/-- An engine for regular expressions. -/
class Engine where
  /-- What a pattern compiles to. -/
  Compiled : Type
  compile : Regex.Capturing → String → Except Regex.Error Compiled
  /-- The number of groups, not counting the whole match. -/
  groups : Compiled → Nat
  /-- The match at exactly this position, for a search that started at `origin`. -/
  matchAt (regex : Compiled) {text : String} {origin : text.Pos} (p : text.Pos) (hp : origin ≤ p) :
    Option (Regex.Found text origin)
  /-- The match at or after a position. -/
  find (regex : Compiled) {text : String} (origin : text.Pos) : Option (Regex.Found text origin)
  /-- The match of one of several expressions at or after a position, with its label. -/
  findAmong {ι : Type} (regexes : List (ι × Compiled)) {text : String} (origin : text.Pos) :
    Option (ι × Regex.Found text origin)

/-- A search finds the first place where there is a match, and there the first expression of several
that has one. -/
class LawfulEngine [Engine] : Prop where
  start_matchAt {regex : Engine.Compiled} {text : String} {origin p : text.Pos} {hp : origin ≤ p}
    {m : Regex.Found text origin} : Engine.matchAt regex p hp = some m → m.span.start = p
  length_matchAt {regex : Engine.Compiled} {text : String} {origin p : text.Pos} {hp : origin ≤ p}
    {m : Regex.Found text origin} :
    Engine.matchAt regex p hp = some m → m.captured.length = Engine.groups regex
  find_leftmost (regex : Engine.Compiled) {text : String} (origin : text.Pos) :
    Engine.find regex origin = Regex.firstFrom (fun p hp => Engine.matchAt regex p hp) origin
      (String.Pos.le_refl origin)
  findAmong_leftmost {ι : Type} (regexes : List (ι × Engine.Compiled)) {text : String}
    (origin : text.Pos) :
    Engine.findAmong regexes origin
      = Regex.firstFrom (fun p hp => Regex.firstAmong (Engine.matchAt · p hp) regexes) origin
        (String.Pos.le_refl origin)

namespace Regex

/-- Expressions that are searched for together, each with a label. -/
structure Set [Engine] (ι : Type) where
  entries : List (ι × Engine.Compiled)

namespace Set

variable [Engine] {ι : Type}

/-- Compiles the patterns, in which plain groups capture next to named ones; the first one that is
refused gives the error. -/
def ofPatterns : List (ι × String) → Except Error (Set ι)
  | [] => .ok ⟨[]⟩
  | (label, pattern) :: items => do
    let regex ← Engine.compile .all pattern
    let rest ← ofPatterns items
    return ⟨(label, regex) :: rest.entries⟩

def find {text : String} (s : Set ι) (origin : text.Pos) : Option (ι × Found text origin) :=
  Engine.findAmong s.entries origin

theorem find_eq [LawfulEngine] {text : String} (s : Set ι) (origin : text.Pos) :
    s.find origin
      = firstFrom (fun p hp => firstAmong (Engine.matchAt · p hp) s.entries) origin
        (String.Pos.le_refl origin) :=
  LawfulEngine.findAmong_leftmost s.entries origin

end Set

end Regex

end ScopedText
