import ScopedText.Engine
import ScopedText.Grammar.Basic

/-!
# Tokens

A token is a span of a text with the scopes that apply to it. A `Cover` is a sequence of tokens that
follow each other from the start of the text up to a position; it only ever grows at that end, and
what is added joins the last token if it has the same scopes.
-/

namespace ScopedText

/-- A span of a text with its scopes, outermost first. -/
structure Token (text : String) where
  span : Span text
  scopes : List Scope
deriving DecidableEq

/-- The tokens of a text up to a position. -/
structure Cover (text : String) where
  /-- The tokens, last one first. -/
  reversed : List (Token text) := []
  upTo : text.Pos := text.startPos

namespace Cover

variable {text : String}

def tokens (c : Cover text) : List (Token text) := c.reversed.reverse

/-- Covers the text up to a position with the given scopes, if it is not covered yet. -/
def extend (c : Cover text) (p : text.Pos) (scopes : List Scope) : Cover text :=
  if h : c.upTo < p then
    let added : Token text := ⟨⟨c.upTo, p, String.Pos.le_of_lt h⟩, scopes⟩
    match c.reversed with
    | [] => ⟨[added], p⟩
    | last :: earlier =>
      if hl : last.span.stop = c.upTo ∧ last.scopes = scopes then
        have hle := String.Pos.le_trans last.span.le (hl.1 ▸ String.Pos.le_of_lt h)
        ⟨⟨⟨last.span.start, p, hle⟩, scopes⟩ :: earlier, p⟩
      else ⟨added :: last :: earlier, p⟩
  else c

/-- A group of a match that has a scope. -/
structure Scoped (text : String) where
  span : Span text
  scope : Scope

/-- The groups of a match that have a scope and took part in it, in the order of their numbers. What
a group matched outside of the whole match, in front or behind, does not count. -/
def scopedGroups (table : CaptureTable) (whole : Span text) (groups : Regex.Groups text) :
    List (Scoped text) :=
  (table.zip groups).filterMap fun
    | (some scope, some span) =>
      let span := span.clampTo whole
      if span.start < span.stop then some ⟨span, scope⟩ else none
    | _ => none

/-- A group whose end has not been reached: the scopes inside of it, and its end. -/
structure OpenGroup (text : String) where
  scopes : List Scope
  stop : text.Pos

/-- Covers the groups that end at a position or before it; the others stay open. -/
def closeUpTo (p : text.Pos) (c : Cover text) :
    List (OpenGroup text) → Cover text × List (OpenGroup text)
  | [] => (c, [])
  | g :: gs => if g.stop ≤ p then closeUpTo p (c.extend g.stop g.scopes) gs else (c, g :: gs)

/-- The scopes inside of the innermost open group, or those outside of all. -/
def innermost (base : List Scope) : List (OpenGroup text) → List Scope
  | [] => base
  | g :: _ => g.scopes

/-- Covers the groups of a match, in which groups may nest. -/
def extendGroups (base : List Scope) (c : Cover text) (opened : List (OpenGroup text)) :
    List (Scoped text) → Cover text
  | [] => opened.foldl (fun c g => c.extend g.stop g.scopes) c
  | g :: gs =>
    let (c, opened) := c.closeUpTo g.span.start opened
    let scopes := innermost base opened
    extendGroups base (c.extend g.span.start scopes) (⟨scopes ++ [g.scope], g.span.stop⟩ :: opened)
      gs

/-- Covers a match: its groups with the scopes that the table gives them on top of the base, and
the rest with the base. -/
def extendMatch {origin : text.Pos} (c : Cover text) (base : List Scope) (table : CaptureTable)
    (m : Regex.Found text origin) : Cover text :=
  (c.extendGroups base [] (scopedGroups table m.span m.groups)).extend m.span.stop base

end Cover

end ScopedText
