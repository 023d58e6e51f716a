import ScopedText.Regex.Basic

/-!
# Matching

`Expr.run` matches an expression at a position of a text by backtracking. It is written in
continuation-passing style: the continuation says whether the rest succeeds, and the first way to
match that makes it succeed is taken. Positions are valid positions of the text, and a `State`
carries the proof that matching has not moved back, so every span is ordered by construction.

A repetition stops after an iteration that takes no text. Every other iteration takes some, so the
text left bounds the number of iterations and the recursion is on a plain number.
-/

namespace ScopedText

namespace Regex

/-- Where a match that began at `start` has got to. -/
structure State (text : String) (start : text.Pos) where
  pos : text.Pos
  le : start ≤ pos
  groups : Groups text

variable {text : String}

def before? (p : text.Pos) : Option Char :=
  if h : p = text.startPos then none else (p.prev h).get?

def afterWord (p : text.Pos) : Bool := (before? p).any Unicode.Property.isWord

def beforeWord (p : text.Pos) : Bool := p.get?.any Unicode.Property.isWord

/-- Whether the position is before a line feed that ends the text. -/
def beforeLastLineFeed (p : text.Pos) : Bool :=
  if h : p = text.endPos then false else p.get h == '\n' && p.next h == text.endPos

/-- Whether the condition holds at a position of a search that started at `origin`. -/
def Anchor.holds (a : Anchor) (origin p : text.Pos) : Bool :=
  match a with
  | lineStart => p == text.startPos || (before? p == some '\n' && p != text.endPos)
  | lineEnd => p == text.endPos || p.get? == some '\n'
  | textStart => p == text.startPos
  | textEnd => p == text.endPos
  | lastLineEnd => p == text.endPos || beforeLastLineFeed p
  | searchStart => p == origin
  | wordEdge => afterWord p != beforeWord p
  | noWordEdge => afterWord p == beforeWord p

/-- Follows the text between two positions at another one; `none` if the text there differs. -/
def follow (ignoreCase : Bool) (source stop : text.Pos) (p : text.Pos) :
    Option { q : text.Pos // p ≤ q } :=
  if source < stop then
    if hs : source = text.endPos then some ⟨p, String.Pos.le_refl p⟩
    else if hp : p = text.endPos then none
    else
      let c := source.get hs
      let d := p.get hp
      if c == d || (ignoreCase && Unicode.fold c == Unicode.fold d) then
        match follow ignoreCase (source.next hs) stop (p.next hp) with
        | some ⟨q, hq⟩ =>
          some ⟨q, String.Pos.le_trans (String.Pos.le_of_lt String.Pos.lt_next) hq⟩
        | none => none
      else none
  else some ⟨p, String.Pos.le_refl p⟩
termination_by source.remainingBytes
decreasing_by exact (String.Pos.lt_iff_remainingBytes_lt _ _).mp String.Pos.lt_next

/-- A position at which one of the groups is found again: the first that participated and whose
text follows. -/
def followGroup (ignoreCase : Bool) (groups : Groups text) (p : text.Pos) :
    List Nat → Option { q : text.Pos // p ≤ q }
  | [] => none
  | n :: ns => match groups[n - 1]? with
    | some (some span) => match follow ignoreCase span.start span.stop p with
      | some q => some q
      | none => followGroup ignoreCase groups p ns
    | _ => followGroup ignoreCase groups p ns

def times {start : text.Pos} {β : Type}
    (step : State text start → (State text start → Option β) → Option β) :
    Nat → State text start → (State text start → Option β) → Option β
  | 0, st, k => k st
  | n + 1, st, k => step st fun st => times step n st k

/-- Runs a step at most so many times, as often as possible first if `greedy` is set. A step that
takes no text is the last one. -/
def upTo {start : text.Pos} {β : Type}
    (step : State text start → (State text start → Option β) → Option β) (greedy : Bool) :
    Nat → State text start → (State text start → Option β) → Option β
  | 0, st, k => k st
  | n + 1, st, k =>
    if greedy then
      match step st fun st' => if st'.pos = st.pos then k st' else upTo step greedy n st' k with
      | some b => some b
      | none => k st
    else
      match k st with
      | some b => some b
      | none => step st fun st' => if st'.pos = st.pos then k st' else upTo step greedy n st' k

/-- Tries the positions from `p` backwards, at most so many characters back. -/
def backFrom {β : Type} (attempt : text.Pos → Option β) : Nat → text.Pos → Option β
  | 0, p => attempt p
  | n + 1, p => match attempt p with
    | some b => some b
    | none => if h : p = text.startPos then none else backFrom attempt n (p.prev h)

def Expr.run (origin : text.Pos) (e : Expr) {start : text.Pos} {β : Type}
    (st : State text start) (k : State text start → Option β) : Option β :=
  match e with
  | .empty => k st
  | .one s =>
    if h : st.pos = text.endPos then none
    else if s.contains (st.pos.get h) then
      k ⟨st.pos.next h,
        String.Pos.le_trans st.le (String.Pos.le_of_lt String.Pos.lt_next), st.groups⟩
    else none
  | .anchor a => if a.holds origin st.pos then k st else none
  | .backref ns ignoreCase => match followGroup ignoreCase st.groups st.pos ns with
    | some ⟨q, hq⟩ => k ⟨q, String.Pos.le_trans st.le hq, st.groups⟩
    | none => none
  | .group n e =>
    e.run origin ⟨st.pos, String.Pos.le_refl _, st.groups⟩ fun st' =>
      k ⟨st'.pos, String.Pos.le_trans st.le st'.le,
        st'.groups.set (n - 1) (some ⟨st.pos, st'.pos, st'.le⟩)⟩
  | .seq e f => e.run origin st fun st => f.run origin st k
  | .alt e f => match e.run origin st k with
    | some b => some b
    | none => f.run origin st k
  | .repeated low high greedy e =>
    times (fun st k => e.run origin st k) low st fun st =>
      let bound := match high with
        | some h => h - low
        | none => st.pos.remainingBytes + 1
      upTo (fun st k => e.run origin st k) greedy bound st k
  | .atomic e => match e.run origin st some with
    | some st => k st
    | none => none
  | .ahead negative e => match e.run origin st some, negative with
    | some st', false => k { st with groups := st'.groups }
    | none, true => k st
    | _, _ => none
  | .behind negative e =>
    let reach := match e.maxLength with
      | some n => n
      | none => st.pos.offset.byteIdx
    let attempt (p : text.Pos) : Option (Groups text) :=
      e.run origin ⟨p, String.Pos.le_refl p, st.groups⟩ fun st' =>
        if st'.pos = st.pos then some st'.groups else none
    match backFrom attempt reach st.pos, negative with
    | some groups, false => k { st with groups }
    | none, true => k st
    | _, _ => none

end Regex

end ScopedText
