import ScopedText.Scan.Supply
import ScopedText.Stack
import ScopedText.Token

/-!
# Moves of a scan

A scan has got to a position of a text with some regions open. The first match from there on, of an
active pattern or of the closing pattern of the innermost region, decides the `Move`: the match of a
span rule, a region that opens or closes, or a character that is stepped over because the match
takes no text and would be found again for ever. Each move says where the scan goes on, with which
regions open, and which tokens it adds.

A move that takes no text opens a rule that was not entered at this position, or closes a region
that was not entered here; neither can be undone without taking text, so no sequence of such moves
is endless (`Move.measure_lt`). The exception is a move that `stays`: the match of the rule that
bears the number of closing matches, where no region is open. It changes nothing, and would be made
again for ever.
-/

namespace ScopedText

/-- The text of the closing pattern of a region, given the opening match. -/
def Region.closingText (g : Grammar) (r : Region) {text : String} {pos : text.Pos}
    (m : Regex.Found text pos) : String :=
  let written := g.patternText r.closing
  if r.closingIsTemplate then
    Pattern.Backreference.fill written (m.groups.map fun group => group.map Span.text)
  else written

theorem countP_lt_countP {α : Type} {p q : α → Bool} {l : List α} {a : α} (ha : a ∈ l)
    (hpq : ∀ x ∈ l, p x = true → q x = true) (hp : p a = false) (hq : q a = true) :
    l.countP p < l.countP q := by
  obtain ⟨before, after, rfl⟩ := List.append_of_mem ha
  have hb : before.countP p ≤ before.countP q :=
    List.countP_mono_left fun x hx => hpq x (by simp [hx])
  have hc : after.countP p ≤ after.countP q :=
    List.countP_mono_left fun x hx => hpq x (by simp [hx])
  simp only [List.countP_append, List.countP_cons, hp, hq]
  simp only [Bool.false_eq_true, if_false, if_true]
  omega

variable [Engine]

/-- What a scan looks for: a rule, or the end of the innermost region. -/
inductive Target (stack : Stack)
  | rule (id : RuleId)
  | closing (frame : Frame) (outer : List Frame) (frames_eq : stack.frames = frame :: outer)

/-- The patterns a scan looks for. The closing pattern of the innermost region is one of them; it
comes before the active patterns or after them, which decides where both match. -/
def Stack.targets (stack : Stack) (active : Regex.Set RuleId) : Regex.Set (Target stack) :=
  let rules := active.entries.map fun (id, regex) => (Target.rule id, regex)
  match h : stack.frames with
  | [] => ⟨rules⟩
  | frame :: outer => match frame.closer.pattern.regex with
    | .error _ => ⟨rules⟩
    | .ok regex =>
      if frame.closer.first then ⟨(.closing frame outer h, regex) :: rules⟩
      else ⟨rules ++ [(.closing frame outer h, regex)]⟩

inductive Move (g : Grammar) {text : String} (stack : Stack) (pos : text.Pos)
  /-- Nothing happens before the next character. -/
  | skip (inside : pos ≠ text.endPos)
  /-- A span rule matches. -/
  | span (rule : SpanRule) (m : Regex.Found text pos) (advances : pos < m.span.stop)
  /-- A region opens. -/
  | opens (region : Region) (m : Regex.Found text pos) (pattern : Pattern)
      (mem : Rule.region region ∈ g.rules) (text_eq : pattern.text = region.closingText g m)
      (advances : pos < m.span.stop
        ∨ stack.enteredAt region.id m.span.start.offset.byteIdx = false)
  /-- The innermost region closes. -/
  | closes (frame : Frame) (outer : List Frame) (m : Regex.Found text pos)
      (frames_eq : stack.frames = frame :: outer)
      (advances : pos < m.span.stop ∨ frame.entered ≠ some pos.offset.byteIdx)
  /-- A match is taken for a closing one where no region is open. -/
  | closesNone (m : Regex.Found text pos) (frames_eq : stack.frames = [])

namespace Move

variable {g : Grammar} {text : String} {stack : Stack} {pos : text.Pos}

/-- The move that steps over a character, if there is one left. -/
def skip? : Option (Move g stack pos) :=
  if h : pos = text.endPos then none else some (.skip h)

def next : Move g stack pos → text.Pos
  | skip inside => pos.next inside
  | span _ m _ | opens _ m _ _ _ _ | closes _ _ m _ _ | closesNone m _ => m.span.stop

/-- Whether the scan goes on where it stands, with the same regions open. -/
def stays : Move g stack pos → Bool
  | closesNone m _ => !decide (pos < m.span.stop)
  | skip _ | span _ _ _ | opens _ _ _ _ _ _ | closes _ _ _ _ _ => false

/-- The regions that are open from there on. -/
def after : Move g stack pos → Stack
  | skip _ | span _ _ _ | closesNone _ _ => stack
  | opens region m pattern _ _ _ =>
    stack.push region.id region.scope ⟨pattern, region.closingFirst⟩ m.span.start.offset.byteIdx
  | closes _ outer _ _ _ => { stack with frames := outer }

def closingCaptures (g : Grammar) (id : RuleId) : CaptureTable :=
  match g.rules[id]? with
  | some (.region region) => region.closingCaptures
  | _ => []

/-- The tokens after the move. The text before a match has the scopes of the regions that were open,
and what opens or closes a region lies inside of it. -/
def extend (move : Move g stack pos) (c : Cover text) : Cover text :=
  match move with
  | skip inside => c.extend (pos.next inside) stack.scopes
  | span rule m _ =>
    (c.extend m.span.start stack.scopes).extendMatch (stack.scopes ++ rule.scope.toList)
      rule.captures m
  | opens region m _ _ _ _ =>
    (c.extend m.span.start stack.scopes).extendMatch (stack.scopes ++ region.scope.toList)
      region.openingCaptures m
  | closes frame _ m _ _ =>
    (c.extend m.span.start stack.scopes).extendMatch stack.scopes (closingCaptures g frame.rule) m
  | closesNone m _ =>
    (c.extend m.span.start stack.scopes).extendMatch stack.scopes (closingCaptures g rootRule) m

/-- The regions that were not entered at a position, as rules that can still open there without
taking text. -/
def unentered (g : Grammar) (stack : Stack) (pos : text.Pos) : Nat :=
  g.rules.toList.countP fun
    | .region region => !stack.enteredAt region.id pos.offset.byteIdx
    | _ => false

/-- How many moves that take no text are left at a position: the regions that were not entered here,
as rules that can still open and as frames that can still close. -/
def standing (g : Grammar) (stack : Stack) (pos : text.Pos) : Nat :=
  unentered g stack pos
  + stack.frames.countP fun frame => frame.entered != some pos.offset.byteIdx

omit [Engine] in
/-- A match that does not go beyond the position at which the search began takes no text there. -/
theorem eq_of_not_lt {m : Regex.Found text pos} (h : ¬ pos < m.span.stop) :
    m.span.start = pos ∧ m.span.stop = pos := by
  have hstop : m.span.stop ≤ pos := Std.not_lt.mp h
  have hstart : m.span.start ≤ pos := Std.le_trans m.span.le hstop
  exact ⟨Std.le_antisymm hstart m.le, Std.le_antisymm hstop (Std.le_trans m.le m.span.le)⟩

/-- A move that takes no text opens a region that was not entered where the scan stands, or closes
one that was not entered there. -/
theorem opens_or_closes_of_not_lt (move : Move g stack pos) (hmoves : move.stays = false)
    (h : ¬ pos < move.next) :
    move.next = pos
      ∧ ((∃ region closer, Rule.region region ∈ g.rules
          ∧ stack.enteredAt region.id pos.offset.byteIdx = false
          ∧ move.after = stack.push region.id region.scope closer pos.offset.byteIdx)
        ∨ ∃ frame outer, stack.frames = frame :: outer ∧ frame.entered ≠ some pos.offset.byteIdx
          ∧ move.after = { stack with frames := outer }) := by
  cases move with
  | skip inside => exact absurd (@String.Pos.lt_next _ _ inside) h
  | span rule m advances => exact absurd advances h
  | opens region m pattern mem text_eq advances =>
    obtain ⟨hstart, hstop⟩ := eq_of_not_lt h
    have hentered := advances.resolve_left h
    rw [hstart] at hentered
    exact ⟨hstop, .inl ⟨region, ⟨pattern, region.closingFirst⟩, mem, hentered,
      by rw [after, hstart]⟩⟩
  | closes frame outer m frames_eq advances =>
    obtain ⟨_, hstop⟩ := eq_of_not_lt h
    exact ⟨hstop, .inr ⟨frame, outer, frames_eq, advances.resolve_left h, rfl⟩⟩
  | closesNone m frames_eq =>
    have hlt : pos < m.span.stop := by simpa [stays] using hmoves
    exact absurd hlt h

theorem le_next (move : Move g stack pos) : pos ≤ move.next := by
  cases move with
  | skip inside => exact String.Pos.le_of_lt (@String.Pos.lt_next _ _ inside)
  | span _ m _ | opens _ m _ _ _ _ | closes _ _ m _ _ | closesNone m _ =>
    exact Std.le_trans m.le m.span.le

/-- A region that opens where it was not entered before was one that could still open there. -/
theorem unentered_push_lt {region : Region} (mem : Rule.region region ∈ g.rules)
    (h : stack.enteredAt region.id pos.offset.byteIdx = false) (scope : Option Scope)
    (closer : Closer) :
    unentered g (stack.push region.id scope closer pos.offset.byteIdx) pos
      < unentered g stack pos := by
  refine countP_lt_countP (Array.mem_toList_iff.mpr mem) ?_ ?_ ?_
  · intro rule _ hrule
    cases rule with
    | region other =>
      simp only [Stack.enteredAt_push, Bool.not_eq_true', Bool.or_eq_false_iff] at hrule ⊢
      exact hrule.2
    | span | container | inert => simp at hrule
  · simp [Stack.enteredAt_push]
  · simp [h]

/-- Opening a region where it was not entered before leaves fewer moves that take no text. -/
theorem standing_push_lt {region : Region} (mem : Rule.region region ∈ g.rules)
    (h : stack.enteredAt region.id pos.offset.byteIdx = false) (scope : Option Scope)
    (closer : Closer) :
    standing g (stack.push region.id scope closer pos.offset.byteIdx) pos
      < standing g stack pos := by
  have hframes : (stack.push region.id scope closer pos.offset.byteIdx).frames.countP
        (fun frame => frame.entered != some pos.offset.byteIdx)
      = stack.frames.countP fun frame => frame.entered != some pos.offset.byteIdx := by
    simp [Stack.push]
  unfold standing
  rw [hframes]
  exact Nat.add_lt_add_right (unentered_push_lt mem h scope closer) _

/-- Closing a region that was not entered here opens no rule again. -/
theorem unentered_frames {frame : Frame} {outer : List Frame}
    (hframes : stack.frames = frame :: outer) (h : frame.entered ≠ some pos.offset.byteIdx) :
    unentered g { stack with frames := outer } pos = unentered g stack pos := by
  have hentered (id : RuleId) : Stack.enteredAt { stack with frames := outer } id pos.offset.byteIdx
      = stack.enteredAt id pos.offset.byteIdx := by
    simp [Stack.enteredAt, hframes, h]
  simp only [unentered, hentered]

/-- Closing a region that was not entered here leaves fewer moves that take no text. -/
theorem standing_frames_lt {frame : Frame} {outer : List Frame}
    (hframes : stack.frames = frame :: outer) (h : frame.entered ≠ some pos.offset.byteIdx) :
    standing g { stack with frames := outer } pos < standing g stack pos := by
  unfold standing
  rw [unentered_frames hframes h, hframes, List.countP_cons]
  simp [h]

/-- A move that does not stay takes text, or leaves fewer moves that take none. -/
theorem measure_lt (move : Move g stack pos) (hmoves : move.stays = false) :
    Prod.Lex (· < ·) (· < ·)
      (move.next.remainingBytes, standing g move.after move.next)
      (pos.remainingBytes, standing g stack pos) := by
  by_cases h : pos < move.next
  · exact Prod.Lex.left _ _ ((String.Pos.lt_iff_remainingBytes_lt _ _).mp h)
  obtain ⟨hnext, ⟨region, closer, mem, hentered, hafter⟩
    | ⟨frame, outer, hframes, hentered, hafter⟩⟩ := move.opens_or_closes_of_not_lt hmoves h
  · rw [hnext, hafter]
    exact Prod.Lex.right _ (standing_push_lt mem hentered _ _)
  · rw [hnext, hafter]
    exact Prod.Lex.right _ (standing_frames_lt hframes hentered)

end Move

end ScopedText
