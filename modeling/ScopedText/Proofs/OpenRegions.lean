import ScopedText.Proofs.Answer
import ScopedText.Proofs.Innermost
import ScopedText.Proofs.RuleTable
import ScopedText.Regex.Search

/-!
# The regions that a scan leaves open

`stack_of_scan`: the stack at the end of a scan is a part of the one at its start, up to some level
and unchanged, with frames on top of it that each belong to a region of the grammar and to a match
of its opening pattern in the text. A stack that was saved is therefore as good a start as a new
one. The grammar itself is never closed, since a stack has a scope without any frame.
-/

namespace ScopedText

section

variable [Engine]

variable {g : Grammar} {text : String}

/-- The frame is that of a region that opened with a match, on top of the given stack. -/
structure Frame.Opened (g : Grammar) (frame : Frame) (below : Stack) (region : Region)
    {pos : text.Pos} (m : Regex.Found text pos) : Prop where
  rule : g.rules[frame.rule]? = some (.region region)
  begins : region.BeginsWith g m
  scopes : frame.scopes = below.scopes ++ region.scope.toList
  first : frame.closer.first = region.closingFirst
  pattern : frame.closer.pattern.text = region.closingText g m
  compiles : frame.closer.pattern.compiles = true
  entered : frame.entered = some m.span.start.offset.byteIdx

/-- How a scan that began with a stack `s` has changed it up to a position: some frames are kept,
and fresh ones are opened on top of them. -/
structure Stack.Continues (g : Grammar) (s s' : Stack) (upTo : text.Pos) (fresh kept : List Frame) :
    Prop where
  scope : s'.scope = s.scope
  frames : s'.frames = fresh ++ kept
  remain : kept <:+ s.frames
  opened : ∀ inner frame outer, fresh = inner ++ frame :: outer →
    ∃ (region : Region) (pos : text.Pos) (m : Regex.Found text pos),
      frame.Opened g { s with frames := outer ++ kept } region m
  entered : ∀ frame ∈ fresh, ∃ p, frame.entered = some p ∧ p ≤ upTo.offset.byteIdx
  ordered : fresh.Pairwise fun inner outer =>
    ∀ p ∈ inner.entered, ∀ q ∈ outer.entered, q ≤ p

namespace Stack

variable {s s' : Stack} {pos : text.Pos} {fresh kept : List Frame}

theorem continues_self (g : Grammar) (s : Stack) (pos : text.Pos) :
    Continues g s s pos [] s.frames where
  scope := rfl
  frames := rfl
  remain := List.suffix_refl _
  opened inner frame outer h := by
    cases inner <;> cases h
  entered _ h := by cases h
  ordered := .nil

namespace Continues

theorem later (h : Continues g s s' pos fresh kept) {pos' : text.Pos} (hpos : pos ≤ pos') :
    Continues g s s' pos' fresh kept := by
  refine { h with entered := fun frame hframe => ?_ }
  obtain ⟨p, hp, hle⟩ := h.entered frame hframe
  exact ⟨p, hp, Nat.le_trans hle (pos_le_iff.mp hpos)⟩

theorem eq_mk (h : Continues g s s' pos fresh kept) : s' = { s with frames := fresh ++ kept } := by
  obtain ⟨scope, frames⟩ := s'
  cases h.scope
  cases h.frames
  rfl

/-- A region that opens puts a fresh frame on top. -/
theorem push (h : Continues g s s' pos fresh kept) {region : Region} {m : Regex.Found text pos}
    {frame : Frame} (hopened : frame.Opened g s' region m) :
    Continues g s { s' with frames := frame :: s'.frames } m.span.stop (frame :: fresh) kept where
  scope := h.scope
  frames := congrArg _ h.frames
  remain := h.remain
  opened inner other outer hfresh := by
    cases inner with
    | nil =>
      cases hfresh
      exact ⟨region, pos, m, h.eq_mk ▸ hopened⟩
    | cons _ inner => exact h.opened inner other outer (List.cons.inj hfresh).2
  entered other hother := by
    rcases List.mem_cons.mp hother with rfl | hother
    · exact ⟨_, hopened.entered, pos_le_iff.mp m.span.le⟩
    · exact (h.later (String.Pos.le_trans m.le m.span.le)).entered other hother
  ordered := by
    refine List.pairwise_cons.mpr ⟨fun outer houter p hp q hq => ?_, h.ordered⟩
    obtain ⟨q', hq', hle⟩ := h.entered outer houter
    cases hopened.entered.symm.trans hp
    cases hq'.symm.trans hq
    exact Nat.le_trans hle (pos_le_iff.mp m.le)

/-- A region that closes is the last one that was opened, or the last one that was kept. -/
theorem pop (h : Continues g s s' pos fresh kept) {frame : Frame} {outer : List Frame}
    (hframes : s'.frames = frame :: outer) :
    ∃ fresh' kept', Continues g s { s' with frames := outer } pos fresh' kept' := by
  have hsplit : frame :: outer = fresh ++ kept := hframes.symm.trans h.frames
  cases fresh with
  | nil =>
    refine ⟨[], outer, { h with frames := rfl, remain := ?_, opened := ?_ }⟩
    · exact (List.suffix_cons frame outer).trans (hsplit ▸ h.remain)
    · intro inner frame outer hnil
      cases inner <;> cases hnil
  | cons last fresh =>
    obtain ⟨rfl, rfl⟩ := List.cons.inj hsplit
    refine ⟨fresh, kept, { h with frames := rfl, opened := ?_, entered := ?_, ordered := ?_ }⟩
    · intro inner other below heq
      exact h.opened (frame :: inner) other below (congrArg _ heq)
    · exact fun other hother => h.entered other (List.mem_cons_of_mem _ hother)
    · exact (List.pairwise_cons.mp h.ordered).2

/-- What a move does to the stack. -/
theorem move [LawfulEngine] (hnumbered : Numbered g.rules) (h : Continues g s s' pos fresh kept)
    {mv : Move g s' pos} (hmove : nextMove (Supply.direct g) g s' pos = .ok (some mv)) :
    ∃ fresh' kept', Continues g s mv.after mv.next fresh' kept' := by
  cases mv with
  | skip | span | closesNone => exact ⟨fresh, kept, h.later (Move.le_next _)⟩
  | opens region m pattern mem text_eq advances =>
    obtain ⟨⟨id, hrule⟩, hbegins, hcompiles⟩ := begins_of_nextMove hmove
    have hid : region.id = id := hnumbered id _ hrule
    have hopened : Frame.Opened g ⟨region.id, s'.scopes ++ region.scope.toList,
        ⟨pattern, region.closingFirst⟩, some m.span.start.offset.byteIdx⟩ s' region m := {
      rule := hid ▸ hrule, begins := hbegins, scopes := rfl, first := rfl, pattern := text_eq
      compiles := hcompiles, entered := rfl }
    exact ⟨_, kept, h.push hopened⟩
  | closes frame outer m frames_eq advances =>
    obtain ⟨fresh', kept', hpop⟩ := h.pop frames_eq
    exact ⟨fresh', kept', hpop.later (String.Pos.le_trans m.le m.span.le)⟩

end Continues

end Stack

theorem Path.continues [LawfulEngine] {s stack : Stack} {pos : text.Pos} (path : Path g stack pos)
    (hnumbered : Numbered g.rules) (hfollowed : path.Followed (Supply.direct g))
    {fresh kept : List Frame} (h : Stack.Continues g s stack pos fresh kept) :
    ∃ fresh' kept', Stack.Continues g s path.last text.endPos fresh' kept' := by
  induction path generalizing fresh kept with
  | done => exact ⟨fresh, kept, h.later (String.Pos.le_endPos _)⟩
  | move mv rest ih =>
    obtain ⟨hmove, _, hrest⟩ := hfollowed
    obtain ⟨fresh', kept', hnext⟩ := h.move hnumbered hmove
    exact ih hrest hnext

/-- **The stack of a scan** keeps some of the frames it began with and opens others on top. -/
theorem stack_of_scan [LawfulEngine] (source : Source.Grammar) (g : Grammar)
    (compiled : Grammar.ofSource source = .ok g) (t : Tokenizer g) (text : String)
    (stack stack' : Stack) (tokens : List (Token text))
    (h : t.run (Tokenizer.tokenizeFrom text stack) = .ok (tokens, stack')) :
    ∃ fresh kept, Stack.Continues g stack stack' text.endPos fresh kept := by
  obtain ⟨path, hpath, _, rfl⟩ := exists_path_of_run h
  exact path.continues (Grammar.numbered_ofSource compiled) (followed_of_findPath hpath)
    (Stack.continues_self g stack _)

end

def regionSource : Source.Grammar where
  name := "region"
  scopeName := "text"
  rules := [{ name := some "region", opening := some "a", closing := some "b" }]

/-- A text at the end of which a region is open. -/
theorem stack_of_scan_region :
    let g := regionGrammar
    let t := Tokenizer.new g
    Grammar.ofSource regionSource = .ok g ∧
    ∃ (tokens : List (Token "-a")) (stack' : Stack),
      t.run (Tokenizer.tokenizeFrom "-a" g.initialStack) = .ok (tokens, stack')
      ∧ stack'.depth = 1
      ∧ ∃ fresh kept, Stack.Continues g g.initialStack stack' "-a".endPos fresh kept := by
  intro g t
  have compiled : Grammar.ofSource regionSource = .ok g := by cbv
  have depth : (t.run (Tokenizer.tokenizeFrom "-a" g.initialStack)).toOption.map (·.2.depth)
      = some 1 := by
    rw [Tokenizer.gives_tokenizeFrom]
    cbv
  cases hscan : t.run (Tokenizer.tokenizeFrom "-a" g.initialStack) with
  | error e =>
    rw [hscan] at depth
    cases depth
  | ok result =>
    rw [hscan] at depth
    have continues := stack_of_scan regionSource g compiled t "-a" _ result.2 result.1 hscan
    exact ⟨compiled, result.1, result.2, rfl, Option.some.inj depth, continues⟩

end ScopedText
