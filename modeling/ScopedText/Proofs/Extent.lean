import ScopedText.Proofs.Marks

/-!
# Extents of regions

A region that a scan opens extends from the start of its opening match to the end of its closing
match, or to the end of the text; one that is open already extends from where the scan begins. Its
level is the number of regions around it, so it is closed when fewer regions than that are left.

* `extents_nest`: of two extents, one is over before the other begins, or lies inside of it.
* `start_lt_of_closed`: a region that a scan opens and closes extends over some text.
-/

namespace ScopedText

variable [Engine]

variable {g : Grammar} {text : String}

/-- The stretch of a text in which a region is open. The grammar itself is the region around all
others. -/
structure Extent (text : String) where
  /-- The number of regions around it. -/
  level : Nat
  /-- The scopes that apply inside of it. -/
  scopes : List Scope
  start : text.Pos
  /-- The end of the match that closes it. -/
  closed : Option text.Pos

namespace Extent

def stop (e : Extent text) : text.Pos := e.closed.getD text.endPos

def Covers (e : Extent text) (b : Nat) : Prop :=
  e.start.offset.byteIdx ≤ b ∧ b < e.stop.offset.byteIdx

structure Around (outer inner : Extent text) : Prop where
  level : outer.level < inner.level
  start : outer.start ≤ inner.start
  stop : inner.stop ≤ outer.stop

end Extent

namespace Stack

/-- The level of each of some frames and the scopes inside of it, outermost first. -/
def levelsOf (scope : Scope) : List Frame → List (Nat × List Scope)
  | [] => [(0, [scope])]
  | frame :: outer => levelsOf scope outer ++ [(outer.length + 1, frame.scopes)]

/-- The level of each open region and the scopes inside of it, outermost first. -/
def levels (s : Stack) : List (Nat × List Scope) := levelsOf s.scope s.frames

theorem le_of_mem_levelsOf {scope : Scope} {frames : List Frame} {entry : Nat × List Scope}
    (h : entry ∈ levelsOf scope frames) : entry.1 ≤ frames.length := by
  induction frames with
  | nil =>
    cases List.mem_singleton.mp h
    exact Nat.le_refl _
  | cons frame outer ih =>
    rcases List.mem_append.mp h with h | h
    · exact Nat.le_succ_of_le (ih h)
    · cases List.mem_singleton.mp h
      exact Nat.le_refl _

theorem le_of_mem_levels {s : Stack} {level : Nat} {scopes : List Scope}
    (h : (level, scopes) ∈ s.levels) : level ≤ s.depth := le_of_mem_levelsOf h

theorem pairwise_levelsOf (scope : Scope) (frames : List Frame) :
    (levelsOf scope frames).Pairwise fun a b => a.1 < b.1 := by
  induction frames with
  | nil => exact List.pairwise_singleton _ _
  | cons frame outer ih =>
    refine List.pairwise_append.mpr ⟨ih, List.pairwise_singleton _ _, ?_⟩
    intro a ha b hb
    cases List.mem_singleton.mp hb
    exact Nat.lt_succ_of_le (le_of_mem_levelsOf ha)

theorem pairwise_levels (s : Stack) : s.levels.Pairwise fun a b => a.1 < b.1 :=
  pairwise_levelsOf s.scope s.frames

/-- The innermost region is the last one. -/
theorem mem_levels_innermost (s : Stack) : (s.depth, s.scopes) ∈ s.levels := by
  obtain ⟨scope, frames⟩ := s
  cases frames with
  | nil => exact List.mem_singleton_self _
  | cons frame outer => exact List.mem_append_right _ (List.mem_singleton_self _)

end Stack

namespace Move

variable {stack : Stack} {pos : text.Pos}

/-- Where the region begins that a move opens. -/
def opening? : Move g stack pos → Option text.Pos
  | opens _ m _ _ _ _ => some m.span.start
  | skip _ | span _ _ _ | closes _ _ _ _ _ | closesNone _ _ => none

theorem opening?_le_next {mv : Move g stack pos} {start : text.Pos}
    (h : mv.opening? = some start) : pos ≤ start ∧ start ≤ mv.next := by
  cases mv with
  | opens region m pattern mem text_eq advances =>
    cases h
    exact ⟨m.le, m.span.le⟩
  | skip | span | closes | closesNone => cases h

theorem depth_after_of_opening? {mv : Move g stack pos} {start : text.Pos}
    (h : mv.opening? = some start) : mv.after.depth = stack.depth + 1 := by
  cases mv with
  | opens => rfl
  | skip | span | closes | closesNone => cases h

/-- The regions that are open after a move are those before it that it does not close, and the one
that it opens. -/
theorem mem_levels_after (mv : Move g stack pos) {level : Nat} {scopes : List Scope} :
    (level, scopes) ∈ mv.after.levels ↔
      (level, scopes) ∈ stack.levels ∧ level ≤ mv.after.depth
      ∨ mv.opening?.isSome = true ∧ (level, scopes) = (mv.after.depth, mv.after.scopes) := by
  have hbound : (level, scopes) ∈ stack.levels → level ≤ stack.depth := Stack.le_of_mem_levels
  cases mv with
  | skip | span | closesNone => simpa [after, opening?] using hbound
  | opens region m pattern mem text_eq advances =>
    have hpush : (Move.opens region m pattern mem text_eq advances).after.levels
        = stack.levels ++ [(stack.depth + 1, stack.scopes ++ region.scope.toList)] := rfl
    have hdepth : (Move.opens region m pattern mem text_eq advances).after.depth
        = stack.depth + 1 := rfl
    rw [hpush, hdepth, List.mem_append, List.mem_singleton]
    constructor
    · rintro (h | h)
      · exact .inl ⟨h, Nat.le_succ_of_le (hbound h)⟩
      · exact .inr ⟨rfl, h⟩
    · rintro (⟨h, _⟩ | ⟨_, h⟩)
      · exact .inl h
      · exact .inr h
  | closes frame outer m frames_eq advances =>
    have hlevels : stack.levels
        = Stack.levelsOf stack.scope outer ++ [(outer.length + 1, frame.scopes)] := by
      rw [Stack.levels, frames_eq, Stack.levelsOf]
    rw [hlevels, List.mem_append, List.mem_singleton]
    constructor
    · intro h
      exact .inl ⟨.inl h, Stack.le_of_mem_levels h⟩
    · rintro (⟨h | h, hle⟩ | ⟨h, _⟩)
      · exact h
      · cases h
        exact absurd hle (Nat.not_succ_le_self _)
      · cases h

/-- An open region stays open, or it is the innermost one and the move closes it. -/
theorem keeps_or_closes (mv : Move g stack pos) {inner outer : List Frame} {frame : Frame}
    (hframes : stack.frames = inner ++ frame :: outer) :
    (∃ inner', mv.after.frames = inner' ++ frame :: outer)
      ∨ mv.after.frames = outer ∧ (pos < mv.next ∨ frame.entered ≠ some pos.offset.byteIdx) := by
  cases mv with
  | skip | span | closesNone => exact .inl ⟨inner, hframes⟩
  | opens => exact .inl ⟨_ :: inner, congrArg _ hframes⟩
  | closes top below m frames_eq advances =>
    rw [frames_eq] at hframes
    cases inner with
    | nil =>
      obtain ⟨rfl, rfl⟩ := List.cons.inj hframes
      exact .inr ⟨rfl, advances⟩
    | cons _ inner => exact .inl ⟨inner, (List.cons.inj hframes).2⟩

end Move

namespace Path

/-- The end of the match that closes the region at a level. -/
def closed? {stack : Stack} {pos : text.Pos} : Path g stack pos → Nat → Option text.Pos
  | done, _ => none
  | move mv rest, level => if mv.after.depth < level then some mv.next else rest.closed? level

/-- The extents of the regions that a scan opens, in the order in which it opens them. -/
def opened {stack : Stack} {pos : text.Pos} : Path g stack pos → List (Extent text)
  | done => []
  | move mv rest =>
    (mv.opening?.map fun start =>
      ⟨mv.after.depth, mv.after.scopes, start, rest.closed? mv.after.depth⟩).toList
    ++ rest.opened

variable {stack : Stack} {pos : text.Pos}

/-- The extents of the regions that are open already, outermost first. -/
def carried (path : Path g stack pos) : List (Extent text) :=
  stack.levels.map fun (level, scopes) => ⟨level, scopes, pos, path.closed? level⟩

/-- The extents of all regions, each one after those around it. -/
def extents (path : Path g stack pos) : List (Extent text) := path.carried ++ path.opened

/-- Where the region at a level ends. -/
def stop (path : Path g stack pos) (level : Nat) : text.Pos :=
  (path.closed? level).getD text.endPos

theorem stop_move (mv : Move g stack pos) (rest : Path g mv.after mv.next) (level : Nat) :
    (move mv rest).stop level = if mv.after.depth < level then mv.next else rest.stop level := by
  rw [stop, closed?]
  split <;> rfl

theorem le_stop (path : Path g stack pos) (level : Nat) : pos ≤ path.stop level := by
  induction path with
  | done => exact String.Pos.le_endPos _
  | move mv rest ih =>
    rw [stop_move]
    split
    · exact mv.le_next
    · exact String.Pos.le_trans mv.le_next ih

/-- An inner region ends first. -/
theorem stop_le_stop (path : Path g stack pos) {outer inner : Nat} (h : outer ≤ inner) :
    path.stop inner ≤ path.stop outer := by
  induction path with
  | done => exact String.Pos.le_refl _
  | move mv rest ih =>
    simp only [stop_move]
    by_cases houter : mv.after.depth < outer
    · rw [if_pos houter, if_pos (Nat.lt_of_lt_of_le houter h)]
      exact String.Pos.le_refl _
    · rw [if_neg houter]
      split
      · exact rest.le_stop outer
      · exact ih

theorem mem_opened_move {mv : Move g stack pos} {rest : Path g mv.after mv.next}
    {e : Extent text} : e ∈ (move mv rest).opened ↔
      (∃ start, mv.opening? = some start
        ∧ e = ⟨mv.after.depth, mv.after.scopes, start, rest.closed? mv.after.depth⟩)
      ∨ e ∈ rest.opened := by
  rw [opened, List.mem_append, Option.mem_toList, Option.map_eq_some_iff]
  simp only [eq_comm]

theorem le_start_of_mem_opened {path : Path g stack pos} {e : Extent text} (h : e ∈ path.opened) :
    pos ≤ e.start := by
  induction path with
  | done => cases h
  | move mv rest ih =>
    rcases mem_opened_move.mp h with ⟨start, hstart, rfl⟩ | h
    · exact (Move.opening?_le_next hstart).1
    · exact String.Pos.le_trans mv.le_next (ih h)

/-! ## Nesting -/

/-- A region that is opened later begins after the end of one that is open, or lies inside of it. -/
theorem opened_after_or_inside {path : Path g stack pos} {level : Nat}
    (hlevel : level ≤ stack.depth) {e : Extent text} (h : e ∈ path.opened) :
    path.stop level ≤ e.start ∨ level < e.level ∧ e.stop ≤ path.stop level := by
  induction path with
  | done => cases h
  | move mv rest ih =>
    rw [stop_move]
    rcases mem_opened_move.mp h with ⟨start, hstart, rfl⟩ | h
    · have hdepth := Move.depth_after_of_opening? hstart
      rw [if_neg (by omega)]
      exact .inr ⟨by dsimp only; omega, rest.stop_le_stop (by omega)⟩
    · by_cases hclosed : mv.after.depth < level
      · rw [if_pos hclosed]
        exact .inl (le_start_of_mem_opened h)
      · rw [if_neg hclosed]
        exact ih (Nat.not_lt.mp hclosed) h

/-- How the extents of two regions lie, of which the second one is opened later. -/
def Nests (e later : Extent text) : Prop := e.stop ≤ later.start ∨ e.Around later

theorem opened_nest (path : Path g stack pos) : path.opened.Pairwise Nests := by
  induction path with
  | done => exact .nil
  | move mv rest ih =>
    refine List.pairwise_append.mpr ⟨?_, ih, ?_⟩
    · cases mv.opening? with
      | none => exact .nil
      | some => exact List.pairwise_singleton _ _
    · intro e he later hlater
      obtain ⟨start, hstart, rfl⟩ := Option.map_eq_some_iff.mp (Option.mem_toList.mp he)
      rcases opened_after_or_inside (Nat.le_refl _) hlater with hafter | ⟨hlevel, hstop⟩
      · exact .inl hafter
      · have hfrom := (Move.opening?_le_next hstart).2
        exact .inr ⟨hlevel, String.Pos.le_trans hfrom (le_start_of_mem_opened hlater), hstop⟩

theorem carried_nest (path : Path g stack pos) : path.carried.Pairwise Nests := by
  refine List.pairwise_map.mpr (stack.pairwise_levels.imp ?_)
  intro outer inner hlevel
  exact .inr ⟨hlevel, String.Pos.le_refl _, path.stop_le_stop (Nat.le_of_lt hlevel)⟩

/-- Of two extents, the first one is over before the other begins, or lies around it. -/
theorem extents_nest (path : Path g stack pos) : path.extents.Pairwise Nests := by
  refine List.pairwise_append.mpr ⟨path.carried_nest, path.opened_nest, ?_⟩
  intro e he later hlater
  obtain ⟨⟨level, scopes⟩, hmem, rfl⟩ := List.mem_map.mp he
  rcases opened_after_or_inside (Stack.le_of_mem_levels hmem) hlater with hafter | ⟨hlevel, hstop⟩
  · exact .inl hafter
  · exact .inr ⟨hlevel, le_start_of_mem_opened hlater, hstop⟩

/-! ## Regions that are opened and closed -/

/-- A region that was entered before, or where the scan stands, is closed beyond where it was
entered: a closing match that takes no text where the region was entered closes nothing. -/
theorem entered_lt_of_closed {path : Path g stack pos} (inner : List Frame) {outer : List Frame}
    {frame : Frame} (hframes : stack.frames = inner ++ frame :: outer) {entered : text.Pos}
    (hentered : frame.entered = some entered.offset.byteIdx) (hpos : entered ≤ pos)
    {stop : text.Pos} (h : path.closed? (outer.length + 1) = some stop) : entered < stop := by
  induction path generalizing inner with
  | done => cases h
  | @move stack pos mv rest ih =>
    have hnext := String.Pos.le_trans hpos mv.le_next
    unfold closed? at h
    rcases mv.keeps_or_closes hframes with ⟨inner', hafter⟩ | ⟨hafter, advances⟩
    · have hdepth : mv.after.depth = inner'.length + (outer.length + 1) := by
        rw [Stack.depth, hafter, List.length_append, List.length_cons]
      rw [if_neg (by omega)] at h
      exact ih inner' hafter hnext h
    · rw [if_pos (by rw [Stack.depth, hafter]; exact Nat.lt_succ_self _)] at h
      obtain rfl := Option.some.inj h
      rcases advances with hlt | hne
      · exact Std.lt_of_le_of_lt hpos hlt
      · rcases Nat.lt_or_eq_of_le (pos_le_iff.mp hpos) with hlt | heq
        · exact Std.lt_of_lt_of_le (pos_lt_iff.mpr hlt) mv.le_next
        · exact absurd (hentered.trans (congrArg some heq)) hne

/-- A region that is opened and closed extends over some text. -/
theorem start_lt_of_closed {path : Path g stack pos} {e : Extent text} (he : e ∈ path.opened)
    {stop : text.Pos} (hclosed : e.closed = some stop) : e.start < stop := by
  induction path with
  | done => cases he
  | @move stack pos mv rest ih =>
    rcases mem_opened_move.mp he with ⟨start, hstart, rfl⟩ | he
    · cases mv with
      | opens region m pattern mem text_eq advances =>
        cases hstart
        exact entered_lt_of_closed [] rfl rfl m.span.le hclosed
      | skip | span | closes | closesNone => cases hstart
    · exact ih he

end Path

end ScopedText
