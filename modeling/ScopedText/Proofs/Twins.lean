import ScopedText.Proofs.Control
import ScopedText.Proofs.Progress

/-!
# Twin grammars

Two grammars may have the same rules under different numbers. `Grammar.Twins` relates such grammars
by a relation between their rule numbers: twins match the same patterns with the same scopes, and
their lists lead to twins. `Stack.Twins` relates stacks that are the same up to these numbers, and
up to what their frames know of where they were entered.

From twin stacks, the scans of a text by twin grammars fail with the same error, or give the same
tokens and leave twin stacks (`twins_scan`). Where they stand, the searches have the same answer up
to its label, so the moves are twins (`twins_nextMove`). The frames may know different things as
long as nobody asks: it only matters where the answer of a search takes no text (`Idle`).
-/

namespace ScopedText

variable {g g' : Grammar} {twin : RuleId → RuleId → Prop}

/-! ## Twin rules -/

/-- The entries lead to twins, or both of them lead nowhere. -/
def Entry.Twins (g g' : Grammar) (twin : RuleId → RuleId → Prop) (e e' : Entry) : Prop :=
  Option.Rel twin (g.target? e) (g'.target? e')

theorem Entry.Twins.target_some {e e' : Entry} (h : Entry.Twins g g' twin e e') {id : RuleId}
    (he : g.target? e = some id) : ∃ id', g'.target? e' = some id' ∧ twin id id' := by
  unfold Entry.Twins at h
  rw [he] at h
  cases htarget : g'.target? e' with
  | none => simp [htarget] at h
  | some id' => exact ⟨id', rfl, by simpa [htarget] using h⟩

theorem Entry.Twins.target_none {e e' : Entry} (h : Entry.Twins g g' twin e e')
    (he : g.target? e = none) : g'.target? e' = none := by
  unfold Entry.Twins at h
  rw [he] at h
  cases htarget : g'.target? e' with
  | none => rfl
  | some id' => simp [htarget] at h

/-- The regions are the same up to numbers. -/
structure Region.Twins (g g' : Grammar) (twin : RuleId → RuleId → Prop) (r r' : Region) :
    Prop where
  id : twin r.id r'.id
  scope : r'.scope = r.scope
  opening : g'.patternText r'.opening = g.patternText r.opening
  openingCaptures : r'.openingCaptures = r.openingCaptures
  closing : g'.patternText r'.closing = g.patternText r.closing
  template : r'.closingIsTemplate = r.closingIsTemplate
  closingCaptures : r'.closingCaptures = r.closingCaptures
  first : r'.closingFirst = r.closingFirst
  entries : List.Forall₂ (Entry.Twins g g' twin) r.entries r'.entries

/-- What stands at twin numbers is the same up to numbers. -/
inductive Rule.Twins (g g' : Grammar) (twin : RuleId → RuleId → Prop) :
    Option Rule → Option Rule → Prop
  | none : Twins g g' twin none none
  | span {r r' : SpanRule} (pattern : g'.patternText r'.pattern = g.patternText r.pattern)
      (scope : r'.scope = r.scope) (captures : r'.captures = r.captures) :
      Twins g g' twin (some (span r)) (some (span r'))
  | region {r r' : Region} (twins : r.Twins g g' twin r') :
      Twins g g' twin (some (region r)) (some (region r'))
  | container {r r' : Container}
      (entries : List.Forall₂ (Entry.Twins g g' twin) r.entries r'.entries) :
      Twins g g' twin (some (container r)) (some (container r'))
  | inert : Twins g g' twin (some inert) (some inert)

/-- The grammars have the same rules at twin numbers, and the same scope. -/
structure Grammar.Twins (g g' : Grammar) (twin : RuleId → RuleId → Prop) : Prop where
  scope : g'.scope = g.scope
  root : twin rootRule rootRule
  unique : Relator.BiUnique twin
  rules : ∀ {id id' : RuleId}, twin id id' → Rule.Twins g g' twin g.rules[id]? g'.rules[id']?

def Labelled {ι κ α : Type} (R : ι → κ → Prop) (a : ι × α) (b : κ × α) : Prop :=
  R a.1 b.1 ∧ b.2 = a.2

theorem Region.Twins.closingText {r r' : Region} (h : r.Twins g g' twin r') {text : String}
    {pos : text.Pos} (m : Regex.Found text pos) : r'.closingText g' m = r.closingText g m := by
  simp only [Region.closingText, h.template, h.closing]

namespace Grammar.Twins

variable (h : g.Twins g' twin)

include h

theorem rule {id id' : RuleId} (hid : twin id id') {rule : Option Rule}
    (hr : g.rules[id]? = rule) :
    ∃ rule', g'.rules[id']? = rule' ∧ Rule.Twins g g' twin rule rule' :=
  ⟨_, rfl, hr ▸ h.rules hid⟩

/-- Entries that are twins lead to rules that are. -/
theorem reached {e e' : Entry} (he : e.Twins g g' twin e') {id : RuleId} {rule : Option Rule}
    (htarget : g.target? e = some id) (hr : g.rules[id]? = rule) :
    ∃ id' rule', g'.target? e' = some id' ∧ g'.rules[id']? = rule' ∧ twin id id'
      ∧ Rule.Twins g g' twin rule rule' := by
  obtain ⟨id', htarget', hid⟩ := he.target_some htarget
  obtain ⟨rule', hr', hrule⟩ := h.rule hid hr
  exact ⟨id', rule', htarget', hr', hid, hrule⟩

theorem closingCaptures {id id' : RuleId} (hid : twin id id') :
    Move.closingCaptures g' id' = Move.closingCaptures g id := by
  unfold Move.closingCaptures
  generalize hr : g.rules[id]? = rule
  obtain ⟨_, hr', hrule⟩ := h.rule hid hr
  rw [hr']
  cases hrule with
  | none | span | container | inert => rfl
  | region twins => exact twins.closingCaptures

theorem entries {id id' : RuleId} (hid : twin id id') :
    List.Forall₂ (Entry.Twins g g' twin) (g.entries id) (g'.entries id') := by
  unfold Grammar.entries
  generalize hr : g.rules[id]? = rule
  obtain ⟨_, hr', hrule⟩ := h.rule hid hr
  rw [hr']
  cases hrule with
  | none | span | inert => exact .nil
  | region twins => exact twins.entries
  | container entries => exact entries

theorem contains {id id' : RuleId} (hid : twin id id') {visited visited' : List RuleId}
    (hvisited : List.Forall₂ twin visited visited') :
    visited.contains id = true ↔ visited'.contains id' = true := by
  simp only [List.contains_iff_mem]
  exact List.rel_mem h.unique hid hvisited

/-- The same patterns are active, and they belong to twins. -/
theorem activeFrom {visited visited' : List RuleId} {entries entries' : List Entry}
    (hvisited : List.Forall₂ twin visited visited')
    (hentries : List.Forall₂ (Entry.Twins g g' twin) entries entries') :
    List.Forall₂ (Labelled twin) (g.activeFrom visited entries)
      (g'.activeFrom visited' entries') := by
  fun_induction Grammar.activeFrom g visited entries generalizing visited' entries' with
  | case1 =>
    cases hentries
    simp only [Grammar.activeFrom]
    exact .nil
  | case2 visited e es htarget ih =>
    obtain _ | ⟨he, hes⟩ := hentries
    simp only [activeFrom_cons, he.target_none htarget]
    exact ih hvisited hes
  | case3 visited e es id htarget r hr ih =>
    obtain _ | ⟨he, hes⟩ := hentries
    obtain ⟨id', _, htarget', hr', hid, hrule⟩ := h.reached he htarget hr
    cases hrule with
    | span pattern =>
      simp only [activeFrom_cons, htarget', hr']
      exact .cons ⟨hid, pattern⟩ (ih hvisited hes)
  | case4 visited e es id htarget r hr ih =>
    obtain _ | ⟨he, hes⟩ := hentries
    obtain ⟨id', _, htarget', hr', hid, hrule⟩ := h.reached he htarget hr
    cases hrule with
    | region twins =>
      simp only [activeFrom_cons, htarget', hr']
      exact .cons ⟨hid, twins.opening⟩ (ih hvisited hes)
  | case5 visited e es id htarget r hr hmem ih =>
    obtain _ | ⟨he, hes⟩ := hentries
    obtain ⟨id', _, htarget', hr', hid, hrule⟩ := h.reached he htarget hr
    have hmem' := (h.contains hid hvisited).mp hmem
    cases hrule with
    | container =>
      simp only [activeFrom_cons, htarget', hr', hmem', if_true]
      exact ih hvisited hes
  | case6 visited e es id htarget r hr hmem ih =>
    obtain _ | ⟨he, hes⟩ := hentries
    obtain ⟨id', _, htarget', hr', hid, hrule⟩ := h.reached he htarget hr
    have hmem' := mt (h.contains hid hvisited).mpr hmem
    cases hrule with
    | container entries =>
      simp only [activeFrom_cons, htarget', hr', if_neg hmem']
      exact ih (.cons hid hvisited) (List.rel_append entries hes)
  | case7 visited e es id htarget hspan hregion hcontainer ih =>
    obtain _ | ⟨he, hes⟩ := hentries
    generalize hr : g.rules[id]? = rule at *
    obtain ⟨id', _, htarget', hr', hid, hrule⟩ := h.reached he htarget hr
    cases hrule with
    | none | inert =>
      simp only [activeFrom_cons, htarget', hr']
      exact ih hvisited hes
    | span => exact (hspan _ rfl).elim
    | region => exact (hregion _ rfl).elim
    | container => exact (hcontainer _ rfl).elim

end Grammar.Twins

/-! ## Searches up to labels -/

section Search

open Regex

variable {text : String} {origin : text.Pos}

theorem rel_firstFrom {β γ : Type} {S : β → γ → Prop}
    {attempt : (p : text.Pos) → origin ≤ p → Option β}
    {attempt' : (p : text.Pos) → origin ≤ p → Option γ}
    (h : ∀ p hp, Option.Rel S (attempt p hp) (attempt' p hp)) (p : text.Pos) (hp : origin ≤ p) :
    Option.Rel S (firstFrom attempt p hp) (firstFrom attempt' p hp) := by
  fun_induction firstFrom attempt p hp with
  | case1 p hp answer hanswer =>
    have hrel := h p hp
    rw [hanswer] at hrel
    rw [firstFrom]
    cases hanswer' : attempt' p hp with
    | none => simp [hanswer'] at hrel
    | some answer' => rwa [hanswer'] at hrel
  | case2 hp hnone =>
    have hrel := h _ hp
    rw [hnone] at hrel
    cases hanswer' : attempt' text.endPos hp with
    | none => simp [firstFrom, hanswer']
    | some answer' => simp [hanswer'] at hrel
  | case3 p hp hnone hend ih =>
    have hrel := h p hp
    rw [hnone] at hrel
    cases hanswer' : attempt' p hp with
    | none =>
      have hle := String.Pos.le_trans hp (String.Pos.le_of_lt (@String.Pos.lt_next _ _ hend))
      have hnext : firstFrom attempt' p hp = firstFrom attempt' (p.next hend) hle := by
        rw [firstFrom, hanswer']
        exact dif_neg hend
      rw [hnext]
      exact ih
    | some answer' => simp [hanswer'] at hrel

variable {ι κ : Type} {R : ι → κ → Prop}

theorem rel_firstAmong {α β : Type} {attempt : α → Option β} {items : List (ι × α)}
    {items' : List (κ × α)} (h : List.Forall₂ (Labelled R) items items') :
    Option.Rel (Labelled R) (firstAmong attempt items) (firstAmong attempt items') := by
  induction h with
  | nil => exact .none
  | @cons entry entry' entries entries' hentry _ ih =>
    obtain ⟨label, a⟩ := entry
    obtain ⟨label', a'⟩ := entry'
    obtain ⟨hlabel, rfl⟩ := hentry
    simp only [firstAmong]
    cases attempt a' with
    | none => exact ih
    | some b => exact .some ⟨hlabel, rfl⟩

variable [Engine]

/-- A search does not see the labels. -/
theorem rel_find [LawfulEngine] {s : Regex.Set ι} {s' : Regex.Set κ}
    (h : List.Forall₂ (Labelled R) s.entries s'.entries) (origin : text.Pos) :
    Option.Rel (Labelled R) (s.find origin) (s'.find origin) := by
  rw [Set.find_eq, Set.find_eq]
  exact rel_firstFrom (fun _ _ => rel_firstAmong h) origin (String.Pos.le_refl origin)

end Search

variable [Engine]

/-! ## Active patterns -/

theorem agree_ofPatterns {patterns patterns' : List (RuleId × String)}
    (h : List.Forall₂ (Labelled twin) patterns patterns') :
    Agree (fun set set' => List.Forall₂ (Labelled twin) set.entries set'.entries)
      (Regex.Set.ofPatterns patterns) (Regex.Set.ofPatterns patterns') := by
  induction h with
  | nil => exact .ok .nil
  | @cons item item' items items' hitem _ ih =>
    obtain ⟨label, pattern⟩ := item
    obtain ⟨label', pattern'⟩ := item'
    obtain ⟨hlabel, rfl⟩ := hitem
    refine (Agree.refl (fun _ => rfl) _).bind fun regex _ _ hregex => ?_
    exact ih.bind fun rest rest' _ hrest => .ok (.cons ⟨hlabel, hregex.symm⟩ hrest)

/-- Patterns that are the same up to their labels compile to sets that are, or are refused for the
same reason. -/
theorem agree_compileTogether {patterns patterns' : List (RuleId × String)}
    (h : List.Forall₂ (Labelled twin) patterns patterns') :
    Agree (fun set set' => List.Forall₂ (Labelled twin) set.entries set'.entries)
      (compileTogether patterns) (compileTogether patterns') := by
  unfold compileTogether
  rw [h.length_eq]
  have hsets := agree_ofPatterns h
  generalize Regex.Set.ofPatterns patterns = sets at hsets ⊢
  generalize Regex.Set.ofPatterns patterns' = sets' at hsets ⊢
  cases hsets with
  | error cause => exact .error _
  | ok hset => exact .ok hset

/-- The same patterns are compiled, for twins. -/
theorem Grammar.Twins.activeSet (h : g.Twins g' twin) {id id' : RuleId} (hid : twin id id') :
    Agree (fun active active' => List.Forall₂ (Labelled twin) active.entries active'.entries)
      (g.activeSet id) (g'.activeSet id') :=
  agree_compileTogether (h.activeFrom (.cons hid .nil) (h.entries hid))

/-! ## Twin stacks -/

variable {entry : Option Nat → Option Nat → Prop}

/-- The frames belong to twins and are otherwise the same, but for where they were entered. -/
structure Frame.Twins (twin : RuleId → RuleId → Prop) (entry : Option Nat → Option Nat → Prop)
    (frame frame' : Frame) : Prop where
  rule : twin frame.rule frame'.rule
  scopes : frame'.scopes = frame.scopes
  closer : frame'.closer = frame.closer
  entered : entry frame.entered frame'.entered

structure Stack.Twins (twin : RuleId → RuleId → Prop) (entry : Option Nat → Option Nat → Prop)
    (s s' : Stack) : Prop where
  scope : s'.scope = s.scope
  frames : List.Forall₂ (Frame.Twins twin entry) s.frames s'.frames

/-- Related knowledge answers alike whether a frame was entered at this offset. -/
def AlikeAt (entry : Option Nat → Option Nat → Prop) (offset : Nat) : Prop :=
  ∀ e e', entry e e' → (e = some offset ↔ e' = some offset)

/-- Both look for twins, or for the end of the innermost region. -/
inductive Target.Twins (twin : RuleId → RuleId → Prop) {s s' : Stack} :
    Target s → Target s' → Prop
  | rule {id id' : RuleId} (h : twin id id') : Twins twin (.rule id) (.rule id')
  | closing {frame frame' : Frame} {outer outer' : List Frame}
      {frames_eq : s.frames = frame :: outer} {frames_eq' : s'.frames = frame' :: outer'} :
      Twins twin (.closing frame outer frames_eq) (.closing frame' outer' frames_eq')

namespace Stack.Twins

variable {s s' : Stack} (h : s.Twins twin entry s')

include h

theorem rule (hroot : twin rootRule rootRule) : twin s.rule s'.rule := by
  obtain ⟨scope, frames⟩ := s
  obtain ⟨scope', frames'⟩ := s'
  cases h.frames with
  | nil => exact hroot
  | cons hframe => exact hframe.rule

theorem scopes : s'.scopes = s.scopes := by
  obtain ⟨scope, frames⟩ := s
  obtain ⟨scope', frames'⟩ := s'
  cases h.frames with
  | nil => exact congrArg ([·]) h.scope
  | cons hframe => exact hframe.scopes

theorem enteredAt (hunique : Relator.BiUnique twin) {id id' : RuleId} (hid : twin id id')
    {offset : Nat} (hat : AlikeAt entry offset) :
    s'.enteredAt id' offset = s.enteredAt id offset := by
  obtain ⟨scope, frames⟩ := s
  obtain ⟨scope', frames'⟩ := s'
  have hframes := h.frames
  simp only [Stack.enteredAt] at hframes ⊢
  induction hframes with
  | nil => rfl
  | @cons frame frame' _ _ hframe _ ih =>
    have hrule : frame.rule = id ↔ frame'.rule = id' := Relator.rel_eq hunique hframe.rule hid
    have hentered := hat _ _ hframe.entered
    have hhead : (frame'.rule == id' && frame'.entered == some offset)
        = (frame.rule == id && frame.entered == some offset) := by
      rw [Bool.eq_iff_iff]
      simp only [Bool.and_eq_true, beq_iff_eq, hrule, hentered]
    rw [List.any_cons, List.any_cons, hhead, ih ⟨h.scope, by assumption⟩]

theorem targets {active active' : Regex.Set RuleId}
    (hactive : List.Forall₂ (Labelled twin) active.entries active'.entries) :
    List.Forall₂ (Labelled (Target.Twins twin)) (s.targets active).entries
      (s'.targets active').entries := by
  obtain ⟨scope, frames⟩ := s
  obtain ⟨scope', frames'⟩ := s'
  have hrules {s s' : Stack} : List.Forall₂ (Labelled (Target.Twins twin))
      (active.entries.map fun entry => ((Target.rule entry.1 : Target s), entry.2))
      (active'.entries.map fun entry => ((Target.rule entry.1 : Target s'), entry.2)) := by
    rw [List.forall₂_map_left_iff, List.forall₂_map_right_iff]
    exact hactive.imp fun _ _ hentry => ⟨.rule hentry.1, hentry.2⟩
  cases h.frames with
  | nil => exact hrules
  | @cons frame frame' outer outer' hframe _ =>
    simp only [Stack.targets, hframe.closer]
    cases frame.closer.pattern.regex with
    | error => exact hrules
    | ok regex =>
      cases frame.closer.first with
      | true => exact .cons ⟨.closing, rfl⟩ hrules
      | false => exact List.rel_append hrules (.cons ⟨.closing, rfl⟩ .nil)

end Stack.Twins

/-! ## Twin moves -/

section Moves

variable {text : String} {s s' : Stack} {pos : text.Pos}

/-- The moves lead to the same place with twin stacks, and add the same tokens. -/
structure Move.Twins (twin : RuleId → RuleId → Prop) (entry : Option Nat → Option Nat → Prop)
    (mv : Move g s pos) (mv' : Move g' s' pos) : Prop where
  next : mv'.next = mv.next
  after : mv.after.Twins twin entry mv'.after
  extend : ∀ c, mv'.extend c = mv.extend c
  stays : mv'.stays = mv.stays

/-- The search at a standpoint has an answer, but one that takes no text. -/
def Standpoint.Idle (g : Grammar) (a : Standpoint text) : Prop :=
  ∃ active answer, g.activeSet a.stack.rule = .ok active
    ∧ (a.stack.targets active).find a.pos = some answer ∧ answer.2.span.stop = a.pos

theorem twins_skip (hs : s.Twins twin entry s') :
    Option.Rel (Move.Twins twin entry) (Move.skip? : Option (Move g s pos))
      (Move.skip? : Option (Move g' s' pos)) := by
  unfold Move.skip?
  split
  · exact .none
  · exact .some ⟨rfl, hs, fun c => by simp only [Move.extend, hs.scopes], rfl⟩

theorem agree_closing {closing closing' : String} (h : closing' = closing) :
    Agree (fun p p' => p'.1 = p.1) ((Supply.direct g).closing closing)
      ((Supply.direct g').closing closing') := by
  subst h
  have heq : Agree Eq ((Supply.direct g).closing closing') ((Supply.direct g').closing closing') :=
    .refl (fun _ => rfl) _
  exact heq.mono fun _ _ heq => congrArg _ heq.symm

variable (h : g.Twins g' twin)
  (hmarks : ∀ {id id' : RuleId}, twin id id' → g'.marks id' = g.marks id)
  (hs : s.Twins twin entry s')

include h hs

theorem twins_close {frame frame' : Frame} {outer outer' : List Frame}
    (frames_eq : s.frames = frame :: outer) (frames_eq' : s'.frames = frame' :: outer')
    (m : Regex.Found text pos) (hat : m.span.stop = pos → AlikeAt entry pos.offset.byteIdx) :
    Option.Rel (Move.Twins twin entry) (Move.close? frame outer frames_eq m : Option (Move g s pos))
      (Move.close? frame' outer' frames_eq' m : Option (Move g' s' pos)) := by
  have hframes := hs.frames
  rw [frames_eq, frames_eq'] at hframes
  obtain _ | ⟨hframe, houter⟩ := hframes
  have hcloses : pos < m.span.stop ∨ frame'.entered ≠ some pos.offset.byteIdx
      ↔ pos < m.span.stop ∨ frame.entered ≠ some pos.offset.byteIdx := by
    refine or_congr_right' fun hstop => not_congr ?_
    exact (hat (Move.eq_of_not_lt hstop).2 _ _ hframe.entered).symm
  simp only [Move.close?, hcloses]
  split
  · refine .some ⟨rfl, ⟨hs.scope, houter⟩, fun c => ?_, rfl⟩
    simp only [Move.extend, hs.scopes, h.closingCaptures hframe.rule]
  · exact twins_skip hs

theorem twins_closeInnermost (m : Regex.Found text pos)
    (hat : m.span.stop = pos → AlikeAt entry pos.offset.byteIdx) :
    Option.Rel (Move.Twins twin entry) (Move.closeInnermost? m : Option (Move g s pos))
      (Move.closeInnermost? m : Option (Move g' s' pos)) := by
  have hlength := hs.frames.length_eq
  unfold Move.closeInnermost?
  split
  · rename_i frame outer frames_eq
    split
    · exact twins_close h hs frames_eq _ m hat
    · simp [*] at hlength
  · split
    · simp [*] at hlength
    · refine .some ⟨rfl, hs, fun c => ?_, rfl⟩
      simp only [Move.extend, hs.scopes, h.closingCaptures h.root]

theorem twins_opens {region region' : Region} (hregion : region.Twins g g' twin region')
    {id id' : RuleId} (hr : g.rules[id]? = some (.region region))
    (hr' : g'.rules[id']? = some (.region region'))
    (m : Regex.Found text pos) (hrefl : ∀ e, entry e e)
    (hat : m.span.stop = pos → AlikeAt entry pos.offset.byteIdx) :
    Agree (Option.Rel (Move.Twins twin entry))
      (respondRule (Supply.direct g) g s pos id m)
      (respondRule (Supply.direct g') g' s' pos id' m) := by
  have hopens : pos < m.span.stop ∨ s'.enteredAt region'.id m.span.start.offset.byteIdx = false
      ↔ pos < m.span.stop ∨ s.enteredAt region.id m.span.start.offset.byteIdx = false := by
    refine or_congr_right' fun hstop => ?_
    obtain ⟨hstart, hpos⟩ := Move.eq_of_not_lt hstop
    rw [hstart, hs.enteredAt h.unique hregion.id (hat hpos)]
  rw [respondRule_region _ _ hr, respondRule_region _ _ hr']
  by_cases ho : pos < m.span.stop ∨ s.enteredAt region.id m.span.start.offset.byteIdx = false
  · rw [dif_pos ho, dif_pos (hopens.mpr ho)]
    refine (agree_closing (hregion.closingText m)).bind fun p p' _ hp =>
      .ok (.some ⟨rfl, ?_, ?_, rfl⟩)
    · refine ⟨hs.scope, .cons ⟨hregion.id, ?_, ?_, hrefl _⟩ hs.frames⟩
      · simp only [hs.scopes, hregion.scope]
      · simp only [hp, hregion.first]
    · intro c
      simp only [Move.extend, hs.scopes, hregion.scope, hregion.openingCaptures]
  · rw [dif_neg ho, dif_neg (mt hopens.mp ho)]
    exact .ok (twins_skip hs)

theorem twins_respondRule {id id' : RuleId} (hid : twin id id') (m : Regex.Found text pos)
    (hrefl : ∀ e, entry e e) (hat : m.span.stop = pos → AlikeAt entry pos.offset.byteIdx) :
    Agree (Option.Rel (Move.Twins twin entry))
      (respondRule (Supply.direct g) g s pos id m)
      (respondRule (Supply.direct g') g' s' pos id' m) := by
  generalize hr : g.rules[id]? = rule
  obtain ⟨_, hr', hrule⟩ := h.rule hid hr
  cases hrule with
  | @span r r' pattern scope captures =>
    rw [respondRule_span _ _ hr, respondRule_span _ _ hr']
    split
    · refine .ok (.some ⟨rfl, hs, fun c => ?_, rfl⟩)
      simp only [Move.extend, hs.scopes, scope, captures]
    · exact .ok (twins_skip hs)
  | region twins => exact twins_opens h hs twins hr hr' m hrefl hat
  | container | none | inert =>
    rw [respondRule_other _ _ (by simp [hr]) (by simp [hr]),
      respondRule_other _ _ (by simp [hr']) (by simp [hr'])]
    exact .ok (twins_skip hs)

include hmarks in
theorem twins_respond {target : Target s} {target' : Target s'}
    (htarget : target.Twins twin target') (m : Regex.Found text pos) (hrefl : ∀ e, entry e e)
    (hat : m.span.stop = pos → AlikeAt entry pos.offset.byteIdx) :
    Agree (Option.Rel (Move.Twins twin entry))
      (respond (Supply.direct g) g s pos (target, m))
      (respond (Supply.direct g') g' s' pos (target', m)) := by
  cases htarget with
  | closing => exact .ok (twins_close h hs _ _ m hat)
  | @rule id id' hid =>
    cases hclosing : g.marks id with
    | true =>
      rw [respond_marked _ _ hclosing, respond_marked _ _ ((hmarks hid).trans hclosing)]
      exact .ok (twins_closeInnermost h hs m hat)
    | false =>
      rw [respond_unmarked _ _ hclosing, respond_unmarked _ _ ((hmarks hid).trans hclosing)]
      exact twins_respondRule h hs hid m hrefl hat

include hmarks in
/-- Twin scans make twin moves, if related knowledge answers alike where a search is idle. -/
theorem twins_nextMove [LawfulEngine] (hrefl : ∀ e, entry e e)
    (hidle : Standpoint.Idle g ⟨s, pos⟩ → AlikeAt entry pos.offset.byteIdx) :
    Agree (Option.Rel (Move.Twins twin entry)) (nextMove (Supply.direct g) g s pos)
      (nextMove (Supply.direct g') g' s' pos) := by
  refine (h.activeSet (hs.rule h.root)).bind fun active active' hactive hentries => ?_
  have hfind := rel_find (hs.targets hentries) pos
  cases hanswer : (s.targets active).find pos with
  | none =>
    rw [hanswer] at hfind
    cases hanswer' : (s'.targets active').find pos with
    | none => exact .ok .none
    | some answer' => simp [hanswer'] at hfind
  | some answer =>
    rw [hanswer] at hfind
    cases hanswer' : (s'.targets active').find pos with
    | none => simp [hanswer'] at hfind
    | some answer' =>
      rw [hanswer'] at hfind
      obtain ⟨target, m⟩ := answer
      obtain ⟨target', m'⟩ := answer'
      rw [Option.rel_some_some] at hfind
      obtain ⟨htarget, hm⟩ := hfind
      cases hm
      exact twins_respond h hmarks hs htarget m hrefl fun hstop =>
        hidle ⟨active, _, hactive, hanswer, hstop⟩

end Moves

/-! ## Twin scans -/

/-- Where the scan from a standpoint gets. -/
inductive Visits (g : Grammar) {text : String} : Standpoint text → Standpoint text → Prop
  | refl (a : Standpoint text) : Visits g a a
  | head {stack : Stack} {pos : text.Pos} {mv : Move g stack pos} {b : Standpoint text}
      (next : nextMove (Supply.direct g) g stack pos = .ok (some mv)) (moves : mv.stays = false)
      (rest : Visits g ⟨mv.after, mv.next⟩ b) : Visits g ⟨stack, pos⟩ b

/-- Twin scans fail alike, or leave the same cover and twin stacks. -/
theorem twins_scanFrom [LawfulEngine] (h : g.Twins g' twin)
    (hmarks : ∀ {id id' : RuleId}, twin id id' → g'.marks id' = g.marks id) {text : String}
    {s s' : Stack} {pos : text.Pos}
    (hs : s.Twins twin entry s') (hrefl : ∀ e, entry e e)
    (hidle : ∀ a, Visits g ⟨s, pos⟩ a → a.Idle g → AlikeAt entry a.pos.offset.byteIdx)
    (c : Cover text) :
    Agree (fun result result' => result'.1 = result.1 ∧ result.2.Twins twin entry result'.2)
      (scanFrom (Supply.direct g) g s pos c) (scanFrom (Supply.direct g') g' s' pos c) := by
  fun_induction scanFrom (Supply.direct g) g s pos c generalizing s' with
  | case1 s pos c ih =>
    rw [scanFrom]
    refine (twins_nextMove h hmarks hs hrefl (hidle _ (.refl _))).bind fun mv mv' hmv htwins => ?_
    cases htwins with
    | none => exact .ok ⟨by rw [hs.scopes], hs⟩
    | @some mv mv' htwins =>
      dsimp only
      rw [htwins.stays, htwins.next, htwins.extend]
      split
      · exact .error _
      · rename_i hmoves
        exact ih mv hmoves htwins.after fun a ha =>
          hidle a (.head hmv (Bool.eq_false_iff.mpr hmoves) ha)

/-- **Twins scan alike.** -/
theorem twins_scan [LawfulEngine] (h : g.Twins g' twin)
    (hmarks : ∀ {id id' : RuleId}, twin id id' → g'.marks id' = g.marks id) (text : String)
    {s s' : Stack}
    (hs : s.Twins twin entry s') (hrefl : ∀ e, entry e e)
    (hidle : ∀ a : Standpoint text, Visits g ⟨s, text.startPos⟩ a → a.Idle g →
      AlikeAt entry a.pos.offset.byteIdx) :
    Agree (fun result result' => result'.1 = result.1 ∧ result.2.Twins twin entry result'.2)
      (scan (Supply.direct g) g text s) (scan (Supply.direct g') g' text s') := by
  refine (twins_scanFrom h hmarks hs hrefl hidle {}).bind fun result result' _ htwins => ?_
  exact .ok ⟨congrArg Cover.tokens htwins.1, htwins.2⟩

omit [Engine] in
theorem alikeAt_eq (offset : Nat) : AlikeAt Eq offset := fun _ _ he => by rw [he]

theorem Stack.Twins.forgetEntries {s s' : Stack} (hs : s.Twins twin entry s')
    (hrefl : ∀ e, entry e e) : s.forgetEntries.Twins twin entry s'.forgetEntries where
  scope := hs.scope
  frames := by
    unfold Stack.forgetEntries
    rw [List.forall₂_map_left_iff, List.forall₂_map_right_iff]
    exact hs.frames.imp fun _ _ h => ⟨h.rule, h.scopes, h.closer, hrefl _⟩

/-- Twins scan lines alike. -/
theorem twins_scanLines [LawfulEngine] (h : g.Twins g' twin)
    (hmarks : ∀ {id id' : RuleId}, twin id id' → g'.marks id' = g.marks id) {s s' : Stack}
    (hs : s.Twins twin Eq s')
    (texts : List String) :
    scanLines (Supply.direct g') g' s' texts = scanLines (Supply.direct g) g s texts := by
  induction texts generalizing s s' with
  | nil => rfl
  | cons text texts ih =>
    have hscan := twins_scan h hmarks text hs Eq.refl fun _ _ _ => alikeAt_eq _
    refine (Agree.eq (hscan.bind fun result result' _ htwins => ?_)).symm
    obtain ⟨tokens, stack⟩ := result
    obtain ⟨tokens', stack'⟩ := result'
    obtain ⟨rfl, hstack⟩ := htwins
    dsimp only
    rw [ih (hstack.forgetEntries Eq.refl)]
    exact .refl (fun _ => rfl) _

end ScopedText
