import ScopedText.Proofs.FilledItems
import ScopedText.Proofs.FirstMatch
import ScopedText.Proofs.Kept
import ScopedText.Proofs.Literal
import ScopedText.Proofs.Partition
import ScopedText.Proofs.Twins

/-!
# Long brackets

A region without rules of its own, whose closing pattern is a bracket around the text of a group of
the opening match, takes in whatever comes up to that bracket. Inside of it nothing is searched for
but the closing pattern (`nextMove_of_bare`), and that is a text written literally. So the region
ends at the first place where the bracket occurs, or it goes on to the end of the text
(`long_bracket_of_scan`).
-/

namespace ScopedText

open Pattern Backreference Regex

variable {g : Grammar} {text : String}

/-! ## Regions without rules -/

/-- Nothing is active inside of a region without rules. -/
theorem active_of_bare (hnumbered : Numbered g.rules) {region : Region}
    (hregion : .region region ∈ g.rules) (hentries : region.entries = []) :
    g.activeSet region.id = .ok ⟨[]⟩ := by
  obtain ⟨id, hid⟩ := Array.mem_iff_getElem?.mp hregion
  obtain rfl : region.id = id := hnumbered id _ hid
  have hactive : g.active region.id = [] := by
    simp only [Grammar.active, Grammar.entries, hid, Option.map_some, Option.getD_some,
      Rule.entries, hentries, Grammar.activeFrom]
  rw [Grammar.activeSet, hactive]
  rfl

theorem Pattern.find_of_escaped {p : Pattern} {s : String} (h : p.text = escape s)
    (origin : text.Pos) : p.find origin = (ofText s).find origin := by
  have hcompile : Engine.compile .namedFirst (escape s) = .ok (ofText s) := compile_escape ..
  unfold Pattern.find
  rw [p.regex_eq, h, hcompile]
  rfl

theorem compileClosing_escape (s : String) : ∃ p, compileClosing (escape s) = .ok p := by
  have hcompiles : (Pattern.ofString (escape s)).compiles = true := by
    have hregex : (Pattern.ofString (escape s)).regex = compile .namedFirst (escape s) := rfl
    rw [Pattern.compiles, hregex, compile_escape]
    rfl
  exact ⟨_, if_pos hcompiles⟩

theorem Regex.Occurs.lt {origin : text.Pos} {s : String} {span : Span text}
    (h : Occurs origin s span) (hs : s ≠ "") : origin < span.stop := by
  refine Std.lt_of_le_of_lt h.le (String.Pos.lt_of_le_of_ne span.le fun heq => hs ?_)
  obtain ⟨p, q, hle⟩ := span
  obtain rfl : p = q := heq
  exact h.text_eq.symm.trans (spelled?_eq_some_iff (s := "").mp rfl)

section Bare

variable {stack : Stack} {pos : text.Pos} {frame : Frame} {outer : List Frame} {s : String}

/-- Where nothing is active, only the closing pattern of the innermost region is searched for. -/
theorem nextMove_of_bare (hframes : stack.frames = frame :: outer)
    (hactive : g.activeSet frame.rule = .ok ⟨[]⟩) :
    nextMove (Supply.direct g) g stack pos
      = match frame.closer.pattern.find pos with
        | none => .ok none
        | some m => respond (Supply.direct g) g stack pos (.closing frame outer hframes, m) := by
  have hrule : stack.rule = frame.rule := by rw [Stack.rule, hframes]
  have hsupply : (Supply.direct g).active stack.rule = .ok ⟨[]⟩ := by
    rw [hrule]
    exact hactive
  have hrules : stack.rulesAnswer ⟨[]⟩ pos = none := by
    rw [Stack.rulesAnswer_eq_none_iff, find_nil]
  have htargets : (stack.targets ⟨[]⟩).find pos = stack.closingAnswer pos := by
    rw [Stack.find_targets, hrules, none_earlier, earlier_none, ite_self]
  have hanswer : stack.closingAnswer pos
      = (frame.closer.pattern.find pos).map (.closing frame outer hframes, ·) := by
    obtain ⟨scope, frames⟩ := stack
    cases hframes
    rfl
  rw [nextMove, hsupply]
  simp only [bind, Except.bind, htargets, hanswer]
  cases frame.closer.pattern.find pos <;> rfl

/-- A region that a text closes ends where it occurs first. -/
theorem closes_of_occurs (hframes : stack.frames = frame :: outer)
    (hactive : g.activeSet frame.rule = .ok ⟨[]⟩) (hcloser : frame.closer.pattern.text = escape s)
    (hs : s ≠ "") {bracket : Span text} (h : Occurs pos s bracket) :
    ∃ m advances, m.span = bracket ∧ nextMove (Supply.direct g) g stack pos
      = .ok (some (.closes frame outer m hframes advances)) := by
  have hfind : frame.closer.pattern.find pos = some ⟨bracket, h.le, []⟩ := by
    rw [Pattern.find_of_escaped hcloser, find_ofText_eq_some_iff]
    exact ⟨h, rfl⟩
  have hadvances : pos < bracket.stop ∨ frame.entered ≠ some pos.offset.byteIdx := .inl (h.lt hs)
  refine ⟨⟨bracket, h.le, []⟩, hadvances, rfl, ?_⟩
  rw [nextMove_of_bare hframes hactive, hfind]
  exact congrArg Except.ok (dif_pos hadvances)

/-- If the text does not occur any more, nothing ends the region. -/
theorem stays_of_not_occurs (hframes : stack.frames = frame :: outer)
    (hactive : g.activeSet frame.rule = .ok ⟨[]⟩) (hcloser : frame.closer.pattern.text = escape s)
    (h : ∀ span : Span text, pos ≤ span.start → span.text ≠ s) :
    nextMove (Supply.direct g) g stack pos = .ok none := by
  have hfind : frame.closer.pattern.find pos = none := by
    rw [Pattern.find_of_escaped hcloser, find_ofText_eq_none_iff]
    exact h
  rw [nextMove_of_bare hframes hactive, hfind]

end Bare

/-! ## Scans up to a standpoint -/

theorem Visits.pos_le {a b : Standpoint text} (h : Visits g a b) : a.pos ≤ b.pos := by
  induction h with
  | refl => exact String.Pos.le_refl _
  | @head _ _ mv _ _ _ _ ih => exact String.Pos.le_trans mv.le_next ih

/-- What a scan does from a standpoint on is what it does in the end. -/
theorem Visits.exists_path {a b : Standpoint text} (h : Visits g a b)
    {rest : Path g b.stack b.pos} (hrest : findPath (Supply.direct g) g b.stack b.pos = .ok rest) :
    ∃ path : Path g a.stack a.pos, findPath (Supply.direct g) g a.stack a.pos = .ok path
      ∧ path.last = rest.last
      ∧ ∀ (byte : Nat) (scopes : List Scope), b.pos.offset.byteIdx ≤ byte →
        path.Gives byte scopes → rest.Gives byte scopes := by
  induction h with
  | refl a => exact ⟨rest, hrest, rfl, fun _ _ _ h => h⟩
  | @head stack pos mv b hnext hmoves hvisits ih =>
    obtain ⟨path, hpath, hlast, hgives⟩ := ih hrest
    refine ⟨.move mv path, ?_, hlast, fun byte scopes hbyte h => hgives byte scopes hbyte ?_⟩
    · rw [findPath]
      simp only [hnext, bind, Except.bind, hmoves, Bool.false_eq_true, dite_false, hpath]
      rfl
    · have hle : mv.next.offset.byteIdx ≤ b.pos.offset.byteIdx := hvisits.pos_le
      rwa [Path.Gives, if_neg (by omega)] at h

theorem Visits.trans {a b c : Standpoint text} (h : Visits g a b) (h' : Visits g b c) :
    Visits g a c := by
  induction h with
  | refl => exact h'
  | head hnext hmoves _ ih => exact .head hnext hmoves (ih h')

/-- A scan that comes to a standpoint where nothing matches ends there. -/
theorem Visits.tokenizeFrom {s stack : Stack} {pos : text.Pos}
    (h : Visits g ⟨s, text.startPos⟩ ⟨stack, pos⟩)
    (hdone : nextMove (Supply.direct g) g stack pos = .ok none) (t : Tokenizer g) :
    ∃ tokens, t.run (Tokenizer.tokenizeFrom text s) = .ok (tokens, stack)
      ∧ Partition tokens
      ∧ ∀ token ∈ tokens, ∀ byte, pos.offset.byteIdx ≤ byte → token.span.Covers byte →
        token.scopes = stack.scopes := by
  have hrest : findPath (Supply.direct g) g stack pos = .ok .done := by
    rw [findPath, hdone]
    rfl
  obtain ⟨path, hpath, hlast, hgives⟩ := h.exists_path hrest
  refine ⟨(path.cover {}).tokens, ?_, path.partition, fun token htoken byte hbyte hcovers => ?_⟩
  · have hstack : path.last = stack := hlast
    rw [Tokenizer.gives_tokenizeFrom, Grammar.tokenizeFrom, scan_eq_findPath, hpath, ← hstack]
    rfl
  · exact hgives byte token.scopes hbyte (Path.gives_of_mem_tokens htoken hcovers)

/-! ## Brackets -/

/-- A search is answered with a match of the opening pattern of a region, which is not taken for a
closing match, and the region is not one that was entered there already without taking text. -/
structure Region.Opens (g : Grammar) (region : Region) (stack : Stack) {pos : text.Pos}
    (m : Found text pos) : Prop where
  answered : ∃ active id, g.activeSet stack.rule = .ok active
    ∧ (stack.targets active).find pos = some (.rule id, m) ∧ g.rules[id]? = some (.region region)
    ∧ g.marks id = false
  advances : pos < m.span.stop
    ∨ stack.enteredAt region.id m.span.start.offset.byteIdx = false

/-- The region opens if its closing pattern compiles. -/
theorem Region.Opens.nextMove {region : Region} {stack : Stack} {pos : text.Pos}
    {m : Found text pos} (h : region.Opens g stack m)
    (hcompiles : ∃ p, compileClosing (region.closingText g m) = .ok p) :
    ∃ pattern mem text_eq, nextMove (Supply.direct g) g stack pos
      = .ok (some (.opens region m pattern mem text_eq h.advances)) := by
  obtain ⟨active, id, hactive, hfind, hrule, hmarks⟩ := h.answered
  obtain ⟨p, hp⟩ := hcompiles
  rw [← map_closing_direct (g := g)] at hp
  cases hclosing : (Supply.direct g).closing (region.closingText g m) with
  | error e =>
    rw [hclosing] at hp
    cases hp
  | ok pattern =>
    refine ⟨pattern.1, Array.mem_of_getElem? hrule, pattern.2, ?_⟩
    have hsupply : (Supply.direct g).active stack.rule = .ok active := hactive
    simp only [ScopedText.nextMove, hsupply, bind, Except.bind, hfind]
    rw [respond_unmarked _ _ hmarks, respondRule_region _ _ hrule, dif_pos h.advances, hclosing]
    rfl

def bracketed (inside : String) : String := "]" ++ inside ++ "]"

theorem closingText_bracketed (hg : g.WellFormed) {region : Region}
    (hregion : .region region ∈ g.rules) (hclosing : g.patternText region.closing = "\\]\\1\\]")
    {pos : text.Pos} {m : Found text pos} {span : Span text}
    (hgroup : m.groups[1]? = some (some span)) :
    region.closingText g m = escape (bracketed span.text) := by
  have htemplate : "\\]\\1\\]".toList = ['\\', ']', '\\', '1', '\\', ']'] := rfl
  have hreplace (texts : Nat → List Char) : replace texts ['\\', ']', '\\', '1', '\\', ']']
      = '\\' :: ']' :: (texts 1 ++ ['\\', ']']) := rfl
  have hchars : groupChars m.groups 1 = span.text.toList := by
    rw [groupChars, hgroup]
  have hmark : (Item.ofLiteral ']').chars = ['\\', ']'] := rfl
  rw [hg.closingText_eq_fill hregion, hclosing, ← String.toList_inj, toList_fill, htemplate,
    hreplace, hchars, escape, String.toList_ofList, bracketed]
  simp [escapeChars, hmark]

/-- The closing pattern of the region is a bracket around what group 1 of the opening pattern
matches, and the region has no rules of its own. -/
structure Region.LongBracket (g : Grammar) (region : Region) : Prop where
  mem : .region region ∈ g.rules
  closing : g.patternText region.closing = "\\]\\1\\]"
  entries : region.entries = []

/-- **Long brackets close on their own level.** A region that opens in a scan with so many equal
signs in its bracket ends with the first closing bracket that has as many, and the scan goes on
right behind it. If there is none, the region is on top of the stack that is returned, and the rest
of the text has its scopes. -/
theorem long_bracket_of_scan (source : Source.Grammar) (g : Grammar)
    (compiled : Grammar.ofSource source = .ok g) (region : Region)
    (hregion : region.LongBracket g) (t : Tokenizer g) (text : String) (s stack : Stack)
    (pos : text.Pos) (visited : Visits g ⟨s, text.startPos⟩ ⟨stack, pos⟩) (m : Found text pos)
    (opens : region.Opens g stack m) (level : Nat) (signs : Span text)
    (hgroup : m.groups[1]? = some (some signs))
    (hlevel : signs.text = String.ofList (List.replicate level '=')) :
    let bracket := "]" ++ String.ofList (List.replicate level '=') ++ "]"
    ∃ pattern : Pattern,
      let opened := stack.push region.id region.scope ⟨pattern, region.closingFirst⟩
        m.span.start.offset.byteIdx
      Visits g ⟨s, text.startPos⟩ ⟨opened, m.span.stop⟩
      ∧ (∀ found : Span text, Occurs m.span.stop bracket found →
        ∃ mv : Move g opened m.span.stop,
          nextMove (Supply.direct g) g opened m.span.stop = .ok (some mv)
          ∧ mv.hit?.map (·.span) = some found ∧ mv.next = found.stop ∧ mv.after = stack)
      ∧ ((∀ span : Span text, m.span.stop ≤ span.start → span.text ≠ bracket) →
        ∃ tokens, t.run (Tokenizer.tokenizeFrom text s) = .ok (tokens, opened)
          ∧ Partition tokens
          ∧ ∀ token ∈ tokens, ∀ byte, m.span.stop.offset.byteIdx ≤ byte →
            token.span.Covers byte → token.scopes = stack.scopes ++ region.scope.toList) := by
  intro bracket
  have hclosing : region.closingText g m = escape bracket := by
    rw [closingText_bracketed (Grammar.wellFormed_ofSource compiled) hregion.mem hregion.closing
      hgroup, hlevel]
    rfl
  obtain ⟨pattern, mem, text_eq, hopens⟩ := opens.nextMove (hclosing ▸ compileClosing_escape _)
  have hbare : g.activeSet region.id = .ok ⟨[]⟩ :=
    active_of_bare (Grammar.numbered_ofSource compiled) hregion.mem hregion.entries
  have hcloser : pattern.text = escape bracket := text_eq.trans hclosing
  have hne : bracket ≠ "" := by
    rw [Ne, ← String.toList_inj]
    simp [bracket]
  refine ⟨pattern, ?_⟩
  intro opened
  have hvisits : Visits g ⟨s, text.startPos⟩ ⟨opened, m.span.stop⟩ :=
    visited.trans (.head hopens rfl (.refl _))
  have hframes : opened.frames = ⟨region.id, stack.scopes ++ region.scope.toList,
      ⟨pattern, region.closingFirst⟩, some m.span.start.offset.byteIdx⟩ :: stack.frames := rfl
  refine ⟨hvisits, fun found hfound => ?_, fun hnone => ?_⟩
  · obtain ⟨closing, advances, rfl, hcloses⟩ :=
      closes_of_occurs (g := g) hframes hbare hcloser hne hfound
    exact ⟨_, hcloses, rfl, rfl, rfl⟩
  · exact hvisits.tokenizeFrom (stays_of_not_occurs hframes hbare hcloser hnone) t

def bracketSource : Source.Grammar where
  name := "t"
  scopeName := "source.t"
  rules := [{ name := some "s", opening := some "<(=)", closing := some "\\]\\1\\]" }]

def bracketRegion : Region where
  id := 1
  scope := some ⟨["s"]⟩
  opening := 0
  openingCaptures := []
  closing := 1
  closingIsTemplate := true
  closingCaptures := []
  closingFirst := false
  entries := []

def bracketGrammar : Grammar where
  name := "t"
  displayName := none
  description := none
  scopeName := "source.t"
  scope := ⟨["source", "t"]⟩
  fileTypes := []
  firstLine := none
  patterns := #["<(=)", "\\]\\1\\]"]
  rules := #[.container { id := 0, entries := [.rule 1] }, .region bracketRegion]
  repository := {}

def openingSet : Regex.Set RuleId :=
  ⟨[(1, ⟨.seq (.one (.single '<')) (.group 1 (.one (.single '='))), 1⟩)]⟩

/-- The equal sign in the opening bracket. -/
def bracketSign : Span "<=]]]=]" := ⟨⟨⟨1⟩, by decide⟩, ⟨⟨2⟩, by decide⟩, by decide⟩

/-- The opening bracket, with one equal sign in it. -/
def openingBracket : Found "<=]]]=]" "<=]]]=]".startPos where
  span := ⟨"<=]]]=]".startPos, ⟨⟨2⟩, by decide⟩, by decide⟩
  le := String.Pos.le_refl _
  captured := [some bracketSign]

def closingBracket : Span "<=]]]=]" := ⟨⟨⟨4⟩, by decide⟩, "<=]]]=]".endPos, by decide⟩

/-- The region is left behind the bracket of its own level, and the one without any equal sign is
part of its contents. -/
theorem long_bracket_of_scan_level :
    Grammar.ofSource bracketSource = .ok bracketGrammar
      ∧ bracketRegion.LongBracket bracketGrammar
      ∧ bracketRegion.Opens bracketGrammar bracketGrammar.initialStack openingBracket
      ∧ bracketSign.text = "="
      ∧ Occurs openingBracket.span.stop "]=]" closingBracket
      ∧ ∃ (pattern : Pattern) (mv : Move bracketGrammar
          (bracketGrammar.initialStack.push 1 bracketRegion.scope ⟨pattern, false⟩ 0)
          openingBracket.span.stop),
        nextMove (Supply.direct bracketGrammar) bracketGrammar _ _ = .ok (some mv)
          ∧ mv.hit?.map (·.span) = some closingBracket ∧ mv.next = "<=]]]=]".endPos
          ∧ mv.after = bracketGrammar.initialStack := by
  have compiled : Grammar.ofSource bracketSource = .ok bracketGrammar := by cbv
  have hregion : bracketRegion.LongBracket bracketGrammar := ⟨by simp [bracketGrammar], rfl, rfl⟩
  have hactive : bracketGrammar.activeSet bracketGrammar.initialStack.rule = .ok openingSet := by
    cbv
  have hopening : (bracketGrammar.initialStack.targets openingSet).find "<=]]]=]".startPos
      = some (.rule 1, openingBracket) := by cbv
  have hopens : bracketRegion.Opens bracketGrammar bracketGrammar.initialStack openingBracket :=
    ⟨⟨openingSet, 1, hactive, hopening, rfl, rfl⟩, .inl (by decide)⟩
  have hclosing : (ofText "]=]").find openingBracket.span.stop
      = some ⟨closingBracket, by decide, []⟩ := by cbv
  have hoccurs := (find_ofText_eq_some_iff.mp hclosing).1
  have hsign : bracketSign.text = "=" := by cbv
  obtain ⟨pattern, -, hcloses, -⟩ := long_bracket_of_scan bracketSource bracketGrammar compiled
    bracketRegion hregion (Tokenizer.new _) "<=]]]=]" bracketGrammar.initialStack
    bracketGrammar.initialStack _ (.refl _) openingBracket hopens 1 bracketSign rfl hsign
  obtain ⟨mv, hnext, hspan, hstop, hafter⟩ := hcloses closingBracket hoccurs
  exact ⟨compiled, hregion, hopens, hsign, hoccurs, pattern, mv, hnext, hspan, hstop, hafter⟩

end ScopedText
