import Mathlib
import ScopedText.Proofs.Answer
import ScopedText.Proofs.Kept
import ScopedText.Regex.Search

/-!
# What decides a scan

A scan acts on patterns, rule lists and the frames of its stack; scopes and captures only go into
the tokens. `scopes_decide_nothing` states this of two runs: of two grammars that are alike up to
their scopes and captures, from two stacks that are alike up to their scopes, the scans of a text
fail with the same error, or leave stacks that are alike again.

Two searches whose patterns are the same up to their labels have the same answer up to its label
(`find_relabel`), so both scans make the same kind of move at each position (`effects_nextMove`).
-/

namespace ScopedText

section

/-! ## Grammars without their scopes -/

def Rule.bare : Rule → Rule
  | span r => span { r with scope := none, captures := [] }
  | region r => region { r with scope := none, openingCaptures := [], closingCaptures := [] }
  | container r => container r
  | inert => inert

/-- The grammars differ only in their scopes and captures. -/
structure Grammar.Alike (g g' : Grammar) : Prop where
  patterns : g.patterns = g'.patterns
  rules : g.rules.map Rule.bare = g'.rules.map Rule.bare
  repository : g.repository = g'.repository

/-- The regions differ only in their scopes and captures. -/
structure Region.Alike (r r' : Region) : Prop where
  id : r'.id = r.id
  opening : r'.opening = r.opening
  closing : r'.closing = r.closing
  template : r'.closingIsTemplate = r.closingIsTemplate
  first : r'.closingFirst = r.closingFirst
  entries : r'.entries = r.entries

/-- What stands at the same place of two rule tables that differ only in scopes and captures. -/
inductive Rule.Alike : Option Rule → Option Rule → Prop
  | none : Alike none none
  | span {r r' : SpanRule} (pattern : r'.pattern = r.pattern) :
    Alike (some (span r)) (some (span r'))
  | region {r r' : Region} (alike : r.Alike r') : Alike (some (region r)) (some (region r'))
  | container (r : Container) : Alike (some (container r)) (some (container r))
  | inert : Alike (some inert) (some inert)

theorem Rule.alike_of_bare {rule rule' : Option Rule} (h : rule.map bare = rule'.map bare) :
    Alike rule rule' := by
  cases rule with
  | none =>
    cases rule' with
    | none => exact .none
    | some => simp at h
  | some rule =>
    cases rule' with
    | none => simp at h
    | some rule' =>
      simp only [Option.map_some, Option.some.injEq] at h
      cases rule <;> cases rule' <;> simp only [bare, reduceCtorEq] at h
      case span.span => exact .span (by simp_all)
      case region.region => exact .region (by constructor <;> simp_all)
      case container.container => exact h ▸ .container _
      case inert.inert => exact .inert

namespace Grammar.Alike

variable {g g' : Grammar} (h : g.Alike g')

include h

theorem rule {id : RuleId} {rule : Option Rule} (hr : g.rules[id]? = rule) :
    ∃ rule', g'.rules[id]? = rule' ∧ Rule.Alike rule rule' := by
  refine ⟨_, rfl, hr ▸ Rule.alike_of_bare ?_⟩
  simpa using congrArg (·[id]?) h.rules

theorem marks (id : RuleId) : g'.marks id = g.marks id := by
  have hsize : g'.rules.size = g.rules.size := by
    simpa using (congrArg Array.size h.rules).symm
  simp only [Grammar.marks, hsize]

theorem patternText (id : PatternId) : g'.patternText id = g.patternText id := by
  simp only [Grammar.patternText, h.patterns]

theorem target? (e : Entry) : g'.target? e = g.target? e := by
  unfold Grammar.target? Grammar.resolve
  rw [h.repository]

theorem entries (id : RuleId) : g'.entries id = g.entries id := by
  unfold Grammar.entries
  generalize hr : g.rules[id]? = rule
  obtain ⟨_, hr', hrule⟩ := h.rule hr
  rw [hr']
  cases hrule with
  | none | span | container | inert => rfl
  | region alike => exact alike.entries

/-- The same patterns are active in both grammars. -/
theorem activeFrom (visited : List RuleId) (entries : List Entry) :
    g'.activeFrom visited entries = g.activeFrom visited entries := by
  fun_induction Grammar.activeFrom g visited entries with
  | case1 => simp only [Grammar.activeFrom]
  | case2 visited e es htarget ih => simp only [activeFrom_cons, h.target?, htarget, ih]
  | case3 visited e es id htarget r hr ih =>
    obtain ⟨_, hr', hrule⟩ := h.rule hr
    cases hrule with
    | span pattern =>
      simp only [activeFrom_cons, h.target?, htarget, hr', pattern, h.patternText, ih]
  | case4 visited e es id htarget r hr ih =>
    obtain ⟨_, hr', hrule⟩ := h.rule hr
    cases hrule with
    | region alike =>
      simp only [activeFrom_cons, h.target?, htarget, hr', alike.opening, h.patternText, ih]
  | case5 visited e es id htarget r hr hvisited ih =>
    obtain ⟨_, hr', hrule⟩ := h.rule hr
    cases hrule with
    | container => simp only [activeFrom_cons, h.target?, htarget, hr', hvisited, if_true, ih]
  | case6 visited e es id htarget r hr hvisited ih =>
    obtain ⟨_, hr', hrule⟩ := h.rule hr
    cases hrule with
    | container => simp only [activeFrom_cons, h.target?, htarget, hr', if_neg hvisited, ih]
  | case7 visited e es id htarget hspan hregion hcontainer ih =>
    generalize hr : g.rules[id]? = rule at *
    obtain ⟨_, hr', hrule⟩ := h.rule hr
    cases hrule with
    | none | inert => simp only [activeFrom_cons, h.target?, htarget, hr', ih]
    | span => exact (hspan _ rfl).elim
    | region => exact (hregion _ rfl).elim
    | container => exact (hcontainer _ rfl).elim

theorem closingText {r r' : Region} (hr : r.Alike r') {text : String} {pos : text.Pos}
    (m : Regex.Found text pos) : r'.closingText g' m = r.closingText g m := by
  simp only [Region.closingText, hr.template, hr.closing, h.patternText]

end Grammar.Alike

variable [Engine]

theorem Grammar.Alike.activeSet {g g' : Grammar} (h : g.Alike g') (id : RuleId) :
    g'.activeSet id = g.activeSet id := by
  simp only [Grammar.activeSet, Grammar.active, h.activeFrom, h.entries]

/-! ## Stacks without their scopes -/

structure Frame.Control where
  rule : RuleId
  closing : String
  first : Bool
  entered : Option Nat
deriving DecidableEq, Repr

def Frame.control (frame : Frame) : Frame.Control where
  rule := frame.rule
  closing := frame.closer.pattern.text
  first := frame.closer.first
  entered := frame.entered

def Stack.control (s : Stack) : List Frame.Control := s.frames.map Frame.control

/-- What a pattern compiles to is settled by its text. -/
theorem Pattern.eq_of_text {p q : Pattern} (h : p.text = q.text) : p = q := by
  obtain ⟨text, regex, hregex⟩ := p
  obtain ⟨text', regex', hregex'⟩ := q
  subst h hregex hregex'
  rfl

/-! ## Moves -/

/-- Where a move leads to: a position and the frames without their scopes, and whether it stays. -/
def Move.effect {g : Grammar} {text : String} {stack : Stack} {pos : text.Pos}
    (mv : Move g stack pos) : text.Pos × List Frame.Control × Bool :=
  (mv.next, mv.after.control, mv.stays)

namespace Stack

variable (s : Stack)

theorem rule_eq_control : s.rule = (s.control.head?.map (·.rule)).getD rootRule := by
  obtain ⟨scope, frames⟩ := s
  cases frames <;> rfl

theorem enteredAt_eq_control (id : RuleId) (offset : Nat) :
    s.enteredAt id offset
      = s.control.any fun frame => frame.rule == id && frame.entered == some offset := by
  simp only [enteredAt, control, List.any_map]
  rfl

theorem targets_eq_control (active : Regex.Set RuleId) :
    (s.targets active).relabel Target.rule?
      = let rules := active.entries.map fun entry => (some entry.1, entry.2)
        match s.control with
        | [] => ⟨rules⟩
        | frame :: _ => match (Pattern.ofString frame.closing).regex with
          | .error _ => ⟨rules⟩
          | .ok regex =>
            if frame.first then ⟨(none, regex) :: rules⟩ else ⟨rules ++ [(none, regex)]⟩ := by
  obtain ⟨scope, frames⟩ := s
  cases frames with
  | nil => simp [targets, Regex.Set.relabel, control, Target.rule?]
  | cons frame outer =>
    have hpattern : Pattern.ofString frame.closer.pattern.text = frame.closer.pattern :=
      Pattern.eq_of_text rfl
    simp only [targets, control, List.map_cons, Frame.control, hpattern]
    cases frame.closer.pattern.regex with
    | error => simp [Regex.Set.relabel, Target.rule?]
    | ok regex => cases frame.closer.first <;> simp [Regex.Set.relabel, Target.rule?]

end Stack

/-- The effect of a step of a scan, or the error that stops it. -/
def effects {g : Grammar} {text : String} {stack : Stack} {pos : text.Pos}
    (step : Except ScanError (Option (Move g stack pos))) :
    Except ScanError (Option (text.Pos × List Frame.Control × Bool)) :=
  step.map (·.map Move.effect)

section Moves

variable {g g' : Grammar} {s s' : Stack} {text : String} {pos : text.Pos}

theorem effects_of_effect {mv : Move g s pos} {mv' : Move g' s' pos} (h : mv'.effect = mv.effect) :
    effects (pure (some mv')) = effects (pure (some mv)) :=
  congrArg (fun effect => (.ok (some effect) : Except ScanError _)) h

/-- A region that opens has the effect that its closing pattern allows. -/
theorem effects_region {id : RuleId} {region : Region} (hr : g.rules[id]? = some (.region region))
    (m : Regex.Found text pos) (hopens : pos < m.span.stop
      ∨ s.enteredAt region.id m.span.start.offset.byteIdx = false) :
    effects (respondRule (Supply.direct g) g s pos id m)
      = (compileClosing (region.closingText g m)).map fun p =>
          some (m.span.stop, ⟨region.id, p.text, region.closingFirst,
            some m.span.start.offset.byteIdx⟩ :: s.control, false) := by
  rw [respondRule_region _ _ hr, dif_pos hopens, ← map_closing_direct (g := g)]
  cases (Supply.direct g).closing (region.closingText g m) <;> rfl

section Skips

variable (hs : s'.control = s.control)

include hs

theorem effects_skip :
    effects (pure (Move.skip? : Option (Move g' s' pos)))
      = effects (pure (Move.skip? : Option (Move g s pos))) := by
  unfold Move.skip?
  split
  · rfl
  · exact effects_of_effect (congrArg (_, ·, false) hs)

theorem enteredAt_of_control (id : RuleId) (offset : Nat) :
    s'.enteredAt id offset = s.enteredAt id offset := by
  rw [Stack.enteredAt_eq_control, hs, ← Stack.enteredAt_eq_control]

theorem effects_close {frame frame' : Frame} {outer outer' : List Frame}
    (frames_eq : s.frames = frame :: outer) (frames_eq' : s'.frames = frame' :: outer')
    (m : Regex.Found text pos) :
    effects (pure (Move.close? frame' outer' frames_eq' m : Option (Move g' s' pos)))
      = effects (pure (Move.close? frame outer frames_eq m : Option (Move g s pos))) := by
  have hcontrol : frame'.control :: outer'.map Frame.control
      = frame.control :: outer.map Frame.control := by
    simpa [Stack.control, frames_eq, frames_eq'] using hs
  obtain ⟨hframe, houter⟩ := List.cons.inj hcontrol
  have hentered : frame'.entered = frame.entered := congrArg Frame.Control.entered hframe
  simp only [Move.close?, hentered]
  split
  · exact effects_of_effect (congrArg (_, ·, false) houter)
  · exact effects_skip hs

theorem effects_closeInnermost (m : Regex.Found text pos) :
    effects (pure (Move.closeInnermost? m : Option (Move g' s' pos)))
      = effects (pure (Move.closeInnermost? m : Option (Move g s pos))) := by
  have hlength : s'.frames.length = s.frames.length := by
    simpa [Stack.control] using congrArg List.length hs
  unfold Move.closeInnermost?
  split
  · rename_i frame' outer' frames_eq'
    split
    · exact effects_close hs _ frames_eq' m
    · simp [*] at hlength
  · split
    · simp [*] at hlength
    · exact effects_of_effect (congrArg (_, ·, _) hs)

end Skips

variable (h : g.Alike g') (hs : s'.control = s.control)

include h hs

/-- The match of a rule has the same effect in both scans. -/
theorem effects_respondRule (id : RuleId) (m : Regex.Found text pos) :
    effects (respondRule (Supply.direct g') g' s' pos id m)
      = effects (respondRule (Supply.direct g) g s pos id m) := by
  generalize hr : g.rules[id]? = rule
  obtain ⟨_, hr', hrule⟩ := h.rule hr
  cases hrule with
  | span pattern =>
    rw [respondRule_span _ _ hr, respondRule_span _ _ hr']
    split
    · exact effects_of_effect (congrArg (_, ·, false) hs)
    · exact effects_skip hs
  | @region r r' alike =>
    have hentered := enteredAt_of_control hs r.id m.span.start.offset.byteIdx
    rw [← alike.id] at hentered
    by_cases hopens : pos < m.span.stop
        ∨ s.enteredAt r.id m.span.start.offset.byteIdx = false
    · have hopens' := hopens
      rw [← alike.id, ← hentered] at hopens'
      rw [effects_region hr m hopens, effects_region hr' m hopens', h.closingText alike, hs,
        alike.id, alike.first]
    · have hopens' := hopens
      rw [← alike.id, ← hentered] at hopens'
      rw [respondRule_region _ _ hr, respondRule_region _ _ hr', dif_neg hopens, dif_neg hopens']
      exact effects_skip hs
  | container | none | inert =>
    rw [respondRule_other _ _ (by simp [hr']) (by simp [hr']),
      respondRule_other _ _ (by simp [hr]) (by simp [hr])]
    exact effects_skip hs

/-- A match with the same label has the same effect in both scans. -/
theorem effects_respond {target : Target s} {target' : Target s'}
    (hlabel : target'.rule? = target.rule?) (m : Regex.Found text pos) :
    effects (respond (Supply.direct g') g' s' pos (target', m))
      = effects (respond (Supply.direct g) g s pos (target, m)) := by
  cases target with
  | closing frame outer frames_eq =>
    cases target' with
    | rule => cases hlabel
    | closing frame' outer' frames_eq' => exact effects_close hs frames_eq frames_eq' m
  | rule id =>
    cases target' with
    | closing => cases hlabel
    | rule id' =>
      cases hlabel
      cases hmarks : g.marks id with
      | true =>
        rw [respond_marked _ _ hmarks, respond_marked _ _ ((h.marks id).trans hmarks)]
        exact effects_closeInnermost hs m
      | false =>
        rw [respond_unmarked _ _ hmarks, respond_unmarked _ _ ((h.marks id).trans hmarks)]
        exact effects_respondRule h hs id m

/-- Both scans make the same kind of step. -/
theorem effects_nextMove [LawfulEngine] : effects (nextMove (Supply.direct g') g' s' pos)
    = effects (nextMove (Supply.direct g) g s pos) := by
  have hrule : s'.rule = s.rule := by rw [s'.rule_eq_control, s.rule_eq_control, hs]
  have hactive : (Supply.direct g').active s'.rule = (Supply.direct g).active s.rule :=
    hrule ▸ h.activeSet s'.rule
  unfold nextMove
  rw [hactive]
  cases (Supply.direct g).active s.rule with
  | error e => rfl
  | ok active =>
    have hfind := find_relabel Target.rule? (s'.targets active) pos
    rw [s'.targets_eq_control, hs, ← s.targets_eq_control, find_relabel] at hfind
    simp only [bind, Except.bind]
    cases hanswer : (s.targets active).find pos with
    | none =>
      rw [hanswer, Option.map_none] at hfind
      rw [Option.map_eq_none_iff.mp hfind.symm]
      rfl
    | some answer =>
      rw [hanswer] at hfind
      obtain ⟨answer', hanswer', heq⟩ := Option.map_eq_some_iff.mp hfind.symm
      obtain ⟨hlabel, hfound⟩ := Prod.mk.inj heq
      rw [hanswer']
      dsimp only
      obtain ⟨target, m⟩ := answer
      obtain ⟨target', m'⟩ := answer'
      cases hfound
      exact effects_respond h hs hlabel m

end Moves

/-- From stacks that are alike, the scans fail alike or leave stacks that are alike. -/
theorem control_scanFrom [LawfulEngine] {g g' : Grammar} (h : g.Alike g') {text : String}
    {s s' : Stack} (hs : s'.control = s.control) (pos : text.Pos) (c c' : Cover text) :
    (scanFrom (Supply.direct g') g' s' pos c').map (·.2.control)
      = (scanFrom (Supply.direct g) g s pos c).map (·.2.control) := by
  fun_induction scanFrom (Supply.direct g) g s pos c generalizing s' c' with
  | case1 s pos c ih =>
    have hstep : effects (nextMove (Supply.direct g') g' s' pos)
        = effects (nextMove (Supply.direct g) g s pos) := effects_nextMove h hs
    rw [scanFrom]
    cases hmove : nextMove (Supply.direct g) g s pos <;>
      cases hmove' : nextMove (Supply.direct g') g' s' pos <;> rw [hmove, hmove'] at hstep
    case error.error =>
      cases hstep
      rfl
    case error.ok => cases hstep
    case ok.error => cases hstep
    case ok.ok mv mv' =>
      -- the moves need not be of one type, but they lead to one place with stacks that are alike
      have heffects : mv'.map Move.effect = mv.map Move.effect := Except.ok.inj hstep
      cases mv with
      | none =>
        cases Option.map_eq_none_iff.mp heffects
        exact congrArg Except.ok hs
      | some mv =>
        obtain ⟨mv', rfl, heffect⟩ := Option.map_eq_some_iff.mp heffects
        obtain ⟨hnext, heffect⟩ := Prod.mk.inj heffect
        obtain ⟨hafter, hstays⟩ := Prod.mk.inj heffect
        simp only [bind, Except.bind, hstays]
        split
        · rfl
        · rw [hnext]
          exact ih mv ‹_› hafter _

/-- **Scopes and captures decide nothing.** Two grammars that differ only in them scan a text from
two stacks that differ only in their scopes to the same error, or to stacks that differ only in
their scopes; what the two tokenizers have kept from earlier work does not matter either. -/
theorem scopes_decide_nothing [LawfulEngine] (g g' : Grammar) (h : g.Alike g') (s s' : Stack)
    (hs : s'.control = s.control) (t : Tokenizer g) (t' : Tokenizer g') (text : String) :
    (t'.run (Tokenizer.tokenizeFrom text s')).map (·.2.control)
      = (t.run (Tokenizer.tokenizeFrom text s)).map (·.2.control) := by
  have hscan := control_scanFrom h hs text.startPos {} {}
  rw [Tokenizer.gives_tokenizeFrom, Tokenizer.gives_tokenizeFrom]
  unfold Grammar.tokenizeFrom scan
  cases hfrom : scanFrom (Supply.direct g) g s text.startPos {} <;>
    cases hfrom' : scanFrom (Supply.direct g') g' s' text.startPos {} <;>
    rw [hfrom, hfrom'] at hscan
  all_goals exact hscan

end

/-- A grammar of quoted texts, whose quotes may have a scope. -/
def quoteGrammar (scope : Option Scope) (captures : CaptureTable) : Grammar where
  name := "quote"
  displayName := none
  description := none
  scopeName := "text"
  scope := ⟨["text"]⟩
  fileTypes := []
  firstLine := none
  patterns := #["(')", "'"]
  rules := #[.container { id := 0, entries := [.rule 1] },
    .region {
      id := 1, scope, opening := 0, openingCaptures := captures, closing := 1
      closingIsTemplate := false, closingCaptures := captures, closingFirst := false
      entries := [] }]
  repository := {}

/-- A stack in a quoted text, with some scopes. -/
def quoteStack (scope : Scope) (scopes : List Scope) : Stack where
  scope
  frames := [⟨1, scopes, ⟨Pattern.ofString "'", false⟩, none⟩]

/-- A quoted text that goes on from another line, and one that begins, with scopes and without. -/
theorem scopes_decide_nothing_quote :
    let g := quoteGrammar none []
    let g' := quoteGrammar (some ⟨["string"]⟩) [none, some ⟨["quote"]⟩]
    let s := quoteStack ⟨["text"]⟩ []
    let s' := quoteStack ⟨["other"]⟩ [⟨["other"]⟩, ⟨["string"]⟩]
    g.Alike g' ∧ s'.control = s.control
      ∧ ((Tokenizer.new g').run (Tokenizer.tokenizeFrom "a'b'c" s')).map (·.2.control)
        = .ok [⟨1, "'", false, some 3⟩] := by
  intro g g' s s'
  have alike : g.Alike g' := ⟨rfl, by simp [g, g', quoteGrammar, Rule.bare], rfl⟩
  have plain : ((Tokenizer.new g).run (Tokenizer.tokenizeFrom "a'b'c" s)).map (·.2.control)
      = .ok [⟨1, "'", false, some 3⟩] := by
    rw [Tokenizer.gives_tokenizeFrom]
    cbv
  refine ⟨alike, rfl, ?_⟩
  rw [scopes_decide_nothing g g' alike s s' rfl (Tokenizer.new g), plain]

end ScopedText
