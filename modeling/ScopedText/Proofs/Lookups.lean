import Mathlib
import ScopedText.Proofs.Path
import ScopedText.Proofs.WellFormed
import ScopedText.Regex.Search

/-!
# Look-ups in the tables of a grammar

A scan takes rules and patterns out of the tables by their numbers. Here each of these look-ups is a
computation of its own that fails if a number leads nowhere, and so is a match of a rule that is
never searched for. In a compiled grammar none of them fails: the scan that checks every look-up is
the scan that checks none (`lookups_ofSource`).
-/

namespace ScopedText

section

variable [Engine]

/-- What would stop a scan that looks at every number. -/
inductive TableFault
  /-- There is no rule with the number. -/
  | noRule (id : RuleId)
  /-- There is no pattern with the number. -/
  | noPattern (id : PatternId)
  /-- The rule has matched, but it has no pattern that is searched for. -/
  | notSearched (id : RuleId)
deriving DecidableEq, Repr

namespace Grammar

def ruleAt (g : Grammar) (id : RuleId) : Except TableFault Rule :=
  match g.rules[id]? with
  | some rule => .ok rule
  | none => .error (.noRule id)

def textAt (g : Grammar) (id : PatternId) : Except TableFault String :=
  match g.patterns[id]? with
  | some text => .ok text
  | none => .error (.noPattern id)

def checkedActiveFrom (g : Grammar) (visited : List RuleId) (entries : List Entry) :
    Except TableFault (List (RuleId × String)) :=
  match entries with
  | [] => .ok []
  | e :: es => match g.target? e with
    | none => g.checkedActiveFrom visited es
    | some id => match _h : g.rules[id]? with
      | none => .error (.noRule id)
      | some (.span r) => do
        let text ← g.textAt r.pattern
        let rest ← g.checkedActiveFrom visited es
        return (id, text) :: rest
      | some (.region r) => do
        let text ← g.textAt r.opening
        let rest ← g.checkedActiveFrom visited es
        return (id, text) :: rest
      | some (.container r) =>
        if _hv : visited.contains id then g.checkedActiveFrom visited es
        else g.checkedActiveFrom (id :: visited) (r.entries ++ es)
      | some .inert => g.checkedActiveFrom visited es
termination_by (g.unvisited visited, entries.length)
decreasing_by
  all_goals first
    | exact Prod.Lex.right _ (Nat.lt_succ_self _)
    | exact Prod.Lex.left _ _
        (g.unvisited_cons_lt (Array.getElem?_eq_some_iff.mp _h).1 (by simpa using _hv))

def checkedActive (g : Grammar) (id : RuleId) : Except TableFault (List (RuleId × String)) := do
  let rule ← g.ruleAt id
  g.checkedActiveFrom [id] rule.entries

/-- The look-ups that a match asks for: the rule, and the closing pattern if a region opens. What
is taken for a closing match asks for the rule of the innermost region. -/
def checkAnswer (g : Grammar) {text : String} (stack : Stack) (pos : text.Pos) :
    Target stack × Regex.Found text pos → Except TableFault Unit
  | (.closing frame _ _, _) => discard (g.ruleAt frame.rule)
  | (.rule id, found) =>
    if g.marks id then discard (g.ruleAt stack.rule)
    else do
      match ← g.ruleAt id with
      | .span _ => return ()
      | .region region =>
        if pos < found.span.stop
            ∨ stack.enteredAt region.id found.span.start.offset.byteIdx = false then
          discard (g.textAt region.closing)
      | .container _ | .inert => throw (.notSearched id)

/-- The move that the first match asks for, with every look-up made. -/
def checkedMove (g : Grammar) {text : String} (stack : Stack) (pos : text.Pos) :
    Except TableFault (Except ScanError (Option (Move g stack pos))) := do
  match compileTogether (← g.checkedActive stack.rule) with
  | .error e => return .error e
  | .ok active => match (stack.targets active).find pos with
    | none => return .ok none
    | some answer =>
      g.checkAnswer stack pos answer
      return respond (Supply.direct g) g stack pos answer

def checkedScanFrom (g : Grammar) {text : String} (stack : Stack) (pos : text.Pos)
    (c : Cover text) : Except TableFault (Except ScanError (Cover text × Stack)) := do
  match ← g.checkedMove stack pos with
  | .error e => return .error e
  | .ok none => return .ok (c.extend text.endPos stack.scopes, stack)
  | .ok (some move) =>
    if _h : move.stays then return (Supply.direct g).never
    else g.checkedScanFrom move.after move.next (move.extend c)
termination_by (pos.remainingBytes, Move.standing g stack pos)
decreasing_by exact move.measure_lt (Bool.eq_false_iff.mpr _h)

def checkedTokenizeFrom (g : Grammar) (text : String) (stack : Stack) :
    Except TableFault (Except ScanError (List (Token text) × Stack)) := do
  return (← g.checkedScanFrom stack text.startPos {}).map fun (c, stack) => (c.tokens, stack)

def checkedScanLines (g : Grammar) (stack : Stack) :
    List String → Except TableFault (Except ScanError (List Line))
  | [] => return .ok []
  | text :: texts => do
    match ← g.checkedTokenizeFrom text stack with
    | .error e => return .error e
    | .ok (tokens, stack) =>
      return (← g.checkedScanLines stack.forgetEntries texts).map (⟨text, tokens⟩ :: ·)

def checkedTokenizeLines (g : Grammar) (text : String) :
    Except TableFault (Except ScanError (List Line)) :=
  g.checkedScanLines g.initialStack (Text.linesInclusive text)

end Grammar

/-- The frames belong to rules of the grammar. -/
def Stack.Within (g : Grammar) (s : Stack) : Prop := ∀ frame ∈ s.frames, frame.rule < g.rules.size

namespace Grammar

variable {g : Grammar}

omit [Engine] in
theorem checkedActiveFrom_cons (g : Grammar) (visited : List RuleId) (e : Entry)
    (es : List Entry) :
    g.checkedActiveFrom visited (e :: es) = match g.target? e with
      | none => g.checkedActiveFrom visited es
      | some id => match g.rules[id]? with
        | none => .error (.noRule id)
        | some (.span r) => do
          let text ← g.textAt r.pattern
          let rest ← g.checkedActiveFrom visited es
          return (id, text) :: rest
        | some (.region r) => do
          let text ← g.textAt r.opening
          let rest ← g.checkedActiveFrom visited es
          return (id, text) :: rest
        | some (.container r) =>
          if visited.contains id then g.checkedActiveFrom visited es
          else g.checkedActiveFrom (id :: visited) (r.entries ++ es)
        | some .inert => g.checkedActiveFrom visited es := by
  rw [checkedActiveFrom]
  cases g.target? e with
  | none => rfl
  | some id =>
    dsimp only
    split <;> simp_all

omit [Engine] in
theorem ruleAt_of_lt {id : RuleId} (h : id < g.rules.size) :
    ∃ rule, g.rules[id]? = some rule ∧ g.ruleAt id = .ok rule := by
  have hrule := Array.getElem?_eq_getElem h
  exact ⟨_, hrule, by simp only [ruleAt, hrule]⟩

namespace WellFormed

theorem textAt (h : g.WellFormed) {rule : Rule} (hrule : rule ∈ g.rules)
    {p : PatternId × CaptureTable} (hp : p ∈ rule.patterns) :
    g.textAt p.1 = .ok (g.patternText p.1) := by
  obtain ⟨text, _, htext, _⟩ := h.fits rule hrule p hp
  simp only [Grammar.textAt, patternText, htext, Option.getD_some]

theorem target_lt (h : g.WellFormed) {owner : RuleId} {e : Entry} (he : e ∈ g.entries owner)
    {id : RuleId} (hid : g.target? e = some id) : id < g.rules.size := by
  cases e with
  | rule child =>
    obtain rfl : child = id := Option.some.inj hid
    exact (h.inside owner child he).2
  | reference r =>
    obtain ⟨other, hother, hlt⟩ := h.references owner r he
    cases hother.symm.trans hid
    exact hlt

/-- The entries of a container lead to rules. -/
theorem target_lt_of_container (h : g.WellFormed) {id : RuleId} {r : Container}
    (hrule : g.rules[id]? = some (.container r)) {e : Entry} (he : e ∈ r.entries) {child : RuleId}
    (hchild : g.target? e = some child) : child < g.rules.size := by
  have hentries : g.entries id = r.entries := by
    simp only [entries, hrule, Option.map_some, Option.getD_some, Rule.entries]
  exact h.target_lt (hentries ▸ he) hchild

theorem checkedActiveFrom (h : g.WellFormed) (visited : List RuleId) (entries : List Entry)
    (hin : ∀ e ∈ entries, ∀ id, g.target? e = some id → id < g.rules.size) :
    g.checkedActiveFrom visited entries = .ok (g.activeFrom visited entries) := by
  fun_induction activeFrom g visited entries with
  | case1 => simp only [Grammar.checkedActiveFrom]
  | case2 visited e es htarget ih =>
    rw [checkedActiveFrom_cons, htarget]
    exact ih fun _ he => hin _ (List.mem_cons_of_mem _ he)
  | case3 visited e es id htarget r hrule ih =>
    have htext := h.textAt (Array.mem_of_getElem? hrule)
      (List.mem_singleton_self (r.pattern, r.captures))
    simp only [checkedActiveFrom_cons, htarget, hrule, htext,
      ih fun _ he => hin _ (List.mem_cons_of_mem _ he)]
    rfl
  | case4 visited e es id htarget r hrule ih =>
    have htext := h.textAt (Array.mem_of_getElem? hrule)
      (List.mem_cons_self (a := (r.opening, r.openingCaptures)))
    simp only [checkedActiveFrom_cons, htarget, hrule, htext,
      ih fun _ he => hin _ (List.mem_cons_of_mem _ he)]
    rfl
  | case5 visited e es id htarget r hrule hvisited ih =>
    simp only [checkedActiveFrom_cons, htarget, hrule, if_pos hvisited]
    exact ih fun _ he => hin _ (List.mem_cons_of_mem _ he)
  | case6 visited e es id htarget r hrule hvisited ih =>
    simp only [checkedActiveFrom_cons, htarget, hrule, if_neg hvisited]
    -- the entries of the container take its place, and they lead to rules as well
    refine ih fun other hother child hchild => ?_
    rcases List.mem_append.mp hother with hinner | hrest
    · exact h.target_lt_of_container hrule hinner hchild
    · exact hin other (List.mem_cons_of_mem _ hrest) child hchild
  | case7 visited e es id htarget hspan hregion hcontainer ih =>
    have hlt := hin e List.mem_cons_self id htarget
    obtain ⟨rule, hrule, _⟩ := ruleAt_of_lt hlt
    rw [checkedActiveFrom_cons, htarget]
    simp only [hrule]
    cases rule with
    | span r => exact absurd hrule (hspan r)
    | region r => exact absurd hrule (hregion r)
    | container r => exact absurd hrule (hcontainer r)
    | inert => exact ih fun _ he => hin _ (List.mem_cons_of_mem _ he)

theorem checkedActive (h : g.WellFormed) {id : RuleId} (hid : id < g.rules.size) :
    g.checkedActive id = .ok (g.active id) := by
  obtain ⟨rule, hrule, hat⟩ := ruleAt_of_lt hid
  have hentries : g.entries id = rule.entries := by
    simp only [entries, hrule, Option.map_some, Option.getD_some]
  unfold Grammar.checkedActive active
  rw [hat, hentries]
  exact h.checkedActiveFrom _ _ fun _ he _ => h.target_lt (hentries ▸ he)

variable {text : String} {stack : Stack} {pos : text.Pos}

theorem rule_lt (h : g.WellFormed) (hs : stack.Within g) : stack.rule < g.rules.size := by
  unfold Stack.rule
  split
  · rename_i frame frames hframes
    exact hs frame (hframes ▸ List.mem_cons_self)
  · obtain ⟨r, hroot⟩ := h.root
    exact (Array.getElem?_eq_some_iff.mp hroot).1

theorem checkAnswer [LawfulEngine] (h : g.WellFormed) (hs : stack.Within g)
    {active : Regex.Set RuleId} (hactive : g.activeSet stack.rule = .ok active)
    {answer : Target stack × Regex.Found text pos}
    (hanswer : (stack.targets active).find pos = some answer) :
    g.checkAnswer stack pos answer = .ok () := by
  obtain ⟨target, found⟩ := answer
  cases target with
  | closing frame outer hframes =>
    obtain ⟨rule, _, hat⟩ := ruleAt_of_lt (hs frame (hframes ▸ List.mem_cons_self))
    simp only [Grammar.checkAnswer, hat]
    rfl
  | rule id =>
    obtain ⟨rule, number, _, hrule, hsearched, _⟩ := searched_of_find hactive hanswer
    have hat : g.ruleAt id = .ok rule := by simp only [ruleAt, hrule]
    simp only [Grammar.checkAnswer, hat, bind, Except.bind]
    split
    · obtain ⟨rule, _, hat⟩ := ruleAt_of_lt (h.rule_lt hs)
      rw [hat]
      rfl
    cases rule with
    | span r => rfl
    | region r =>
      have htext := h.textAt (p := (r.closing, r.closingCaptures)) (Array.mem_of_getElem? hrule)
        (List.mem_cons_of_mem _ List.mem_cons_self)
      dsimp only
      split
      · rw [htext]
        rfl
      · rfl
    | container | inert => cases hsearched

theorem checkedMove [LawfulEngine] (h : g.WellFormed) (hs : stack.Within g) (pos : text.Pos) :
    g.checkedMove stack pos = .ok (nextMove (Supply.direct g) g stack pos) := by
  have hactive : (Supply.direct g).active stack.rule = compileTogether (g.active stack.rule) := rfl
  unfold Grammar.checkedMove nextMove
  rw [h.checkedActive (h.rule_lt hs), hactive]
  simp only [bind, Except.bind]
  cases hset : compileTogether (g.active stack.rule) with
  | error e => rfl
  | ok active =>
    dsimp only
    cases hanswer : (stack.targets active).find pos with
    | none => rfl
    | some answer =>
      dsimp only
      rw [h.checkAnswer hs hset hanswer]
      rfl

theorem within_after (h : g.WellFormed) (hs : stack.Within g) (mv : Move g stack pos) :
    mv.after.Within g := by
  cases mv with
  | skip | span | closesNone => exact hs
  | opens region m pattern mem =>
    obtain ⟨id, hid⟩ := Array.getElem?_of_mem mem
    have hnumber : region.id = id := h.numbered id _ hid
    intro frame hframe
    rcases List.mem_cons.mp hframe with rfl | hframe
    · exact hnumber ▸ (Array.getElem?_eq_some_iff.mp hid).1
    · exact hs frame hframe
  | closes frame outer m hframes =>
    intro other hother
    exact hs other (hframes ▸ List.mem_cons_of_mem _ hother)

theorem checkedScanFrom [LawfulEngine] (h : g.WellFormed) (hs : stack.Within g) (pos : text.Pos)
    (c : Cover text) :
    g.checkedScanFrom stack pos c = .ok (scanFrom (Supply.direct g) g stack pos c) := by
  fun_induction scanFrom (Supply.direct g) g stack pos c with
  | case1 stack pos c ih =>
    rw [Grammar.checkedScanFrom, h.checkedMove hs]
    simp only [bind, Except.bind]
    cases hmove : nextMove (Supply.direct g) g stack pos with
    | error e => rfl
    | ok next =>
      cases next with
      | none => rfl
      | some mv =>
        dsimp only
        split
        · rfl
        · exact ih mv ‹_› (h.within_after hs mv)

theorem checkedTokenizeFrom [LawfulEngine] (h : g.WellFormed) (hs : stack.Within g)
    (text : String) :
    g.checkedTokenizeFrom text stack = .ok (g.tokenizeFrom text stack) := by
  unfold Grammar.checkedTokenizeFrom tokenizeFrom scan
  rw [h.checkedScanFrom hs]
  cases scanFrom (Supply.direct g) g stack text.startPos {} <;> rfl

theorem within_of_path (h : g.WellFormed) (hs : stack.Within g) (path : Path g stack pos) :
    path.last.Within g := by
  induction path with
  | done => exact hs
  | move mv rest ih => exact ih (h.within_after hs mv)

/-- A scan leaves frames of rules of the grammar. -/
theorem within_of_tokenizeFrom (h : g.WellFormed) (hs : stack.Within g) {text : String}
    {tokens : List (Token text)} {stack' : Stack}
    (hscan : g.tokenizeFrom text stack = .ok (tokens, stack')) : stack'.Within g := by
  obtain ⟨path, _, _, rfl⟩ := exists_path_of_scan hscan
  exact h.within_of_path hs path

theorem checkedScanLines [LawfulEngine] (h : g.WellFormed) (hs : stack.Within g)
    (texts : List String) :
    g.checkedScanLines stack texts = .ok (scanLines (Supply.direct g) g stack texts) := by
  induction texts generalizing stack with
  | nil => rfl
  | cons text texts ih =>
    have hscan : scan (Supply.direct g) g text stack = g.tokenizeFrom text stack := rfl
    rw [Grammar.checkedScanLines, h.checkedTokenizeFrom hs, scanLines, hscan]
    cases hline : g.tokenizeFrom text stack with
    | error e => rfl
    | ok result =>
      obtain ⟨tokens, stack'⟩ := result
      have hrest : stack'.forgetEntries.Within g := by
        intro frame hframe
        obtain ⟨frame, hmem, rfl⟩ := List.mem_map.mp hframe
        exact h.within_of_tokenizeFrom hs hline frame hmem
      simp only [bind, Except.bind, ih hrest]
      cases scanLines (Supply.direct g) g stack'.forgetEntries texts <;> rfl

end WellFormed

theorem within_initialStack (g : Grammar) : g.initialStack.Within g := by
  intro frame hframe
  cases hframe

/-- **No look-up fails.** A grammar that compiles is well-formed. The patterns that are active
inside of each of its rules are there; and a scan of a text or of its lines from the initial stack,
or from any other one whose frames belong to rules of the grammar, finds every rule and every
pattern that it looks up, only meets rules that are searched for, and leaves a stack of the same
kind. -/
theorem lookups_ofSource [LawfulEngine] (source : Source.Grammar) (g : Grammar)
    (h : ofSource source = .ok g) :
    g.WellFormed
      ∧ (∀ id < g.rules.size, g.checkedActive id = .ok (g.active id))
      ∧ g.initialStack.Within g
      ∧ (∀ (text : String) (stack : Stack), stack.Within g →
        g.checkedTokenizeFrom text stack = .ok (g.tokenizeFrom text stack)
          ∧ ∀ tokens stack', g.tokenizeFrom text stack = .ok (tokens, stack') →
            stack'.Within g)
      ∧ ∀ text : String, g.checkedTokenizeLines text = .ok (g.tokenizeLines text) := by
  have hformed := wellFormed_ofSource h
  refine ⟨hformed, fun id hid => hformed.checkedActive hid, g.within_initialStack,
    fun text stack hs => ⟨hformed.checkedTokenizeFrom hs text, fun tokens stack' => ?_⟩,
    fun text => hformed.checkedScanLines g.within_initialStack (Text.linesInclusive text)⟩
  exact hformed.within_of_tokenizeFrom hs

end Grammar

end

namespace Grammar

/-- A region that closes with the mark that opened it. Its list includes a rule of the repository
and the grammar, which also lists a container. -/
def quotationSource : Source.Grammar where
  name := "quotation"
  scopeName := "text"
  rules := [
    { name := some "quoted", opening := some "(=)", closing := some "\\1"
      openingCaptures := ⟨[(1, ⟨some "mark"⟩)]⟩
      rules := [{ included := some "#escape" }, { included := some "$self" }] },
    { rules := [{ single := some "-" }] }]
  repository := ⟨[("escape", { name := some "escaped", single := some "&" })]⟩

/-- The rules are the root, the region, the container and what it holds, and the repository's. -/
theorem lookups_ofSource_quotation :
    ∃ g, ofSource quotationSource = .ok g ∧ g.rules.size = 5 ∧ g.WellFormed
      ∧ (∀ id < g.rules.size, g.checkedActive id = .ok (g.active id))
      ∧ g.initialStack.Within g
      ∧ (∀ (text : String) (stack : Stack), stack.Within g →
        g.checkedTokenizeFrom text stack = .ok (g.tokenizeFrom text stack)
          ∧ ∀ tokens stack', g.tokenizeFrom text stack = .ok (tokens, stack') →
            stack'.Within g)
      ∧ ∀ text : String, g.checkedTokenizeLines text = .ok (g.tokenizeLines text) := by
  have hsize : (ofSource quotationSource).toOption.map (·.rules.size) = some 5 := by cbv
  cases h : ofSource quotationSource with
  | error e =>
    rw [h] at hsize
    cases hsize
  | ok g =>
    rw [h] at hsize
    exact ⟨g, rfl, Option.some.inj hsize, lookups_ofSource quotationSource g h⟩

end Grammar

end ScopedText
