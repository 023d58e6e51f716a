import ScopedText.Proofs.Outcome
import ScopedText.Scan

/-!
# The answer of a search

A set of patterns answers a search with a match of one of its patterns, and it is the match that
this pattern finds alone (`exists_mem_of_find`). So where a scan opens a region, the opening pattern
of the region has matched (`begins_of_nextMove`).
-/

namespace ScopedText

namespace Regex

section Attempts

variable {ι α β : Type} {attempt : α → Option β} {items : List (ι × α)} {label : ι}

theorem exists_mem_of_firstAmong {b : β} (h : firstAmong attempt items = some (label, b)) :
    ∃ a, (label, a) ∈ items ∧ attempt a = some b := by
  induction items with
  | nil => cases h
  | cons item items ih =>
    unfold firstAmong at h
    split at h
    · cases h
      exact ⟨_, List.mem_cons_self, ‹_›⟩
    · obtain ⟨a, hmem, hanswer⟩ := ih h
      exact ⟨a, List.mem_cons_of_mem _ hmem, hanswer⟩

theorem eq_none_of_firstAmong (h : firstAmong attempt items = none) {a : α}
    (hmem : (label, a) ∈ items) : attempt a = none := by
  induction items with
  | nil => cases hmem
  | cons item items ih =>
    unfold firstAmong at h
    split at h
    · cases h
    · rcases List.mem_cons.mp hmem with heq | hmem
      · cases heq
        assumption
      · exact ih h hmem

theorem firstAmong_map {κ : Type} (f : ι → κ) (items : List (ι × α)) :
    firstAmong attempt (items.map fun item => (f item.1, item.2))
      = (firstAmong attempt items).map fun answer => (f answer.1, answer.2) := by
  induction items with
  | nil => rfl
  | cons item items ih =>
    simp only [List.map_cons, firstAmong]
    cases attempt item.2 with
    | none => exact ih
    | some b => rfl

end Attempts

variable {text : String}

/-- A search stops at the first position where there is an answer. -/
theorem firstFrom_eq_some_iff {β : Type} {origin : text.Pos}
    {attempt : (p : text.Pos) → origin ≤ p → Option β} {p : text.Pos} {hp : origin ≤ p} {b : β} :
    firstFrom attempt p hp = some b ↔ ∃ q hq, p ≤ q ∧ attempt q hq = some b
      ∧ ∀ r hr, p ≤ r → r < q → attempt r hr = none := by
  fun_induction firstFrom attempt p hp with
  | case1 p hp answer hanswer =>
    constructor
    · rintro ⟨⟩
      exact ⟨p, hp, String.Pos.le_refl p, hanswer,
        fun r hr hle hlt => absurd hle (Std.not_le.mpr hlt)⟩
    · rintro ⟨q, hq, hle, hat, hbefore⟩
      by_cases heq : p = q
      · subst heq
        exact hanswer.symm.trans hat
      · have hlt : p < q := String.Pos.lt_of_le_of_ne hle heq
        cases hanswer.symm.trans (hbefore p hp (String.Pos.le_refl p) hlt)
  | case2 hp hnone =>
    constructor
    · intro h
      cases h
    · rintro ⟨q, hq, hle, hat, -⟩
      obtain rfl : q = text.endPos := Std.le_antisymm q.le_endPos hle
      cases hnone.symm.trans hat
  | case3 p hp hnone hend ih =>
    rw [ih]
    constructor
    · rintro ⟨q, hq, hle, hat, hbefore⟩
      have hlt : p < q := String.Pos.next_le_iff_lt.mp hle
      refine ⟨q, hq, String.Pos.le_of_lt hlt, hat, fun r hr hpr hrq => ?_⟩
      by_cases heq : p = r
      · subst heq
        exact hnone
      · exact hbefore r hr (String.Pos.next_le_of_lt (String.Pos.lt_of_le_of_ne hpr heq)) hrq
    · rintro ⟨q, hq, hle, hat, hbefore⟩
      have hne : p ≠ q := by
        rintro rfl
        cases hnone.symm.trans hat
      refine ⟨q, hq, String.Pos.next_le_of_lt (String.Pos.lt_of_le_of_ne hle hne), hat,
        fun r hr hpr hrq => ?_⟩
      exact hbefore r hr (String.Pos.le_of_lt (String.Pos.next_le_iff_lt.mp hpr)) hrq

theorem firstFrom_map {β γ : Type} {origin : text.Pos} (f : β → γ)
    (attempt : (p : text.Pos) → origin ≤ p → Option β) (p : text.Pos) (hp : origin ≤ p) :
    firstFrom (fun p hp => (attempt p hp).map f) p hp = (firstFrom attempt p hp).map f := by
  fun_induction firstFrom attempt p hp with
  | case1 p hp answer hanswer => simp [firstFrom, hanswer]
  | case2 hp hnone => simp [firstFrom, hnone]
  | case3 p hp hnone hend ih =>
    rw [firstFrom]
    simp only [hnone, Option.map_none, dif_neg hend, ih]

variable [Engine]

/-- The answer of a set is the match that one of its expressions finds alone. -/
theorem exists_mem_of_find [LawfulEngine] {ι : Type} {s : Set ι} {origin : text.Pos} {label : ι}
    {m : Found text origin} (h : s.find origin = some (label, m)) :
    ∃ regex, (label, regex) ∈ s.entries ∧ Engine.find regex origin = some m := by
  rw [Set.find_eq] at h
  obtain ⟨q, hq, hle, hat, hbefore⟩ := firstFrom_eq_some_iff.mp h
  obtain ⟨regex, hmem, hmatch⟩ := exists_mem_of_firstAmong hat
  refine ⟨regex, hmem, ?_⟩
  rw [LawfulEngine.find_leftmost]
  refine firstFrom_eq_some_iff.mpr ⟨q, hq, hle, hmatch, fun r hr hpr hrq => ?_⟩
  exact eq_none_of_firstAmong (hbefore r hr hpr hrq) hmem

theorem exists_mem_of_ofPatterns {ι : Type} {patterns : List (ι × String)} {s : Set ι}
    (h : Set.ofPatterns patterns = .ok s) {label : ι} {regex : Engine.Compiled}
    (hmem : (label, regex) ∈ s.entries) :
    ∃ pattern, (label, pattern) ∈ patterns ∧ Engine.compile .all pattern = .ok regex := by
  induction patterns generalizing s with
  | nil =>
    cases h
    cases hmem
  | cons item items ih =>
    obtain ⟨first, hfirst, h⟩ := bind_eq_ok h
    obtain ⟨rest, hrest, h⟩ := bind_eq_ok h
    cases h
    rcases List.mem_cons.mp hmem with heq | hmem
    · cases heq
      exact ⟨_, List.mem_cons_self, hfirst⟩
    · obtain ⟨pattern, hpattern, hcompile⟩ := ih hrest hmem
      exact ⟨pattern, List.mem_cons_of_mem _ hpattern, hcompile⟩

/-- A set of patterns is refused because of one of them. -/
theorem exists_refused_of_ofPatterns {ι : Type} {patterns : List (ι × String)} {cause : Error}
    (h : Set.ofPatterns patterns = .error cause) :
    ∃ item ∈ patterns, Engine.compile .all item.2 = .error cause := by
  induction patterns with
  | nil => cases h
  | cons item items ih =>
    rcases bind_eq_error h with hfirst | ⟨_, _, h⟩
    · exact ⟨item, List.mem_cons_self, hfirst⟩
    · rcases bind_eq_error h with hrest | ⟨_, _, h⟩
      · obtain ⟨other, hmem, hother⟩ := ih hrest
        exact ⟨other, List.mem_cons_of_mem _ hmem, hother⟩
      · cases h

end Regex

variable [Engine]

/-! ## Searches up to labels -/

def Regex.Set.relabel {ι κ : Type} (f : ι → κ) (s : Regex.Set ι) : Regex.Set κ :=
  ⟨s.entries.map fun entry => (f entry.1, entry.2)⟩

/-- A search does not see the labels. -/
theorem find_relabel [LawfulEngine] {ι κ : Type} (f : ι → κ) {text : String} (s : Regex.Set ι)
    (origin : text.Pos) :
    (s.relabel f).find origin = (s.find origin).map fun answer => (f answer.1, answer.2) := by
  simp only [Regex.Set.find_eq, Regex.Set.relabel, Regex.firstAmong_map, Regex.firstFrom_map]

/-! ## Answers of a scan -/

/-- The pattern that is searched for where a rule is active. -/
def Rule.searched? : Rule → Option PatternId
  | span r => some r.pattern
  | region r => some r.opening
  | container _ | inert => none

variable {g : Grammar}

namespace Grammar

omit [Engine] in
theorem searched_of_mem_activeFrom {visited : List RuleId} {entries : List Entry} {id : RuleId}
    {pattern : String} (h : (id, pattern) ∈ g.activeFrom visited entries) :
    ∃ rule number, g.rules[id]? = some rule ∧ rule.searched? = some number
      ∧ g.patternText number = pattern := by
  fun_induction activeFrom g visited entries with
  | case1 => cases h
  | case2 visited e es htarget ih => exact ih h
  | case3 visited e es id' htarget r hrule ih =>
    rcases List.mem_cons.mp h with heq | h
    · cases heq
      exact ⟨_, _, hrule, rfl, rfl⟩
    · exact ih h
  | case4 visited e es id' htarget r hrule ih =>
    rcases List.mem_cons.mp h with heq | h
    · cases heq
      exact ⟨_, _, hrule, rfl, rfl⟩
    · exact ih h
  | case5 | case6 | case7 => rename_i ih; exact ih h

end Grammar

variable {text : String} {stack : Stack} {pos : text.Pos}

/-- The match of a search for the opening pattern of a region. -/
def Region.BeginsWith (g : Grammar) (region : Region) (m : Regex.Found text pos) : Prop :=
  ∃ regex, Engine.compile .all (g.patternText region.opening) = .ok regex
    ∧ Engine.find regex pos = some m

/-- The rule that a target stands for; the closing pattern has none. -/
def Target.rule? : Target stack → Option RuleId
  | rule id => some id
  | closing _ _ _ => none

theorem Stack.mem_of_mem_targets {active : Regex.Set RuleId} {id : RuleId} {regex : Engine.Compiled}
    (h : (.rule id, regex) ∈ (stack.targets active).entries) : (id, regex) ∈ active.entries := by
  have ofRules {f : RuleId × Engine.Compiled → Target stack × Engine.Compiled}
      (hf : ∀ entry, f entry = (.rule entry.1, entry.2))
      (h : (.rule id, regex) ∈ active.entries.map f) : (id, regex) ∈ active.entries := by
    obtain ⟨entry, hmem, heq⟩ := List.mem_map.mp h
    cases (hf entry).symm.trans heq
    exact hmem
  unfold targets at h
  dsimp only at h
  split at h
  · exact ofRules (fun _ => rfl) h
  · split at h
    · exact ofRules (fun _ => rfl) h
    · split at h
      · rcases List.mem_cons.mp h with heq | h
        · cases heq
        · exact ofRules (fun _ => rfl) h
      · rcases List.mem_append.mp h with h | h
        · exact ofRules (fun _ => rfl) h
        · cases List.mem_singleton.mp h

theorem ofPatterns_of_activeSet {id : RuleId} {active : Regex.Set RuleId}
    (h : g.activeSet id = .ok active) : Regex.Set.ofPatterns (g.active id) = .ok active := by
  unfold Grammar.activeSet compileTogether at h
  cases hpatterns : Regex.Set.ofPatterns (g.active id) with
  | error e =>
    rw [hpatterns] at h
    cases h
  | ok set =>
    rw [hpatterns] at h
    cases h
    rfl

/-- If the answer of a search is a rule, it is there, and the pattern that is searched for it has
matched. -/
theorem searched_of_find [LawfulEngine] {active : Regex.Set RuleId}
    (hactive : g.activeSet stack.rule = .ok active) {id : RuleId} {m : Regex.Found text pos}
    (h : (stack.targets active).find pos = some (.rule id, m)) :
    ∃ rule number regex, g.rules[id]? = some rule ∧ rule.searched? = some number
      ∧ Engine.compile .all (g.patternText number) = .ok regex
      ∧ Engine.find regex pos = some m := by
  obtain ⟨regex, hmem, hfind⟩ := Regex.exists_mem_of_find h
  obtain ⟨pattern, hpattern, hcompile⟩ :=
    Regex.exists_mem_of_ofPatterns (ofPatterns_of_activeSet hactive) (Stack.mem_of_mem_targets hmem)
  obtain ⟨rule, number, hrule, hsearched, rfl⟩ := Grammar.searched_of_mem_activeFrom hpattern
  exact ⟨rule, number, regex, hrule, hsearched, hcompile, hfind⟩

/-- If the answer of a search is a region, the opening pattern of the region has matched. -/
theorem begins_of_find [LawfulEngine] {active : Regex.Set RuleId}
    (hactive : g.activeSet stack.rule = .ok active) {id : RuleId} {m : Regex.Found text pos}
    (h : (stack.targets active).find pos = some (.rule id, m)) {region : Region}
    (hrule : g.rules[id]? = some (.region region)) : region.BeginsWith g m := by
  obtain ⟨rule, number, regex, hfound, hsearched, hcompile, hfind⟩ := searched_of_find hactive h
  cases hrule.symm.trans hfound
  cases hsearched
  exact ⟨regex, hcompile, hfind⟩

section Respond

variable {m : Type → Type} [Monad m] (supply : Supply m) {id : RuleId}
  (found : Regex.Found text pos)

theorem respond_marked (h : g.marks id = true) :
    respond supply g stack pos (.rule id, found) = pure (Move.closeInnermost? found) := by
  simp [respond, h]

theorem respond_unmarked (h : g.marks id = false) :
    respond supply g stack pos (.rule id, found) = respondRule supply g stack pos id found := by
  simp [respond, h]

theorem respondRule_span {rule : SpanRule} (hr : g.rules[id]? = some (.span rule)) :
    respondRule supply g stack pos id found
      = if h : pos < found.span.stop then pure (some (.span rule found h))
        else pure Move.skip? := by
  unfold respondRule
  split <;> simp_all

theorem respondRule_region {region : Region} (hr : g.rules[id]? = some (.region region)) :
    respondRule supply g stack pos id found
      = if h : pos < found.span.stop
          ∨ stack.enteredAt region.id found.span.start.offset.byteIdx = false then do
        let pattern ← supply.closing (region.closingText g found)
        pure (some (.opens region found pattern.1 (Array.mem_of_getElem? hr) pattern.2 h))
      else pure Move.skip? := by
  unfold respondRule
  split
  all_goals rename_i heq; cases hr.symm.trans heq
  rfl

theorem respondRule_other (hspan : ∀ r, g.rules[id]? ≠ some (.span r))
    (hregion : ∀ r, g.rules[id]? ≠ some (.region r)) :
    respondRule supply g stack pos id found = pure Move.skip? := by
  unfold respondRule
  split <;> simp_all

end Respond

namespace Move

variable {mv : Move g stack pos}

theorem eq_skip_of_skip? (h : skip? = some mv) : ∃ inside, mv = .skip inside := by
  unfold skip? at h
  split at h
  · cases h
  · exact ⟨_, (Option.some.inj h).symm⟩

/-- A closing match closes the region that it is for, or the scan goes on behind a character. -/
theorem eq_closes_of_close? {frame : Frame} {outer : List Frame}
    {frames_eq : stack.frames = frame :: outer} {found : Regex.Found text pos}
    (h : close? frame outer frames_eq found = some mv) :
    (∃ inside, mv = .skip inside)
      ∨ ∃ advances, mv = .closes frame outer found frames_eq advances := by
  unfold close? at h
  split at h
  · exact .inr ⟨_, (Option.some.inj h).symm⟩
  · exact .inl (eq_skip_of_skip? h)

theorem eq_closes_of_closeInnermost? {found : Regex.Found text pos}
    (h : closeInnermost? found = some mv) :
    (∃ inside, mv = .skip inside)
      ∨ (∃ frame outer frames_eq advances, mv = .closes frame outer found frames_eq advances)
      ∨ ∃ frames_eq, mv = .closesNone found frames_eq := by
  unfold closeInnermost? at h
  split at h
  · rcases eq_closes_of_close? h with hskip | hcloses
    · exact .inl hskip
    · exact .inr (.inl ⟨_, _, _, hcloses⟩)
  · exact .inr (.inr ⟨_, (Option.some.inj h).symm⟩)

end Move

/-- A region opens only if a search answers with it, and if its closing pattern is not refused. -/
theorem rule_of_respond_opens {supply : Supply (Except ScanError)}
    {answer : Target stack × Regex.Found text pos} {region : Region} {m : Regex.Found text pos}
    {pattern : Pattern} {mem : Rule.region region ∈ g.rules}
    {text_eq : pattern.text = region.closingText g m}
    {advances : pos < m.span.stop ∨ stack.enteredAt region.id m.span.start.offset.byteIdx = false}
    (h : respond supply g stack pos answer
      = .ok (some (.opens region m pattern mem text_eq advances))) :
    ∃ id, answer = (.rule id, m) ∧ g.rules[id]? = some (.region region)
      ∧ ∃ p, supply.closing (region.closingText g m) = .ok p ∧ p.1 = pattern := by
  have hskip : (pure Move.skip? : Except ScanError (Option (Move g stack pos)))
      ≠ .ok (some (.opens region m pattern mem text_eq advances)) := by
    intro hskip
    obtain ⟨_, hmove⟩ := Move.eq_skip_of_skip? (Except.ok.inj hskip)
    cases hmove
  obtain ⟨target, found⟩ := answer
  cases target with
  | closing frame outer frames_eq =>
    rcases Move.eq_closes_of_close? (Except.ok.inj h) with ⟨_, hmove⟩ | ⟨_, hmove⟩ <;> cases hmove
  | rule id =>
    cases hmarks : g.marks id with
    | true =>
      rw [respond_marked _ _ hmarks] at h
      rcases Move.eq_closes_of_closeInnermost? (Except.ok.inj h)
        with ⟨_, hmove⟩ | ⟨_, _, _, _, hmove⟩ | ⟨_, hmove⟩ <;> cases hmove
    | false =>
      rw [respond_unmarked _ _ hmarks] at h
      unfold respondRule at h
      split at h
      case h_1 =>
        split at h
        · cases h
        · exact absurd h hskip
      case h_2 _ hrule =>
        split at h
        · obtain ⟨p, hp, h⟩ := bind_eq_ok h
          cases h
          exact ⟨id, rfl, hrule, p, hp, rfl⟩
        · exact absurd h hskip
      all_goals exact absurd h hskip

theorem answer_of_nextMove {supply : Supply (Except ScanError)} {mv : Move g stack pos}
    (h : nextMove supply g stack pos = .ok (some mv)) :
    ∃ active answer, supply.active stack.rule = .ok active
      ∧ (stack.targets active).find pos = some answer
      ∧ respond supply g stack pos answer = .ok (some mv) := by
  obtain ⟨active, hactive, h⟩ := bind_eq_ok h
  split at h
  · cases h
  · exact ⟨active, _, hactive, ‹_›, h⟩

theorem compiles_of_compileClosing {closing : String} {p : Pattern}
    (h : compileClosing closing = .ok p) : p.compiles = true := by
  unfold compileClosing at h
  dsimp only at h
  split at h
  · rw [← Except.ok.inj h]
    assumption
  · cases h

theorem map_withText (closing : String) (r : Except ScanError Pattern)
    (h : r = compileClosing closing) : (withText closing r h).map (·.1) = r := by
  cases r <;> rfl

theorem map_closing_direct (closing : String) :
    ((Supply.direct g).closing closing).map (·.1) = compileClosing closing :=
  map_withText closing _ rfl

theorem compileClosing_of_direct {closing : String} {p : PatternOf closing}
    (h : (Supply.direct g).closing closing = .ok p) : compileClosing closing = .ok p.1 := by
  rw [← map_closing_direct (g := g), h]
  rfl

/-- Where a scan opens a region, its opening pattern has matched and its closing pattern
compiles. -/
theorem begins_of_nextMove [LawfulEngine] {region : Region} {m : Regex.Found text pos}
    {pattern : Pattern} {mem : Rule.region region ∈ g.rules} {text_eq : pattern.text = region.closingText g m}
    {advances : pos < m.span.stop ∨ stack.enteredAt region.id m.span.start.offset.byteIdx = false}
    (h : nextMove (Supply.direct g) g stack pos
      = .ok (some (.opens region m pattern mem text_eq advances))) :
    (∃ id : RuleId, g.rules[id]? = some (.region region)) ∧ region.BeginsWith g m
      ∧ pattern.compiles = true := by
  obtain ⟨active, answer, hactive, hfind, hrespond⟩ := answer_of_nextMove h
  obtain ⟨id, rfl, hrule, p, hp, rfl⟩ := rule_of_respond_opens hrespond
  exact ⟨⟨id, hrule⟩, begins_of_find hactive hfind hrule,
    compiles_of_compileClosing (compileClosing_of_direct hp)⟩

end ScopedText
