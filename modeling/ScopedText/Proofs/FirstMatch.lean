import Mathlib
import ScopedText.Proofs.Answer
import ScopedText.Regex.Search

/-!
# The first match

Several patterns are searched for together, and one of their matches is the answer. Which one, is
decided in three places: by the order of the active patterns in their set, by the place of the
closing pattern among them, and by the region, which says what that place is. What they do together
is one rule (`first_match_wins`): the match that begins first wins, and where several begin there,
the order of the active patterns decides, with the closing pattern in front of all of them or
behind.

The match of a single pattern is the leftmost one (`find_eq_some_iff`). The search in a set is taken
apart along its list: two parts of the list can be searched alone, and the earlier of their answers
is that of both (`find_append`). So to look for all targets of a scan is to make two searches and to
compare them (`Stack.find_targets`).
-/

namespace ScopedText

namespace Regex

variable {text : String} {origin : text.Pos} {ι : Type}

/-! ## The earlier of two answers -/

/-- The answer that begins first; the first one if both begin there. -/
def earlier : Option (ι × Found text origin) → Option (ι × Found text origin)
    → Option (ι × Found text origin)
  | none, y => y
  | some x, none => some x
  | some x, some y => if y.2.span.start < x.2.span.start then some y else some x

/-- The match begins before the other one, if there is one, or together with it if it wins ties. -/
def Found.Beats (m : Found text origin) (ties : Bool) (other : Option (Found text origin)) : Prop :=
  ∀ m' ∈ other, m.span.start < m'.span.start ∨ ties = true ∧ m.span.start = m'.span.start

namespace Found

variable {m : Found text origin} {ties : Bool}

@[simp] theorem beats_none : m.Beats ties none := nofun

@[simp] theorem beats_some {m' : Found text origin} : m.Beats ties (some m')
    ↔ m.span.start < m'.span.start ∨ ties = true ∧ m.span.start = m'.span.start := by
  simp [Beats]

theorem beats_true {m' : Found text origin} :
    m.Beats true (some m') ↔ m.span.start ≤ m'.span.start := by
  simp [Std.le_iff_lt_or_eq]

theorem beats_false {m' : Found text origin} :
    m.Beats false (some m') ↔ m.span.start < m'.span.start := by
  simp

end Found

@[simp] theorem none_earlier (y : Option (ι × Found text origin)) : earlier none y = y := rfl

@[simp] theorem earlier_none (x : Option (ι × Found text origin)) : earlier x none = x := by
  cases x <;> rfl

theorem earlier_eq_none_iff {x y : Option (ι × Found text origin)} :
    earlier x y = none ↔ x = none ∧ y = none := by
  cases x with
  | none => simp
  | some x => cases y <;> grind [earlier]

/-- The answer is one of the two, and beats the other one. -/
theorem earlier_eq_some_iff {x y : Option (ι × Found text origin)} {z : ι × Found text origin} :
    earlier x y = some z ↔ x = some z ∧ z.2.Beats true (y.map (·.2))
      ∨ y = some z ∧ z.2.Beats false (x.map (·.2)) := by
  cases x with
  | none => simp
  | some x =>
    cases y with
    | none => simp
    | some y =>
      simp only [earlier, Option.map_some, Found.beats_true, Found.beats_false, Option.some.injEq]
      by_cases hlt : y.2.span.start < x.2.span.start
      · rw [if_pos hlt, Option.some.injEq]
        grind
      · rw [if_neg hlt, Option.some.injEq]
        grind

/-- What beats the earlier of two answers beats both. -/
theorem beats_earlier {x y : Option (ι × Found text origin)} {m : Found text origin} {ties : Bool} :
    m.Beats ties ((earlier x y).map (·.2))
      ↔ m.Beats ties (x.map (·.2)) ∧ m.Beats ties (y.map (·.2)) := by
  cases x with
  | none => simp
  | some x =>
    cases y with
    | none => simp
    | some y =>
      simp only [earlier]
      split <;> simp only [Option.map_some, Found.beats_some] <;> grind

/-- To search for what the first attempt or else the second one finds is to take the earlier of what
they find alone. The induction is on the position: the one that finds something there beats the
other one, which finds something there or later. -/
theorem firstFrom_or {f g : (p : text.Pos) → origin ≤ p → Option (ι × Found text origin)}
    (hf : ∀ p hp x, f p hp = some x → x.2.span.start = p)
    (hg : ∀ p hp x, g p hp = some x → x.2.span.start = p) (p : text.Pos) (hp : origin ≤ p) :
    firstFrom (fun p hp => (f p hp).or (g p hp)) p hp
      = earlier (firstFrom f p hp) (firstFrom g p hp) := by
  have starts_from {attempt : (p : text.Pos) → origin ≤ p → Option (ι × Found text origin)}
      (hattempt : ∀ p hp x, attempt p hp = some x → x.2.span.start = p) {q : text.Pos}
      {hq : origin ≤ q} {x : ι × Found text origin} (h : firstFrom attempt q hq = some x) :
      q ≤ x.2.span.start := by
    obtain ⟨r, hr, hle, hat, -⟩ := firstFrom_eq_some_iff.mp h
    rwa [hattempt r hr x hat]
  fun_induction firstFrom (fun p hp => (f p hp).or (g p hp)) p hp with
  | case1 p hp answer hanswer =>
    symm
    rw [earlier_eq_some_iff]
    rcases Option.or_eq_some_iff.mp hanswer with hx | ⟨hnone, hy⟩
    · refine .inl ⟨by rw [firstFrom, hx], fun m hm => ?_⟩
      obtain ⟨y, hy, rfl⟩ := Option.map_eq_some_iff.mp hm
      rw [hf p hp answer hx]
      simpa [Std.le_iff_lt_or_eq] using starts_from hg hy
    · refine .inr ⟨by rw [firstFrom, hy], fun m hm => ?_⟩
      obtain ⟨x, hx, rfl⟩ := Option.map_eq_some_iff.mp hm
      rw [hg p hp answer hy]
      -- the first attempt fails here, so it finds something strictly later
      rw [firstFrom, hnone] at hx
      dsimp only at hx
      split at hx
      · cases hx
      · exact .inl (String.Pos.next_le_iff_lt.mp (starts_from hf hx))
  | case2 hp hnone =>
    obtain ⟨hx, hy⟩ := Option.or_eq_none_iff.mp hnone
    rw [firstFrom, firstFrom, hx, hy]
    simp
  | case3 p hp hnone hend ih =>
    obtain ⟨hx, hy⟩ := Option.or_eq_none_iff.mp hnone
    rw [firstFrom.eq_def f p hp, firstFrom.eq_def g p hp, hx, hy]
    simpa only [dif_neg hend] using ih

theorem firstAmong_append {α β : Type} (attempt : α → Option β) (xs ys : List (ι × α)) :
    firstAmong attempt (xs ++ ys) = (firstAmong attempt xs).or (firstAmong attempt ys) := by
  induction xs with
  | nil => rfl
  | cons entry xs ih =>
    simp only [List.cons_append, firstAmong]
    split
    · rfl
    · exact ih

end Regex

section

variable [Engine]

namespace Regex

variable {text : String} {origin : text.Pos} {ι : Type}

/-! ## The leftmost match -/

theorem start_of_firstAmong [LawfulEngine] {regexes : List (ι × Engine.Compiled)} {p : text.Pos}
    {hp : origin ≤ p} {answer : ι × Found text origin}
    (h : firstAmong (Engine.matchAt · p hp) regexes = some answer) :
    answer.2.span.start = p := by
  obtain ⟨label, m⟩ := answer
  obtain ⟨regex, _, hmatch⟩ := exists_mem_of_firstAmong h
  exact LawfulEngine.start_matchAt hmatch

/-- The match that an expression finds is the leftmost one. -/
theorem find_eq_some_iff [LawfulEngine] {regex : Engine.Compiled} {m : Found text origin} :
    Engine.find regex origin = some m ↔ Engine.matchAt regex m.span.start m.le = some m
      ∧ ∀ (p : text.Pos) (hp : origin ≤ p), p < m.span.start →
        Engine.matchAt regex p hp = none := by
  rw [LawfulEngine.find_leftmost, firstFrom_eq_some_iff]
  constructor
  · rintro ⟨q, hq, -, hat, hbefore⟩
    obtain rfl := LawfulEngine.start_matchAt hat
    exact ⟨hat, fun p hp hlt => hbefore p hp hp hlt⟩
  · rintro ⟨hat, hbefore⟩
    exact ⟨m.span.start, m.le, m.le, hat, fun p hp _ hlt => hbefore p hp hlt⟩

/-! ## A set of patterns, taken apart -/

theorem find_append [LawfulEngine] (xs ys : List (ι × Engine.Compiled)) :
    (Set.mk (xs ++ ys)).find origin
      = earlier ((Set.mk xs).find origin) ((Set.mk ys).find origin) := by
  simp only [Set.find_eq, firstAmong_append]
  exact firstFrom_or (fun _ _ _ h => start_of_firstAmong h) (fun _ _ _ h => start_of_firstAmong h)
    origin _

theorem find_nil [LawfulEngine] :
    (Set.mk ([] : List (ι × Engine.Compiled))).find origin = none := by
  refine Option.eq_none_iff_forall_ne_some.mpr fun answer h => ?_
  rw [Set.find_eq] at h
  obtain ⟨_, _, _, hat, _⟩ := firstFrom_eq_some_iff.mp h
  cases hat

theorem find_singleton [LawfulEngine] (label : ι) (regex : Engine.Compiled) :
    (Set.mk [(label, regex)]).find origin = (Engine.find regex origin).map (label, ·) := by
  rw [Set.find_eq, LawfulEngine.find_leftmost, ← firstFrom_map]
  rfl

/-! ## Patterns with their order -/

/-- The match that a pattern finds alone, compiled as it is when others are searched for too. -/
def alone (pattern : String) (origin : text.Pos) : Option (Found text origin) :=
  match Engine.compile .all pattern with
  | .ok regex => Engine.find regex origin
  | .error _ => none

section Patterns

variable {patterns : List (ι × String)} {s : Set ι}

theorem find_ofPatterns_cons [LawfulEngine] (origin : text.Pos) {label : ι} {pattern : String}
    (h : Set.ofPatterns ((label, pattern) :: patterns) = .ok s) :
    ∃ rest, Set.ofPatterns patterns = .ok rest
      ∧ s.find origin = earlier ((alone pattern origin).map (label, ·)) (rest.find origin) := by
  obtain ⟨regex, hregex, h⟩ := bind_eq_ok h
  obtain ⟨rest, hrest, h⟩ := bind_eq_ok h
  cases h
  refine ⟨rest, hrest, ?_⟩
  rw [alone, hregex]
  dsimp only
  rw [← find_singleton, ← find_append]
  rfl

theorem find_ofPatterns_eq_none_iff [LawfulEngine] (h : Set.ofPatterns patterns = .ok s) :
    s.find origin = none ↔ ∀ item ∈ patterns, alone item.2 origin = none := by
  induction patterns generalizing s with
  | nil =>
    cases h
    simp [find_nil]
  | cons item patterns ih =>
    obtain ⟨rest, hrest, hfind⟩ := find_ofPatterns_cons origin h
    rw [hfind, earlier_eq_none_iff, ih hrest, List.forall_mem_cons, Option.map_eq_none_iff]

/-- What beats the answer of the set beats every pattern. -/
theorem beats_find_ofPatterns [LawfulEngine] (h : Set.ofPatterns patterns = .ok s)
    {m : Found text origin} {ties : Bool} : m.Beats ties ((s.find origin).map (·.2))
      ↔ ∀ item ∈ patterns, m.Beats ties (alone item.2 origin) := by
  induction patterns generalizing s with
  | nil =>
    cases h
    simp [find_nil]
  | cons item patterns ih =>
    obtain ⟨rest, hrest, hfind⟩ := find_ofPatterns_cons origin h
    rw [hfind, beats_earlier, ih hrest, List.forall_mem_cons, Option.map_map]
    simp [Function.comp_def]

/-- The answer of the set is the match of the pattern that beats those before it without ties, and
those after it with ties. -/
theorem find_ofPatterns_eq_some_iff [LawfulEngine] (h : Set.ofPatterns patterns = .ok s) {label : ι}
    {m : Found text origin} : s.find origin = some (label, m)
      ↔ ∃ before pattern after, patterns = before ++ (label, pattern) :: after
        ∧ alone pattern origin = some m
        ∧ (∀ item ∈ before, m.Beats false (alone item.2 origin))
        ∧ ∀ item ∈ after, m.Beats true (alone item.2 origin) := by
  induction patterns generalizing s with
  | nil =>
    cases h
    simp [find_nil]
  | cons item patterns ih =>
    obtain ⟨rest, hrest, hfind⟩ := find_ofPatterns_cons origin h
    have hunlabelled : ((alone item.2 origin).map (item.1, ·)).map (·.2) = alone item.2 origin := by
      simp [Function.comp_def]
    rw [hfind, earlier_eq_some_iff, beats_find_ofPatterns hrest, ih hrest, hunlabelled]
    constructor
    · rintro (⟨hhere, hafter⟩ | ⟨⟨before, pattern, after, rfl, hmatch, hbefore, hafter⟩, hhere⟩)
      · obtain ⟨m, hmatch, heq⟩ := Option.map_eq_some_iff.mp hhere
        cases heq
        exact ⟨[], item.2, patterns, rfl, hmatch, by simp, hafter⟩
      · refine ⟨item :: before, pattern, after, rfl, hmatch, ?_, hafter⟩
        exact List.forall_mem_cons.mpr ⟨hhere, hbefore⟩
    · rintro ⟨before, pattern, after, heq, hmatch, hbefore, hafter⟩
      cases before with
      | nil =>
        cases heq
        exact .inl ⟨by rw [hmatch]; rfl, hafter⟩
      | cons first before =>
        cases heq
        obtain ⟨hhere, hbefore⟩ := List.forall_mem_cons.mp hbefore
        exact .inr ⟨⟨before, pattern, after, rfl, hmatch, hbefore, hafter⟩, hhere⟩

end Patterns

end Regex

/-! ## What a scan looks for -/

variable {g : Grammar} {text : String} {stack : Stack} {pos : text.Pos}

namespace Stack

/-- Whether the closing pattern of the innermost region comes before the active patterns. -/
def closesFirst (stack : Stack) : Bool := stack.frames.head?.any (·.closer.first)

/-- The match of the closing pattern of the innermost region. -/
def closingMatch (stack : Stack) (pos : text.Pos) : Option (Regex.Found text pos) :=
  stack.frames.head?.bind (·.closer.pattern.find pos)

def closingAnswer (stack : Stack) (pos : text.Pos) : Option (Target stack × Regex.Found text pos) :=
  match h : stack.frames with
  | [] => none
  | frame :: outer => (frame.closer.pattern.find pos).map (.closing frame outer h, ·)

def rulesAnswer (stack : Stack) (active : Regex.Set RuleId) (pos : text.Pos) :
    Option (Target stack × Regex.Found text pos) :=
  (active.find pos).map fun (id, m) => (.rule id, m)

/-- To search for all targets together is to search for the active patterns and for the closing
pattern, and to compare where the matches begin. -/
theorem find_targets [LawfulEngine] (active : Regex.Set RuleId) : (stack.targets active).find pos
    = if stack.closesFirst then
        Regex.earlier (stack.closingAnswer pos) (stack.rulesAnswer active pos)
      else Regex.earlier (stack.rulesAnswer active pos) (stack.closingAnswer pos) := by
  obtain ⟨scope, frames⟩ := stack
  have hrules := find_relabel (Target.rule : RuleId → Target ⟨scope, frames⟩) active pos
  cases frames with
  | nil =>
    rw [rulesAnswer, ← hrules]
    exact (Regex.earlier_none _).symm
  | cons frame outer =>
    have hclosing : closingAnswer ⟨scope, frame :: outer⟩ pos
        = (frame.closer.pattern.find pos).map (.closing frame outer rfl, ·) := rfl
    have hfirst : closesFirst ⟨scope, frame :: outer⟩ = frame.closer.first := rfl
    rw [rulesAnswer, ← hrules, hclosing, hfirst]
    simp only [targets, Pattern.find]
    cases frame.closer.pattern.regex with
    | error e => simp [Regex.Set.relabel]
    | ok regex =>
      dsimp only
      rw [← Regex.find_singleton]
      cases frame.closer.first with
      | true => exact Regex.find_append [_] _
      | false => exact Regex.find_append _ [_]

theorem map_closingAnswer (stack : Stack) (pos : text.Pos) :
    (stack.closingAnswer pos).map (·.2) = stack.closingMatch pos := by
  obtain ⟨scope, frames⟩ := stack
  cases frames with
  | nil => rfl
  | cons frame outer =>
    simp [closingAnswer, closingMatch, Function.comp_def]

theorem closingAnswer_eq_none_iff :
    stack.closingAnswer pos = none ↔ stack.closingMatch pos = none := by
  rw [← map_closingAnswer, Option.map_eq_none_iff]

theorem closingAnswer_eq_closing_iff {frame : Frame} {outer : List Frame}
    {h : stack.frames = frame :: outer} {m : Regex.Found text pos} :
    stack.closingAnswer pos = some (.closing frame outer h, m)
      ↔ stack.closingMatch pos = some m := by
  obtain ⟨scope, frames⟩ := stack
  cases h
  simp [closingAnswer, closingMatch]

theorem closingAnswer_ne_rule {id : RuleId} {m : Regex.Found text pos} :
    stack.closingAnswer pos ≠ some (.rule id, m) := by
  obtain ⟨scope, frames⟩ := stack
  cases frames with
  | nil => exact nofun
  | cons frame outer => simp [closingAnswer]

theorem rulesAnswer_eq_none_iff (stack : Stack) {active : Regex.Set RuleId} :
    stack.rulesAnswer active pos = none ↔ active.find pos = none := by
  simp [rulesAnswer]

theorem rulesAnswer_eq_rule_iff {active : Regex.Set RuleId} {id : RuleId}
    {m : Regex.Found text pos} :
    stack.rulesAnswer active pos = some (.rule id, m) ↔ active.find pos = some (id, m) := by
  simp [rulesAnswer]

theorem rulesAnswer_ne_closing {active : Regex.Set RuleId} {frame : Frame} {outer : List Frame}
    {h : stack.frames = frame :: outer} {m : Regex.Found text pos} :
    stack.rulesAnswer active pos ≠ some (.closing frame outer h, m) := by
  simp [rulesAnswer]

theorem find_targets_eq_none_iff [LawfulEngine] {active : Regex.Set RuleId} :
    (stack.targets active).find pos = none
      ↔ active.find pos = none ∧ stack.closingMatch pos = none := by
  rw [find_targets, ← closingAnswer_eq_none_iff, ← rulesAnswer_eq_none_iff stack]
  split
  · rw [Regex.earlier_eq_none_iff, and_comm]
  · exact Regex.earlier_eq_none_iff

/-- The answer is that of the active patterns or that of the closing pattern, and it beats the other
one. -/
theorem find_targets_eq_some_iff [LawfulEngine] {active : Regex.Set RuleId}
    {answer : Target stack × Regex.Found text pos} :
    (stack.targets active).find pos = some answer
      ↔ stack.rulesAnswer active pos = some answer
          ∧ answer.2.Beats (!stack.closesFirst) (stack.closingMatch pos)
        ∨ stack.closingAnswer pos = some answer
          ∧ answer.2.Beats stack.closesFirst ((active.find pos).map (·.2)) := by
  have hrules : (stack.rulesAnswer active pos).map (·.2) = (active.find pos).map (·.2) := by
    simp [rulesAnswer, Function.comp_def]
  rw [find_targets, ← map_closingAnswer, ← hrules]
  cases stack.closesFirst with
  | true => exact Regex.earlier_eq_some_iff.trans or_comm
  | false => exact Regex.earlier_eq_some_iff

end Stack

/-- **The first match wins.** A scan has no answer if nothing matches alone. Otherwise the answer is
what its pattern finds alone, and the pattern beats all others: an active pattern wins ties against
those after it, and the region says whether the closing pattern wins ties against all of them. -/
theorem first_match_wins [LawfulEngine] {active : Regex.Set RuleId}
    (hactive : g.activeSet stack.rule = .ok active) :
    ((stack.targets active).find pos = none
        ↔ (∀ item ∈ g.active stack.rule, Regex.alone item.2 pos = none)
          ∧ stack.closingMatch pos = none)
      ∧ (∀ id m, (stack.targets active).find pos = some (.rule id, m)
        ↔ (∃ before pattern after, g.active stack.rule = before ++ (id, pattern) :: after
            ∧ Regex.alone pattern pos = some m
            ∧ (∀ item ∈ before, m.Beats false (Regex.alone item.2 pos))
            ∧ ∀ item ∈ after, m.Beats true (Regex.alone item.2 pos))
          ∧ m.Beats (!stack.closesFirst) (stack.closingMatch pos))
      ∧ ∀ frame outer frames_eq m,
        (stack.targets active).find pos = some (.closing frame outer frames_eq, m)
        ↔ stack.closingMatch pos = some m
          ∧ ∀ item ∈ g.active stack.rule, m.Beats stack.closesFirst (Regex.alone item.2 pos) := by
  have hpatterns := ofPatterns_of_activeSet hactive
  refine ⟨?none, fun id m => ?rule, fun frame outer frames_eq m => ?closing⟩
  case none => rw [Stack.find_targets_eq_none_iff, Regex.find_ofPatterns_eq_none_iff hpatterns]
  case rule =>
    rw [Stack.find_targets_eq_some_iff, Stack.rulesAnswer_eq_rule_iff,
      Regex.find_ofPatterns_eq_some_iff hpatterns]
    exact or_iff_left fun h => Stack.closingAnswer_ne_rule h.1
  case closing =>
    rw [Stack.find_targets_eq_some_iff, Stack.closingAnswer_eq_closing_iff,
      Regex.beats_find_ofPatterns hpatterns]
    exact or_iff_right fun h => Stack.rulesAnswer_ne_closing h.1

end

/-! ## Three patterns that match at once -/

/-- A region that ends at a `q`, in which two rules look for a `q` too. -/
def rivalGrammar : Grammar where
  name := "t"
  displayName := none
  description := none
  scopeName := "source.t"
  scope := ⟨["source", "t"]⟩
  fileTypes := []
  firstLine := none
  patterns := #["p", "q"]
  rules := #[
    .container { id := 0, entries := [.rule 1] },
    .region { id := 1, scope := none, opening := 0, openingCaptures := [], closing := 1,
              closingIsTemplate := false, closingCaptures := [], closingFirst := false,
              entries := [.rule 2, .rule 3] },
    .span { id := 2, scope := none, pattern := 1, captures := [] },
    .span { id := 3, scope := none, pattern := 1, captures := [] }]
  repository := {}

def rivalSet : Regex.Set RuleId := ⟨[(2, ⟨.one (.single 'q'), 0⟩), (3, ⟨.one (.single 'q'), 0⟩)]⟩

def rivalStack (first : Bool) : Stack :=
  rivalGrammar.initialStack.push 1 none ⟨.ofString "q", first⟩ 0

def rivalMatch : Regex.Found "q" "q".startPos where
  span := ⟨"q".startPos, "q".endPos, by decide⟩
  le := String.Pos.le_refl _
  captured := []

/-- The first rule wins, unless the closing pattern comes first. -/
theorem first_match_wins_rivals :
    rivalGrammar.activeSet 1 = .ok rivalSet
      ∧ ((rivalStack false).targets rivalSet).find "q".startPos = some (.rule 2, rivalMatch)
      ∧ ((rivalStack true).targets rivalSet).find "q".startPos
        = some (.closing _ [] rfl, rivalMatch) := by
  have hset (first : Bool) : rivalGrammar.activeSet (rivalStack first).rule = .ok rivalSet := by cbv
  have hactive : rivalGrammar.active 1 = [(2, "q"), (3, "q")] := by cbv
  have halone : Regex.alone "q" "q".startPos = some rivalMatch := by cbv
  have hclosing (first : Bool) :
      (rivalStack first).closingMatch "q".startPos = some rivalMatch := by cbv
  refine ⟨hset false, ?_, ?_⟩
  · refine ((first_match_wins (hset false)).2.1 2 rivalMatch).mpr
      ⟨⟨[], "q", [(3, "q")], hactive, halone, by simp, ?_⟩, ?_⟩
    · simp [halone]
    · rw [hclosing]
      exact Regex.Found.beats_true.mpr (String.Pos.le_refl _)
  · refine ((first_match_wins (hset true)).2.2 _ [] rfl rivalMatch).mpr
      ⟨hclosing true, fun item hitem => ?_⟩
    have hmem : item ∈ [(2, "q"), (3, "q")] := hactive ▸ hitem
    have hpattern : item.2 = "q" := by
      simp only [List.mem_cons, List.not_mem_nil, or_false] at hmem
      rcases hmem with rfl | rfl <;> rfl
    rw [hpattern, halone]
    exact Regex.Found.beats_true.mpr (String.Pos.le_refl _)

end ScopedText
