import Mathlib
import ScopedText.Grammar.Active
import ScopedText.Proofs.RuleTable
import ScopedText.Regex.Search

/-!
# Rules that include others

In a list of rules, one that names what it includes is nothing else: none of its other fields is
read (`compileRules_includeOnly`). An entry of the repository is compiled like a rule without such a
name, and there a pattern comes first (`compileRule_asEntry`). So an entry with both is the rule of
its pattern and includes nothing.
-/

namespace ScopedText

namespace Source

/-- The rule left with what it includes if it names that; the rules inside of it are treated
alike. -/
def Rule.includeOnly (r : Rule) : Rule :=
  if r.included.isSome then { included := r.included }
  else { r with rules := r.rules.map Rule.includeOnly }
termination_by sizeOf r
decreasing_by
  have := List.sizeOf_lt_of_mem ‹_›
  have := r.sizeOf_rules_lt
  omega

/-- The fields of a rule that count where it is an entry of the repository: with a pattern, it
includes nothing. -/
def Rule.asEntry (r : Rule) : Rule :=
  if r.single.isSome || r.opening.isSome then
    { r with rules := r.rules.map Rule.includeOnly, included := none }
  else r.includeOnly

/-- The grammar in which a rule that includes others has no other field, wherever it stands. -/
def Grammar.includeOnly (source : Grammar) : Grammar :=
  { source with
    rules := source.rules.map Rule.includeOnly
    repository := source.repository.map Rule.includeOnly }

/-- The grammar in which each rule has only those fields that count at its place. -/
def Grammar.asRead (source : Grammar) : Grammar :=
  { source with
    rules := source.rules.map Rule.includeOnly
    repository := source.repository.map Rule.asEntry }

theorem Rule.included_includeOnly (r : Rule) : r.includeOnly.included = r.included := by
  rw [Rule.includeOnly]
  split <;> rfl

theorem Rule.asEntry_of_not_included {r : Rule} (h : r.included = none) :
    r.asEntry = r.includeOnly := by
  rw [Rule.asEntry, Rule.includeOnly, h]
  simp only [Option.isSome_none, Bool.false_eq_true, if_false, ite_self]

theorem Rule.asEntry_of_not_pattern {r : Rule} (hsingle : r.single = none)
    (hopening : r.opening = none) : r.asEntry = r.includeOnly := by
  simp only [Rule.asEntry, hsingle, hopening, Option.isSome_none, Bool.or_self,
    Bool.false_eq_true, if_false]

end Source

open Source

section

variable [Engine]

mutual

theorem compileRule_asEntry (definitions : NameMap String) (raw : Source.Rule) (t : Tables) :
    compileRule definitions raw.asEntry t = compileRule definitions raw t := by
  have hrules := compileRules_includeOnly definitions raw.rules
  rw [Rule.asEntry]
  split
  case isTrue hpattern =>
    rw [compileRule, compileRule]
    dsimp only
    cases hsingle : raw.single with
    | some single => rfl
    | none =>
      cases hopening : raw.opening with
      | some opening => simp only [hrules]
      | none => simp [hsingle, hopening] at hpattern
  case isFalse hpattern =>
    obtain ⟨hsingle, hopening⟩ : raw.single = none ∧ raw.opening = none := by
      simpa using hpattern
    rw [Rule.includeOnly]
    cases hincluded : raw.included with
    | some included =>
      simp only [Option.isSome_some, if_true]
      rw [compileRule, compileRule]
      simp only [hsingle, hopening, hincluded]
    | none =>
      simp only [Option.isSome_none, Bool.false_eq_true, if_false]
      rw [compileRule, compileRule]
      simp only [hsingle, hopening, hincluded, hrules, List.isEmpty_map]
termination_by sizeOf raw
decreasing_by all_goals exact Source.Rule.sizeOf_rules_lt raw

/-- In a list, the other fields of a rule that includes others are not read. -/
theorem compileRules_includeOnly (definitions : NameMap String) (raws : List Source.Rule)
    (t : Tables) :
    compileRules definitions (raws.map Rule.includeOnly) t = compileRules definitions raws t := by
  cases raws with
  | nil => rw [List.map_nil]
  | cons raw raws =>
    have hrest := compileRules_includeOnly definitions raws
    rw [List.map_cons, compileRules, compileRules, Rule.included_includeOnly]
    cases hincluded : raw.included with
    | some included => simp only [hrest]
    | none =>
      have hrule := compileRule_asEntry definitions raw
      rw [Rule.asEntry_of_not_included hincluded] at hrule
      simp only [hrule, hrest]
termination_by sizeOf raws

end

theorem compileRepository_asEntry (definitions : NameMap String)
    (raws : List (String × Source.Rule)) (t : Tables) :
    compileRepository definitions (raws.map fun (name, raw) => (name, raw.asEntry)) t
      = compileRepository definitions raws t := by
  induction raws generalizing t with
  | nil => rfl
  | cons entry raws ih =>
    simp only [List.map_cons, compileRepository, compileRule_asEntry, ih]

namespace Grammar

/-- Compiling reads no field that does not count at its place. -/
theorem ofSource_asRead (source : Source.Grammar) : ofSource source.asRead = ofSource source := by
  simp only [ofSource, Source.Grammar.asRead, NameMap.map, compileRules_includeOnly,
    compileRepository_asEntry]

/-- A rule that names what it includes gives the same grammar, or is refused for the same reason, if
all its other fields are left out. An entry of the repository counts as such a rule only if it has
no pattern; one that has gives the same grammar if that name is left out. -/
theorem ofSource_includeOnly (source : Source.Grammar) :
    ofSource source.asRead = ofSource source
      ∧ ((∀ entry ∈ source.repository.entries, entry.2.included.isSome →
          entry.2.single = none ∧ entry.2.opening = none) →
        ofSource source.includeOnly = ofSource source) := by
  refine ⟨ofSource_asRead source, fun h => ?_⟩
  have hentries : source.repository.map Rule.includeOnly = source.repository.map Rule.asEntry := by
    refine congrArg NameMap.mk (List.map_congr_left fun entry hentry => ?_)
    refine congrArg (Prod.mk entry.1) ?_
    cases hincluded : entry.2.included with
    | none => exact (Rule.asEntry_of_not_included hincluded).symm
    | some included =>
      obtain ⟨hsingle, hopening⟩ := h entry hentry (by rw [hincluded]; rfl)
      exact (Rule.asEntry_of_not_pattern hsingle hopening).symm
  calc ofSource source.includeOnly
      = ofSource source.asRead := by
        rw [Source.Grammar.includeOnly, Source.Grammar.asRead, hentries]
    _ = ofSource source := ofSource_asRead source

end Grammar

end

namespace Grammar

/-- A grammar whose only entry has a pattern and includes the list of the grammar. -/
def patternEntrySource : Source.Grammar where
  name := "t"
  scopeName := "source.t"
  rules := [{ included := some "#e" }]
  repository := ⟨[("e", { single := some "a", included := some "$self" })]⟩

/-- The entry is the rule of its pattern, though it names what it includes. Left with that name, it
has no pattern, and nothing can be matched. -/
theorem ofSource_patternEntrySource :
    (ofSource patternEntrySource).map (·.active rootRule) = .ok [(1, "a")]
      ∧ (ofSource patternEntrySource.includeOnly).map (·.active rootRule) = .ok [] := by
  constructor <;> cbv

/-- A grammar with two rules that include an entry, one of them inside of a region; each has other
fields, and the pattern of the second one is not even a regular expression. -/
def includingSource : Source.Grammar where
  name := "t"
  scopeName := "source.t"
  rules := [
    { name := some "x", included := some "#e" },
    { opening := some "[(]", closing := some "[)]",
      rules := [{ included := some "#e", single := some "(" }] }]
  repository := ⟨[("e", { name := some "y", included := some "$self", rules := [{}] })]⟩

theorem ofSource_includeOnly_including :
    (∀ entry ∈ includingSource.repository.entries, entry.2.included.isSome →
        entry.2.single = none ∧ entry.2.opening = none)
      ∧ ofSource includingSource.includeOnly = ofSource includingSource
      ∧ (ofSource includingSource).map (·.active rootRule) = .ok [(1, "[(]")] := by
  have hentries : ∀ entry ∈ includingSource.repository.entries, entry.2.included.isSome →
      entry.2.single = none ∧ entry.2.opening = none := by
    intro entry hentry _
    obtain rfl := List.mem_singleton.mp hentry
    exact ⟨rfl, rfl⟩
  refine ⟨hentries, (ofSource_includeOnly includingSource).2 hentries, ?_⟩
  cbv

end Grammar

end ScopedText
