import Mathlib
import ScopedText.Proofs.Notations
import ScopedText.Proofs.RuleTable
import ScopedText.Regex.Search

/-!
# Grammars with captures in the other notation

Two grammars that differ in one field of captures, which gives one list in either notation, compile
to tables that give each group the same scope (`ofSource_of_respelled`). The rule that has the field
is compiled to rules that differ in capture tables only, and that is carried through whatever is
compiled behind it (`agree_compileRules_of_alike`) and around it (`Source.Rule.Differ.alike`).
-/

namespace ScopedText

/-! ## Tables that differ in captures -/

/-- The rules give the groups of their patterns the same scopes; otherwise they are equal. -/
inductive Rule.SameScopes : Rule → Rule → Prop
  | span (r : SpanRule) {captures : CaptureTable}
      (h : ScopedText.SameScopes r.captures captures) :
      SameScopes (.span r) (.span { r with captures })
  | region (r : Region) {openingCaptures closingCaptures : CaptureTable}
      (hopening : ScopedText.SameScopes r.openingCaptures openingCaptures)
      (hclosing : ScopedText.SameScopes r.closingCaptures closingCaptures) :
      SameScopes (.region r) (.region { r with openingCaptures, closingCaptures })
  | container (r : Container) : SameScopes (.container r) (.container r)
  | inert : SameScopes .inert .inert

theorem Rule.SameScopes.entries {rule rule' : Rule} (h : rule.SameScopes rule') :
    rule'.entries = rule.entries := by
  cases h <;> rfl

/-- The rules of both tables are the same up to their captures. -/
def SameRules (rules rules' : Array Rule) : Prop :=
  ∀ id : RuleId, Option.Rel Rule.SameScopes rules[id]? rules'[id]?

variable {rules rules' : Array Rule}

theorem SameRules.size (h : SameRules rules rules') : rules'.size = rules.size := by
  have hnone (id : RuleId) : rules.size ≤ id ↔ rules'.size ≤ id := by
    rw [← Array.getElem?_eq_none_iff, ← Array.getElem?_eq_none_iff]
    have hid := h id
    generalize rules[id]? = old, rules'[id]? = new at hid ⊢
    cases hid with
    | none => exact Iff.rfl
    | some _ => simp
  exact Nat.le_antisymm ((hnone rules.size).mp (Nat.le_refl _))
    ((hnone rules'.size).mpr (Nat.le_refl _))

theorem SameRules.push (h : SameRules rules rules') {rule rule' : Rule}
    (hrule : rule.SameScopes rule') : SameRules (rules.push rule) (rules'.push rule') := by
  intro id
  rw [Array.getElem?_push, Array.getElem?_push, h.size]
  split
  · exact .some hrule
  · exact h id

theorem SameRules.setIfInBounds (h : SameRules rules rules') (id : RuleId) {rule rule' : Rule}
    (hrule : rule.SameScopes rule') :
    SameRules (rules.setIfInBounds id rule) (rules'.setIfInBounds id rule') := by
  intro other
  rw [Array.getElem?_setIfInBounds, Array.getElem?_setIfInBounds, h.size]
  split
  · split
    · exact .some hrule
    · exact .none
  · exact h other

theorem SameRules.entries (h : SameRules rules rules') :
    rules'.toList.map Rule.entries = rules.toList.map Rule.entries := by
  refine List.ext_getElem? fun id => ?_
  rw [List.getElem?_map, List.getElem?_map, Array.getElem?_toList, Array.getElem?_toList]
  have hid := h id
  generalize rules[id]? = old, rules'[id]? = new at hid ⊢
  cases hid with
  | none => rfl
  | some hrule => rw [Option.map_some, Option.map_some, hrule.entries]

/-- The tables are the same up to the captures of the rules. -/
structure Tables.SameScopes (t t' : Tables) : Prop where
  patterns : t'.patterns = t.patterns
  rules : SameRules t.rules t'.rules

namespace Tables.SameScopes

variable {t t' : Tables}

theorem refl_reserved : Tables.SameScopes ({} : Tables).reserve ({} : Tables).reserve where
  patterns := rfl
  rules := SameRules.push (fun _ => .none) .inert

theorem reserve (h : t.SameScopes t') : t.reserve.SameScopes t'.reserve where
  patterns := h.patterns
  rules := h.rules.push .inert

theorem addPattern (h : t.SameScopes t') (pattern : String) :
    (t.addPattern pattern).SameScopes (t'.addPattern pattern) where
  patterns := congrArg (·.push pattern) h.patterns
  rules := h.rules

theorem setRule (h : t.SameScopes t') (id : RuleId) {rule rule' : Rule}
    (hrule : rule.SameScopes rule') : (t.setRule id rule).SameScopes (t'.setRule id rule') where
  patterns := h.patterns
  rules := h.rules.setIfInBounds id hrule

end Tables.SameScopes

/-! ## Compiling rules that differ in captures -/

section

variable [Engine]

/-- What is compiled in either table: the same, and the tables stay the same up to captures. -/
def SameResult {α : Type} (result result' : α × Tables) : Prop :=
  result'.1 = result.1 ∧ result.2.SameScopes result'.2

variable {definitions : NameMap String}

/-- Both rules are refused for the same reason, or compile to rules that are the same up to their
captures; and they include the same. -/
structure Source.Rule.Alike (definitions : NameMap String) (raw raw' : Source.Rule) : Prop where
  included : raw'.included = raw.included
  compiled : ∀ t t' : Tables, t.SameScopes t' →
    Agree SameResult (compileRule definitions raw t) (compileRule definitions raw' t')

theorem agree_compileRules_of_alike {raws raws' : List Source.Rule}
    (h : List.Forall₂ (Source.Rule.Alike definitions) raws raws') {t t' : Tables}
    (ht : t.SameScopes t') :
    Agree SameResult (compileRules definitions raws t) (compileRules definitions raws' t') := by
  induction h generalizing t t' with
  | nil =>
    rw [compileRules, compileRules]
    exact .ok ⟨rfl, ht⟩
  | @cons raw raw' _ _ hraw _ ih =>
    rw [compileRules, compileRules, hraw.included]
    cases raw.included with
    | some included =>
      refine Agree.bind_self fun entry _ => (ih ht).bind fun result result' _ hrest => ?_
      exact .ok ⟨congrArg (entry :: ·) hrest.1, hrest.2⟩
    | none =>
      refine (hraw.compiled t t' ht).bind fun result result' _ hrule => ?_
      refine (ih hrule.2).bind fun rest rest' _ hrest => ?_
      exact .ok ⟨by rw [hrest.1, hrule.1], hrest.2⟩

/-- The rules differ in captures only, or in rules inside of them that do; and the captures that
come to be used give each group the same scope. -/
structure Source.Rule.Similar (definitions : NameMap String) (raw raw' : Source.Rule) : Prop where
  others : raw' = { raw with
    captures := raw'.captures
    openingCaptures := raw'.openingCaptures
    closingCaptures := raw'.closingCaptures
    rules := raw'.rules }
  rules : List.Forall₂ (Source.Rule.Alike definitions) raw.rules raw'.rules
  captures : ∀ pattern p, raw.single = some pattern →
    preparePattern definitions pattern = .ok p →
    Agree SameScopes (captureTable raw.captures p) (captureTable raw'.captures p)
  openingCaptures : ∀ pattern p, raw.single = none → raw.opening = some pattern →
    preparePattern definitions pattern = .ok p →
    Agree SameScopes (captureTable (raw.openingCaptures.orElse raw.captures) p)
      (captureTable (raw'.openingCaptures.orElse raw'.captures) p)
  closingCaptures : ∀ opening pattern p, raw.single = none → raw.opening = some opening →
    raw.closing = some pattern → preparePattern definitions pattern = .ok p →
    Agree SameScopes (captureTable (raw.closingCaptures.orElse raw.captures) p)
      (captureTable (raw'.closingCaptures.orElse raw'.captures) p)

namespace Source.Rule.Similar

variable {raw raw' : Source.Rule} (h : raw.Similar definitions raw')

include h

theorem fields : raw'.name = raw.name ∧ raw'.single = raw.single ∧ raw'.opening = raw.opening
    ∧ raw'.closing = raw.closing ∧ raw'.included = raw.included
    ∧ raw'.closingLast = raw.closingLast := by
  rw [h.others]
  exact ⟨rfl, rfl, rfl, rfl, rfl, rfl⟩

theorem isEmpty_rules : raw'.rules.isEmpty = raw.rules.isEmpty := by
  rw [Bool.eq_iff_iff, List.isEmpty_iff_length_eq_zero, List.isEmpty_iff_length_eq_zero,
    h.rules.length_eq]

theorem alike : raw.Alike definitions raw' where
  included := by rw [h.others]
  compiled t t' ht := by
    obtain ⟨hname, hsingles, hopenings, hclosings, hincluded, hlast⟩ := h.fields
    have hsize : t'.rules.size = t.rules.size := ht.rules.size
    have hreserve := ht.reserve
    have hpatterns := hreserve.patterns
    have hrules {u u' : Tables} (hu : u.SameScopes u') := agree_compileRules_of_alike h.rules hu
    rw [compileRule, compileRule]
    dsimp only
    rw [hsingles, hopenings, hclosings, hincluded, hname, hlast, hsize, h.isEmpty_rules]
    cases hsingle : raw.single with
    | some single =>
      refine Agree.bind_self fun p hp => ?_
      refine (h.captures single p hsingle hp).bind fun captures captures' _ hsame => ?_
      rw [hpatterns]
      exact .ok ⟨rfl, (hreserve.addPattern p.text).setRule _ (.span _ hsame)⟩
    | none =>
      cases hopening : raw.opening with
      | some opening =>
        refine Agree.bind_self fun p hp => ?_
        refine (h.openingCaptures opening p hsingle hopening hp).bind
          fun captures captures' _ hsame => ?_
        cases hclosing : raw.closing with
        | none =>
          rw [hpatterns]
          exact .ok ⟨rfl, (hreserve.addPattern p.text).setRule _ (.span _ hsame)⟩
        | some closing =>
          refine Agree.bind_self fun q hq => ?_
          refine (h.closingCaptures opening closing q hsingle hopening hclosing hq).bind
            fun closingCaptures closingCaptures' _ hclosingSame => ?_
          have hboth := (hreserve.addPattern p.text).addPattern q.text
          refine (hrules hboth).bind fun result result' _ hresult => ?_
          rw [hpatterns, (hreserve.addPattern p.text).patterns, hresult.1]
          exact .ok ⟨rfl, hresult.2.setRule _ (.region _ hsame hclosingSame)⟩
      | none =>
        cases raw.included with
        | some included =>
          refine Agree.bind_self fun entry _ => ?_
          exact .ok ⟨rfl, hreserve.setRule _ (.container _)⟩
        | none =>
          simp only
          split
          · exact .ok ⟨rfl, hreserve⟩
          · refine (hrules hreserve).bind fun result result' _ hresult => ?_
            rw [hresult.1]
            exact .ok ⟨rfl, hresult.2.setRule _ (.container _)⟩

end Source.Rule.Similar

omit [Engine] in
theorem agree_captureTable_self (captures : Source.Captures) (p : Prepared) :
    Agree SameScopes (captureTable captures p) (captureTable captures p) :=
  .refl (fun _ _ => rfl) _

namespace Source

theorem Rule.alike_of_rules (outer : Rule) {rules rules' : List Rule}
    (h : List.Forall₂ (Rule.Alike definitions) rules rules') :
    Rule.Alike definitions { outer with rules } { outer with rules := rules' } :=
  Rule.Similar.alike {
    others := rfl
    rules := h
    captures := fun _ p _ _ => agree_captureTable_self _ p
    openingCaptures := fun _ p _ _ _ => agree_captureTable_self _ p
    closingCaptures := fun _ _ p _ _ _ _ => agree_captureTable_self _ p }

/-- A rule compiles to the same in tables that are the same up to captures. -/
theorem Rule.alike_refl (definitions : NameMap String) (raw : Rule) :
    raw.Alike definitions raw := by
  have hrules : List.Forall₂ (Rule.Alike definitions) raw.rules raw.rules :=
    List.forall₂_same.mpr fun inner _ => Rule.alike_refl definitions inner
  have halike := Rule.alike_of_rules raw hrules
  cases raw
  exact halike
termination_by sizeOf raw
decreasing_by
  have := List.sizeOf_lt_of_mem ‹_›
  have := raw.sizeOf_rules_lt
  omega

theorem forall₂_alike_refl (definitions : NameMap String) (raws : List Rule) :
    List.Forall₂ (Rule.Alike definitions) raws raws :=
  List.forall₂_same.mpr fun raw _ => Rule.alike_refl definitions raw

/-! ## One rule in two versions -/

/-- The rules are the same but for one place, on the rule itself or at any depth inside of it, where
one has the rule `a` and the other one has `b`. -/
inductive Rule.Differ (a b : Rule) : Rule → Rule → Prop
  | here : Rule.Differ a b a b
  | inside (outer : Rule) (before after : List Rule) {c d : Rule} (h : Rule.Differ a b c d) :
      Rule.Differ a b { outer with rules := before ++ c :: after }
        { outer with rules := before ++ d :: after }

/-- The grammars are the same but for one place, in the list of the grammar or in the repository,
where one has the rule `a` and the other one has `b`. -/
inductive Grammar.Differ (a b : Rule) : Grammar → Grammar → Prop
  | listed (source : Grammar) (before after : List Rule) {c d : Rule} (h : Rule.Differ a b c d) :
      Grammar.Differ a b { source with rules := before ++ c :: after }
        { source with rules := before ++ d :: after }
  | entry (source : Grammar) (name : String) (before after : List (String × Rule)) {c d : Rule}
      (h : Rule.Differ a b c d) :
      Grammar.Differ a b { source with repository := ⟨before ++ (name, c) :: after⟩ }
        { source with repository := ⟨before ++ (name, d) :: after⟩ }

variable {a b c d : Rule}

theorem forall₂_alike_insert (before after : List Rule) (h : c.Alike definitions d) :
    List.Forall₂ (Rule.Alike definitions) (before ++ c :: after) (before ++ d :: after) :=
  List.rel_append (forall₂_alike_refl definitions before)
    (.cons h (forall₂_alike_refl definitions after))

theorem Rule.Differ.alike (h : Rule.Differ a b c d) (hab : a.Alike definitions b) :
    c.Alike definitions d := by
  induction h with
  | here => exact hab
  | inside outer before after _ ih =>
    exact Rule.alike_of_rules outer (forall₂_alike_insert before after ih)

def AlikeEntry (definitions : NameMap String) (raw raw' : String × Rule) : Prop :=
  raw'.1 = raw.1 ∧ raw.2.Alike definitions raw'.2

theorem forall₂_alikeEntry_refl (definitions : NameMap String) (raws : List (String × Rule)) :
    List.Forall₂ (AlikeEntry definitions) raws raws :=
  List.forall₂_same.mpr fun raw _ => ⟨rfl, Rule.alike_refl definitions raw.2⟩

theorem Grammar.Differ.exists_alike {source source' : Grammar} (h : Differ a b source source') :
    ∃ rules' repository', source' = { source with rules := rules', repository := repository' }
      ∧ ∀ definitions, a.Alike definitions b →
        List.Forall₂ (Rule.Alike definitions) source.rules rules'
          ∧ List.Forall₂ (AlikeEntry definitions) source.repository.entries
            repository'.entries := by
  cases h with
  | listed source before after h =>
    exact ⟨_, source.repository, rfl, fun definitions hab =>
      ⟨forall₂_alike_insert before after (h.alike hab), forall₂_alikeEntry_refl definitions _⟩⟩
  | entry source name before after h =>
    refine ⟨source.rules, _, rfl, fun definitions hab =>
      ⟨forall₂_alike_refl definitions _, ?_⟩⟩
    exact List.rel_append (forall₂_alikeEntry_refl definitions before)
      (.cons ⟨rfl, h.alike hab⟩ (forall₂_alikeEntry_refl definitions after))

end Source

theorem agree_compileRepository_of_alike {raws raws' : List (String × Source.Rule)}
    (h : List.Forall₂ (Source.AlikeEntry definitions) raws raws')
    {t t' : Tables} (ht : t.SameScopes t') :
    Agree SameResult (compileRepository definitions raws t)
      (compileRepository definitions raws' t') := by
  induction h generalizing t t' with
  | nil => exact .ok ⟨rfl, ht⟩
  | cons hraw _ ih =>
    obtain ⟨hname, halike⟩ := hraw
    refine (halike.compiled _ _ ht).bind fun result result' _ hrule => ?_
    refine (ih hrule.2).bind fun rest rest' _ hrest => ?_
    exact .ok ⟨by rw [hname, hrule.1, hrest.1], hrest.2⟩

namespace Grammar

/-- The grammars are the same, but for captures that give each group the same scope. -/
structure SameScopes (g g' : Grammar) : Prop where
  rules : SameRules g.rules g'.rules
  others : g' = { g with rules := g'.rules }

omit [Engine] in
theorem SameScopes.dangling? {g g' : Grammar} (h : g.SameScopes g') :
    g'.dangling? = g.dangling? := by
  have hresolve : g'.resolve = g.resolve := by
    rw [h.others]
    rfl
  unfold Grammar.dangling?
  rw [List.flatMap_def, List.flatMap_def, h.rules.entries, hresolve]

omit [Engine] in
/-- Both grammars have references that stand for no rule, or neither has. -/
theorem agree_dangling {g g' : Grammar} (h : g.SameScopes g') :
    Agree (ε := CompileError) SameScopes
      (match g.dangling? with
        | some r => throw (.unresolvedInclude r.text)
        | none => return g)
      (match g'.dangling? with
        | some r => throw (.unresolvedInclude r.text)
        | none => return g') := by
  rw [h.dangling?]
  cases g.dangling? with
  | some r => exact .error _
  | none => exact .ok h

variable {a b : Source.Rule} {source source' : Source.Grammar}

theorem agree_ofSource (h : Source.Grammar.Differ a b source source')
    (hab : ∀ definitions, Pattern.Variable.expandTable source.definitions = .ok definitions →
      a.Alike definitions b) :
    Agree SameScopes (ofSource source) (ofSource source') := by
  obtain ⟨rules', repository', rfl, halike⟩ := h.exists_alike
  unfold ofSource
  cases hexpanded : Pattern.Variable.expandTable source.definitions with
  | error fault => exact .error _
  | ok definitions =>
    obtain ⟨hrules, hrepository⟩ := halike definitions (hab definitions hexpanded)
    refine (agree_compileRules_of_alike hrules .refl_reserved).bind fun list list' _ hlist => ?_
    obtain ⟨entries, t⟩ := list
    obtain ⟨_, t'⟩ := list'
    obtain ⟨rfl, ht⟩ := hlist
    refine (agree_compileRepository_of_alike hrepository (ht.setRule rootRule (.container _))).bind
      fun named named' _ hnamed => ?_
    obtain ⟨repository, u⟩ := named
    obtain ⟨_, u'⟩ := named'
    obtain ⟨rfl, hu⟩ := hnamed
    have hpatterns : u'.patterns = u.patterns := hu.patterns
    exact agree_dangling { rules := hu.rules, others := by simp only [hpatterns] }

end Grammar

/-! ## One field in two notations -/

namespace Source

inductive CaptureField
  | general
  | opening
  | closing

def Rule.setCaptures (r : Rule) : CaptureField → Captures → Rule
  | .general, captures => { r with captures }
  | .opening, openingCaptures => { r with openingCaptures }
  | .closing, closingCaptures => { r with closingCaptures }

/-- The captures of a field are for the groups of a pattern. -/
inductive Rule.Gives (r : Rule) : CaptureField → String → Prop
  | single {pattern : String} (h : r.single = some pattern) : r.Gives .general pattern
  | opening {pattern : String} (hsingle : r.single = none) (h : r.opening = some pattern) :
      r.Gives .opening pattern
  | openingGeneral {pattern : String} (hsingle : r.single = none) (h : r.opening = some pattern)
      (hempty : r.openingCaptures.isEmpty) : r.Gives .general pattern
  | closing {opening pattern : String} (hsingle : r.single = none)
      (hopening : r.opening = some opening) (h : r.closing = some pattern) :
      r.Gives .closing pattern
  | closingGeneral {opening pattern : String} (hsingle : r.single = none)
      (hopening : r.opening = some opening) (h : r.closing = some pattern)
      (hempty : r.closingCaptures.isEmpty) : r.Gives .general pattern

/-- For each pattern that is given the captures of a field, it makes no difference that one notation
drops those without a name. -/
structure Rule.SuitsBoth (definitions : NameMap String) (r : Rule) (field : CaptureField)
    (captures : List Capture) : Prop where
  within : ∀ pattern p, r.Gives field pattern → preparePattern definitions pattern = .ok p →
    Within captures p
  standing : field ≠ .general → ∀ pattern p, r.Gives field pattern →
    preparePattern definitions pattern = .ok p → Standing captures r.captures p

omit [Engine] in
theorem Captures.agree_orElse {captures captures' : Captures} {p : Prepared} (own : Captures)
    (h : own.isEmpty → Agree SameScopes (captureTable captures p) (captureTable captures' p)) :
    Agree SameScopes (captureTable (own.orElse captures) p)
      (captureTable (own.orElse captures') p) := by
  unfold Captures.orElse
  split
  case isTrue hempty => exact h hempty
  case isFalse => exact .refl (fun _ _ => rfl) _

theorem Rule.SuitsBoth.similar {r : Rule} {field : CaptureField} {captures : List Capture}
    (h : r.SuitsBoth definitions field captures) :
    (r.setCaptures field (.ofNames captures)).Similar definitions
      (r.setCaptures field (.ofPlaces captures)) := by
  have hrules := forall₂_alike_refl definitions r.rules
  cases field with
  | general => exact {
      others := rfl
      rules := hrules
      captures := fun pattern p hsingle hp =>
        agree_captureTable_iff.mpr (h.within pattern p (.single hsingle) hp)
      openingCaptures := fun pattern p hsingle hopening hp =>
        Captures.agree_orElse r.openingCaptures fun hempty => agree_captureTable_iff.mpr
          (h.within pattern p (.openingGeneral hsingle hopening hempty) hp)
      closingCaptures := fun opening pattern p hsingle hopening hclosing hp =>
        Captures.agree_orElse r.closingCaptures fun hempty => agree_captureTable_iff.mpr
          (h.within pattern p (.closingGeneral hsingle hopening hclosing hempty) hp) }
  | opening => exact {
      others := rfl
      rules := hrules
      captures := fun pattern p _ _ => agree_captureTable_self _ p
      openingCaptures := fun pattern p hsingle hopening hp =>
        have hgives : r.Gives .opening pattern := .opening hsingle hopening
        agree_captureTable_orElse (h.within pattern p hgives hp)
          (h.standing CaptureField.noConfusion pattern p hgives hp)
      closingCaptures := fun _ _ p _ _ _ _ => agree_captureTable_self _ p }
  | closing => exact {
      others := rfl
      rules := hrules
      captures := fun pattern p _ _ => agree_captureTable_self _ p
      openingCaptures := fun _ p _ _ _ => agree_captureTable_self _ p
      closingCaptures := fun opening pattern p hsingle hopening hclosing hp =>
        have hgives : r.Gives .closing pattern := .closing hsingle hopening hclosing
        agree_captureTable_orElse (h.within pattern p hgives hp)
          (h.standing CaptureField.noConfusion pattern p hgives hp) }

end Source

end

open Json Source

/-- A list of captures can be read as an array or as an object with their places for its keys. Two
grammars that differ in one field of captures, read from either notation, are refused for the same
reason or compile to rules that give each group of each pattern the same scope, or none. That is so
if each pattern that is given these captures has a group for the last of them or the last one has a
name, and if a field of a region only gives way to the general one where that makes no
difference. -/
theorem ofSource_of_respelled [Engine] {depth : Nat} {values : List Value}
    {captures : List Source.Capture} {members : List (String × Value)}
    (hread : List.Forall₂ (Captures.Reads depth) values captures)
    (hlength : values.length ≤ Number.maxUnsigned + 1)
    (hmembers : members.Perm (Captures.keyed values)) :
    ∃ ofArray ofObject,
      Captures.read (depth + 1) (.array (.ofList values)) = .ok ofArray
        ∧ Captures.read (depth + 1) (.object (.ofList members)) = .ok ofObject
        ∧ ∀ (r : Source.Rule) (field : Source.CaptureField) (source source' : Source.Grammar),
          Source.Grammar.Differ (r.setCaptures field ofArray) (r.setCaptures field ofObject)
            source source' →
          (∀ definitions, Pattern.Variable.expandTable source.definitions = .ok definitions →
            r.SuitsBoth definitions field captures) →
          Agree Grammar.SameScopes (Grammar.ofSource source) (Grammar.ofSource source') := by
  refine ⟨_, _, Captures.read_array hread, Captures.read_object hread hlength hmembers,
    fun r field source source' hdiffer hsuits => ?_⟩
  exact Grammar.agree_ofSource hdiffer fun definitions hexpanded =>
    (hsuits definitions hexpanded).similar.alike

/-- A grammar with a pattern without groups and a region that has captures in its general field. -/
def notationSource (captures openingCaptures : Captures) : Source.Grammar where
  name := "t"
  scopeName := "source.t"
  rules := [
    { single := some "a", captures },
    { opening := some "[(]", closing := some "[)]", openingCaptures
      captures := .ofNames [{ name := some "x" }] }]

/-- A last capture without a name is for a group that is not there, in the object only; and captures
without any name keep the general ones from being used, in the object only. -/
theorem ofSource_notationSource :
    let skipped : List Capture := [{ name := some "x" }, {}]
    let nameless : List Capture := [{}]
    let tables (source : Source.Grammar) :=
      (Grammar.ofSource source).map fun g => g.rules.toList.map fun rule => rule.patterns.map (·.2)
    tables (notationSource (.ofNames skipped) {})
        = .ok [[], [[some ⟨["x"]⟩]], [[some ⟨["x"]⟩], [some ⟨["x"]⟩]]]
      ∧ tables (notationSource (.ofPlaces skipped) {}) = .error (.invalidCaptureIndex "a" 1)
      ∧ tables (notationSource {} (.ofNames nameless))
        = .ok [[], [[]], [[some ⟨["x"]⟩], [some ⟨["x"]⟩]]]
      ∧ tables (notationSource {} (.ofPlaces nameless))
        = .ok [[], [[]], [[none], [some ⟨["x"]⟩]]] := by
  refine ⟨?_, ?_, ?_, ?_⟩ <;> cbv

def namedAndEmpty : List Value :=
  [.object (.ofList [("name", .string (.ok "x"))]), .object (.ofList [])]

/-- A region inside of another one; its opening pattern has a group. -/
def innerRegion : Source.Rule where
  opening := some "([(])"
  closing := some "[)]"

def outerRegion : Source.Rule where
  opening := some "<"
  closing := some ">"

/-- A grammar with both regions; the inner one is given these captures. -/
def nestedSource (captures : Captures) : Source.Grammar where
  name := "t"
  scopeName := "source.t"
  rules := [{ outerRegion with rules := [innerRegion.setCaptures .opening captures] }]

theorem ofSource_of_respelled_nested :
    let captures : List Capture := [{ name := some "x" }, {}]
    let members := (Captures.keyed namedAndEmpty).reverse
    List.Forall₂ (Captures.Reads 2) namedAndEmpty captures
      ∧ namedAndEmpty.length ≤ Number.maxUnsigned + 1
      ∧ members.Perm (Captures.keyed namedAndEmpty)
      ∧ innerRegion.SuitsBoth {} .opening captures
      ∧ ∃ ofArray ofObject, Captures.read 3 (.array (.ofList namedAndEmpty)) = .ok ofArray
        ∧ Captures.read 3 (.object (.ofList members)) = .ok ofObject
        ∧ Agree Grammar.SameScopes (Grammar.ofSource (nestedSource ofArray))
          (Grammar.ofSource (nestedSource ofObject)) := by
  intro captures members
  have hread : List.Forall₂ (Captures.Reads 2) namedAndEmpty captures :=
    .cons rfl (.cons rfl .nil)
  have hlength : namedAndEmpty.length ≤ Number.maxUnsigned + 1 := by decide
  have hmembers : members.Perm (Captures.keyed namedAndEmpty) := List.reverse_perm _
  have hsuits : innerRegion.SuitsBoth {} .opening captures := {
    within := fun pattern p hgives hp => by
      obtain rfl : "([(])" = pattern := by
        cases hgives with
        | opening _ h => exact Option.some.inj h
      have hprepared : preparePattern {} "([(])" = .ok ⟨"([(])", 1⟩ := by cbv
      rw [hprepared] at hp
      cases hp
      exact .inl (Nat.le_refl _)
    standing := fun _ pattern p _ _ =>
      .inr (.inl ⟨_, List.mem_cons_self, rfl⟩) }
  obtain ⟨ofArray, ofObject, harray, hobject, hagree⟩ :=
    ofSource_of_respelled hread hlength hmembers
  refine ⟨hread, hlength, hmembers, hsuits, ofArray, ofObject, harray, hobject, ?_⟩
  refine hagree innerRegion .opening _ _ (.listed (nestedSource {}) [] []
    (.inside outerRegion [] [] .here)) fun definitions hexpanded => ?_
  have hnone : Pattern.Variable.expandTable {} = .ok {} := by cbv
  obtain rfl : {} = definitions := Except.ok.inj (hnone.symm.trans hexpanded)
  exact hsuits

end ScopedText
