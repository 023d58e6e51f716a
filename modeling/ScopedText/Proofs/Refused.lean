import Mathlib
import ScopedText.Proofs.Modes
import ScopedText.Proofs.Progress
import ScopedText.Proofs.Session
import ScopedText.Proofs.Templates
import ScopedText.Proofs.WellFormed

/-!
# Texts that cannot be scanned

A grammar is checked when it is compiled, but not all of what a scan compiles is what was checked.
`tokenize_or_accounted` says what the check is good for: a pattern that was checked as it is
compiles next to others, and so does a closing pattern in which all references stand free, whatever
the opening match is. If all patterns to search for were checked as they are, and there are not too
many rules, then a scan can only be stopped by a region whose closing pattern is of another kind.
-/

namespace ScopedText

/-- What is checked of a pattern holds of it as it is searched for: its references, which are left
out in the check, stand free and refer to groups of the pattern, and no group captures in one of the
two modes only where it may not. -/
def Pattern.CheckedAsIs (pattern : String) : Prop :=
  ¬ Regex.Mixed (Backreference.strip pattern)
    ∧ ∀ r, Regex.Reading.ofPattern (Backreference.strip pattern).toList = .ok r →
      Regex.Stands (.asWritten r.groups) {} pattern.toList

def Region.Free (g : Grammar) (region : Region) : Prop :=
  region.closingIsTemplate = true →
    Regex.Stands .literal {} (g.patternText region.closing).toList

/-- The error tells of a region that opens in the text with a match that cannot be filled into its
closing pattern, in which a reference does not stand free. -/
inductive ScanError.Unfilled (g : Grammar) (text : String) : ScanError → Prop
  | intro {region : Region} {pos : text.Pos} {m : Regex.Found text pos}
    (mem : .region region ∈ g.rules) (begins : region.BeginsWith g m)
    (refused : (Pattern.ofString (region.closingText g m)).compiles = false)
    (unfree : ¬ region.Free g) : Unfilled g text (.closing (region.closingText g m))

namespace Grammar.WellFormed

variable {g : Grammar} (h : g.WellFormed)

include h

/-- A pattern that was checked as it is compiles next to others. -/
theorem compile_searched {rule : Rule} (hrule : rule ∈ g.rules) {number : PatternId}
    (hnumber : rule.searched? = some number)
    (hchecked : Pattern.CheckedAsIs (g.patternText number)) :
    ∃ regex, Regex.compile .all (g.patternText number) = .ok regex := by
  have hmem : ∃ captures, (number, captures) ∈ rule.patterns := by
    cases rule <;> cases hnumber <;> exact ⟨_, List.mem_cons_self⟩
  obtain ⟨captures, hmem⟩ := hmem
  obtain ⟨text, groups, htext, hgroups, _⟩ := h.fits rule hrule _ hmem
  have hpattern : g.patternText number = text := by
    rw [patternText, htext, Option.getD_some]
  rw [hpattern] at hchecked ⊢
  exact Regex.compile_asWritten hgroups hchecked.1 hchecked.2

/-- A closing pattern in which all references stand free compiles whatever the opening match is. -/
theorem compiles_closing {region : Region} (hregion : .region region ∈ g.rules)
    (hfree : region.Free g) {text : String} {pos : text.Pos} (m : Regex.Found text pos) :
    (Pattern.ofString (region.closingText g m)).compiles = true := by
  obtain ⟨written, groups, hwritten, hgroups, _⟩ := h.fits _ hregion
    (region.closing, region.closingCaptures) (List.mem_cons_of_mem _ List.mem_cons_self)
  have hpattern : g.patternText region.closing = written := by
    rw [patternText, hwritten, Option.getD_some]
  have htemplate := h.template region hregion
  rw [← Pattern.Backreference.isIn_iff] at htemplate
  unfold Region.Free at hfree
  unfold Region.closingText
  rw [hpattern] at htemplate hfree ⊢
  cases hclosing : region.closingIsTemplate with
  | true => exact Regex.compiles_fill hgroups (hfree hclosing) _
  | false =>
    have hhas : Pattern.Backreference.has written = false := by
      rw [hclosing] at htemplate
      exact Bool.eq_false_iff.mpr fun hin => absurd (htemplate.mpr hin) Bool.false_ne_true
    obtain ⟨regex, hregex⟩ := Regex.exists_compile_strip hgroups
    rw [Regex.strip_of_not_has hhas] at hregex
    have hcompiles : (Pattern.ofString written).compiles
        = (Regex.compile .namedFirst written).toBool := rfl
    rw [if_neg Bool.false_ne_true, hcompiles, hregex]
    rfl

end Grammar.WellFormed

section Errors

variable {g : Grammar} {text : String} {stack : Stack} {pos : text.Pos} {e : ScanError}

theorem refused_of_activeSet {id : RuleId} (h : g.activeSet id = .error e) :
    ∃ item ∈ g.active id, ∃ cause, Regex.compile .all item.2 = .error cause
      ∧ e = .active (g.active id).length cause := by
  unfold Grammar.activeSet compileTogether at h
  cases hset : Regex.Set.ofPatterns (g.active id) with
  | ok set =>
    rw [hset] at h
    cases h
  | error cause =>
    rw [hset] at h
    cases h
    obtain ⟨item, hmem, hrefused⟩ := Regex.exists_refused_of_ofPatterns hset
    exact ⟨item, hmem, cause, hrefused, rfl⟩

theorem refused_of_compileClosing {closing : String} (h : compileClosing closing = .error e) :
    (Pattern.ofString closing).compiles = false ∧ e = .closing closing := by
  unfold compileClosing at h
  dsimp only at h
  split at h
  · cases h
  · cases h
    exact ⟨Bool.eq_false_iff.mpr ‹_›, rfl⟩

theorem refused_of_respondRule {id : RuleId} {m : Regex.Found text pos}
    (h : respondRule (Supply.direct g) g stack pos id m = .error e) :
    ∃ region : Region, g.rules[id]? = some (.region region)
      ∧ (Pattern.ofString (region.closingText g m)).compiles = false
      ∧ e = .closing (region.closingText g m) := by
  cases hr : g.rules[id]? with
  | none =>
    rw [respondRule_other _ _ (by simp [hr]) (by simp [hr])] at h
    cases h
  | some rule =>
    cases rule with
    | container | inert =>
      rw [respondRule_other _ _ (by simp [hr]) (by simp [hr])] at h
      cases h
    | span rule =>
      rw [respondRule_span _ _ hr] at h
      split at h <;> cases h
    | region region =>
      rw [respondRule_region _ _ hr] at h
      split at h
      · rcases bind_eq_error h with hclosing | ⟨_, _, h⟩
        · have hcompile : compileClosing (region.closingText g m) = .error e := by
            rw [← map_closing_direct (g := g), hclosing]
            rfl
          obtain ⟨hrefused, rfl⟩ := refused_of_compileClosing hcompile
          exact ⟨region, rfl, hrefused, rfl⟩
        · cases h
      · cases h

/-- The answer of a search leads to an error only if a region opens. -/
theorem refused_of_respond {answer : Target stack × Regex.Found text pos}
    (h : respond (Supply.direct g) g stack pos answer = .error e) :
    ∃ (id : RuleId) (region : Region) (m : Regex.Found text pos), answer = (.rule id, m)
      ∧ g.rules[id]? = some (.region region)
      ∧ (Pattern.ofString (region.closingText g m)).compiles = false
      ∧ e = .closing (region.closingText g m) := by
  obtain ⟨target, m⟩ := answer
  cases target with
  | closing => cases h
  | rule id =>
    cases hmarks : g.marks id with
    | true =>
      rw [respond_marked _ _ hmarks] at h
      cases h
    | false =>
      rw [respond_unmarked _ _ hmarks] at h
      obtain ⟨region, hrule, hrefused, heq⟩ := refused_of_respondRule h
      exact ⟨id, region, m, rfl, hrule, hrefused, heq⟩

/-- A scan in which no move stays where it is fails where it looks for a move. -/
theorem exists_refused_of_scanFrom (hmarks : ∀ id, g.marks id = false) {c : Cover text}
    (h : scanFrom (Supply.direct g) g stack pos c = .error e) :
    ∃ (stack' : Stack) (pos' : text.Pos),
      nextMove (Supply.direct g) g stack' pos' = .error e := by
  fun_induction scanFrom (Supply.direct g) g stack pos c with
  | case1 stack pos c ih =>
    rcases bind_eq_error h with hmove | ⟨move, hmove, h⟩
    · exact ⟨stack, pos, hmove⟩
    · cases move with
      | none => cases h
      | some move =>
        have hmoves : ¬ move.stays = true := by simp [stays_of_nextMove hmarks hmove]
        dsimp only at h
        rw [dif_neg hmoves] at h
        exact ih move hmoves h

variable (hformed : g.WellFormed)
  (hchecked : ∀ rule ∈ g.rules, ∀ number, rule.searched? = some number →
    Pattern.CheckedAsIs (g.patternText number))

include hformed hchecked

/-- If all patterns to search for were checked as they are, a closing pattern is what is refused. -/
theorem unfilled_of_nextMove (h : nextMove (Supply.direct g) g stack pos = .error e) :
    e.Unfilled g text := by
  rcases bind_eq_error h with hactive | ⟨active, hactive, h⟩
  · obtain ⟨item, hmem, cause, hrefused, rfl⟩ := refused_of_activeSet hactive
    obtain ⟨rule, number, hrule, hsearched, hpattern⟩ := Grammar.searched_of_mem_activeFrom hmem
    have hrule := Array.mem_of_getElem? hrule
    obtain ⟨regex, hregex⟩ :=
      hformed.compile_searched hrule hsearched (hchecked _ hrule _ hsearched)
    rw [hpattern, hrefused] at hregex
    cases hregex
  · split at h
    · cases h
    · rename_i answer hanswer
      obtain ⟨id, region, m, rfl, hrule, hrefused, rfl⟩ := refused_of_respond h
      have hregion := Array.mem_of_getElem? hrule
      refine .intro hregion (begins_of_find hactive hanswer hrule) hrefused fun hfree => ?_
      rw [hformed.compiles_closing hregion hfree m] at hrefused
      cases hrefused

theorem unfilled_of_tokenize (hmarks : ∀ id, g.marks id = false)
    (h : g.tokenize text = .error e) : e.Unfilled g text := by
  rcases bind_eq_error h with hfrom | ⟨_, _, h⟩
  · rcases bind_eq_error hfrom with hscan | ⟨_, _, h⟩
    · obtain ⟨stack', pos', hmove⟩ := exists_refused_of_scanFrom hmarks hscan
      exact unfilled_of_nextMove hformed hchecked hmove
    · cases h
  · cases h

end Errors

/-- A region that opens with a sign that is written twice, and closes with the same sign. -/
def markSource : Source.Grammar where
  name := "t"
  scopeName := "source.t"
  rules := [{ name := some "r", opening := some "<(=)\\1", closing := some ">\\1>" }]

def markGrammar : Grammar where
  name := "t"
  displayName := none
  description := none
  scopeName := "source.t"
  scope := ⟨["source", "t"]⟩
  fileTypes := []
  firstLine := none
  patterns := #["<(=)\\1", ">\\1>"]
  rules := #[
    .container { id := 0, entries := [.rule 1] },
    .region { id := 1, scope := some ⟨["r"]⟩, opening := 0, openingCaptures := [], closing := 1,
              closingIsTemplate := true, closingCaptures := [], closingFirst := false,
              entries := [] }]
  repository := {}

/-- A region whose closing pattern takes the opening match into a range. -/
def rangeSource : Source.Grammar where
  name := "t"
  scopeName := "source.t"
  rules := [{ name := some "r", opening := some "%(.)", closing := some "[\\1-m]" }]

def rangeGrammar : Grammar where
  name := "t"
  displayName := none
  description := none
  scopeName := "source.t"
  scope := ⟨["source", "t"]⟩
  fileTypes := []
  firstLine := none
  patterns := #["%(.)", "[\\1-m]"]
  rules := #[
    .container { id := 0, entries := [.rule 1] },
    .region { id := 1, scope := some ⟨["r"]⟩, opening := 0, openingCaptures := [], closing := 1,
              closingIsTemplate := true, closingCaptures := [], closingFirst := false,
              entries := [] }]
  repository := {}

end ScopedText
