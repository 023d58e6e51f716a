import Mathlib
import ScopedText.Proofs.Templates
import ScopedText.Proofs.WellFormed
import ScopedText.Regex.Search

/-!
# The items of a filled template

When texts are put into a template, its items stay apart from those of the texts: the filled
template has the items of the template, with the characters of a text in the place of each reference
to it, one item for each character (`ofPattern_replace`). So a text cannot bring a reference in, and
it can be read off the pattern that it has been written into (`escape_injective`).

All of this rests on one property of the characters that are escaped: the backslash is one of them,
and the digits are not. A text that is written literally is then a sequence of whole items, in front
of anything (`ofPattern_escapeChars`).
-/

namespace ScopedText

namespace Pattern

open Backreference

namespace Item

def reference? : Item → Option Nat
  | escape c => digit? c
  | plain _ | loneBackslash => none

theorem ofPattern_cons {c : Char} (hc : c ≠ '\\') (cs : List Char) :
    ofPattern (c :: cs) = plain c :: ofPattern cs := by
  rw [ofPattern]
  · intro h
    exact absurd h hc
  · intro _ _ h
    exact absurd h hc

/-! ## Texts that are written literally -/

@[simp] theorem ofPattern_ofLiteral (c : Char) (cs : List Char) :
    ofPattern ((ofLiteral c).chars ++ cs) = ofLiteral c :: ofPattern cs := by
  unfold ofLiteral
  split
  · rfl
  · rename_i hplain
    have hc : c ≠ '\\' := by
      rintro rfl
      exact hplain (by decide)
    exact ofPattern_cons hc cs

/-- A text that is written literally has an item for each of its characters, whatever follows. -/
theorem ofPattern_escapeChars (s cs : List Char) :
    ofPattern (escapeChars s ++ cs) = s.map ofLiteral ++ ofPattern cs := by
  induction s with
  | nil => rfl
  | cons c s ih =>
    rw [escapeChars_cons, List.append_assoc, ofPattern_ofLiteral, ih]
    rfl

theorem ofLiteral_injective : Function.Injective ofLiteral := by
  intro c d h
  unfold ofLiteral at h
  split at h <;> split at h <;> cases h <;> rfl

theorem reference?_ofLiteral (c : Char) : (ofLiteral c).reference? = none := by
  unfold ofLiteral
  split
  · rename_i hspecial
    exact Regex.digit?_of_mem (List.mem_append_left _ (List.contains_iff_mem.mp hspecial))
  · rfl

end Item

/-- A text can be read off the way it is written literally. -/
theorem escape_injective : Function.Injective escape := by
  intro s t h
  have hchars : escapeChars s.toList = escapeChars t.toList := String.ofList_injective h
  have hitems (cs : List Char) : cs.map Item.ofLiteral = Item.ofPattern (escapeChars cs) := by
    simpa [Item.ofPattern] using (Item.ofPattern_escapeChars cs []).symm
  refine String.toList_inj.mp (List.map_injective_iff.mpr Item.ofLiteral_injective ?_)
  rw [hitems, hitems, hchars]

namespace Backreference

/-! ## Texts in the places of references -/

/-- What becomes of an item when the texts of the groups are put in. -/
def filledItem (texts : Nat → List Char) (item : Item) : List Item :=
  match item.reference? with
  | some n => (texts n).map Item.ofLiteral
  | none => [item]

theorem ofPattern_replace (texts : Nat → List Char) (cs : List Char) :
    Item.ofPattern (replace (fun n => escapeChars (texts n)) cs)
      = (Item.ofPattern cs).flatMap (filledItem texts) := by
  fun_induction replace (fun n => escapeChars (texts n)) cs with
  | case1 => rfl
  | case2 => rfl
  | case3 c cs n hdigit ih =>
    have hitem : filledItem texts (.escape c) = (texts n).map Item.ofLiteral := by
      simp [filledItem, Item.reference?, hdigit]
    rw [Item.ofPattern_escapeChars, ih, Item.ofPattern, List.flatMap_cons, hitem]
  | case4 c cs hdigit ih =>
    have hitem : filledItem texts (.escape c) = [.escape c] := by
      simp [filledItem, Item.reference?, hdigit]
    rw [Item.ofPattern, ih, Item.ofPattern, List.flatMap_cons, hitem]
    rfl
  | case5 c cs hlast hpair ih =>
    have hc := ne_backslash hlast hpair
    rw [Item.ofPattern_cons hc, ih, Item.ofPattern_cons hc]
    rfl

/-- A pattern refers to a group if one of its items does. -/
theorem isIn_eq_false_iff {cs : List Char} :
    isIn cs = false ↔ ∀ item ∈ Item.ofPattern cs, item.reference? = none := by
  fun_induction isIn cs with
  | case1 => simp [Item.ofPattern]
  | case2 => simp [Item.ofPattern, Item.reference?]
  | case3 c cs ih =>
    rw [Bool.or_eq_false_iff, ih, Item.ofPattern, List.forall_mem_cons]
    simp [Item.reference?]
  | case4 c cs hlast hpair ih =>
    rw [ih, Item.ofPattern_cons (ne_backslash hlast hpair), List.forall_mem_cons]
    simp [Item.reference?]

/-- Whatever the texts are, no reference is left. -/
theorem isIn_replace (texts : Nat → List Char) (cs : List Char) :
    isIn (replace (fun n => escapeChars (texts n)) cs) = false := by
  rw [isIn_eq_false_iff, ofPattern_replace]
  intro item hitem
  obtain ⟨written, _, hitem⟩ := List.mem_flatMap.mp hitem
  unfold filledItem at hitem
  split at hitem
  · obtain ⟨c, _, rfl⟩ := List.mem_map.mp hitem
    exact Item.reference?_ofLiteral c
  · rw [List.mem_singleton.mp hitem]
    assumption

/-- The characters that a group matched, the whole match being group 0; none if the group did not
participate or is not there. -/
def groupChars {text : String} (groups : Regex.Groups text) (n : Nat) : List Char :=
  match groups[n]? with
  | some (some span) => span.text.toList
  | some none | none => []

theorem toList_fill (template : String) {text : String} (groups : Regex.Groups text) :
    (fill template (groups.map (·.map Span.text))).toList
      = replace (fun n => escapeChars (groupChars groups n)) template.toList := by
  rw [fill, String.toList_ofList]
  congr
  funext n
  simp only [List.getD_eq_getElem?_getD, List.getElem?_map, groupChars]
  cases groups[n]? with
  | none => rfl
  | some group =>
    cases group with
    | none => rfl
    | some span => simp only [Option.map_some, Option.getD_some]

theorem fill_of_not_has {template : String} (h : has template = false)
    (groups : List (Option String)) : fill template groups = template := by
  rw [fill, replace_of_not_isIn h, String.ofList_toList]

end Backreference

end Pattern

/-! ## Closing patterns -/

open Pattern Backreference

/-- Whether a closing pattern is taken for a template makes no difference: without a reference in
it, filling it in gives the pattern itself. -/
theorem Grammar.WellFormed.closingText_eq_fill [Engine] {g : Grammar} (h : g.WellFormed)
    {region : Region} (hregion : .region region ∈ g.rules) {text : String} {pos : text.Pos}
    (m : Regex.Found text pos) :
    region.closingText g m
      = fill (g.patternText region.closing) (m.groups.map (·.map Span.text)) := by
  unfold Region.closingText
  dsimp only
  split
  · rfl
  · rename_i hplain
    have hnone : has (g.patternText region.closing) = false := by
      refine Bool.eq_false_iff.mpr fun hhas => hplain ?_
      exact (h.template region hregion).mpr (isIn_iff.mp hhas)
    exact (fill_of_not_has hnone _).symm

/-- **A filled template keeps its items.** In the place of each reference it has the characters of
the text, item by item, and it has no reference. A template without references is left as it is, so
it does not matter which closing patterns are filled in. -/
theorem items_of_filled [Engine] :
    (∀ (template : String) {text : String} (groups : Regex.Groups text),
      let filled := fill template (groups.map (·.map Span.text))
      Item.ofPattern filled.toList
          = (Item.ofPattern template.toList).flatMap (filledItem (groupChars groups))
        ∧ (∀ item ∈ Item.ofPattern filled.toList, item.reference? = none)
        ∧ has filled = false
        ∧ (has template = false → filled = template))
      ∧ Function.Injective escape
      ∧ ∀ (source : Source.Grammar) (g : Grammar) (region : Region),
        Grammar.ofSource source = .ok g → .region region ∈ g.rules →
        ∀ {text : String} {pos : text.Pos} (m : Regex.Found text pos),
          region.closingText g m
            = fill (g.patternText region.closing) (m.groups.map (·.map Span.text)) := by
  refine ⟨fun template text groups => ?_, escape_injective, ?_⟩
  · have hfree : has (fill template (groups.map (·.map Span.text))) = false := by
      rw [has, toList_fill]
      exact isIn_replace _ _
    refine ⟨?_, isIn_eq_false_iff.mp hfree, hfree, fun h => fill_of_not_has h _⟩
    rw [toList_fill]
    exact ofPattern_replace _ _
  · intro source g region compiled hregion text pos m
    exact (Grammar.wellFormed_ofSource compiled).closingText_eq_fill hregion m

/-- A region between angle brackets. -/
def angleSource : Source.Grammar where
  name := "t"
  scopeName := "source.t"
  rules := [{ opening := some "<", closing := some ">" }]

def angleRegion : Region where
  id := 1
  scope := none
  opening := 0
  openingCaptures := []
  closing := 1
  closingIsTemplate := false
  closingCaptures := []
  closingFirst := false
  entries := []

def angleGrammar : Grammar where
  name := "t"
  displayName := none
  description := none
  scopeName := "source.t"
  scope := ⟨["source", "t"]⟩
  fileTypes := []
  firstLine := none
  patterns := #["<", ">"]
  rules := #[.container { id := 0, entries := [.rule 1] }, .region angleRegion]
  repository := {}

/-- A match that is the whole of the text `\1`. -/
def referenceMatch : Regex.Found "\\1" "\\1".startPos where
  span := ⟨"\\1".startPos, "\\1".endPos, by decide⟩
  le := String.Pos.le_refl _
  captured := [some ⟨"\\1".startPos, "\\1".endPos, by decide⟩]

/-- A text that looks like a reference is not taken for one, and a closing pattern without any
reference stays as it is. -/
theorem items_of_filled_reference :
    has (fill "\\1" (referenceMatch.groups.map (·.map Span.text))) = false
      ∧ has ">" = false
      ∧ fill ">" (referenceMatch.groups.map (·.map Span.text)) = ">"
      ∧ Grammar.ofSource angleSource = .ok angleGrammar
      ∧ angleRegion.closingText angleGrammar referenceMatch
        = fill ">" (referenceMatch.groups.map (·.map Span.text)) := by
  have hplain : has ">" = false := by decide
  have compiled : Grammar.ofSource angleSource = .ok angleGrammar := by cbv
  obtain ⟨hfilled, _, hclosing⟩ := items_of_filled
  refine ⟨(hfilled "\\1" referenceMatch.groups).2.2.1, hplain,
    (hfilled ">" referenceMatch.groups).2.2.2 hplain, compiled, ?_⟩
  have hregion : Rule.region angleRegion ∈ angleGrammar.rules := by simp [angleGrammar]
  exact hclosing angleSource angleGrammar angleRegion compiled hregion referenceMatch

end ScopedText
