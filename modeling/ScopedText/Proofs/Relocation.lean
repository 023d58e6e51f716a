import Mathlib.Data.List.Forall2
import ScopedText.Proofs.RuleTable

/-!
# Compiling at another place

A rule is compiled to rules that stand behind those that are in the table already, so their numbers
depend on what was compiled before. Nothing else does: compiled behind other rules, and with other
names for the entries of the repository, a rule gives a `Copy` of itself, in which each number is
moved by the same amount (`agree_compileRule`). It is refused for the same reason or not at all.
-/

namespace ScopedText

namespace Source

/-- An included name, with another name for the entry of the repository that it may stand for. -/
def renameIncluded (f : String → String) (included : String) : String :=
  match included.toList with
  | '#' :: name => "#" ++ f (String.ofList name)
  | _ => included

def Rule.rename (f : String → String) (r : Rule) : Rule :=
  { r with
    rules := r.rules.map (Rule.rename f)
    included := r.included.map (renameIncluded f) }
termination_by sizeOf r
decreasing_by
  have := List.sizeOf_lt_of_mem ‹_›
  have := r.sizeOf_rules_lt
  omega

end Source

def Reference.rename (f : String → String) : Reference → Reference
  | root => root
  | named name => named (f name)

/-- The entry with another number or another name in it. -/
def Entry.carry (f : String → String) (move : RuleId → RuleId) : Entry → Entry
  | rule id => rule (move id)
  | reference r => reference (r.rename f)

def SamePattern (texts texts' : Array String) (id id' : PatternId) : Prop :=
  ∃ text, texts[id]? = some text ∧ texts'[id']? = some text

/-- The rules are the same up to their numbers and the names they refer to. -/
inductive Rule.Copy (f : String → String) (move : RuleId → RuleId) (texts texts' : Array String) :
    Rule → Rule → Prop
  | span {r r' : SpanRule} (id : r'.id = move r.id) (scope : r'.scope = r.scope)
      (pattern : SamePattern texts texts' r.pattern r'.pattern)
      (captures : r'.captures = r.captures) : Copy f move texts texts' (.span r) (.span r')
  | region {r r' : Region} (id : r'.id = move r.id) (scope : r'.scope = r.scope)
      (opening : SamePattern texts texts' r.opening r'.opening)
      (openingCaptures : r'.openingCaptures = r.openingCaptures)
      (closing : SamePattern texts texts' r.closing r'.closing)
      (template : r'.closingIsTemplate = r.closingIsTemplate)
      (closingCaptures : r'.closingCaptures = r.closingCaptures)
      (first : r'.closingFirst = r.closingFirst)
      (entries : r'.entries = r.entries.map (Entry.carry f move)) :
      Copy f move texts texts' (.region r) (.region r')
  | container {r r' : Container} (id : r'.id = move r.id)
      (entries : r'.entries = r.entries.map (Entry.carry f move)) :
      Copy f move texts texts' (.container r) (.container r')
  | inert : Copy f move texts texts' .inert .inert

variable {f : String → String} {move : RuleId → RuleId}

theorem SamePattern.mono {texts texts' more more' : Array String}
    (h : texts.toList <+: more.toList) (h' : texts'.toList <+: more'.toList)
    {id id' : PatternId} (hsame : SamePattern texts texts' id id') :
    SamePattern more more' id id' := by
  obtain ⟨text, htext, htext'⟩ := hsame
  exact ⟨text, getElem?_kept h htext, getElem?_kept h' htext'⟩

theorem Rule.Copy.mono {texts texts' more more' : Array String}
    (h : texts.toList <+: more.toList) (h' : texts'.toList <+: more'.toList) {rule rule' : Rule}
    (hcopy : rule.Copy f move texts texts' rule') : rule.Copy f move more more' rule' := by
  cases hcopy with
  | span id scope pattern captures => exact .span id scope (pattern.mono h h') captures
  | region id scope opening openingCaptures closing template closingCaptures first entries =>
    exact .region id scope (opening.mono h h') openingCaptures (closing.mono h h') template
      closingCaptures first entries
  | container id entries => exact .container id entries
  | inert => exact .inert

namespace Tables

/-- The numbers behind one table are moved to those behind the other one. -/
def Aligned (move : RuleId → RuleId) (t t' : Tables) : Prop :=
  ∀ i, move (t.rules.size + i) = t'.rules.size + i

/-- Both tables have gained rules, and those of the second one are copies of those of the first. -/
structure Copies (f : String → String) (move : RuleId → RuleId) (t t' u u' : Tables)
    (added added' : List Rule) : Prop where
  rules : u.rules.toList = t.rules.toList ++ added
  rules' : u'.rules.toList = t'.rules.toList ++ added'
  texts : t.patterns.toList <+: u.patterns.toList
  texts' : t'.patterns.toList <+: u'.patterns.toList
  copy : List.Forall₂ (Rule.Copy f move u.patterns u'.patterns) added added'

variable {t t' u u' v v' : Tables} {added added' more more' : List Rule}

theorem copies_refl (t t' : Tables) : Copies f move t t' t t' [] [] where
  rules := (List.append_nil _).symm
  rules' := (List.append_nil _).symm
  texts := List.prefix_refl _
  texts' := List.prefix_refl _
  copy := .nil

theorem Copies.trans (h : Copies f move t t' u u' added added')
    (h' : Copies f move u u' v v' more more') :
    Copies f move t t' v v' (added ++ more) (added' ++ more') where
  rules := by rw [h'.rules, h.rules, List.append_assoc]
  rules' := by rw [h'.rules', h.rules', List.append_assoc]
  texts := h.texts.trans h'.texts
  texts' := h.texts'.trans h'.texts'
  copy := List.rel_append (h.copy.imp fun _ _ hcopy => hcopy.mono h'.texts h'.texts') h'.copy

theorem Copies.size (h : Copies f move t t' u u' added added') :
    u.rules.size = t.rules.size + added.length := by
  simpa using congrArg List.length h.rules

theorem Copies.size' (h : Copies f move t t' u u' added added') :
    u'.rules.size = t'.rules.size + added.length := by
  simpa [h.copy.length_eq] using congrArg List.length h.rules'

theorem Copies.aligned (h : Copies f move t t' u u' added added') (ht : Aligned move t t') :
    Aligned move u u' := by
  intro i
  rw [h.size, h.size', Nat.add_assoc, Nat.add_assoc, ht]

theorem Aligned.reserve (h : Aligned move t t') : Aligned move t.reserve t'.reserve := by
  intro i
  simp only [Tables.reserve, Array.size_push]
  rw [Nat.add_assoc, Nat.add_assoc, h]

theorem Copies.addPattern {pattern : String}
    (h : Copies f move (t.addPattern pattern) (t'.addPattern pattern) u u' added added') :
    Copies f move t t' u u' added added' where
  rules := h.rules
  rules' := h.rules'
  texts := (prefix_addPattern _ _).trans h.texts
  texts' := (prefix_addPattern _ _).trans h.texts'
  copy := h.copy

/-- Both rules take the places that were reserved for them. -/
theorem Copies.place {rule rule' : Rule} (h : Copies f move t.reserve t'.reserve u u' added added')
    (hrule : rule.Copy f move u.patterns u'.patterns rule') :
    Copies f move t t' (u.setRule t.rules.size rule) (u'.setRule t'.rules.size rule')
      (rule :: added) (rule' :: added') where
  rules := toList_setRule h.rules rule
  rules' := toList_setRule h.rules' rule'
  texts := h.texts
  texts' := h.texts'
  copy := .cons hrule h.copy

theorem copies_reserve (t t' : Tables) :
    Copies f move t t' t.reserve t'.reserve [.inert] [.inert] where
  rules := by simp [Tables.reserve]
  rules' := by simp [Tables.reserve]
  texts := List.prefix_refl _
  texts' := List.prefix_refl _
  copy := .cons .inert .nil

theorem samePattern_addPattern (t t' : Tables) (pattern : String) :
    SamePattern (t.addPattern pattern).patterns (t'.addPattern pattern).patterns
      t.patterns.size t'.patterns.size :=
  ⟨pattern, getElem?_addPattern t pattern, getElem?_addPattern t' pattern⟩

end Tables

/-! ## The functions that compile rules -/

open Tables

/-- What compiling a rule behind either of two tables comes to. -/
def CopiedRule (f : String → String) (move : RuleId → RuleId) (t t' : Tables)
    (result result' : RuleId × Tables) : Prop :=
  result.1 = t.rules.size ∧ result'.1 = t'.rules.size
    ∧ ∃ added added', Copies f move t t' result.2 result'.2 added added'

/-- What compiling a list of rules behind either of two tables comes to. -/
def CopiedRules (f : String → String) (move : RuleId → RuleId) (t t' : Tables)
    (result result' : List Entry × Tables) : Prop :=
  result'.1 = result.1.map (Entry.carry f move)
    ∧ ∃ added added', Copies f move t t' result.2 result'.2 added added'

theorem Tables.Aligned.start {t t' : Tables} (h : Aligned move t t') :
    t'.rules.size = move t.rules.size := by
  have hzero := h 0
  rw [Nat.add_zero, Nat.add_zero] at hzero
  exact hzero.symm

section

variable {t t' u u' : Tables} {added added' : List Rule}

/-- What was added since their places were reserved stays behind the two rules. -/
theorem Tables.Copies.copiedRule {rule rule' : Rule}
    (h : Copies f move t.reserve t'.reserve u u' added added')
    (hrule : rule.Copy f move u.patterns u'.patterns rule') :
    CopiedRule f move t t' (t.rules.size, u.setRule t.rules.size rule)
      (t'.rules.size, u'.setRule t'.rules.size rule') :=
  ⟨rfl, rfl, _, _, h.place hrule⟩

/-- A rule for one pattern needs nothing but the pattern. -/
theorem copiedRule_span (hid : t'.rules.size = move t.rules.size) (pattern : String)
    (scope : Option Scope) (captures : CaptureTable) :
    CopiedRule f move t t'
      (t.rules.size, (t.reserve.addPattern pattern).setRule t.rules.size
        (.span ⟨t.rules.size, scope, t.reserve.patterns.size, captures⟩))
      (t'.rules.size, (t'.reserve.addPattern pattern).setRule t'.rules.size
        (.span ⟨t'.rules.size, scope, t'.reserve.patterns.size, captures⟩)) := by
  have hcopies : Copies f move t.reserve t'.reserve _ _ [] [] :=
    (copies_refl (t.reserve.addPattern pattern) (t'.reserve.addPattern pattern)).addPattern
  have hpattern := samePattern_addPattern t.reserve t'.reserve pattern
  exact hcopies.copiedRule (.span hid rfl hpattern rfl)

/-- The two patterns of a region keep their numbers, whatever is added after them. -/
theorem Tables.Copies.samePatterns {opening closing : String}
    (h : Copies f move ((t.addPattern opening).addPattern closing)
      ((t'.addPattern opening).addPattern closing) u u' added added') :
    SamePattern u.patterns u'.patterns t.patterns.size t'.patterns.size
      ∧ SamePattern u.patterns u'.patterns (t.addPattern opening).patterns.size
        (t'.addPattern opening).patterns.size := by
  constructor
  · apply (samePattern_addPattern t t' opening).mono
    · exact (prefix_addPattern _ _).trans h.texts
    · exact (prefix_addPattern _ _).trans h.texts'
  · apply (samePattern_addPattern (t.addPattern opening) (t'.addPattern opening) closing).mono
    · exact h.texts
    · exact h.texts'

end

theorem referenceEntry_named {name : String} (h : name ≠ "") :
    referenceEntry ("#" ++ name) = .ok (.reference (.named name)) := by
  have hlist : ("#" ++ name).toList = '#' :: name.toList := by simp
  have hself : ¬ ("#" ++ name = "$self" ∨ "#" ++ name = "$base") := by
    rw [← String.toList_inj, ← String.toList_inj, hlist]
    simp
  unfold referenceEntry Reference.ofString?
  rw [if_neg hself, hlist]
  cases hname : name.toList with
  | nil => exact absurd (String.toList_eq_nil_iff.mp hname) h
  | cons c cs =>
    have hofList : String.ofList (c :: cs) = name := by rw [← hname, String.ofList_toList]
    simp only [hofList]

/-- A name that begins otherwise stands for the list of the grammar, or for nothing. -/
theorem referenceEntry_other {included : String}
    (h : ∀ name, included.toList = '#' :: name → False) :
    referenceEntry included = .ok (.reference .root)
      ∨ ∃ cause, referenceEntry included = .error cause := by
  unfold referenceEntry Reference.ofString?
  by_cases hself : included = "$self" ∨ included = "$base"
  · rw [if_pos hself]
    exact .inl rfl
  · rw [if_neg hself]
    refine .inr ⟨.unresolvedInclude included, ?_⟩
    split
    · rename_i r hr
      split at hr
      · exact (h _ ‹_›).elim
      · cases hr
    · rfl

variable (hf : Function.Injective f) (hempty : f "" = "")

include hf hempty

/-- An included name stands for the same under its other name, or for nothing still. -/
theorem agree_referenceEntry (move : RuleId → RuleId) (included : String) :
    Agree (fun entry entry' => entry' = entry.carry f move) (referenceEntry included)
      (referenceEntry (Source.renameIncluded f included)) := by
  unfold Source.renameIncluded
  split
  case h_1 name hname =>
    obtain rfl : included = "#" ++ String.ofList name := by
      rw [← String.toList_inj, hname]
      simp
    by_cases hn : String.ofList name = ""
    · rw [hn, hempty]
      exact .error _
    · have hfn : f (String.ofList name) ≠ "" := fun heq => hn (hf (heq.trans hempty.symm))
      rw [referenceEntry_named hn, referenceEntry_named hfn]
      exact .ok rfl
  case h_2 hother =>
    rcases referenceEntry_other hother with hroot | ⟨cause, herror⟩
    · rw [hroot]
      exact .ok rfl
    · rw [herror]
      exact .error cause

variable [Engine]

mutual

theorem agree_compileRule (definitions : NameMap String) (raw : Source.Rule) {t t' : Tables}
    (ht : Aligned move t t') :
    Agree (CopiedRule f move t t') (compileRule definitions raw t)
      (compileRule definitions (raw.rename f) t') := by
  have hid := ht.start
  rw [compileRule, compileRule, Source.Rule.rename]
  dsimp only
  cases raw.single with
  | some single =>
    refine Agree.bind_self fun p _ => Agree.bind_self fun captures _ => ?_
    exact .ok (copiedRule_span hid p.text _ captures)
  | none =>
    cases raw.opening with
    | some opening =>
      refine Agree.bind_self fun p _ => Agree.bind_self fun captures _ => ?_
      cases raw.closing with
      | none => exact .ok (copiedRule_span hid p.text _ captures)
      | some closing =>
        refine Agree.bind_self fun q _ => Agree.bind_self fun closingCaptures _ => ?_
        have hinside : Aligned move ((t.reserve.addPattern p.text).addPattern q.text)
            ((t'.reserve.addPattern p.text).addPattern q.text) := ht.reserve
        refine (agree_compileRules definitions raw.rules hinside).bind
          fun result result' _ hcopied => ?_
        obtain ⟨hentries, added, added', hcopies⟩ := hcopied
        obtain ⟨hopening, hclosing⟩ := hcopies.samePatterns
        exact .ok (hcopies.addPattern.addPattern.copiedRule
          (.region hid rfl hopening rfl hclosing rfl rfl rfl hentries))
    | none =>
      cases raw.included with
      | some included =>
        refine (agree_referenceEntry hf hempty move included).bind fun entry entry' _ hentry => ?_
        subst hentry
        exact .ok ((copies_refl _ _).copiedRule (.container hid rfl))
      | none =>
        simp only [Option.map_none, List.isEmpty_map]
        split
        · exact .ok ⟨rfl, rfl, _, _, copies_reserve t t'⟩
        · refine (agree_compileRules definitions raw.rules ht.reserve).bind
            fun result result' _ hcopied => ?_
          obtain ⟨hentries, added, added', hcopies⟩ := hcopied
          exact .ok (hcopies.copiedRule (.container hid hentries))
termination_by sizeOf raw
decreasing_by all_goals exact Source.Rule.sizeOf_rules_lt raw

theorem agree_compileRules (definitions : NameMap String) (raws : List Source.Rule)
    {t t' : Tables} (ht : Aligned move t t') :
    Agree (CopiedRules f move t t') (compileRules definitions raws t)
      (compileRules definitions (raws.map (Source.Rule.rename f)) t') := by
  cases raws with
  | nil =>
    rw [List.map_nil, compileRules, compileRules]
    exact .ok ⟨rfl, _, _, copies_refl t t'⟩
  | cons raw raws =>
    rw [List.map_cons, compileRules, compileRules]
    have hincluded : (raw.rename f).included = raw.included.map (Source.renameIncluded f) := by
      rw [Source.Rule.rename]
    rw [hincluded]
    cases raw.included with
    | some included =>
      refine (agree_referenceEntry hf hempty move included).bind fun entry entry' _ hentry => ?_
      refine (agree_compileRules definitions raws ht).bind fun result result' _ hcopied => ?_
      obtain ⟨hentries, hcopies⟩ := hcopied
      exact .ok ⟨by rw [hentry, hentries, List.map_cons], hcopies⟩
    | none =>
      refine (agree_compileRule definitions raw ht).bind fun result result' _ hcopied => ?_
      obtain ⟨hid, hid', added, added', hcopies⟩ := hcopied
      refine (agree_compileRules definitions raws (hcopies.aligned ht)).bind
        fun rest rest' _ hcopied => ?_
      obtain ⟨hentries, more, more', hmore⟩ := hcopied
      refine .ok ⟨?_, _, _, hcopies.trans hmore⟩
      have hmove : result'.1 = move result.1 := by
        rw [hid, hid']
        simpa using (ht 0).symm
      rw [hentries, List.map_cons, Entry.carry, hmove]
termination_by sizeOf raws

end

end ScopedText
