import ScopedText.Grammar.Compile
import ScopedText.Proofs.Outcome

/-!
# The rule table of a compiled grammar

A rule is given its number before its parts are compiled and takes its place in the table after
them, when the rules inside of it stand behind that place. `Tables.Adds` says what the table has
gained by then: rules behind those that were there, each of them sound, and numbers that each stand
once in a list of a new rule or with the caller. It is proved along the two functions that compile
rules and lists of rules, and holds of the tables of a grammar as a whole (`adds_ofSource`).
-/

namespace ScopedText

theorem getElem?_kept {texts texts' : Array String} (h : texts.toList <+: texts'.toList)
    {id : PatternId} {text : String} (htext : texts[id]? = some text) :
    texts'[id]? = some text := by
  obtain ⟨rest, hrest⟩ := h
  rw [← Array.getElem?_toList] at htext ⊢
  rw [← hrest, List.getElem?_append_left (List.getElem?_eq_some_iff.mp htext).1, htext]

namespace Tables

/-- The rule that takes the place that was reserved for it stands before what was added since. -/
theorem toList_setRule {t t₁ : Tables} {added : List Rule}
    (h : t₁.rules.toList = t.reserve.rules.toList ++ added) (rule : Rule) :
    (t₁.setRule t.rules.size rule).rules.toList = t.rules.toList ++ rule :: added := by
  simp only [reserve, Array.toList_push, List.append_assoc, List.singleton_append] at h
  simp [setRule, h]

theorem prefix_addPattern (t : Tables) (pattern : String) :
    t.patterns.toList <+: (t.addPattern pattern).patterns.toList := by
  simp [addPattern]

theorem getElem?_addPattern (t : Tables) (pattern : String) :
    (t.addPattern pattern).patterns[t.patterns.size]? = some pattern := by
  simp [addPattern]

end Tables

theorem length_captureTable {captures : Source.Captures} {p : Prepared} {table : CaptureTable}
    (h : captureTable captures p = .ok table) : table.length ≤ p.groups + 1 := by
  unfold captureTable at h
  split at h
  · cases h
    exact Nat.zero_le _
  · split at h
    · cases h
    · cases h
      simp only [List.length_map, List.length_range]
      omega

/-- The rule that an entry names by its number. -/
def Entry.rule? : Entry → Option RuleId
  | rule id => some id
  | reference _ => none

theorem rule?_of_referenceEntry {included : String} {entry : Entry}
    (h : referenceEntry included = .ok entry) : entry.rule? = none := by
  unfold referenceEntry at h
  split at h <;> cases h
  rfl

variable [Engine]

namespace Rule

/-- The rule has this number; a rule without any effect has none. -/
def Carries (id : RuleId) : Rule → Prop
  | span r => r.id = id
  | region r => r.id = id
  | container r => r.id = id
  | inert => True

def children (rule : Rule) : List RuleId := rule.entries.filterMap Entry.rule?

/-- The patterns of a rule, each with the table of its captures. -/
def patterns : Rule → List (PatternId × CaptureTable)
  | span r => [(r.pattern, r.captures)]
  | region r => [(r.opening, r.openingCaptures), (r.closing, r.closingCaptures)]
  | container _ | inert => []

end Rule

/-- The pattern with a number is there, and the table has no more entries than it has groups, the
whole match among them. -/
def Fits (texts : Array String) (id : PatternId) (captures : CaptureTable) : Prop :=
  ∃ text groups, texts[id]? = some text ∧ Pattern.countGroups text = .ok groups
    ∧ captures.length ≤ groups + 1

/-- A rule as it stands at its place, next to a table of patterns. -/
structure Rule.Sound (texts : Array String) (id : RuleId) (rule : Rule) : Prop where
  carries : rule.Carries id
  fits : ∀ p ∈ rule.patterns, Fits texts p.1 p.2
  template : ∀ r, rule = region r →
    texts[r.closing]?.map Pattern.Backreference.has = some r.closingIsTemplate
  below : ∀ child ∈ rule.children, id < child

namespace Rule

variable {texts : Array String}

theorem sound_span {id : RuleId} {r : SpanRule} (hid : r.id = id)
    (h : Fits texts r.pattern r.captures) : (span r).Sound texts id where
  carries := hid
  fits := by simpa [patterns] using h
  template other heq := by cases heq
  below child h := by cases h

theorem sound_region {id : RuleId} {r : Region} (hid : r.id = id)
    (hopening : Fits texts r.opening r.openingCaptures)
    (hclosing : Fits texts r.closing r.closingCaptures)
    (htemplate : texts[r.closing]?.map Pattern.Backreference.has = some r.closingIsTemplate)
    (hbelow : ∀ child ∈ r.entries.filterMap Entry.rule?, id < child) :
    (region r).Sound texts id where
  carries := hid
  fits := by simpa [patterns] using ⟨hopening, hclosing⟩
  template other heq := by cases heq; exact htemplate
  below := hbelow

theorem sound_container {id : RuleId} {r : Container} (hid : r.id = id)
    (hbelow : ∀ child ∈ r.entries.filterMap Entry.rule?, id < child) :
    (container r).Sound texts id where
  carries := hid
  fits p hp := by cases hp
  template other heq := by cases heq
  below := hbelow

theorem sound_inert (id : RuleId) : inert.Sound texts id where
  carries := trivial
  fits p hp := by cases hp
  template r h := by cases h
  below child h := by cases h

end Rule

def Numbered (rules : Array Rule) : Prop :=
  ∀ (id : RuleId) (rule : Rule), rules[id]? = some rule → rule.Carries id

theorem Fits.mono {texts texts' : Array String} (h : texts.toList <+: texts'.toList)
    {id : PatternId} {captures : CaptureTable} (hfits : Fits texts id captures) :
    Fits texts' id captures := by
  obtain ⟨text, groups, htext, hgroups, hle⟩ := hfits
  exact ⟨text, groups, getElem?_kept h htext, hgroups, hle⟩

theorem Rule.Sound.mono {texts texts' : Array String} (h : texts.toList <+: texts'.toList)
    {id : RuleId} {rule : Rule} (hsound : rule.Sound texts id) : rule.Sound texts' id where
  carries := hsound.carries
  fits p hp := (hsound.fits p hp).mono h
  template r hr := by
    obtain ⟨text, htext, hhas⟩ := Option.map_eq_some_iff.mp (hsound.template r hr)
    rw [getElem?_kept h htext, Option.map_some, hhas]
  below := hsound.below

namespace Tables

/-- What compiling adds to the tables: rules behind those that are there, whose numbers stand each
once in a list of an added rule or among those that are handed on. -/
structure Adds (t t' : Tables) (handed : List RuleId) (added : List Rule) : Prop where
  rules : t'.rules.toList = t.rules.toList ++ added
  texts : t.patterns.toList <+: t'.patterns.toList
  once : (handed ++ added.flatMap Rule.children).Perm (List.range' t.rules.size added.length)
  sound : ∀ (i : Nat) (rule : Rule), added[i]? = some rule →
    rule.Sound t'.patterns (t.rules.size + i)

variable {t t₁ t₂ : Tables} {handed handed₁ handed₂ : List RuleId} {added added₁ added₂ : List Rule}

theorem adds_refl (t : Tables) : Adds t t [] [] where
  rules := (List.append_nil _).symm
  texts := List.prefix_refl _
  once := .refl _
  sound i rule h := by cases h

theorem Adds.size (h : Adds t t₁ handed added) : t₁.rules.size = t.rules.size + added.length := by
  simpa using congrArg List.length h.rules

theorem Adds.trans (h₁ : Adds t t₁ handed₁ added₁) (h₂ : Adds t₁ t₂ handed₂ added₂) :
    Adds t t₂ (handed₁ ++ handed₂) (added₁ ++ added₂) where
  rules := by rw [h₂.rules, h₁.rules, List.append_assoc]
  texts := h₁.texts.trans h₂.texts
  once := by
    have h := h₁.once.append h₂.once
    -- the second range begins where the first one ends; the numbers only change their order
    rw [h₁.size, List.range'_append_1, ← List.length_append] at h
    refine List.Perm.trans (List.perm_iff_count.mpr fun id => ?_) h
    simp only [List.flatMap_append, List.count_append]
    omega
  sound i rule hrule := by
    by_cases hi : i < added₁.length
    · rw [List.getElem?_append_left hi] at hrule
      exact (h₁.sound i rule hrule).mono h₂.texts
    · rw [List.getElem?_append_right (Nat.not_lt.mp hi)] at hrule
      have hplace : t₁.rules.size + (i - added₁.length) = t.rules.size + i := by
        rw [h₁.size]
        omega
      exact hplace ▸ h₂.sound _ rule hrule

theorem Adds.addPattern {pattern : String} (h : Adds (t.addPattern pattern) t₁ handed added) :
    Adds t t₁ handed added := by
  refine { h with texts := List.IsPrefix.trans ?_ h.texts }
  simp [Tables.addPattern]

/-- A rule takes the place that was reserved for it. -/
theorem Adds.place {rule : Rule} (h : Adds t.reserve t₁ rule.children added)
    (hrule : rule.Sound t₁.patterns t.rules.size) :
    Adds t (t₁.setRule t.rules.size rule) [t.rules.size] (rule :: added) where
  rules := toList_setRule h.rules rule
  texts := h.texts
  once := by
    have honce := h.once
    simp only [reserve, Array.size_push] at honce
    exact honce.cons _
  sound i other hother := by
    cases i with
    | zero =>
      cases hother
      exact hrule
    | succ i =>
      have hsize : t.reserve.rules.size = t.rules.size + 1 := by simp [reserve]
      have hsound := h.sound i other hother
      rwa [hsize, Nat.add_assoc, Nat.add_comm 1 i] at hsound

theorem adds_reserve (t : Tables) : Adds t t.reserve [t.rules.size] [.inert] where
  rules := by simp [reserve]
  texts := List.prefix_refl _
  once := .refl _
  sound i rule h := by
    obtain ⟨_, rfl⟩ := List.getElem?_eq_some_iff.mp h
    simpa using Rule.sound_inert _

/-- The numbers that are handed on are those of added rules. -/
theorem Adds.lt_of_mem (h : Adds t.reserve t₁ handed added) {id : RuleId} (hid : id ∈ handed) :
    t.rules.size < id := by
  have hrange := h.once.subset (List.mem_append_left _ hid)
  have hle := (List.mem_range'_1.mp hrange).1
  simpa [reserve, Nat.succ_le_iff] using hle

end Tables

/-! ## The functions that compile rules -/

theorem groups_of_preparePattern {definitions : NameMap String} {raw : String} {p : Prepared}
    (h : preparePattern definitions raw = .ok p) : Pattern.countGroups p.text = .ok p.groups := by
  unfold preparePattern at h
  split at h
  · cases h
  · split at h
    · cases h
    · cases h
      assumption

open Tables

/-- A pattern that is added next keeps to the groups that were counted for it. -/
theorem fits_of_prepared {definitions : NameMap String} {raw : String} {p : Prepared}
    {captures : Source.Captures} {table : CaptureTable} (t : Tables)
    (hp : preparePattern definitions raw = .ok p) (htable : captureTable captures p = .ok table) :
    Fits (t.addPattern p.text).patterns t.patterns.size table :=
  ⟨p.text, p.groups, t.getElem?_addPattern p.text, groups_of_preparePattern hp,
    length_captureTable htable⟩

mutual

theorem adds_compileRule {definitions : NameMap String} {raw : Source.Rule} {t t' : Tables}
    {id : RuleId} (h : compileRule definitions raw t = .ok (id, t')) :
    ∃ added, Adds t t' [id] added := by
  rw [compileRule] at h
  dsimp only at h
  split at h
  case h_1 =>
    obtain ⟨p, hp, h⟩ := bind_eq_ok h
    obtain ⟨captures, hcaptures, h⟩ := bind_eq_ok h
    cases h
    have hfits := fits_of_prepared t.reserve hp hcaptures
    exact ⟨_, (adds_refl _).addPattern.place (Rule.sound_span rfl hfits)⟩
  case h_2 =>
    obtain ⟨p, hp, h⟩ := bind_eq_ok h
    obtain ⟨captures, hcaptures, h⟩ := bind_eq_ok h
    have hfits := fits_of_prepared t.reserve hp hcaptures
    split at h
    · cases h
      exact ⟨_, (adds_refl _).addPattern.place (Rule.sound_span rfl hfits)⟩
    · obtain ⟨p', hp', h⟩ := bind_eq_ok h
      obtain ⟨captures', hcaptures', h⟩ := bind_eq_ok h
      obtain ⟨⟨entries, t₁⟩, hentries, h⟩ := bind_eq_ok h
      cases h
      obtain ⟨added, hadds⟩ := adds_compileRules hentries
      have hfits' := fits_of_prepared (t.reserve.addPattern p.text) hp' hcaptures'
      have hadds' := hadds.addPattern.addPattern
      refine ⟨_, hadds'.place (Rule.sound_region rfl ?_ ?_ ?_ fun _ => hadds'.lt_of_mem)⟩
      · exact hfits.mono ((prefix_addPattern _ _).trans hadds.texts)
      · exact hfits'.mono hadds.texts
      · rw [getElem?_kept hadds.texts (getElem?_addPattern _ _), Option.map_some]
  case h_3 =>
    split at h
    · obtain ⟨entry, hentry, h⟩ := bind_eq_ok h
      cases h
      have hnone : [entry].filterMap Entry.rule? = [] := by
        simp [rule?_of_referenceEntry hentry]
      have hadds := adds_refl t.reserve
      rw [← hnone] at hadds
      exact ⟨_, hadds.place (Rule.sound_container rfl fun _ => hadds.lt_of_mem)⟩
    · split at h
      · cases h
        exact ⟨_, adds_reserve t⟩
      · obtain ⟨⟨entries, t₁⟩, hentries, h⟩ := bind_eq_ok h
        cases h
        obtain ⟨added, hadds⟩ := adds_compileRules hentries
        exact ⟨_, hadds.place (Rule.sound_container rfl fun _ => hadds.lt_of_mem)⟩
termination_by sizeOf raw
decreasing_by all_goals exact Source.Rule.sizeOf_rules_lt raw

theorem adds_compileRules {definitions : NameMap String} {raws : List Source.Rule}
    {t t' : Tables} {entries : List Entry}
    (h : compileRules definitions raws t = .ok (entries, t')) :
    ∃ added, Adds t t' (entries.filterMap Entry.rule?) added := by
  cases raws with
  | nil =>
    rw [compileRules] at h
    cases h
    exact ⟨_, adds_refl t⟩
  | cons raw raws =>
    rw [compileRules] at h
    split at h
    · obtain ⟨entry, hentry, h⟩ := bind_eq_ok h
      obtain ⟨⟨rest, t₁⟩, hrest, h⟩ := bind_eq_ok h
      cases h
      obtain ⟨added, hadds⟩ := adds_compileRules hrest
      refine ⟨added, ?_⟩
      rwa [List.filterMap_cons_none (rule?_of_referenceEntry hentry)]
    · obtain ⟨⟨id, t₁⟩, hrule, h⟩ := bind_eq_ok h
      obtain ⟨⟨rest, t₂⟩, hrest, h⟩ := bind_eq_ok h
      cases h
      obtain ⟨added₁, hadds₁⟩ := adds_compileRule hrule
      obtain ⟨added₂, hadds₂⟩ := adds_compileRules hrest
      exact ⟨_, hadds₁.trans hadds₂⟩
termination_by sizeOf raws

end

theorem adds_compileRepository {definitions : NameMap String}
    {raws : List (String × Source.Rule)} {t t' : Tables} {entries : List (String × RuleId)}
    (h : compileRepository definitions raws t = .ok (entries, t')) :
    ∃ added, Adds t t' (entries.map (·.2)) added := by
  induction raws generalizing t entries with
  | nil =>
    cases h
    exact ⟨_, adds_refl _⟩
  | cons entry raws ih =>
    obtain ⟨⟨id, t₁⟩, hrule, h⟩ := bind_eq_ok h
    obtain ⟨⟨rest, t₂⟩, hrest, h⟩ := bind_eq_ok h
    cases h
    obtain ⟨added₁, hadds₁⟩ := adds_compileRule hrule
    obtain ⟨added₂, hadds₂⟩ := ih hrest
    exact ⟨_, hadds₁.trans hadds₂⟩

namespace Grammar

variable {source : Source.Grammar} {g : Grammar}

/-- A compiled grammar has a container at its root and sound rules at all places, every number but
that of the root stands once, in a list or in the repository, and every reference has a target. -/
theorem adds_ofSource (h : ofSource source = .ok g) :
    ∃ (entries : List Entry) (rest : List Rule),
      Adds {} ⟨g.patterns, g.rules⟩ (rootRule :: g.repository.entries.map (·.2))
        (.container { id := rootRule, entries } :: rest) ∧ g.dangling? = none := by
  unfold ofSource at h
  dsimp only at h
  split at h
  case h_1 =>
    obtain ⟨definitions, _, h⟩ := bind_eq_ok h
    obtain ⟨⟨entries, t⟩, hrules, h⟩ := bind_eq_ok h
    obtain ⟨⟨repository, t'⟩, hrepository, h⟩ := bind_eq_ok h
    dsimp only at h
    split at h
    · cases h
    · cases h
      obtain ⟨added, hadds⟩ := adds_compileRules hrules
      obtain ⟨added', hadds'⟩ := adds_compileRepository hrepository
      have hroot := hadds.place
        (Rule.sound_container (r := ⟨rootRule, entries⟩) rfl fun _ => hadds.lt_of_mem)
      exact ⟨entries, _, hroot.trans hadds', by assumption⟩
  case h_2 => cases h

theorem sound_ofSource (h : ofSource source = .ok g) {id : RuleId} {rule : Rule}
    (hrule : g.rules[id]? = some rule) : rule.Sound g.patterns id := by
  obtain ⟨entries, rest, hadds, _⟩ := adds_ofSource h
  have hadded : g.rules.toList = .container { id := rootRule, entries } :: rest := hadds.rules
  rw [← Array.getElem?_toList, hadded] at hrule
  simpa using hadds.sound id rule hrule

/-- In a compiled grammar each rule stands at its number. -/
theorem numbered_ofSource (h : ofSource source = .ok g) : Numbered g.rules :=
  fun _ _ hrule => (sound_ofSource h hrule).carries

end Grammar

end ScopedText
