import ScopedText.Proofs.Layout
import ScopedText.Proofs.Session
import ScopedText.Proofs.Twins
import ScopedText.Proofs.WellFormed
import ScopedText.Regex.Search

/-!
# Names of repository entries

The names of the entries of a repository carry no meaning. With other names, the entries come in
another order and get other numbers, but a grammar compiles under both or under none, and scans
every text alike (`tokens_of_renamed`).

Each block of the one grammar has a counterpart in the other one, which is a copy of it
(`copies_of_spans`). Numbers at the same place of such blocks are twins (`Layout.Twin`), and by that
relation the grammars are twins (`Layout.twins_grammar`).
-/

namespace ScopedText

section

def Source.Grammar.rename (f : String → String) (source : Source.Grammar) : Source.Grammar :=
  { source with
    rules := source.rules.map (Rule.rename f)
    repository := .ofList (source.repository.entries.map fun entry =>
      (f entry.1, entry.2.rename f)) }

variable {f : String → String} {source : Source.Grammar}

theorem perm_rename (hf : Function.Injective f) (hnames : source.repository.names.Nodup) :
    (source.rename f).repository.entries.Perm
    (source.repository.entries.map fun entry => (f entry.1, entry.2.rename f)) := by
  refine NameMap.perm_ofList ?_
  rw [List.map_map]
  have := hnames.map hf
  simpa [NameMap.names, Function.comp_def] using this

theorem nodup_rename (f : String → String) (source : Source.Grammar) :
    (source.rename f).repository.names.Nodup := NameMap.nodup_names_ofList _

/-- The numbers from one place on, moved to those from another place on. -/
def shift (t t' : Tables) (id : RuleId) : RuleId := id - t.rules.size + t'.rules.size

theorem aligned_shift (t t' : Tables) : Tables.Aligned (shift t t') t t' := by
  intro i
  unfold shift
  rw [Nat.add_sub_cancel_left, Nat.add_comm]

/-! ## Copies of rules -/

theorem patternText_of_same {g g' : Grammar} {id id' : PatternId}
    (h : SamePattern g.patterns g'.patterns id id') : g'.patternText id' = g.patternText id := by
  obtain ⟨text, htext, htext'⟩ := h
  rw [Grammar.patternText, Grammar.patternText, htext, htext']

/-- A copy is a twin if its entries are. -/
theorem Rule.Copy.twins {g g' : Grammar} {twin : RuleId → RuleId → Prop} {move : RuleId → RuleId}
    {rule rule' : Rule} (h : rule.Copy f move g.patterns g'.patterns rule') {id : RuleId}
    (hid : rule.Carries id) (hself : twin id (move id))
    (hentries : ∀ e ∈ rule.entries, Entry.Twins g g' twin e (e.carry f move)) :
    Rule.Twins g g' twin (some rule) (some rule') := by
  have hlist : List.Forall₂ (Entry.Twins g g' twin) rule.entries
      (rule.entries.map (Entry.carry f move)) := by
    rw [List.forall₂_map_right_iff, List.forall₂_same]
    exact hentries
  cases h with
  | span id scope pattern captures => exact .span (patternText_of_same pattern) scope captures
  | @region r r' number scope opening openingCaptures closing template closingCaptures first
      entries =>
    have hnumber : twin r.id r'.id := by
      rw [number, show r.id = id from hid]
      exact hself
    exact .region ⟨hnumber, scope, patternText_of_same opening, openingCaptures,
      patternText_of_same closing, template, closingCaptures, first, entries ▸ hlist⟩
  | @container r r' number entries => exact .container (entries ▸ hlist)
  | inert => exact .inert

/-! ## Dangling references -/

namespace Grammar

variable {g g' : Grammar} {twin : RuleId → RuleId → Prop}

theorem Twins.resolved_iff (h : g.Twins g' twin) {id id' : RuleId} (hid : twin id id') :
    (∀ e ∈ g.entries id, (g.target? e).isSome = true)
      ↔ ∀ e ∈ g'.entries id', (g'.target? e).isSome = true := by
  have hentries := h.entries hid
  generalize g.entries id = entries at hentries ⊢
  generalize g'.entries id' = entries' at hentries ⊢
  induction hentries with
  | nil => simp
  | @cons e e' _ _ he _ ih =>
    have hsome : (g.target? e).isSome = (g'.target? e').isSome := by
      cases htarget : g.target? e with
      | none => rw [he.target_none htarget]
      | some id =>
        obtain ⟨id', htarget', _⟩ := he.target_some htarget
        rw [htarget']
        rfl
    rw [List.forall_mem_cons, List.forall_mem_cons, hsome]
    exact and_congr Iff.rfl ih

theorem Twins.lt_iff (h : g.Twins g' twin) {id id' : Nat} (hid : twin id id') :
    id < g.rules.size ↔ id' < g'.rules.size := by
  have hrule := h.rules hid
  rw [← not_iff_not, Nat.not_lt, Nat.not_lt, ← Array.getElem?_eq_none_iff,
    ← Array.getElem?_eq_none_iff]
  generalize g.rules[id]? = rule at hrule ⊢
  generalize g'.rules[id']? = rule' at hrule ⊢
  cases hrule <;> simp

section Total

variable (h : g.Twins g' twin) (hright : ∀ id' : Nat, id' < g'.rules.size → ∃ id, twin id id')

include h hright

/-- A grammar has no more rules than its rules have twins. -/
theorem Twins.size_le : g'.rules.size ≤ g.rules.size := by
  choose other hother using hright
  let original (id' : Fin g'.rules.size) : Fin g.rules.size :=
    ⟨other id' id'.isLt, (h.lt_iff (hother id' id'.isLt)).mpr id'.isLt⟩
  have horiginal : Function.Injective original := by
    intro a b hab
    have hvalue : other a a.isLt = other b b.isLt := congrArg Fin.val hab
    have hb := hother b b.isLt
    rw [← hvalue] at hb
    exact Fin.ext (h.unique.2 (hother a a.isLt) hb)
  simpa using Fintype.card_le_of_injective original horiginal

/-- References dangle in both of two twin grammars or in none. -/
theorem Twins.dangling_iff (hleft : ∀ id : Nat, id < g.rules.size → ∃ id', twin id id') :
    g.dangling? = none ↔ g'.dangling? = none := by
  rw [dangling?_eq_none_iff, dangling?_eq_none_iff]
  constructor
  · intro hall id' e he
    obtain ⟨_, hrule, _⟩ := mem_entries.mp he
    obtain ⟨id, hid⟩ := hright id' (Array.getElem?_eq_some_iff.mp hrule).1
    exact (h.resolved_iff hid).mp (hall id) e he
  · intro hall id e he
    obtain ⟨_, hrule, _⟩ := mem_entries.mp he
    obtain ⟨id', hid⟩ := hleft id (Array.getElem?_eq_some_iff.mp hrule).1
    exact (h.resolved_iff hid).mpr (hall id') e he

end Total

end Grammar

/-! ## Compiling under other names -/

variable [Engine]

section

variable (hf : Function.Injective f) (hempty : f "" = "") (hnames : source.repository.names.Nodup)

include hf hempty in
/-- A rule compiles under other names and at any place, or it never does. -/
theorem compiles_rename_iff {definitions : NameMap String} {raw : Source.Rule} (t t' : Tables) :
    (∃ result, compileRule definitions raw t = .ok result)
      ↔ ∃ result, compileRule definitions (raw.rename f) t' = .ok result :=
  (agree_compileRule hf hempty definitions raw (aligned_shift t t')).exists_ok_iff

theorem compiles_anywhere {definitions : NameMap String} {raw : Source.Rule} {t : Tables}
    (h : ∃ result, compileRule definitions raw t = .ok result) (t' : Tables) :
    ∃ result, compileRule definitions raw t' = .ok result := by
  have hrenamed := (compiles_rename_iff Function.injective_id rfl t t').mp h
  exact (compiles_rename_iff Function.injective_id rfl t' t').mpr hrenamed

def Source.Grammar.PartsCompile (source : Source.Grammar) : Prop :=
  ∃ definitions, Pattern.Variable.expandTable source.definitions = .ok definitions
    ∧ (∃ result, compileRules definitions source.rules ({} : Tables).reserve = .ok result)
    ∧ ∀ entry ∈ source.repository.entries, ∀ t,
      ∃ result, compileRule definitions entry.2 t = .ok result

theorem compileRepository_of_compiles {definitions : NameMap String}
    {raws : List (String × Source.Rule)}
    (h : ∀ entry ∈ raws, ∀ t, ∃ result, compileRule definitions entry.2 t = .ok result)
    (t : Tables) : ∃ result, compileRepository definitions raws t = .ok result := by
  induction raws generalizing t with
  | nil => exact ⟨_, rfl⟩
  | cons entry raws ih =>
    obtain ⟨⟨id, u⟩, hrule⟩ := h entry List.mem_cons_self t
    obtain ⟨rest, hrest⟩ := ih (fun other hother => h other (List.mem_cons_of_mem _ hother)) u
    simp only [compileRepository, hrule, bind, Except.bind, hrest]
    exact ⟨_, rfl⟩

/-- The entries of the repository can be compiled one behind the other if each of them can. -/
theorem nonempty_layout_iff : Nonempty (Layout source) ↔ source.PartsCompile := by
  constructor
  · rintro ⟨l⟩
    refine ⟨l.definitions, l.expanded, ⟨_, l.compiled⟩, fun entry hentry => ?_⟩
    rw [← l.sources] at hentry
    obtain ⟨b, hb, rfl⟩ := List.mem_map.mp hentry
    exact compiles_anywhere ⟨_, (l.laid.split hb).2.1⟩
  · rintro ⟨definitions, expanded, ⟨⟨entries, listed⟩, compiled⟩, hentries⟩
    obtain ⟨⟨ids, final⟩, hrepository⟩ := compileRepository_of_compiles hentries
      (listed.setRule rootRule (.container { id := rootRule, entries }))
    obtain ⟨blocks, laid, sources, _⟩ := compileRepository_eq_ok_iff.mp hrepository
    exact ⟨definitions, expanded, entries, listed, compiled, blocks, final, laid, sources⟩

include hf hempty hnames in
theorem partsCompile_rename : (source.rename f).PartsCompile ↔ source.PartsCompile := by
  have hentries (p : Source.Rule → Prop) :
      (∀ entry ∈ (source.rename f).repository.entries, p entry.2)
        ↔ ∀ entry ∈ source.repository.entries, p (entry.2.rename f) := by
    simp only [(perm_rename hf hnames).mem_iff, List.forall_mem_map]
  refine exists_congr fun definitions => and_congr Iff.rfl (and_congr ?_ ?_)
  · exact (agree_compileRules hf hempty definitions source.rules
      (aligned_shift ({} : Tables).reserve ({} : Tables).reserve)).exists_ok_iff.symm
  · rw [hentries fun raw => ∀ t, ∃ result, compileRule definitions raw t = .ok result]
    refine forall₂_congr fun entry _ => forall_congr' fun t => ?_
    exact (compiles_rename_iff hf hempty t t).symm

end

/-! ## Blocks and their counterparts -/

namespace Layout

/-- The numbers stand at the same place of a block and of its counterpart. -/
def Twin (f : String → String) (l : Layout source) (l' : Layout (source.rename f))
    (id id' : RuleId) : Prop :=
  ∃ (name? : Option String) (t u t' u' : Tables) (i : Nat),
    l.Spans name? t u ∧ l'.Spans (name?.map f) t' u'
    ∧ id = t.rules.size + i ∧ t.rules.size + i < u.rules.size
    ∧ id' = t'.rules.size + i ∧ t'.rules.size + i < u'.rules.size

variable {l : Layout source} {l' : Layout (source.rename f)} {name? : Option String}
  {t u t' u' : Tables}

section

variable (hf : Function.Injective f) (hempty : f "" = "") (hnames : source.repository.names.Nodup)

include hf hnames

/-- Every block has a counterpart. -/
theorem exists_counterpart (l' : Layout (source.rename f)) (h : l.Spans name? t u) :
    ∃ t' u', l'.Spans (name?.map f) t' u' := by
  cases h with
  | list => exact ⟨_, _, .list⟩
  | @entry b mem =>
    have hsource := l.mem_sources_iff.mpr ⟨b, mem, rfl⟩
    have hrenamed := (perm_rename hf hnames).mem_iff.mpr (List.mem_map_of_mem hsource)
    obtain ⟨b', mem', heq⟩ := l'.mem_sources_iff.mp hrenamed
    obtain ⟨hname, _⟩ := Prod.mk.inj heq
    rw [Option.map_some, ← hname]
    exact ⟨_, _, .entry mem'⟩

/-- Every block is a counterpart. -/
theorem exists_original {name'? : Option String} (l : Layout source)
    (h : l'.Spans name'? t' u') :
    ∃ name? t u, l.Spans name? t u ∧ name'? = name?.map f := by
  cases h with
  | list => exact ⟨none, _, _, .list, rfl⟩
  | @entry b' mem' =>
    have hrenamed := l'.mem_sources_iff.mpr ⟨b', mem', rfl⟩
    obtain ⟨entry, hsource, heq⟩ := List.mem_map.mp ((perm_rename hf hnames).mem_iff.mp hrenamed)
    obtain ⟨b, mem, rfl⟩ := l.mem_sources_iff.mp hsource
    obtain ⟨hname, _⟩ := Prod.mk.inj heq
    exact ⟨_, _, _, .entry mem, congrArg some hname.symm⟩

include hempty in
/-- A block and its counterpart are copies of each other. -/
theorem copies_of_spans (h : l.Spans name? t u) (h' : l'.Spans (name?.map f) t' u') :
    ∃ added added', Tables.Copies f (shift t t') t t' u u' added added' := by
  have hdefinitions : l.definitions = l'.definitions :=
    Except.ok.inj (l.expanded.symm.trans l'.expanded)
  cases h with
  | list =>
    cases h'
    have hagree := agree_compileRules hf hempty l.definitions source.rules
      (aligned_shift ({} : Tables) ({} : Tables)).reserve
    have hcompiled' : compileRules l.definitions (source.rules.map (Source.Rule.rename f))
        ({} : Tables).reserve = .ok (l'.entries, l'.listed) := hdefinitions ▸ l'.compiled
    rw [l.compiled, hcompiled'] at hagree
    cases hagree with
    | ok hcopied =>
      obtain ⟨hentries, added, added', hcopies⟩ := hcopied
      exact ⟨_, _, hcopies.place (.container rfl hentries)⟩
  | @entry b mem =>
    generalize hname : (some b.name).map f = name'? at h'
    cases h' with
    | list => cases hname
    | @entry b' mem' =>
      have hsource := l.mem_sources_iff.mpr ⟨b, mem, rfl⟩
      have hrenamed := (perm_rename hf hnames).mem_iff.mpr (List.mem_map_of_mem hsource)
      have hrenamed' := l'.mem_sources_iff.mpr ⟨b', mem', rfl⟩
      have hraw : b'.raw = b.raw.rename f := congrArg Prod.snd
        (List.inj_on_of_nodup_map (nodup_rename f source) hrenamed' hrenamed
          (Option.some.inj hname).symm)
      have hagree := agree_compileRule hf hempty l.definitions b.raw
        (aligned_shift b.before b'.before)
      have hcompiled' := (l'.laid.split mem').2.1
      rw [← hdefinitions, hraw] at hcompiled'
      rw [(l.laid.split mem).2.1, hcompiled'] at hagree
      cases hagree with
      | ok hcopied => exact hcopied.2.2

theorem twin_unique : Relator.BiUnique (Twin f l l') := by
  constructor
  · rintro id other id' ⟨name?, t, u, t', u', i, hspans, hspans', rfl, hlt, rfl, hlt'⟩
      ⟨_, v, w, v', w', j, hspans₁, hspans₁', rfl, _, hid', hlt₁'⟩
    obtain ⟨hname, rfl, rfl⟩ := hspans'.eq_of_mem hspans₁' (Nat.le_add_right _ _) hlt'
      (hid' ▸ Nat.le_add_right _ _) (hid' ▸ hlt₁')
    cases Option.map_injective hf hname
    obtain ⟨rfl, rfl⟩ := hspans.unique hnames hspans₁
    rw [Nat.add_left_cancel hid']
  · rintro id id' other ⟨name?, t, u, t', u', i, hspans, hspans', rfl, hlt, rfl, hlt'⟩
      ⟨_, v, w, v', w', j, hspans₁, hspans₁', hid, hlt₁, rfl, _⟩
    obtain ⟨rfl, rfl, rfl⟩ := hspans.eq_of_mem hspans₁ (Nat.le_add_right _ _) hlt
      (hid ▸ Nat.le_add_right _ _) (hid ▸ hlt₁)
    obtain ⟨rfl, rfl⟩ := hspans'.unique (nodup_rename f source) hspans₁'
    rw [Nat.add_left_cancel hid]

omit hf hnames in
/-- Where a block and its counterpart begin, there are twins. -/
theorem twin_start (h : l.Spans name? t u) (h' : l'.Spans (name?.map f) t' u') :
    Twin f l l' t.rules.size t'.rules.size :=
  ⟨name?, t, u, t', u', 0, h, h', rfl, h.lt, rfl, h'.lt⟩

/-- A reference leads to a twin under its other name, or still to nothing. -/
theorem rel_resolve (r : Reference) :
    Option.Rel (Twin f l l') (l.grammar.resolve r) (l'.grammar.resolve (r.rename f)) := by
  cases r with
  | root => exact .some (twin_start .list .list)
  | named name =>
    have hfind' (id' : RuleId) : l'.grammar.repository.find? (f name) = some id'
        ↔ ∃ t' u', l'.Spans (some (f name)) t' u' ∧ id' = t'.rules.size :=
      find?_eq_some_iff (nodup_rename f source)
    simp only [Grammar.resolve, Reference.rename]
    cases hfind : l.grammar.repository.find? name with
    | some id =>
      obtain ⟨t, u, hspans, rfl⟩ := (find?_eq_some_iff hnames).mp hfind
      obtain ⟨t', u', hspans'⟩ := exists_counterpart hf hnames l' hspans
      rw [(hfind' _).mpr ⟨t', u', hspans', rfl⟩]
      exact .some (twin_start hspans hspans')
    | none =>
      cases hother : l'.grammar.repository.find? (f name) with
      | none => exact .none
      | some id' =>
        obtain ⟨t', u', hspans', _⟩ := (hfind' _).mp hother
        obtain ⟨name?, t, u, hspans, hname⟩ := exists_original hf hnames l hspans'
        obtain ⟨original, rfl, heq⟩ := Option.map_eq_some_iff.mp hname.symm
        cases hf heq
        rw [(find?_eq_some_iff hnames).mpr ⟨t, u, hspans, rfl⟩] at hfind
        cases hfind

include hempty in
/-- What stands at twin numbers is the same up to numbers. -/
theorem twins_rule {id id' : RuleId} (h : Twin f l l' id id') :
    Rule.Twins l.grammar l'.grammar (Twin f l l') l.grammar.rules[id]? l'.grammar.rules[id']? := by
  obtain ⟨name?, t, u, t', u', i, hspans, hspans', rfl, hlt, rfl, hlt'⟩ := h
  obtain ⟨added, added', hcopies⟩ := copies_of_spans hf hempty hnames hspans hspans'
  have hsize := hcopies.size
  have hsize' := hcopies.size'
  have hlength := hcopies.copy.length_eq
  have hi : i < added.length := by omega
  have hi' : i < added'.length := by omega
  have twin_shift (j : Nat) (hj : t.rules.size + j < u.rules.size) :
      Twin f l l' (t.rules.size + j) (shift t t' (t.rules.size + j)) :=
    ⟨name?, t, u, t', u', j, hspans, hspans', rfl, hj, aligned_shift t t' j, by omega⟩
  obtain ⟨hrule, hcarries, hchildren⟩ :=
    hspans.rule hcopies.rules (List.getElem?_eq_getElem hi)
  obtain ⟨hrule', _⟩ := hspans'.rule hcopies.rules' (List.getElem?_eq_getElem hi')
  obtain ⟨_, _, hkept⟩ := hspans.kept
  obtain ⟨_, _, hkept'⟩ := hspans'.kept
  rw [hrule, hrule']
  have hcopy := (hcopies.copy.get hi hi').mono hkept.texts hkept'.texts
  refine Rule.Copy.twins hcopy hcarries (twin_shift i hlt) ?_
  intro e he
  cases e with
  | rule child =>
    have hchild : child ∈ added[i].children := List.mem_filterMap.mpr ⟨_, he, rfl⟩
    obtain ⟨hle, hin⟩ := hchildren child hchild
    obtain ⟨j, rfl⟩ := Nat.exists_eq_add_of_le hle
    exact .some (twin_shift j hin)
  | reference r => exact rel_resolve hf hnames r

include hempty in
theorem twins_grammar (l : Layout source) (l' : Layout (source.rename f)) :
    l.grammar.Twins l'.grammar (Twin f l l') where
  scope := rfl
  root := twin_start .list .list
  unique := twin_unique hf hnames
  rules := twins_rule hf hempty hnames

include hempty in
/-- A block and its counterpart hold equally many rules. -/
theorem lt_iff_of_spans (h : l.Spans name? t u) (h' : l'.Spans (name?.map f) t' u') (i : Nat) :
    t.rules.size + i < u.rules.size ↔ t'.rules.size + i < u'.rules.size := by
  obtain ⟨added, added', hcopies⟩ := copies_of_spans hf hempty hnames h h'
  have hsize := hcopies.size
  have hsize' := hcopies.size'
  omega

include hempty in
/-- Every number of the one grammar has a twin in the other one. -/
theorem exists_twin {id : Nat} (l' : Layout (source.rename f)) (hid : id < l.grammar.rules.size) :
    ∃ id', Twin f l l' id id' := by
  obtain ⟨name?, t, u, hspans, hle, hlt⟩ := l.exists_spans hid
  obtain ⟨t', u', hspans'⟩ := exists_counterpart hf hnames l' hspans
  obtain ⟨i, rfl⟩ := Nat.exists_eq_add_of_le hle
  have hlt' := (lt_iff_of_spans hf hempty hnames hspans hspans' i).mp hlt
  exact ⟨_, name?, t, u, t', u', i, hspans, hspans', rfl, hlt, rfl, hlt'⟩

include hempty in
theorem exists_twin_of {id' : Nat} (l : Layout source) (hid : id' < l'.grammar.rules.size) :
    ∃ id, Twin f l l' id id' := by
  obtain ⟨_, t', u', hspans', hle, hlt⟩ := l'.exists_spans hid
  obtain ⟨name?, t, u, hspans, rfl⟩ := exists_original hf hnames l hspans'
  obtain ⟨i, rfl⟩ := Nat.exists_eq_add_of_le hle
  have hlt' := (lt_iff_of_spans hf hempty hnames hspans hspans' i).mpr hlt
  exact ⟨_, name?, t, u, t', u', i, hspans, hspans', rfl, hlt', rfl, hlt⟩

end

end Layout

/-- The scans of twin grammars have the same answers, whatever their tokenizers have kept. -/
theorem run_twins [LawfulEngine] {g g' : Grammar} {twin : RuleId → RuleId → Prop}
    (h : g.Twins g' twin) (hmarks : ∀ {id id' : RuleId}, twin id id' → g'.marks id' = g.marks id)
    (t : Tokenizer g) (t' : Tokenizer g') (text : String) :
    t'.run (Tokenizer.tokenize text) = t.run (Tokenizer.tokenize text)
      ∧ t'.run (Tokenizer.tokenizeLines text) = t.run (Tokenizer.tokenizeLines text) := by
  have hstack : g.initialStack.Twins twin Eq g'.initialStack := ⟨h.scope, .nil⟩
  rw [Tokenizer.gives_tokenize, Tokenizer.gives_tokenize, Tokenizer.gives_tokenizeLines,
    Tokenizer.gives_tokenizeLines]
  refine ⟨?_, twins_scanLines h hmarks hstack _⟩
  have hscan := twins_scan h hmarks text hstack Eq.refl fun _ _ _ => alikeAt_eq _
  exact (Agree.eq (hscan.bind fun _ _ _ htwins => .ok htwins.1.symm)).symm

/-- **Names of repository entries carry no meaning.** Under other names a grammar compiles if it
does under its own, and it scans every text to the same tokens or the same error, as long as it has
too few rules for one of them to bear the number that marks closing matches. The repositories that
are read have each name once (`NameMap.nodup_names_ofList`). -/
theorem tokens_of_renamed [LawfulEngine] (f : String → String) (hf : Function.Injective f)
    (hempty : f "" = "") (source : Source.Grammar) (hnames : source.repository.names.Nodup) :
    ((∃ g, Grammar.ofSource source = .ok g)
      ↔ ∃ g, Grammar.ofSource (source.rename f) = .ok g) ∧
    ∀ g g', Grammar.ofSource source = .ok g → Grammar.ofSource (source.rename f) = .ok g' →
      g.rules.size ≤ closingMark → ∀ (t : Tokenizer g) (t' : Tokenizer g') (text : String),
        t'.run (Tokenizer.tokenize text) = t.run (Tokenizer.tokenize text)
        ∧ t'.run (Tokenizer.tokenizeLines text) = t.run (Tokenizer.tokenizeLines text) := by
  have hdangling (l : Layout source) (l' : Layout (source.rename f)) :
      l.grammar.dangling? = none ↔ l'.grammar.dangling? = none :=
    (Layout.twins_grammar hf hempty hnames l l').dangling_iff
      (fun _ => Layout.exists_twin_of hf hempty hnames l)
      (fun _ => Layout.exists_twin hf hempty hnames l')
  have hlayouts : Nonempty (Layout source) ↔ Nonempty (Layout (source.rename f)) := by
    rw [nonempty_layout_iff, nonempty_layout_iff, partsCompile_rename hf hempty hnames]
  refine ⟨⟨?_, ?_⟩, fun g g' hg hg' hsize t t' text => ?_⟩
  · rintro ⟨_, hg⟩
    obtain ⟨l, rfl, hnone⟩ := Layout.ofSource_eq_ok_iff.mp hg
    obtain ⟨l'⟩ := hlayouts.mp ⟨l⟩
    exact ⟨_, Layout.ofSource_eq_ok_iff.mpr ⟨l', rfl, (hdangling l l').mp hnone⟩⟩
  · rintro ⟨_, hg'⟩
    obtain ⟨l', rfl, hnone⟩ := Layout.ofSource_eq_ok_iff.mp hg'
    obtain ⟨l⟩ := hlayouts.mpr ⟨l'⟩
    exact ⟨_, Layout.ofSource_eq_ok_iff.mpr ⟨l, rfl, (hdangling l l').mpr hnone⟩⟩
  · obtain ⟨l, rfl, _⟩ := Layout.ofSource_eq_ok_iff.mp hg
    obtain ⟨l', rfl, _⟩ := Layout.ofSource_eq_ok_iff.mp hg'
    have htwins := Layout.twins_grammar hf hempty hnames l l'
    have hsize' := Nat.le_trans
      (htwins.size_le fun _ => Layout.exists_twin_of hf hempty hnames l) hsize
    refine run_twins htwins (fun _ => ?_) t t' text
    rw [Grammar.marks_eq_false hsize, Grammar.marks_eq_false hsize']

end

/-- Words in parentheses, which may stand in each other. -/
def parensSource : Source.Grammar where
  name := "t"
  scopeName := "source.t"
  rules := [{ included := some "#parens" }]
  repository := .ofList [
    ("parens", { name := some "p", opening := some "[(]", closing := some "[)]",
                 rules := [{ included := some "#word" }, { included := some "#parens" }] }),
    ("word", { name := some "w", single := some "x" })]

def parensGrammar : Grammar where
  name := "t"
  displayName := none
  description := none
  scopeName := "source.t"
  scope := ⟨["source", "t"]⟩
  fileTypes := []
  firstLine := none
  patterns := #["[(]", "[)]", "x"]
  rules := #[
    .container { id := 0, entries := [.reference (.named "parens")] },
    .region { id := 1, scope := some ⟨["p"]⟩, opening := 0, openingCaptures := [], closing := 1,
              closingIsTemplate := false, closingCaptures := [], closingFirst := false,
              entries := [.reference (.named "word"), .reference (.named "parens")] },
    .span { id := 2, scope := some ⟨["w"]⟩, pattern := 2, captures := [] }]
  repository := .ofList [("parens", 1), ("word", 2)]

def exchanged : String → String := Equiv.swap "parens" "word"

/-- With their names exchanged, the entries come in the other order, and the patterns too. The
tokens are the same. -/
theorem tokens_of_renamed_exchanged :
    Function.Injective exchanged ∧ exchanged "" = "" ∧ parensSource.repository.names.Nodup
      ∧ Grammar.ofSource parensSource = .ok parensGrammar
      ∧ ∃ g', Grammar.ofSource (parensSource.rename exchanged) = .ok g'
        ∧ g'.patterns = #["x", "[(]", "[)]"]
        ∧ ((Tokenizer.new g').run (Tokenizer.tokenize "(x)")).map
            (·.map fun token => (token.span.stop.offset.byteIdx, token.scopes))
          = .ok [(1, [⟨["source", "t"]⟩, ⟨["p"]⟩]),
              (2, [⟨["source", "t"]⟩, ⟨["p"]⟩, ⟨["w"]⟩]), (3, [⟨["source", "t"]⟩, ⟨["p"]⟩])] := by
  have hf : Function.Injective exchanged := (Equiv.swap "parens" "word").injective
  have hempty : exchanged "" = "" := Equiv.swap_apply_of_ne_of_ne (by decide) (by decide)
  have hnames : parensSource.repository.names.Nodup := NameMap.nodup_names_ofList _
  have hcompiled : Grammar.ofSource parensSource = .ok parensGrammar := by cbv
  have hpatterns : (Grammar.ofSource (parensSource.rename exchanged)).map (·.patterns)
      = .ok #["x", "[(]", "[)]"] := by cbv
  obtain ⟨hcompiles, htokens⟩ := tokens_of_renamed exchanged hf hempty parensSource hnames
  obtain ⟨g', hg'⟩ := hcompiles.mp ⟨_, hcompiled⟩
  rw [hg'] at hpatterns
  refine ⟨hf, hempty, hnames, hcompiled, g', hg', Except.ok.inj hpatterns, ?_⟩
  obtain ⟨htext, _⟩ := htokens _ g' hcompiled hg' (by decide) (.new _) (.new g') "(x)"
  rw [htext, Tokenizer.gives_tokenize]
  cbv

end ScopedText
