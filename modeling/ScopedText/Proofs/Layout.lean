import ScopedText.Proofs.NameTables
import ScopedText.Proofs.Relocation

/-!
# The layout of a compiled grammar

The rule table of a compiled grammar is a sequence of blocks: the list of the grammar with all that
stands in it, and then a block for each entry of the repository. A `Layout` is the tables at their
ends. A grammar compiles if there is one and no reference dangles (`ofSource_eq_ok_iff`).

Blocks are told apart by the names of their entries, and the first one by having none. Every number
lies in just one block (`Spans.eq_of_mem`, `Layout.exists_spans`), and the lists in a block lead
only to rules of the same block (`Spans.adds`).
-/

namespace ScopedText

variable [Engine]

/-- An entry of the repository, with the tables before and after it was compiled. -/
structure Block where
  name : String
  raw : Source.Rule
  before : Tables
  after : Tables

/-- The blocks follow each other from one table to another one. -/
inductive Laid (definitions : NameMap String) : Tables → List Block → Tables → Prop
  | nil (t : Tables) : Laid definitions t [] t
  | cons {b : Block} {blocks : List Block} {u : Tables}
      (compiled : compileRule definitions b.raw b.before = .ok (b.before.rules.size, b.after))
      (rest : Laid definitions b.after blocks u) : Laid definitions b.before (b :: blocks) u

variable {definitions : NameMap String} {t u : Tables}

theorem fst_compileRule {raw : Source.Rule} {number : RuleId}
    (h : compileRule definitions raw t = .ok (number, u)) : number = t.rules.size := by
  -- a rule that is compiled twice at the same place is a copy of itself
  have hstay : Tables.Aligned id t t := fun _ => rfl
  have hagree := agree_compileRule Function.injective_id rfl definitions raw hstay
  rw [h] at hagree
  generalize compileRule definitions (raw.rename id) t = result at hagree
  cases hagree with
  | ok hcopied => exact hcopied.1

theorem compileRepository_eq_ok_iff {raws : List (String × Source.Rule)}
    {ids : List (String × RuleId)} :
    compileRepository definitions raws t = .ok (ids, u)
      ↔ ∃ blocks, Laid definitions t blocks u ∧ blocks.map (fun b => (b.name, b.raw)) = raws
        ∧ blocks.map (fun b => (b.name, b.before.rules.size)) = ids := by
  induction raws generalizing t ids with
  | nil =>
    constructor
    · intro h
      cases h
      exact ⟨[], .nil _, rfl, rfl⟩
    · rintro ⟨blocks, hlaid, hraws, rfl⟩
      cases List.map_eq_nil_iff.mp hraws
      cases hlaid
      rfl
  | cons entry raws ih =>
    obtain ⟨name, raw⟩ := entry
    constructor
    · intro h
      obtain ⟨⟨id, v⟩, hrule, h⟩ := bind_eq_ok h
      obtain ⟨⟨ids, w⟩, hrest, h⟩ := bind_eq_ok h
      cases h
      obtain ⟨blocks, hlaid, rfl, rfl⟩ := ih.mp hrest
      cases fst_compileRule hrule
      exact ⟨_, Laid.cons (b := ⟨name, raw, t, v⟩) hrule hlaid, rfl, rfl⟩
    · rintro ⟨blocks, hlaid, hraws, rfl⟩
      cases hlaid with
      | nil => cases hraws
      | @cons b blocks _ compiled rest =>
        obtain ⟨hentry, htail⟩ := List.cons.inj hraws
        cases hentry
        have hrest := ih.mpr ⟨blocks, rest, htail, rfl⟩
        simp only [compileRepository, compiled, bind, Except.bind, hrest]
        rfl

namespace Laid

variable {blocks : List Block}

theorem adds (h : Laid definitions t blocks u) : ∃ handed added, Tables.Adds t u handed added := by
  induction h with
  | nil t => exact ⟨_, _, Tables.adds_refl t⟩
  | cons compiled _ ih =>
    obtain ⟨added, hadds⟩ := adds_compileRule compiled
    obtain ⟨handed, more, hmore⟩ := ih
    exact ⟨_, _, hadds.trans hmore⟩

/-- What comes before a block and behind it. -/
theorem split (h : Laid definitions t blocks u) {b : Block} (hb : b ∈ blocks) :
    (∃ front, Laid definitions t front b.before)
      ∧ compileRule definitions b.raw b.before = .ok (b.before.rules.size, b.after)
      ∧ ∃ back, Laid definitions b.after back u := by
  induction h with
  | nil => cases hb
  | cons compiled rest ih =>
    rcases List.mem_cons.mp hb with rfl | hb
    · exact ⟨⟨[], .nil _⟩, compiled, _, rest⟩
    · obtain ⟨⟨front, hfront⟩, hcompiled, hback⟩ := ih hb
      exact ⟨⟨_, .cons compiled hfront⟩, hcompiled, hback⟩

theorem size_le (h : Laid definitions t blocks u) : t.rules.size ≤ u.rules.size := by
  obtain ⟨handed, added, hadds⟩ := h.adds
  rw [hadds.size]
  exact Nat.le_add_right _ _

/-- A block ends before another one begins. -/
theorem apart (h : Laid definitions t blocks u) {b c : Block} (hb : b ∈ blocks) (hc : c ∈ blocks) :
    b = c ∨ b.after.rules.size ≤ c.before.rules.size
      ∨ c.after.rules.size ≤ b.before.rules.size := by
  induction h with
  | nil => cases hb
  | cons compiled rest ih =>
    rcases List.mem_cons.mp hb with hb' | hb' <;> rcases List.mem_cons.mp hc with hc' | hc'
    · exact .inl (hb'.trans hc'.symm)
    · obtain ⟨⟨front, hfront⟩, _⟩ := rest.split hc'
      exact .inr (.inl (hb' ▸ hfront.size_le))
    · obtain ⟨⟨front, hfront⟩, _⟩ := rest.split hb'
      exact .inr (.inr (hc' ▸ hfront.size_le))
    · exact ih hb' hc'

/-- Every new number lies in a block. -/
theorem exists_mem (h : Laid definitions t blocks u) {id : Nat} (hle : t.rules.size ≤ id)
    (hlt : id < u.rules.size) :
    ∃ b ∈ blocks, b.before.rules.size ≤ id ∧ id < b.after.rules.size := by
  induction h with
  | nil => exact absurd hlt (Nat.not_lt.mpr hle)
  | @cons b blocks u compiled rest ih =>
    by_cases hid : id < b.after.rules.size
    · exact ⟨b, List.mem_cons_self, hle, hid⟩
    · obtain ⟨c, hc, hin⟩ := ih (Nat.not_lt.mp hid) hlt
      exact ⟨c, List.mem_cons_of_mem _ hc, hin⟩

end Laid

/-- The tables of a grammar at the ends of its blocks, when all of its rules have been compiled. -/
structure Layout (source : Source.Grammar) where
  definitions : NameMap String
  expanded : Pattern.Variable.expandTable source.definitions = .ok definitions
  entries : List Entry
  /-- The tables behind the rules in the list of the grammar, which itself is not in its place. -/
  listed : Tables
  compiled : compileRules definitions source.rules ({} : Tables).reserve = .ok (entries, listed)
  blocks : List Block
  final : Tables
  laid : Laid definitions (listed.setRule rootRule (.container { id := rootRule, entries })) blocks
    final
  sources : blocks.map (fun b => (b.name, b.raw)) = source.repository.entries

namespace Layout

variable {source : Source.Grammar}

def first (l : Layout source) : Tables :=
  l.listed.setRule rootRule (.container { id := rootRule, entries := l.entries })

def grammar (l : Layout source) : Grammar where
  name := source.name
  displayName := source.displayName
  description := source.description
  scopeName := source.scopeName
  scope := Scope.ofString source.scopeName
  fileTypes := source.fileTypes
  firstLine := source.firstLine
  patterns := l.final.patterns
  rules := l.final.rules
  repository := ⟨l.blocks.map fun b => (b.name, b.before.rules.size)⟩

/-- A grammar compiles if all of its rules do and no reference dangles. -/
theorem ofSource_eq_ok_iff {g : Grammar} :
    Grammar.ofSource source = .ok g ↔ ∃ l : Layout source, l.grammar = g ∧ g.dangling? = none := by
  constructor
  · intro h
    unfold Grammar.ofSource at h
    dsimp only at h
    split at h
    case h_1 definitions expanded =>
      obtain ⟨_, hdefinitions, h⟩ := bind_eq_ok h
      cases hdefinitions
      obtain ⟨⟨entries, listed⟩, compiled, h⟩ := bind_eq_ok h
      obtain ⟨⟨ids, final⟩, hrepository, h⟩ := bind_eq_ok h
      obtain ⟨blocks, laid, sources, rfl⟩ := compileRepository_eq_ok_iff.mp hrepository
      dsimp only at h
      split at h
      · cases h
      · cases h
        exact ⟨⟨definitions, expanded, entries, listed, compiled, blocks, final, laid, sources⟩,
          rfl, by assumption⟩
    case h_2 => cases h
  · rintro ⟨l, rfl, hdangling⟩
    have hrepository := compileRepository_eq_ok_iff.mpr ⟨l.blocks, l.laid, l.sources, rfl⟩
    have hcompiled := l.compiled
    unfold Grammar.ofSource
    simp only [l.expanded, bind, Except.bind, pure, Except.pure]
    rw [hcompiled]
    simp only [hrepository]
    rw [grammar] at hdangling
    rw [hdangling]
    rfl

/-- The block of an entry of the repository, or of the list of the grammar, goes from one table to
another one. -/
inductive Spans (l : Layout source) : Option String → Tables → Tables → Prop
  | list : Spans l none {} l.first
  | entry {b : Block} (mem : b ∈ l.blocks) : Spans l (some b.name) b.before b.after

variable {l : Layout source} {name? name'? : Option String} {t' u' : Tables}

/-- The numbers in the lists of a block are those of rules in the block. -/
theorem Spans.adds (h : l.Spans name? t u) : ∃ added, Tables.Adds t u [t.rules.size] added := by
  cases h with
  | list =>
    obtain ⟨added, hadds⟩ := adds_compileRules l.compiled
    exact ⟨_, hadds.place
      (Rule.sound_container (r := ⟨rootRule, l.entries⟩) rfl fun _ => hadds.lt_of_mem)⟩
  | entry mem => exact adds_compileRule (l.laid.split mem).2.1

theorem Spans.lt (h : l.Spans name? t u) : t.rules.size < u.rules.size := by
  obtain ⟨added, hadds⟩ := h.adds
  have hlength := hadds.once.length_eq
  simp only [List.length_append, List.length_singleton, List.length_range'] at hlength
  rw [hadds.size]
  omega

/-- The tables at the end of a block are kept. -/
theorem Spans.kept (h : l.Spans name? t u) :
    ∃ handed added, Tables.Adds u l.final handed added := by
  cases h with
  | list => exact l.laid.adds
  | entry mem =>
    obtain ⟨_, _, back, hback⟩ := l.laid.split mem
    exact hback.adds

/-- A rule of a block is in its place, and its list leads only to rules of the block. -/
theorem Spans.rule (h : l.Spans name? t u) {added : List Rule}
    (hadded : u.rules.toList = t.rules.toList ++ added) {i : Nat} {rule : Rule}
    (hrule : added[i]? = some rule) :
    l.grammar.rules[t.rules.size + i]? = some rule ∧ rule.Carries (t.rules.size + i)
      ∧ ∀ child ∈ rule.children, t.rules.size ≤ child ∧ child < u.rules.size := by
  obtain ⟨added', hadds⟩ := h.adds
  obtain rfl : added = added' := List.append_cancel_left (hadded.symm.trans hadds.rules)
  obtain ⟨handed, more, hmore⟩ := h.kept
  refine ⟨?_, (hadds.sound i rule hrule).carries, fun child hchild => ?_⟩
  · have hi := (List.getElem?_eq_some_iff.mp hrule).1
    have hsize : t.rules.toList.length = t.rules.size := Array.length_toList
    rw [grammar, ← Array.getElem?_toList, hmore.rules, hadds.rules, List.append_assoc,
      List.getElem?_append_right (by omega), List.getElem?_append_left (by omega), hsize,
      Nat.add_sub_cancel_left, hrule]
  · have hlisted : child ∈ [t.rules.size] ++ added.flatMap Rule.children :=
      List.mem_append_right _ (List.mem_flatMap.mpr ⟨rule, List.mem_of_getElem? hrule, hchild⟩)
    rw [hadds.size]
    exact List.mem_range'_1.mp (hadds.once.subset hlisted)

/-- No number lies in two blocks. -/
theorem Spans.eq_of_mem (h : l.Spans name? t u) (h' : l.Spans name'? t' u') {id : Nat}
    (hle : t.rules.size ≤ id) (hlt : id < u.rules.size) (hle' : t'.rules.size ≤ id)
    (hlt' : id < u'.rules.size) : name? = name'? ∧ t = t' ∧ u = u' := by
  have behind {b : Block} (hb : b ∈ l.blocks) : l.first.rules.size ≤ b.before.rules.size := by
    obtain ⟨⟨front, hfront⟩, _⟩ := l.laid.split hb
    exact hfront.size_le
  cases h with
  | list =>
    cases h' with
    | list => exact ⟨rfl, rfl, rfl⟩
    | entry mem =>
      have := behind mem
      omega
  | @entry b mem =>
    cases h' with
    | list =>
      have := behind mem
      omega
    | @entry c mem' =>
      rcases l.laid.apart mem mem' with rfl | hbefore | hbehind
      · exact ⟨rfl, rfl, rfl⟩
      · omega
      · omega

/-- Every number lies in a block. -/
theorem exists_spans (l : Layout source) {id : Nat} (hid : id < l.grammar.rules.size) :
    ∃ name? t u, l.Spans name? t u ∧ t.rules.size ≤ id ∧ id < u.rules.size := by
  by_cases hfirst : id < l.first.rules.size
  · exact ⟨_, _, _, .list, Nat.zero_le _, hfirst⟩
  · obtain ⟨b, hb, hin⟩ := l.laid.exists_mem (Nat.not_lt.mp hfirst) hid
    exact ⟨_, _, _, .entry hb, hin⟩

/-- Every entry of the repository has a block. -/
theorem mem_sources_iff (l : Layout source) {entry : String × Source.Rule} :
    entry ∈ source.repository.entries ↔ ∃ b ∈ l.blocks, (b.name, b.raw) = entry := by
  rw [← l.sources, List.mem_map]

theorem names_blocks (l : Layout source) :
    l.blocks.map (·.name) = source.repository.names := by
  rw [NameMap.names, ← l.sources, List.map_map]
  rfl

section

variable (hnames : source.repository.names.Nodup)

include hnames

/-- No name has two blocks. -/
theorem Spans.unique (h : l.Spans name? t u) (h' : l.Spans name? t' u') : t = t' ∧ u = u' := by
  cases h with
  | list =>
    cases h'
    exact ⟨rfl, rfl⟩
  | @entry b mem =>
    generalize hname : some b.name = name? at h'
    cases h' with
    | list => cases hname
    | @entry c mem' =>
      rw [← l.names_blocks] at hnames
      cases List.inj_on_of_nodup_map hnames mem mem' (Option.some.inj hname)
      exact ⟨rfl, rfl⟩

/-- The number of an entry of the repository is where its block begins. -/
theorem find?_eq_some_iff {name : String} {id : RuleId} :
    l.grammar.repository.find? name = some id
      ↔ ∃ t u, l.Spans (some name) t u ∧ id = t.rules.size := by
  have hnodup : l.grammar.repository.names.Nodup := by
    rw [← l.names_blocks] at hnames
    simpa [grammar, NameMap.names, Function.comp_def] using hnames
  rw [NameMap.find?_eq_some_iff hnodup]
  constructor
  · intro hmem
    obtain ⟨b, hb, heq⟩ := List.mem_map.mp hmem
    cases heq
    exact ⟨_, _, .entry hb, rfl⟩
  · rintro ⟨t, u, hspans, rfl⟩
    cases hspans with
    | entry mem => exact List.mem_map.mpr ⟨_, mem, rfl⟩

end

end Layout

end ScopedText
