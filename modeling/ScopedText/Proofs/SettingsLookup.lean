import ScopedText.Proofs.Bindings
import ScopedText.Proofs.ByteOrder

/-!
# The settings for a scope

A registry stores the entries of its settings files in the order in which they were added, those of
one file in the byte order of their selectors; a file with a pattern that cannot be used adds none
(`Registry.forall₂_record`). For a scope, the entries count whose selectors are its ancestors. The
settings are those of the longest such selector, and of the last entry that has it
(`Registry.settingsFor_of_record`).

Looking for the best of several entries from left to right, an entry takes the place of the one
found before it unless its selector is shorter (`choose?_concat`). That is enough to know where the
winner stands among its rivals (`choose?_eq_some_iff`).
-/

namespace ScopedText

/-! ## Outcomes of lists -/

theorem toBool_eq_true_iff {ε α : Type} {x : Except ε α} :
    x.toBool = true ↔ ∃ a, x = .ok a := by
  cases x <;> simp [Except.toBool]

theorem exists_bind_iff {ε α β : Type} {x : Except ε α} {f : α → Except ε β} :
    (∃ b, x >>= f = .ok b) ↔ ∃ a, x = .ok a ∧ ∃ b, f a = .ok b := by
  cases x <;> simp [bind, Except.bind]

theorem mapM_eq_ok_iff {ε α β : Type} {f : α → Except ε β} {xs : List α} {ys : List β} :
    xs.mapM f = .ok ys ↔ List.Forall₂ (fun x y => f x = .ok y) xs ys := by
  induction xs generalizing ys with
  | nil => cases ys <;> simp [pure, Except.pure]
  | cons x xs ih =>
    rw [List.mapM_cons, List.forall₂_cons_left_iff]
    simp only [← ih]
    constructor
    · intro h
      obtain ⟨y, hy, h⟩ := bind_eq_ok h
      obtain ⟨rest, hrest, h⟩ := bind_eq_ok h
      cases h
      exact ⟨y, rest, hy, hrest, rfl⟩
    · rintro ⟨y, rest, hy, hrest, rfl⟩
      rw [hy, hrest]
      rfl

/-! ## Lists of related things -/

section

variable {α β : Type} {R : α → β → Prop} {xs : List α} {ys : List β}

theorem exists_forall₂_iff : (∃ ys, List.Forall₂ R xs ys) ↔ ∀ x ∈ xs, ∃ y, R x y := by
  induction xs with
  | nil => simp
  | cons x xs ih =>
    rw [List.forall_mem_cons, ← ih]
    constructor
    · rintro ⟨_, hxy⟩
      obtain ⟨y, ys, hy, hys, rfl⟩ := List.forall₂_cons_left_iff.mp hxy
      exact ⟨⟨y, hy⟩, ys, hys⟩
    · rintro ⟨⟨y, hy⟩, ys, hys⟩
      exact ⟨y :: ys, .cons hy hys⟩

/-- What is said of related things can be said of all in one list or of all in the other one. -/
theorem forall_iff_of_forall₂ {P : α → Prop} {Q : β → Prop} (h : List.Forall₂ R xs ys)
    (hPQ : ∀ x y, R x y → (P x ↔ Q y)) : (∀ x ∈ xs, P x) ↔ ∀ y ∈ ys, Q y := by
  induction h with
  | nil => simp
  | cons hxy _ ih => rw [List.forall_mem_cons, List.forall_mem_cons, hPQ _ _ hxy, ih]

/-- A place in one list is a place in the other one. -/
theorem exists_split_of_forall₂ {before after : List β} {y : β}
    (h : List.Forall₂ R xs (before ++ y :: after)) :
    ∃ front x back, xs = front ++ x :: back
      ∧ List.Forall₂ R front before ∧ R x y ∧ List.Forall₂ R back after := by
  have hfront := List.forall₂_take_append _ _ _ h
  obtain ⟨x, back, hx, hback, hrest⟩ :=
    List.forall₂_cons_right_iff.mp (List.forall₂_drop_append _ _ _ h)
  exact ⟨_, x, back, by rw [← hrest, List.take_append_drop], hfront, hx, hback⟩

end

variable [Engine]

namespace Settings

/-! ## The best of several entries -/

section

variable {settings before after : List Settings} {scope : Scope} {s : Settings}

/-- How one more entry at the end changes the choice. -/
theorem choose?_concat (settings : List Settings) (s : Settings) (scope : Scope) :
    choose? (settings ++ [s]) scope =
      if s.appliesTo scope then
        match choose? settings scope with
        | none => some s
        | some b => if s.selector.length < b.selector.length then some b else some s
      else choose? settings scope := by
  unfold choose?
  rw [List.filter_append, List.foldl_append]
  by_cases h : s.appliesTo scope
  · rw [if_pos h, List.filter_cons, if_pos h]
    rfl
  · rw [if_neg h, List.filter_cons, if_neg h]
    rfl

theorem mem_of_choose? (h : choose? settings scope = some s) :
    s ∈ settings ∧ s.appliesTo scope = true := by
  induction settings using List.reverseRecOn with
  | nil => cases h
  | append_singleton settings t ih =>
    rw [choose?_concat] at h
    rw [List.mem_append, List.mem_singleton]
    split at h
    case isFalse => exact (ih h).imp_left .inl
    case isTrue happlies =>
      split at h
      · cases h
        exact ⟨.inr rfl, happlies⟩
      · rename_i b hchosen
        split at h
        · cases h
          exact (ih hchosen).imp_left .inl
        · cases h
          exact ⟨.inr rfl, happlies⟩

/-- An entry is chosen if no entry before it has a longer selector, and each one behind it that
applies has a shorter one. -/
theorem choose?_append_cons (happlies : s.appliesTo scope = true)
    (hbefore : ∀ t ∈ before, t.appliesTo scope = true → t.selector.length ≤ s.selector.length)
    (hafter : ∀ t ∈ after, t.appliesTo scope = true → t.selector.length < s.selector.length) :
    choose? (before ++ s :: after) scope = some s := by
  induction after using List.reverseRecOn with
  | nil =>
    rw [choose?_concat, if_pos happlies]
    split
    · rfl
    · rename_i b hchosen
      obtain ⟨hmem, hb⟩ := mem_of_choose? hchosen
      rw [if_neg (Nat.not_lt.mpr (hbefore b hmem hb))]
  | append_singleton after t ih =>
    have hchosen := ih fun u hu => hafter u (List.mem_append_left _ hu)
    rw [← List.cons_append, ← List.append_assoc, choose?_concat, hchosen]
    split
    case isFalse => rfl
    case isTrue ht => exact if_pos (hafter t (List.mem_append_right _ List.mem_cons_self) ht)

/-- If an entry applies, there is one in such a place. -/
theorem exists_place (h : ∃ s ∈ settings, s.appliesTo scope = true) :
    ∃ before s after, settings = before ++ s :: after ∧ s.appliesTo scope = true
      ∧ (∀ t ∈ before, t.appliesTo scope = true → t.selector.length ≤ s.selector.length)
      ∧ ∀ t ∈ after, t.appliesTo scope = true → t.selector.length < s.selector.length := by
  induction settings with
  | nil => simp at h
  | cons t settings ih =>
    by_cases hrest : ∃ s ∈ settings, s.appliesTo scope = true
    · obtain ⟨before, s, after, rfl, happlies, hbefore, hafter⟩ := ih hrest
      by_cases ht : t.appliesTo scope = true ∧ s.selector.length < t.selector.length
      · refine ⟨[], t, before ++ s :: after, rfl, ht.1, by simp, fun u hu happ => ?_⟩
        refine Nat.lt_of_le_of_lt ?_ ht.2
        rcases List.mem_append.mp hu with hu | hu
        · exact hbefore u hu happ
        · rcases List.mem_cons.mp hu with rfl | hu
          · exact Nat.le_refl _
          · exact Nat.le_of_lt (hafter u hu happ)
      · have hfirst : t.appliesTo scope = true → t.selector.length ≤ s.selector.length :=
          fun happ => Nat.not_lt.mp fun hlt => ht ⟨happ, hlt⟩
        exact ⟨t :: before, s, after, rfl, happlies, List.forall_mem_cons.mpr ⟨hfirst, hbefore⟩,
          hafter⟩
    · obtain ⟨s, hs, happlies⟩ := h
      rcases List.mem_cons.mp hs with rfl | hs
      · exact ⟨[], s, settings, rfl, happlies, by simp,
          fun u hu happ => absurd ⟨u, hu, happ⟩ hrest⟩
      · exact absurd ⟨s, hs, happlies⟩ hrest

/-- The chosen entry applies. No entry that applies has a longer selector, and none behind it has
one that is as long. -/
theorem choose?_eq_some_iff : choose? settings scope = some s ↔
    ∃ before after, settings = before ++ s :: after ∧ s.appliesTo scope = true
      ∧ (∀ t ∈ before, t.appliesTo scope = true → t.selector.length ≤ s.selector.length)
      ∧ ∀ t ∈ after, t.appliesTo scope = true → t.selector.length < s.selector.length := by
  constructor
  · intro h
    obtain ⟨before, s', after, rfl, happlies, hbefore, hafter⟩ :=
      exists_place ⟨s, mem_of_choose? h⟩
    rw [choose?_append_cons happlies hbefore hafter] at h
    cases h
    exact ⟨before, after, rfl, happlies, hbefore, hafter⟩
  · rintro ⟨before, after, rfl, happlies, hbefore, hafter⟩
    exact choose?_append_cons happlies hbefore hafter

theorem choose?_eq_none_iff :
    choose? settings scope = none ↔ ∀ s ∈ settings, ¬s.appliesTo scope = true := by
  constructor
  · intro h s hs happlies
    obtain ⟨before, s', after, rfl, happlies', hbefore, hafter⟩ := exists_place ⟨s, hs, happlies⟩
    rw [choose?_append_cons happlies' hbefore hafter] at h
    cases h
  · intro h
    cases hchosen : choose? settings scope with
    | none => rfl
    | some s =>
      obtain ⟨hs, happlies⟩ := mem_of_choose? hchosen
      exact absurd happlies (h s hs)

end

/-! ## The entries of a file -/

/-- The settings that an entry, which is a selector with its source, compiles to. -/
def Compiled (entry : String × Source.EditorSettings) (s : Settings) : Prop :=
  ofEntry entry.1 entry.2 = .ok s

theorem selector_of_compiled {entry : String × Source.EditorSettings} {s : Settings}
    (h : Compiled entry s) : s.selector = selectorScope entry.1 := by
  unfold Compiled ofEntry at h
  obtain ⟨increase, _, h⟩ := bind_eq_ok h
  obtain ⟨decrease, _, h⟩ := bind_eq_ok h
  rw [← Except.ok.inj h]

/-- The scope of a selector is the scope that is asked for, or an ancestor of it. -/
def Covers (selector scope : String) : Prop :=
  (selectorScope selector).atoms <+: Scope.atomsOf scope

omit [Engine] in
/-- Two selectors of the same length that cover a scope are the same. -/
theorem selectorScope_eq_of_length {selector other scope : String} (h : Covers selector scope)
    (h' : Covers other scope)
    (hlength : (selectorScope selector).length = (selectorScope other).length) :
    selectorScope selector = selectorScope other :=
  Scope.eq_of_atoms
    ((List.prefix_of_prefix_length_le h h' (Nat.le_of_eq hlength)).eq_of_length hlength)

theorem appliesTo_iff_of_compiled {entry : String × Source.EditorSettings} {s : Settings}
    (h : Compiled entry s) (scope : String) :
    s.appliesTo (Scope.ofString scope) = true ↔ Covers entry.1 scope := by
  rw [appliesTo, Scope.isPrefixOf, selector_of_compiled h]
  exact List.isPrefixOf_iff_prefix

end Settings

namespace Source

def EditorSettings.patterns (source : EditorSettings) : List String :=
  source.increaseIndent.toList ++ source.decreaseIndent.toList

def EditorSettings.accepted (source : EditorSettings) : Bool :=
  source.patterns.all fun raw => (preparePattern {} raw).toBool

omit [Engine] in
theorem Settings.sorted_of_ofJson {json : String} {source : Settings}
    (h : Settings.ofJson json = .ok source) : source.Sorted := by
  unfold Settings.ofJson Json.decode at h
  obtain ⟨read, hread, h⟩ := bind_eq_ok h
  split at h
  · cases h
  · obtain rfl : read = source := Except.ok.inj h
    unfold Json.readMap at hread
    split at hread
    · cases hread
    · obtain ⟨entries, _, hread⟩ := bind_eq_ok hread
      rw [← Except.ok.inj hread]
      exact NameMap.sorted_ofList entries
    · obtain ⟨_, _, hread⟩ := bind_eq_ok hread
      cases hread

/-- The entries that a file adds: all, or none if a pattern cannot be used or it cannot be read. -/
def Settings.added (json : String) : List (String × EditorSettings) :=
  match Settings.ofJson json with
  | .ok source => if source.entries.all (·.2.accepted) then source.entries else []
  | .error _ => []

end Source

namespace Settings

theorem exists_compileHint_iff {hint : Option String} : (∃ p, compileHint hint = .ok p)
    ↔ hint.toList.all (fun raw => (preparePattern {} raw).toBool) = true := by
  cases hint with
  | none => simp [compileHint]
  | some raw =>
    rw [Option.toList_some, List.all_cons, List.all_nil, Bool.and_true, toBool_eq_true_iff,
      compileHint, exists_bind_iff]
    simp [pure, Except.pure]

/-- An entry compiles if its patterns can be used. -/
theorem exists_compiled_iff {entry : String × Source.EditorSettings} :
    (∃ s, Compiled entry s) ↔ entry.2.accepted = true := by
  unfold Compiled ofEntry
  rw [exists_bind_iff, Source.EditorSettings.accepted, Source.EditorSettings.patterns,
    List.all_append, Bool.and_eq_true, ← exists_compileHint_iff, ← exists_compileHint_iff]
  simp only [exists_bind_iff]
  simp [pure, Except.pure]

/-- A source compiles if all its entries do, each by itself. -/
theorem ofSource_eq_ok_iff {source : Source.Settings} {settings : List Settings} :
    ofSource source = .ok settings ↔ List.Forall₂ Compiled source.entries settings :=
  mapM_eq_ok_iff (f := fun entry : String × Source.EditorSettings => ofEntry entry.1 entry.2)

end Settings

namespace Registry

def Addition.entries : Addition → List (String × Source.EditorSettings)
  | settings json | settingsFile (some json) => Source.Settings.added json
  | settingsFile none | source _ | grammar _ | grammarFile _ | otherName _ _ => []

/-! ## What calls store -/

/-- Some settings are put behind those that are there, one for each of the entries. -/
def Stores (r after : Registry) (entries : List (String × Source.EditorSettings)) : Prop :=
  ∃ added, List.Forall₂ Settings.Compiled entries added ∧ after.settings = r.settings ++ added

section

variable {r after last : Registry} {entries more : List (String × Source.EditorSettings)}

theorem Stores.none (h : after.settings = r.settings) : Stores r after [] :=
  ⟨[], .nil, by rw [h, List.append_nil]⟩

theorem Stores.trans (h : Stores r after entries) (h' : Stores after last more) :
    Stores r last (entries ++ more) := by
  obtain ⟨added, hadded, hafter⟩ := h
  obtain ⟨added', hadded', hlast⟩ := h'
  exact ⟨added ++ added', List.rel_append hadded hadded', by
    rw [hlast, hafter, List.append_assoc]⟩

theorem settings_adding (r : Registry) (compiled : Except Error Grammar) :
    (r.adding compiled (compiled.map r.insert)).2.settings = r.settings := by
  cases compiled with
  | error cause => rfl
  | ok g =>
    change (r.insert g).2.settings = r.settings
    unfold insert
    split <;> rfl

/-- A file is added as a whole or not at all. -/
theorem stores_addSettings (r : Registry) (json : String) :
    Stores r (r.settling (r.addSettings json)).2 (Source.Settings.added json) := by
  unfold addSettings Source.Settings.added
  cases Source.Settings.ofJson json with
  | error fault => exact .none rfl
  | ok source =>
    have haccepted : source.entries.all (·.2.accepted) = true
        ↔ ∃ settings, Settings.ofSource source = .ok settings := by
      simp only [List.all_eq_true, ← Settings.exists_compiled_iff, Settings.ofSource_eq_ok_iff,
        exists_forall₂_iff]
    dsimp only [addSettingsSource]
    cases hcompiled : Settings.ofSource source with
    | error cause =>
      rw [if_neg (by simp [haccepted, hcompiled])]
      exact .none rfl
    | ok settings =>
      rw [if_pos (haccepted.mpr ⟨settings, hcompiled⟩)]
      exact ⟨settings, Settings.ofSource_eq_ok_iff.mp hcompiled, rfl⟩

theorem stores_perform (r : Registry) (call : Addition) :
    Stores r (r.perform call).2 call.entries := by
  cases call with
  | source source =>
    rw [perform, addSource_eq]
    exact .none (r.settings_adding _)
  | grammar json =>
    rw [perform, addGrammar_eq]
    exact .none (r.settings_adding _)
  | grammarFile contents =>
    cases contents with
    | none => exact .none rfl
    | some json =>
      rw [perform, addGrammarFile, addGrammar_eq]
      exact .none (r.settings_adding _)
  | settings json => exact r.stores_addSettings json
  | settingsFile contents =>
    cases contents with
    | none => exact .none rfl
    | some json => exact r.stores_addSettings json
  | otherName name other =>
    refine .none ?_
    rw [perform, addAlias]
    cases r.find? name <;> rfl

theorem stores_recordFrom (log : List Event) (r : Registry) (calls : List Addition) :
    Stores r (recordFrom log r calls).2 (calls.flatMap Addition.entries) := by
  induction calls generalizing log r with
  | nil => exact .none rfl
  | cons call calls ih =>
    rw [List.flatMap_cons]
    exact (r.stores_perform call).trans (ih _ _)

/-- A registry holds the settings that the entries of all calls compile to, in the same order. -/
theorem forall₂_record (calls : List Addition) :
    List.Forall₂ Settings.Compiled (calls.flatMap Addition.entries) (record calls).2.settings := by
  obtain ⟨added, hadded, hsettings⟩ := stores_recordFrom [] {} calls
  rw [record, hsettings]
  exact hadded

end

/-! ## What is found -/

/-- The entries of one call are in the byte order of their selectors. -/
theorem pairwise_bytes_entries (call : Addition) :
    call.entries.Pairwise fun entry entry' => Text.bytes entry.1 < Text.bytes entry'.1 := by
  have hfile (json : String) : (Source.Settings.added json).Pairwise
      fun entry entry' => Text.bytes entry.1 < Text.bytes entry'.1 := by
    unfold Source.Settings.added
    split
    case h_2 => exact .nil
    case h_1 source hread =>
      split
      case isFalse => exact .nil
      case isTrue =>
        exact (List.pairwise_map.mp (Source.Settings.sorted_of_ofJson hread)).imp
          fun hlt => (Text.lt_iff_bytes_lt _ _).mp hlt
  cases call with
  | settings json => exact hfile json
  | settingsFile contents =>
    cases contents with
    | none => exact .nil
    | some json => exact hfile json
  | source | grammar | grammarFile | otherName => exact .nil

section

variable {stored : List (String × Source.EditorSettings)} {settings : List Settings}
  {scope : String}

theorem choose?_eq_none_iff_of_compiled (h : List.Forall₂ Settings.Compiled stored settings) :
    Settings.choose? settings (Scope.ofString scope) = none
      ↔ ∀ entry ∈ stored, ¬Settings.Covers entry.1 scope := by
  rw [Settings.choose?_eq_none_iff]
  exact (forall_iff_of_forall₂ h fun entry s hs =>
    not_congr (Settings.appliesTo_iff_of_compiled hs scope).symm).symm

theorem choose?_eq_some_iff_of_compiled (h : List.Forall₂ Settings.Compiled stored settings)
    {s : Settings} : Settings.choose? settings (Scope.ofString scope) = some s ↔
      ∃ before entry after, stored = before ++ entry :: after ∧ Settings.Compiled entry s
        ∧ Settings.Covers entry.1 scope
        ∧ (∀ other ∈ before, Settings.Covers other.1 scope →
          (Settings.selectorScope other.1).length ≤ (Settings.selectorScope entry.1).length)
        ∧ ∀ other ∈ after, Settings.Covers other.1 scope →
          (Settings.selectorScope other.1).length < (Settings.selectorScope entry.1).length := by
  have hrival (rel : Nat → Nat → Prop) {entry : String × Source.EditorSettings}
      (hs : Settings.Compiled entry s) (other : String × Source.EditorSettings) (t : Settings)
      (ht : Settings.Compiled other t) : (Settings.Covers other.1 scope →
        rel (Settings.selectorScope other.1).length (Settings.selectorScope entry.1).length)
      ↔ (t.appliesTo (Scope.ofString scope) = true → rel t.selector.length s.selector.length) := by
    rw [Settings.appliesTo_iff_of_compiled ht, Settings.selector_of_compiled ht,
      Settings.selector_of_compiled hs]
  rw [Settings.choose?_eq_some_iff]
  constructor
  · rintro ⟨front, back, rfl, happlies, hfront, hback⟩
    obtain ⟨before, entry, after, rfl, hbefore, hs, hafter⟩ := exists_split_of_forall₂ h
    exact ⟨before, entry, after, rfl, hs, (Settings.appliesTo_iff_of_compiled hs scope).mp happlies,
      (forall_iff_of_forall₂ hbefore (hrival LE.le hs)).mpr hfront,
      (forall_iff_of_forall₂ hafter (hrival LT.lt hs)).mpr hback⟩
  · rintro ⟨before, entry, after, rfl, hs, hcovers, hbefore, hafter⟩
    obtain ⟨front, t, back, rfl, hfront, ht, hback⟩ := exists_split_of_forall₂ h.flip
    obtain rfl : t = s := Except.ok.inj (ht.symm.trans hs)
    exact ⟨front, back, rfl, (Settings.appliesTo_iff_of_compiled hs scope).mpr hcovers,
      (forall_iff_of_forall₂ hfront.flip (hrival LE.le hs)).mp hbefore,
      (forall_iff_of_forall₂ hback.flip (hrival LT.lt hs)).mp hafter⟩

end

/-- The settings for a scope, after any calls: there are none if no selector of an entry covers the
scope. If there are some, they are those of an entry with the longest selector that does, and of
the last such entry. Selectors of the same length that cover a scope are the same. -/
theorem settingsFor_of_record (calls : List Addition) (scope : String) :
    (∀ call ∈ calls, call.entries.Pairwise
        fun entry entry' => Text.bytes entry.1 < Text.bytes entry'.1)
      ∧ ((record calls).2.settingsFor? scope = none
        ↔ ∀ entry ∈ calls.flatMap Addition.entries, ¬Settings.Covers entry.1 scope)
      ∧ (∀ s, (record calls).2.settingsFor? scope = some s
        ↔ ∃ before entry after, calls.flatMap Addition.entries = before ++ entry :: after
          ∧ Settings.ofEntry entry.1 entry.2 = .ok s
          ∧ Settings.Covers entry.1 scope
          ∧ (∀ other ∈ before, Settings.Covers other.1 scope →
            (Settings.selectorScope other.1).length ≤ (Settings.selectorScope entry.1).length)
          ∧ ∀ other ∈ after, Settings.Covers other.1 scope →
            (Settings.selectorScope other.1).length < (Settings.selectorScope entry.1).length)
      ∧ ∀ entry ∈ calls.flatMap Addition.entries, ∀ other ∈ calls.flatMap Addition.entries,
        Settings.Covers entry.1 scope → Settings.Covers other.1 scope →
        (Settings.selectorScope entry.1).length = (Settings.selectorScope other.1).length →
        Settings.selectorScope entry.1 = Settings.selectorScope other.1 := by
  have hcompiled := forall₂_record calls
  unfold settingsFor?
  refine ⟨fun call _ => pairwise_bytes_entries call, choose?_eq_none_iff_of_compiled hcompiled,
    fun s => choose?_eq_some_iff_of_compiled hcompiled, ?_⟩
  intro entry _ other _ hcovers hcovers' hlength
  exact Settings.selectorScope_eq_of_length hcovers hcovers' hlength

end Registry

end ScopedText
