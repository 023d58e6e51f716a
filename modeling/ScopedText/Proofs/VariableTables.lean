import Mathlib
import ScopedText.Proofs.NameTables
import ScopedText.Proofs.Placeholders

/-!
# Variables that refer to each other

A table of variables can be expanded exactly if every variable that is referred to is defined and
none needs itself (`expansion_of_table`). What comes out is then the one table in which each
variable is its own value, expanded by that table; so the order of the names does not matter. If
not, the variable that is reported is undefined, or leads to one that is, or to one that needs
itself.

`Progress` is what each round keeps: the variables are either expanded, in terms of each other, or
left. A round that expands nothing is stuck, and then each variable that is left leads to another
one that is not expanded; among finitely many, this ends at an undefined one or goes around
(`astray_of_forall`).
-/

namespace ScopedText.Pattern.Variable

open Relation

/-- The value of one variable has a placeholder for the other one. -/
def Refers (raw : NameMap String) (name other : String) : Prop :=
  ∃ value, raw.find? name = some value ∧ other ∈ references value

/-- Every variable that is referred to is defined, and none needs itself. -/
structure Grounded (raw : NameMap String) : Prop where
  closed : ∀ name other, Refers raw name other → other ∈ raw.names
  acyclic : ∀ name, ¬TransGen (Refers raw) name name

/-- The variables of a table, each of them expanded by means of all the others. -/
structure Expands (raw out : NameMap String) : Prop where
  names : ∀ name, name ∈ out.names ↔ name ∈ raw.names
  values : ∀ name value, raw.find? name = some value →
    ∃ expanded, expand out value = .ok expanded ∧ out.find? name = some expanded

/-- The name leads to a variable that is not defined or that needs itself. -/
def Astray (raw : NameMap String) (name : String) : Prop :=
  ∃ other, ReflTransGen (Refers raw) name other
    ∧ (other ∉ raw.names ∨ TransGen (Refers raw) other other)

/-! ## What a round keeps -/

/-- Some variables are in the table, expanded in terms of each other, and the others are left. -/
structure Progress (raw table : NameMap String) (left : List (String × String)) : Prop where
  sorted : table.Sorted
  nodup : (left.map (·.1)).Nodup
  /-- Each variable is either expanded or left. -/
  names : ∀ name, name ∈ raw.names ↔ name ∈ table.names ∨ name ∈ left.map (·.1)
  apart : ∀ name ∈ left.map (·.1), name ∉ table.names
  values : ∀ name value, (name, value) ∈ left → raw.find? name = some value
  /-- A variable in the table is its value, expanded by the table. -/
  expanded : ∀ name expanded, table.find? name = some expanded →
    ∃ value, raw.find? name = some value ∧ expand table value = .ok expanded
  /-- A variable in the table needs only variables that were expanded before it. -/
  grounded : ∀ name ∈ table.names, Acc (fun other name => Refers raw name other) name

theorem progress_start {raw : NameMap String} (h : raw.names.Nodup) :
    Progress raw .empty raw.entries where
  sorted := NameMap.sorted_empty
  nodup := h
  names name := by simp [NameMap.names, NameMap.empty]
  apart name _ := List.not_mem_nil
  values name value hmem := (NameMap.find?_eq_some_iff h).mpr hmem
  expanded name expanded hfind := by cases hfind
  grounded name hmem := by cases hmem

namespace Progress

variable {raw table : NameMap String} {left : List (String × String)}

/-- What is expanded stays so when more variables are put into the table. -/
theorem expand_insert {name expanded value : String} (hname : name ∉ table.names)
    {other : String} (h : expand table value = .ok other) :
    expand (table.insert name expanded) value = .ok other := by
  rw [← h]
  refine expand_congr fun n hn => ?_
  obtain ⟨v, hv⟩ := exists_expand_iff.mp ⟨_, h⟩ n hn
  have hne : n ≠ name := fun heq => hname (heq ▸ NameMap.exists_find?_iff.mp ⟨v, hv⟩)
  exact NameMap.find?_insert_of_ne table hne expanded

/-- One more variable is expanded. -/
theorem insert {name value expanded : String} {before after : List (String × String)}
    (h : Progress raw table (before ++ (name, value) :: after))
    (hexpand : expand table value = .ok expanded) :
    Progress raw (table.insert name expanded) (before ++ after) := by
  have hmem : (name, value) ∈ before ++ (name, value) :: after := by simp
  have hvalue := h.values name value hmem
  have hnew : name ∉ table.names := h.apart name (List.mem_map_of_mem hmem)
  have hnodup : (name :: (before ++ after).map (·.1)).Nodup := by
    have hperm : (before ++ (name, value) :: after).Perm ((name, value) :: (before ++ after)) :=
      List.perm_middle
    exact (hperm.map (·.1)).nodup_iff.mp h.nodup
  have hnames (n : String) :
      n ∈ (table.insert name expanded).names ↔ n = name ∨ n ∈ table.names := by
    rw [← NameMap.exists_find?_iff, ← NameMap.exists_find?_iff, NameMap.find?_insert_eq]
    by_cases hn : n = name <;> simp [hn]
  refine ⟨NameMap.sorted_insert h.sorted name expanded, hnodup.of_cons, fun n => ?_,
    fun n hn => ?_, fun n v hn => h.values n v ?_, fun n w hfind => ?_, fun n hn => ?_⟩
  · rw [h.names, hnames]
    simp only [List.map_append, List.map_cons, List.mem_append, List.mem_cons]
    tauto
  · rw [hnames, not_or]
    refine ⟨fun heq => (List.nodup_cons.mp hnodup).1 (heq ▸ hn), h.apart n ?_⟩
    simp only [List.map_append, List.mem_append, List.map_cons, List.mem_cons] at hn ⊢
    tauto
  · simp only [List.mem_append, List.mem_cons] at hn ⊢
    tauto
  · rw [NameMap.find?_insert_eq] at hfind
    split at hfind
    · rename_i heq
      cases hfind
      exact ⟨value, heq ▸ hvalue, expand_insert hnew hexpand⟩
    · obtain ⟨v, hv, hw⟩ := h.expanded n w hfind
      exact ⟨v, hv, expand_insert hnew hw⟩
  · rcases (hnames n).mp hn with rfl | hn
    · refine ⟨_, fun other hrefers => ?_⟩
      obtain ⟨v, hv, hother⟩ := hrefers
      obtain rfl : v = value := Option.some.inj (hv.symm.trans hvalue)
      have hfind := exists_expand_iff.mp ⟨_, hexpand⟩ other hother
      exact h.grounded other (NameMap.exists_find?_iff.mp hfind)
    · exact h.grounded n hn

/-- A round keeps it, with the variables that earlier steps of the round have left. -/
theorem round (pending : List (String × String)) (h : Progress raw table (left ++ pending)) :
    Progress raw (round table pending).table (left ++ (Variable.round table pending).left) := by
  induction pending generalizing table left with
  | nil => exact h
  | cons entry pending ih =>
    obtain ⟨name, value⟩ := entry
    rw [Variable.round]
    cases hexpand : expand table value with
    | ok expanded => exact ih (h.insert hexpand)
    | error fault =>
      have hleft : Progress raw table (left ++ [(name, value)] ++ pending) := by simpa using h
      simpa using ih hleft

end Progress

/-! ## Rounds that expand nothing -/

theorem length_left_round_le (table : NameMap String) (pending : List (String × String)) :
    (round table pending).left.length ≤ pending.length := by
  fun_induction round table pending with
  | case1 => exact Nat.le_refl _
  | case2 table name value pending expanded hexpand ih => exact Nat.le_succ_of_le ih
  | case3 table name value pending fault hexpand r ih => exact Nat.succ_le_succ ih

/-- A round without a fault leaves nothing. -/
theorem left_of_fault_eq_none {table : NameMap String} {pending : List (String × String)}
    (h : (round table pending).fault = none) : (round table pending).left = [] := by
  fun_induction round table pending with
  | case1 => rfl
  | case2 table name value pending expanded hexpand ih => exact ih h
  | case3 => cases h

/-- If a round leaves as many variables as there were, none can be expanded, and its fault is that
of one of them. -/
theorem stuck_of_length {table : NameMap String} {pending : List (String × String)}
    (h : (round table pending).left.length = pending.length) :
    (∀ name value, (name, value) ∈ pending → ∃ fault, expand table value = .error fault)
      ∧ ∀ fault, (round table pending).fault = some fault →
        ∃ name value, (name, value) ∈ pending ∧ expand table value = .error fault := by
  fun_induction round table pending with
  | case1 => simp
  | case2 table name value pending expanded hexpand ih =>
    have := length_left_round_le (table.insert name expanded) pending
    simp only [List.length_cons] at h
    omega
  | case3 table name value pending fault hexpand r ih =>
    obtain ⟨hnone, hfault⟩ := ih (Nat.succ.inj h)
    constructor
    · intro n v hmem
      rcases List.mem_cons.mp hmem with heq | hmem
      · cases heq
        exact ⟨fault, hexpand⟩
      · exact hnone n v hmem
    · intro fault' hlast
      cases hr : r.fault with
      | none =>
        rw [hr] at hlast
        cases hlast
        exact ⟨name, value, List.mem_cons_self, hexpand⟩
      | some later =>
        rw [hr] at hlast
        cases hlast
        obtain ⟨n, v, hmem, hv⟩ := hfault _ hr
        exact ⟨n, v, List.mem_cons_of_mem _ hmem, hv⟩

/-- None of the variables that are left can be expanded, and one of them has this fault. -/
structure Stuck (raw table : NameMap String) (left : List (String × String)) (fault : Unknown) :
    Prop where
  progress : Progress raw table left
  none : ∀ name value, (name, value) ∈ left → ∃ fault, expand table value = .error fault
  fault : ∃ name value, (name, value) ∈ left ∧ expand table value = .error fault

/-- The rounds end with all variables in the table, or they are stuck. -/
theorem progress_rounds {raw table : NameMap String} {pending : List (String × String)}
    (h : Progress raw table pending) :
    (∀ out, rounds table pending = .ok out → Progress raw out [])
      ∧ ∀ fault, rounds table pending = .error fault →
        ∃ table' left, Stuck raw table' left fault := by
  have hround {table : NameMap String} {pending : List (String × String)}
      (h : Progress raw table pending) :
      Progress raw (round table pending).table (round table pending).left :=
    Progress.round pending (show Progress raw table ([] ++ pending) from h)
  fun_induction rounds table pending with
  | case1 table pending r hfault =>
    have hround := hround h
    rw [left_of_fault_eq_none hfault] at hround
    exact ⟨fun out heq => by cases heq; exact hround, nofun⟩
  | case2 table pending r fault hfault hfewer ih =>
    exact ih (hround h)
  | case3 table pending r fault hfault hfewer =>
    have hsame : (round table pending).left.length = pending.length :=
      Nat.le_antisymm (length_left_round_le _ _) (Nat.not_lt.mp hfewer)
    obtain ⟨hnone, hsome⟩ := stuck_of_length hsame
    exact ⟨nofun, fun fault' heq => by cases heq; exact ⟨table, pending, h, hnone, hsome _ hfault⟩⟩

/-! ## Variables that lead nowhere -/

variable {raw : NameMap String}

theorem Refers.mem_names {name other : String} (h : Refers raw name other) : name ∈ raw.names :=
  NameMap.exists_find?_iff.mp ⟨_, h.choose_spec.1⟩

abbrev Reached (raw : NameMap String) (name : String) : Type :=
  {other : String // other ∈ raw.names ∧ ReflTransGen (Refers raw) name other}

def Beyond {name : String} (far near : Reached raw name) : Prop :=
  TransGen (Refers raw) near.1 far.1

/-- There are finitely many variables, so if none leads back to itself, each way ends. -/
theorem wellFounded_beyond {name : String}
    (h : ∀ r : Reached raw name, ¬TransGen (Refers raw) r.1 r.1) :
    WellFounded (@Beyond raw name) := by
  have : Finite (Reached raw name) := by
    refine Finite.of_injective (β := {other // other ∈ raw.names}) (fun r => ⟨r.1, r.2.1⟩) ?_
    intro r r' heq
    exact Subtype.ext (Subtype.mk.inj heq)
  have : IsTrans (Reached raw name) Beyond := ⟨fun _ _ _ h h' => TransGen.trans h' h⟩
  have : Std.Irrefl (α := Reached raw name) Beyond := ⟨h⟩
  exact Finite.wellFounded_of_trans_of_irrefl Beyond

/-- Among finitely many variables, a set of names in which each variable leads on to another member
has only members that lead astray. -/
theorem astray_of_forall {names : Set String}
    (hnext : ∀ name ∈ names, name ∈ raw.names → ∃ other ∈ names, Refers raw name other)
    {name : String} (hname : name ∈ names) : Astray raw name := by
  by_contra hastray
  have hfine (other : String) (hother : ReflTransGen (Refers raw) name other) :
      other ∈ raw.names ∧ ¬TransGen (Refers raw) other other := by
    by_contra hnot
    exact hastray ⟨other, hother, by tauto⟩
  -- What can be reached has no circle, so it can be searched to its ends.
  have hwf := wellFounded_beyond fun r : Reached raw name => (hfine r.1 r.2.2).2
  have hempty (r : Reached raw name) : r.1 ∉ names := by
    induction r using hwf.induction with
    | _ r ih =>
      intro hr
      obtain ⟨other, hother, hrefers⟩ := hnext r.1 hr r.2.1
      have hreached := r.2.2.tail hrefers
      exact ih ⟨other, (hfine other hreached).1, hreached⟩ (.single hrefers) hother
  exact hempty ⟨name, (hfine name .refl).1, .refl⟩ hname

/-- When rounds are stuck, a variable that is not in the table leads astray. -/
theorem Stuck.astray {table : NameMap String} {left : List (String × String)} {fault : Unknown}
    (h : Stuck raw table left fault) {name : String} (hname : name ∉ table.names) :
    Astray raw name := by
  have hout : name ∈ {n | n ∉ table.names} := hname
  refine astray_of_forall (fun n hn hmem => ?_) hout
  obtain ⟨⟨_, value⟩, hleft, rfl⟩ :=
    List.mem_map.mp (((h.progress.names n).mp hmem).resolve_left hn)
  obtain ⟨fault', hfault⟩ := h.none _ value hleft
  obtain ⟨hrefers, hunknown⟩ := unknown_of_expand hfault
  refine ⟨fault'.name, fun hin => ?_, value, h.progress.values _ value hleft, hrefers⟩
  obtain ⟨v, hv⟩ := NameMap.exists_find?_iff.mpr hin
  cases hunknown.symm.trans hv

/-- The reported variable is referred to and leads astray. -/
theorem Stuck.fault_astray {table : NameMap String} {left : List (String × String)}
    {fault : Unknown} (h : Stuck raw table left fault) :
    (∃ name, Refers raw name fault.name) ∧ Astray raw fault.name := by
  obtain ⟨name, value, hleft, hfault⟩ := h.fault
  obtain ⟨hrefers, hunknown⟩ := unknown_of_expand hfault
  refine ⟨⟨name, value, h.progress.values name value hleft, hrefers⟩, h.astray fun hin => ?_⟩
  obtain ⟨v, hv⟩ := NameMap.exists_find?_iff.mpr hin
  cases hunknown.symm.trans hv

/-- Where every variable that is referred to is defined and none needs itself, none leads astray. -/
theorem Grounded.not_astray (h : Grounded raw) {name other : String}
    (hrefers : Refers raw name other) : ¬Astray raw other := by
  rintro ⟨last, hreach, hout | hcircle⟩
  · refine hout ?_
    rcases hreach.cases_tail with rfl | ⟨before, _, hlast⟩
    · exact h.closed name _ hrefers
    · exact h.closed before last hlast
  · exact h.acyclic last hcircle

/-! ## Tables that are expanded -/

theorem Progress.expands {out : NameMap String} (h : Progress raw out []) : Expands raw out where
  names name := by simp [h.names]
  values name value hvalue := by
    have hin : name ∈ out.names := by
      simpa using (h.names name).mp (NameMap.exists_find?_iff.mp ⟨value, hvalue⟩)
    obtain ⟨expanded, hfind⟩ := NameMap.exists_find?_iff.mpr hin
    obtain ⟨v, hv, hexpand⟩ := h.expanded name expanded hfind
    obtain rfl : v = value := Option.some.inj (hv.symm.trans hvalue)
    exact ⟨expanded, hexpand, hfind⟩

theorem not_rel_of_acc {α : Type} {r : α → α → Prop} {a : α} (h : Acc r a) : ¬r a a := by
  induction h with
  | intro a _ ih => exact fun ha => ih a ha ha

/-- A table that can be expanded to the end is grounded. -/
theorem Progress.toGrounded {out : NameMap String} (h : Progress raw out []) : Grounded raw where
  closed name other hrefers := by
    obtain ⟨value, hvalue, hother⟩ := hrefers
    obtain ⟨expanded, hexpand, _⟩ := h.expands.values name value hvalue
    have hfind := exists_expand_iff.mp ⟨_, hexpand⟩ other hother
    exact (h.expands.names other).mp (NameMap.exists_find?_iff.mp hfind)
  acyclic name hcircle := by
    obtain ⟨_, hrefers, _⟩ := TransGen.head'_iff.mp hcircle
    have hacc := h.grounded name ((h.expands.names name).mpr hrefers.mem_names)
    have hswap : TransGen (fun other name => Refers raw name other) name name :=
      transGen_swap.mpr hcircle
    exact not_rel_of_acc hacc.transGen hswap

/-- Two tables that hold each variable expanded by means of all the others are the same. -/
theorem Progress.eq_of_expands {out other : NameMap String} (h : Progress raw out [])
    (hsorted : other.Sorted) (hother : Expands raw other) : other = out := by
  refine hsorted.eq_of_find? h.sorted fun name => ?_
  by_cases hname : name ∈ out.names
  · have hacc := h.grounded name hname
    induction hacc with
    | intro name _ ih =>
      obtain ⟨value, hvalue⟩ := NameMap.exists_find?_iff.mpr ((h.expands.names name).mp hname)
      obtain ⟨expanded, hexpand, hfind⟩ := h.expands.values name value hvalue
      obtain ⟨expanded', hexpand', hfind'⟩ := hother.values name value hvalue
      have hsame : expand other value = expand out value := by
        refine expand_congr fun n hn => ih n ⟨value, hvalue, hn⟩ ?_
        exact NameMap.exists_find?_iff.mp (exists_expand_iff.mp ⟨_, hexpand⟩ n hn)
      rw [hfind, hfind', ← Except.ok.inj (hexpand'.symm.trans (hsame.trans hexpand))]
  · have hname' : name ∉ other.names := fun hin =>
      hname ((h.expands.names name).mpr ((hother.names name).mp hin))
    rw [NameMap.find?_eq_none_iff.mpr hname, NameMap.find?_eq_none_iff.mpr hname']

theorem refers_eq_of_find? {raw' : NameMap String}
    (h : ∀ name, raw'.find? name = raw.find? name) : Refers raw' = Refers raw := by
  funext name other
  rw [Refers, Refers, h]

theorem names_iff_of_find? {raw' : NameMap String}
    (h : ∀ name, raw'.find? name = raw.find? name) (name : String) :
    name ∈ raw'.names ↔ name ∈ raw.names := by
  rw [← NameMap.exists_find?_iff, ← NameMap.exists_find?_iff, h]

theorem Grounded.of_find? {raw' : NameMap String} (hraw : Grounded raw)
    (h : ∀ name, raw'.find? name = raw.find? name) : Grounded raw' := by
  constructor
  · intro name other
    rw [refers_eq_of_find? h, names_iff_of_find? h]
    exact hraw.closed name other
  · rw [refers_eq_of_find? h]
    exact hraw.acyclic

theorem Expands.of_find? {raw' out : NameMap String} (hraw : Expands raw out)
    (h : ∀ name, raw'.find? name = raw.find? name) : Expands raw' out := by
  constructor
  · intro name
    rw [names_iff_of_find? h]
    exact hraw.names name
  · intro name value hvalue
    exact hraw.values name value (h name ▸ hvalue)

theorem progress_of_expandTable {out : NameMap String} (h : raw.names.Nodup)
    (hout : expandTable raw = .ok out) : Progress raw out [] :=
  (progress_rounds (progress_start h)).1 out hout

theorem stuck_of_expandTable {fault : Unknown} (h : raw.names.Nodup)
    (hfault : expandTable raw = .error fault) : ∃ table left, Stuck raw table left fault :=
  (progress_rounds (progress_start h)).2 fault hfault

/-- A table in which nothing leads astray can be expanded. -/
theorem Grounded.exists_expandTable (h : Grounded raw) (hnodup : raw.names.Nodup) :
    ∃ out, expandTable raw = .ok out := by
  cases hresult : expandTable raw with
  | ok out => exact ⟨out, rfl⟩
  | error fault =>
    obtain ⟨_, _, hstuck⟩ := stuck_of_expandTable hnodup hresult
    obtain ⟨⟨name, hrefers⟩, hastray⟩ := hstuck.fault_astray
    exact absurd hastray (h.not_astray hrefers)

/-- A table can be expanded exactly if every variable that is referred to is defined and none needs
itself. The result is the one table in which each variable is its value, expanded by that table, and
does not depend on the order of the variables. Otherwise the reported name is referred to, and it is
not that of a variable, or the variable leads to a name that is not defined or that needs itself. -/
theorem expansion_of_table (h : raw.names.Nodup) :
    ((∃ out, expandTable raw = .ok out) ↔ Grounded raw)
      ∧ (∀ out, expandTable raw = .ok out →
        out.Sorted ∧ Expands raw out
          ∧ (∀ other : NameMap String, other.Sorted → Expands raw other → other = out)
          ∧ ∀ reordered : NameMap String, reordered.entries.Perm raw.entries →
            expandTable reordered = .ok out)
      ∧ ∀ fault, expandTable raw = .error fault →
        (∃ name, Refers raw name fault.name)
          ∧ (fault.name ∉ raw.names ∨ fault.name ∈ raw.names ∧ Astray raw fault.name) := by
  refine ⟨⟨fun ⟨out, hout⟩ => (progress_of_expandTable h hout).toGrounded,
    fun hgrounded => hgrounded.exists_expandTable h⟩, fun out hout => ?_, fun fault hfault => ?_⟩
  · have hprogress := progress_of_expandTable h hout
    refine ⟨hprogress.sorted, hprogress.expands, fun _ => hprogress.eq_of_expands, ?_⟩
    intro reordered hperm
    have hnodup : reordered.names.Nodup := (hperm.map _).nodup_iff.mpr h
    have hfind := NameMap.find?_of_perm h hperm
    obtain ⟨out', hout'⟩ := (hprogress.toGrounded.of_find? hfind).exists_expandTable hnodup
    have hprogress' := progress_of_expandTable hnodup hout'
    have hexpands := hprogress'.expands.of_find? fun name => (hfind name).symm
    rw [hout', hprogress.eq_of_expands hprogress'.sorted hexpands]
  · obtain ⟨_, _, hstuck⟩ := stuck_of_expandTable h hfault
    obtain ⟨hrefers, hastray⟩ := hstuck.fault_astray
    refine ⟨hrefers, ?_⟩
    by_cases hname : fault.name ∈ raw.names
    · exact .inr ⟨hname, hastray⟩
    · exact .inl hname

/-- Variables that need one another in another order than that of their names; the braces of the
quantifier are no placeholder. -/
def callTable : NameMap String :=
  ⟨[("args", "\\(\x7b\x7bname\x7d\x7d\\)"), ("call", "\x7b\x7bname\x7d\x7d\x7b\x7bargs\x7d\x7d"),
    ("name", "\\w\x7b\x7b2\x7d\x7d")]⟩

/-- A variable that needs one of two which need each other. -/
def circleTable : NameMap String :=
  ⟨[("left", "\x7b\x7bright\x7d\x7d"), ("outer", "\x7b\x7bleft\x7d\x7d"),
    ("right", "\x7b\x7bleft\x7d\x7d")]⟩

theorem expansion_of_table_call :
    callTable.names.Nodup
      ∧ (∃ out, expandTable callTable = .ok out
        ∧ out.find? "call" = some "\\w\x7b\x7b2\x7d\x7d\\(\\w\x7b\x7b2\x7d\x7d\\)"
        ∧ Grounded callTable
        ∧ ∀ other : NameMap String, other.Sorted → Expands callTable other → other = out)
      ∧ circleTable.names.Nodup ∧ expandTable circleTable = .error ⟨"left"⟩
      ∧ Astray circleTable "left" := by
  have hcall : callTable.names.Nodup := by decide
  have hout : expandTable callTable = .ok ⟨[
      ("args", "\\(\\w\x7b\x7b2\x7d\x7d\\)"),
      ("call", "\\w\x7b\x7b2\x7d\x7d\\(\\w\x7b\x7b2\x7d\x7d\\)"),
      ("name", "\\w\x7b\x7b2\x7d\x7d")]⟩ := by cbv
  have hcircle : circleTable.names.Nodup := by decide
  have hfault : expandTable circleTable = .error ⟨"left"⟩ := by cbv
  obtain ⟨hgrounded, hunique, _⟩ := expansion_of_table hcall
  obtain ⟨_, _, hreported⟩ := expansion_of_table hcircle
  refine ⟨hcall, ⟨_, hout, by decide, hgrounded.mp ⟨_, hout⟩, (hunique _ hout).2.2.1⟩, hcircle,
    hfault, ?_⟩
  exact ((hreported _ hfault).2.resolve_left (by decide)).2

end ScopedText.Pattern.Variable
