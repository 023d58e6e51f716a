import Mathlib.Data.List.Forall2
import Mathlib.Data.List.Induction
import Mathlib.Data.List.Nodup
import Mathlib.Data.List.Perm.Basic
import ScopedText.Grammar.Compile
import ScopedText.Proofs.Outcome
import ScopedText.Source.Reader

/-!
# The two notations for captures

Captures can be written as an array, where the place is the group, or as an object from group
numbers. Of the same list of captures, the array gives those with a name (`read_array`) and the
object gives all of them (`read_object`). That shows in two ways only: in the greatest group, which
a pattern must have, and in whether there are any captures at all. Otherwise both give each group
the same scope (`agree_captureTable`).
-/

namespace ScopedText

namespace Source.Captures

open Json

def numbered (captures : List Capture) : List (Nat × Capture) :=
  captures.zipIdx.map fun (c, group) => (group, c)

/-- The captures of the groups from 0 on; those without a name are kept. -/
def ofPlaces (captures : List Capture) : Captures := .ofList (numbered captures)

/-! ## Entries -/

theorem mem_numbered {captures : List Capture} {group : Nat} {c : Capture} :
    (group, c) ∈ numbered captures ↔ captures[group]? = some c := by
  rw [← List.mem_zipIdx_iff_getElem? (x := (c, group))]
  unfold numbered
  simp only [List.mem_map, Prod.mk.injEq, Prod.exists]
  constructor
  · rintro ⟨c, group, h, rfl, rfl⟩
    exact h
  · exact fun h => ⟨c, group, h, rfl, rfl⟩

theorem numbered_concat (captures : List Capture) (c : Capture) :
    numbered (captures ++ [c]) = numbered captures ++ [(captures.length, c)] := by
  simp [numbered, List.zipIdx_append]

theorem groups_numbered (captures : List Capture) :
    (numbered captures).map (·.1) = List.range captures.length := by
  simp [numbered, List.range_eq_range', List.map_map, Function.comp_def]

theorem pairwise_numbered (captures : List Capture) :
    (numbered captures).Pairwise (·.1 < ·.1) := by
  have h := groups_numbered captures ▸ List.pairwise_lt_range (n := captures.length)
  exact List.pairwise_map.mp h

/-- A group greater than all others is put at the end. -/
theorem insertEntry_of_lt {group : Nat} {entries : List (Nat × Capture)}
    (h : ∀ entry ∈ entries, entry.1 < group) (c : Capture) :
    insertEntry group c entries = entries ++ [(group, c)] := by
  induction entries with
  | nil => rfl
  | cons entry entries ih =>
    have hlt : entry.1 < group := h entry List.mem_cons_self
    rw [insertEntry, if_neg (by omega), if_neg (by omega),
      ih fun other hother => h other (List.mem_cons_of_mem _ hother), List.cons_append]

theorem entries_ofPlaces (captures : List Capture) :
    (ofPlaces captures).entries = numbered captures := by
  induction captures using List.reverseRecOn with
  | nil => rfl
  | append_singleton captures c ih =>
    have hlt : ∀ entry ∈ numbered captures, entry.1 < captures.length := fun entry hentry =>
      (List.getElem?_eq_some_iff.mp (mem_numbered.mp hentry)).1
    unfold ofPlaces ofList at ih ⊢
    rw [numbered_concat, List.foldl_append, List.foldl_cons, List.foldl_nil]
    change insertEntry captures.length c _ = _
    rw [ih, insertEntry_of_lt hlt]

theorem entries_ofNames (captures : List Capture) :
    (ofNames captures).entries = (numbered captures).filter (·.2.name.isSome) := by
  simp only [ofNames, numbered, List.filter_map, Function.comp_def]

/-- Entries for two groups can be put in in either order. -/
theorem insertEntry_comm {group other : Nat} (h : group ≠ other) (c d : Capture)
    (entries : List (Nat × Capture)) :
    insertEntry group c (insertEntry other d entries)
      = insertEntry other d (insertEntry group c entries) := by
  induction entries with
  | nil => grind [insertEntry]
  | cons entry entries ih =>
    rcases Nat.lt_trichotomy group entry.1 with hgroup | hgroup | hgroup <;>
      rcases Nat.lt_trichotomy other entry.1 with hother | hother | hother <;>
      grind [insertEntry]

/-- The order in which captures are given makes no difference. -/
theorem ofList_of_perm {entries entries' : List (Nat × Capture)} (h : entries.Perm entries')
    (hnodup : (entries.map (·.1)).Nodup) : ofList entries = ofList entries' := by
  refine h.foldl_eq' (fun x hx y hy captures => ?_) _
  by_cases heq : x.1 = y.1
  · rw [List.inj_on_of_nodup_map hnodup hx hy heq]
  · exact congrArg Captures.mk (insertEntry_comm (Ne.symm heq) y.2 x.2 captures.entries)

/-! ## Reading -/

theorem groupNumber?_toString {group : Nat} (h : group ≤ Number.maxUnsigned) :
    groupNumber? (toString group) = some group := by
  have hlist : (toString group).toList = Nat.toDigits 10 group := Nat.toList_repr
  have hdigits : ∀ c ∈ Nat.toDigits 10 group, c.isDigit = true := fun c hc =>
    Nat.isDigit_of_mem_toDigits (by omega) (by omega) hc
  have hvalue : (Nat.toDigits 10 group).foldl (fun n d => n * 10 + (d.toNat - 48)) 0 = group := by
    have hfold := Nat.ofDigitChars_toDigits (b := 10) (n := group) (by omega) (by omega)
    have hzero : '0'.toNat = 48 := rfl
    rw [Nat.ofDigitChars, hzero] at hfold
    simpa only [Nat.mul_comm] using hfold
  have hsome : (Nat.toDigits 10 group).isEmpty = false :=
    List.isEmpty_eq_false_iff.mpr Nat.toDigits_ne_nil
  unfold groupNumber?
  rw [hlist]
  split
  case h_1 ds hds =>
    -- a number is written without a sign
    exact absurd (hdigits '+' (hds ▸ List.mem_cons_self)) (by decide)
  case h_2 =>
    simp only [hsome, List.all_eq_true.mpr hdigits, hvalue, if_pos h, Bool.not_true, Bool.or_self,
      Bool.false_eq_true, if_false]

/-- The members of the object that gives the values to the groups from 0 on. -/
def keyed (values : List Value) : List (String × Value) :=
  values.zipIdx.map fun (v, group) => (toString group, v)

/-- The value is read as this capture. -/
def Reads (depth : Nat) (v : Value) (c : Capture) : Prop := Capture.read depth v = .ok c

theorem readAll_of_reads {depth : Nat} {values : List Value} {captures : List Capture}
    (h : List.Forall₂ (Reads depth) values captures) :
    (Items.ofList values).readAll (Capture.read depth) = .ok captures := by
  induction h with
  | nil => rfl
  | cons hread _ ih =>
    simp only [Items.ofList, Items.readAll, show Capture.read depth _ = .ok _ from hread, ih]
    rfl

/-- In the array, a capture without a name only takes up its place. -/
theorem read_array {depth : Nat} {values : List Value} {captures : List Capture}
    (h : List.Forall₂ (Reads depth) values captures) :
    Captures.read (depth + 1) (.array (.ofList values)) = .ok (ofNames captures) := by
  simp only [Captures.read, readAll_of_reads h]
  rfl

def ReadsMember (depth : Nat) (member : String × Value) (entry : Nat × Capture) : Prop :=
  groupNumber? member.1 = some entry.1 ∧ Reads depth member.2 entry.2

theorem readNumbered_of_reads {depth : Nat} {members : List (String × Value)}
    {entries : List (Nat × Capture)} (h : List.Forall₂ (ReadsMember depth) members entries) :
    readNumbered depth (.ofList members) = .ok entries := by
  induction h with
  | nil => rfl
  | @cons member entry _ _ hread _ ih =>
    obtain ⟨hkey, hvalue⟩ := hread
    simp only [Members.ofList, readNumbered, show Capture.read depth member.2 = .ok entry.2 from
      hvalue, hkey, ih, bind, Except.bind, pure, Except.pure]

/-- The object may give its members in any order. -/
theorem read_object {depth : Nat} {values : List Value} {captures : List Capture}
    (h : List.Forall₂ (Reads depth) values captures)
    (hlength : values.length ≤ Number.maxUnsigned + 1)
    {members : List (String × Value)} (hmembers : members.Perm (keyed values)) :
    Captures.read (depth + 1) (.object (.ofList members)) = .ok (ofPlaces captures) := by
  have hread : List.Forall₂ (ReadsMember depth) (keyed values) (numbered captures) := by
    obtain ⟨hsame, hget⟩ := List.forall₂_iff_get.mp h
    refine List.forall₂_iff_get.mpr ⟨by simp [keyed, numbered, hsame], fun i hi hi' => ?_⟩
    have hlt : i < values.length := by simpa [keyed] using hi
    have hread := hget i hlt (hsame ▸ hlt)
    refine ⟨?_, by simpa [keyed, numbered] using hread⟩
    simpa [keyed, numbered] using groupNumber?_toString (show i ≤ Number.maxUnsigned by omega)
  obtain ⟨entries, hentries, hperm⟩ := List.perm_comp_forall₂ hmembers hread
  have hnodup : (entries.map (·.1)).Nodup := by
    rw [(hperm.map (·.1)).nodup_iff, groups_numbered]
    exact List.nodup_range
  simp only [Captures.read, readNumbered_of_reads hentries]
  rw [ofPlaces, ← ofList_of_perm hperm hnodup]
  rfl

/-! ## Groups -/

/-- The captures are those of a list by their places, in order; those without a name may be left
out. -/
structure Lists (cs : Captures) (captures : List Capture) : Prop where
  sorted : cs.entries.Pairwise (·.1 < ·.1)
  placed : ∀ entry ∈ cs.entries, captures[entry.1]? = some entry.2
  named : ∀ (group : Nat) (c : Capture), captures[group]? = some c → c.name.isSome →
    (group, c) ∈ cs.entries

theorem lists_ofPlaces (captures : List Capture) : (ofPlaces captures).Lists captures where
  sorted := entries_ofPlaces captures ▸ pairwise_numbered captures
  placed _ h := mem_numbered.mp (entries_ofPlaces captures ▸ h)
  named _ _ h _ := entries_ofPlaces captures ▸ mem_numbered.mpr h

theorem lists_ofNames (captures : List Capture) : (ofNames captures).Lists captures where
  sorted := entries_ofNames captures ▸ (pairwise_numbered captures).filter _
  placed entry h := by
    rw [entries_ofNames] at h
    exact mem_numbered.mp (List.mem_filter.mp h).1
  named group c h hname := by
    rw [entries_ofNames]
    exact List.mem_filter.mpr ⟨mem_numbered.mpr h, hname⟩

def name? (cs : Captures) (group : Nat) : Option String := (cs.find? group).bind (·.name)

variable {cs cs' : Captures} {captures : List Capture}

theorem mem_of_name? {group : Nat} {name : String} (h : cs.name? group = some name) :
    ∃ c, (group, c) ∈ cs.entries ∧ c.name = some name := by
  obtain ⟨c, hc, hname⟩ := Option.bind_eq_some_iff.mp h
  obtain ⟨entry, hentry, rfl⟩ := Option.map_eq_some_iff.mp hc
  have hgroup : entry.1 = group := by simpa using List.find?_some hentry
  exact ⟨entry.2, hgroup ▸ List.mem_of_find?_eq_some hentry, hname⟩

theorem Lists.name?_eq_some_iff (h : cs.Lists captures) {group : Nat} {name : String} :
    cs.name? group = some name ↔ ∃ c, captures[group]? = some c ∧ c.name = some name := by
  constructor
  · intro hname
    obtain ⟨c, hc, hname⟩ := mem_of_name? hname
    exact ⟨c, h.placed _ hc, hname⟩
  · rintro ⟨c, hc, hname⟩
    have hmem := h.named group c hc (by rw [hname]; rfl)
    obtain ⟨entry, hentry⟩ := Option.isSome_iff_exists.mp
      (List.find?_isSome (p := fun entry : Nat × Capture => entry.1 == group).mpr
        ⟨_, hmem, beq_self_eq_true group⟩)
    -- the entry that is found has the group, and so it is the capture at that place
    have hgroup : entry.1 = group := by simpa using List.find?_some hentry
    have hplaced := h.placed _ (List.mem_of_find?_eq_some hentry)
    rw [hgroup, hc] at hplaced
    rw [name?, find?, hentry, Option.map_some, Option.bind_some, ← Option.some.inj hplaced, hname]

/-- Both captures of a list give each group the same name, or none. -/
theorem Lists.name?_eq (h : cs.Lists captures) (h' : cs'.Lists captures) (group : Nat) :
    cs.name? group = cs'.name? group :=
  Option.ext fun _ => h.name?_eq_some_iff.trans h'.name?_eq_some_iff.symm

/-- Of captures in order, the last one is for the greatest group. -/
theorem exists_greatest?_of_mem (hsorted : cs.entries.Pairwise (·.1 < ·.1)) {entry : Nat × Capture}
    (h : entry ∈ cs.entries) : ∃ greatest, cs.greatest? = some greatest ∧ entry.1 ≤ greatest := by
  obtain ⟨last, hlast⟩ := Option.ne_none_iff_exists'.mp
    (mt List.getLast?_eq_none_iff.mp (List.ne_nil_of_mem h))
  obtain ⟨init, hinit⟩ := List.getLast?_eq_some_iff.mp hlast
  refine ⟨last.1, by rw [greatest?, hlast, Option.map_some], ?_⟩
  rw [hinit] at h hsorted
  rcases List.mem_append.mp h with hmem | hmem
  · exact Nat.le_of_lt ((List.pairwise_append.mp hsorted).2.2 entry hmem last
      (List.mem_singleton_self last))
  · exact Nat.le_of_eq (congrArg Prod.fst (List.mem_singleton.mp hmem))

theorem Lists.getElem?_of_greatest? (h : cs.Lists captures) {greatest : Nat}
    (hgreatest : cs.greatest? = some greatest) :
    ∃ c, (greatest, c) ∈ cs.entries ∧ captures[greatest]? = some c := by
  obtain ⟨last, hlast, rfl⟩ := Option.map_eq_some_iff.mp hgreatest
  exact ⟨last.2, List.mem_of_getLast? hlast, h.placed last (List.mem_of_getLast? hlast)⟩

theorem Lists.lt_of_greatest? (h : cs.Lists captures) {greatest : Nat}
    (hgreatest : cs.greatest? = some greatest) : greatest < captures.length := by
  obtain ⟨c, -, hc⟩ := h.getElem?_of_greatest? hgreatest
  exact (List.getElem?_eq_some_iff.mp hc).1

/-- If the last capture of the list is among them, its group is the greatest one. -/
theorem Lists.greatest?_of_mem (h : cs.Lists captures) {c : Capture}
    (hlast : (captures.length - 1, c) ∈ cs.entries) :
    cs.greatest? = some (captures.length - 1) := by
  obtain ⟨greatest, hgreatest, hle⟩ := exists_greatest?_of_mem h.sorted hlast
  have hlt := h.lt_of_greatest? hgreatest
  dsimp only at hle
  rw [hgreatest, show greatest = captures.length - 1 by omega]

end Source.Captures

open Source (Capture Captures)

/-- Both tables give each group the same scope, or none. -/
def SameScopes (table table' : CaptureTable) : Prop :=
  ∀ group : Nat, table[group]?.join = table'[group]?.join

/-- The pattern has a group for each capture of the list, or the last one of them has a name. -/
def Within (captures : List Capture) (p : Prepared) : Prop :=
  captures.length ≤ p.groups + 1 ∨ ∃ c, captures.getLast? = some c ∧ c.name.isSome

/-- There are no captures, or one has a name, or the general ones that are there instead give no
scope. -/
def Standing (captures : List Capture) (general : Captures) (p : Prepared) : Prop :=
  captures = [] ∨ (∃ c ∈ captures, c.name.isSome)
    ∨ ∃ table, captureTable general p = .ok table ∧ ∀ scope ∈ table, scope = none

variable {cs cs' : Captures} {captures : List Capture} {p : Prepared} {table : CaptureTable}

theorem captureTable_of_le (h : ∀ greatest, cs.greatest? = some greatest → greatest ≤ p.groups) :
    ∃ table, captureTable cs p = .ok table := by
  unfold captureTable
  cases hgreatest : cs.greatest? with
  | none => exact ⟨_, rfl⟩
  | some greatest =>
    have hle := h greatest hgreatest
    exact ⟨_, if_neg (by omega)⟩

theorem captureTable_of_lt {greatest : Nat} (h : cs.greatest? = some greatest)
    (hlt : p.groups < greatest) :
    captureTable cs p = .error (.invalidCaptureIndex p.text greatest) := by
  rw [captureTable, h]
  exact if_pos hlt

theorem greatest?_of_captureTable {index : Nat}
    (h : captureTable cs p = .error (.invalidCaptureIndex p.text index)) :
    cs.greatest? = some index := by
  unfold captureTable at h
  split at h
  · cases h
  · split at h
    · cases h
      assumption
    · cases h

/-- The table gives a group the scope of its name. -/
theorem join_getElem?_captureTable (hsorted : cs.entries.Pairwise (·.1 < ·.1))
    (h : captureTable cs p = .ok table) (group : Nat) :
    table[group]?.join = (cs.name? group).map Scope.ofString := by
  have hnone (hall : ∀ greatest, cs.greatest? = some greatest → greatest < group) :
      cs.name? group = none := by
    refine Option.eq_none_iff_forall_ne_some.mpr fun name hname => ?_
    obtain ⟨c, hc, -⟩ := Captures.mem_of_name? hname
    obtain ⟨greatest, hgreatest, hle⟩ := Captures.exists_greatest?_of_mem hsorted hc
    have hlt := hall greatest hgreatest
    dsimp only at hle
    omega
  unfold captureTable at h
  cases hgreatest : cs.greatest? with
  | none =>
    rw [hgreatest] at h
    cases h
    rw [hnone (by simp [hgreatest]), List.getElem?_nil, Option.join_none, Option.map_none]
  | some greatest =>
    rw [hgreatest] at h
    dsimp only at h
    split at h
    · cases h
    · cases h
      by_cases hle : group ≤ greatest
      · simp [List.getElem?_map, List.getElem?_range (show group < greatest + 1 by omega),
          Captures.name?]
      · rw [hnone (by simp [hgreatest]; omega), List.getElem?_eq_none (by simp; omega)]
        rfl

/-- Captures of one list are refused alike, or give each group the same scope. -/
theorem agree_captureTable (h : cs.Lists captures) (h' : cs'.Lists captures)
    (hwithin : Within captures p) :
    Agree SameScopes (captureTable cs p) (captureTable cs' p) := by
  have hok (hle : ∀ greatest, cs.greatest? = some greatest → greatest ≤ p.groups)
      (hle' : ∀ greatest, cs'.greatest? = some greatest → greatest ≤ p.groups) :
      Agree SameScopes (captureTable cs p) (captureTable cs' p) := by
    obtain ⟨table, htable⟩ := captureTable_of_le hle
    obtain ⟨table', htable'⟩ := captureTable_of_le hle'
    rw [htable, htable']
    refine .ok fun group => ?_
    rw [join_getElem?_captureTable h.sorted htable, join_getElem?_captureTable h'.sorted htable',
      h.name?_eq h']
  rcases hwithin with hlength | ⟨c, hlast, hname⟩
  · refine hok (fun greatest hgreatest => ?_) fun greatest hgreatest => ?_
    · have := h.lt_of_greatest? hgreatest
      omega
    · have := h'.lt_of_greatest? hgreatest
      omega
  · rw [List.getLast?_eq_getElem?] at hlast
    have hgreatest := h.greatest?_of_mem (h.named _ c hlast hname)
    have hgreatest' := h'.greatest?_of_mem (h'.named _ c hlast hname)
    by_cases hle : captures.length - 1 ≤ p.groups
    · refine hok ?_ ?_
      · rw [hgreatest]
        rintro _ ⟨⟩
        exact hle
      · rw [hgreatest']
        rintro _ ⟨⟩
        exact hle
    · rw [captureTable_of_lt hgreatest (by omega), captureTable_of_lt hgreatest' (by omega)]
      exact .error _

/-- The two notations come to the same only if the pattern has a group for each capture or the last
one has a name. -/
theorem agree_captureTable_iff :
    Agree SameScopes (captureTable (.ofNames captures) p) (captureTable (.ofPlaces captures) p)
      ↔ Within captures p := by
  refine ⟨fun hagree => ?_,
    agree_captureTable (Captures.lists_ofNames captures) (Captures.lists_ofPlaces captures)⟩
  refine Classical.or_iff_not_imp_left.mpr fun hlength => ?_
  have hlt : captures.length - 1 < captures.length := by omega
  have hlast : captures[captures.length - 1]? = some captures[captures.length - 1] :=
    List.getElem?_eq_getElem hlt
  have hgreatest := (Captures.lists_ofPlaces captures).greatest?_of_mem
    (Captures.entries_ofPlaces captures ▸ Captures.mem_numbered.mpr hlast)
  rw [captureTable_of_lt hgreatest (by omega)] at hagree
  have hnames : (Captures.ofNames captures).greatest? = some (captures.length - 1) := by
    generalize htable : captureTable (.ofNames captures) p = result at hagree
    cases hagree
    exact greatest?_of_captureTable htable
  obtain ⟨c, hmem, hc⟩ := (Captures.lists_ofNames captures).getElem?_of_greatest? hnames
  rw [Captures.entries_ofNames] at hmem
  exact ⟨c, List.getLast?_eq_getElem?.trans hc, (List.mem_filter.mp hmem).2⟩

/-- Captures that stand in for nothing, or only for captures that give no scope, come to the same in
both notations next to the general ones. -/
theorem agree_captureTable_orElse {general : Captures}
    (hwithin : Within captures p) (hstanding : Standing captures general p) :
    Agree SameScopes (captureTable ((Captures.ofNames captures).orElse general) p)
      (captureTable ((Captures.ofPlaces captures).orElse general) p) := by
  have hagree := agree_captureTable_iff.mpr hwithin
  by_cases hnil : captures = []
  · subst hnil
    exact .refl (fun _ _ => rfl) _
  have hplaces : (Captures.ofPlaces captures).isEmpty = false := by
    rw [Captures.isEmpty, Captures.entries_ofPlaces, List.isEmpty_eq_false_iff,
      Captures.numbered, Ne, List.map_eq_nil_iff, List.zipIdx_eq_nil_iff]
    exact hnil
  have hplaces : (Captures.ofPlaces captures).orElse general = .ofPlaces captures := by
    rw [Captures.orElse, hplaces, if_neg Bool.false_ne_true]
  rw [hplaces]
  by_cases hnamed : ∃ c ∈ captures, c.name.isSome
  · obtain ⟨c, hc, hname⟩ := hnamed
    obtain ⟨group, hgroup⟩ := List.mem_iff_getElem?.mp hc
    have hmem := (Captures.lists_ofNames captures).named group c hgroup hname
    have hnames : (Captures.ofNames captures).isEmpty = false :=
      List.isEmpty_eq_false_iff.mpr (List.ne_nil_of_mem hmem)
    rw [Captures.orElse, hnames, if_neg Bool.false_ne_true]
    exact hagree
  · -- without any name, the array gives no captures, and the general ones take their place
    obtain ⟨table, htable, hnone⟩ := (hstanding.resolve_left hnil).resolve_left hnamed
    have hnames : Captures.ofNames captures = {} := by
      refine congrArg Captures.mk ?_
      rw [List.map_eq_nil_iff, List.filter_eq_nil_iff]
      exact fun entry hentry hname =>
        hnamed ⟨entry.1, (List.fst_mem_of_mem_zipIdx hentry), hname⟩
    rw [hnames] at hagree ⊢
    change Agree SameScopes (captureTable general p) _
    rw [htable]
    generalize captureTable (.ofPlaces captures) p = result at hagree ⊢
    cases hagree with
    | ok hsame =>
      refine .ok fun group => Eq.trans ?_ (hsame group)
      cases hscope : table[group]? with
      | none => rfl
      | some scope =>
        rw [hnone scope (List.mem_of_getElem? hscope)]
        rfl

end ScopedText
