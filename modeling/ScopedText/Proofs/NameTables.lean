import Mathlib.Data.List.Nodup
import ScopedText.NameMap

/-!
# Names and entries

A table lists its entries in the order of their names. Entries that are put in one after the other
keep that order, so each name stands once (`sorted_insert`, `sorted_ofList`), and a table in order
is determined by what is under each name (`Sorted.eq_of_find?`).
-/

namespace ScopedText

namespace NameMap

variable {α : Type}

theorem find?_insert_eq (m : NameMap α) (name n : String) (a : α) :
    (m.insert name a).find? n = if n = name then some a else m.find? n := by
  by_cases h : n = name
  · rw [if_pos h, h, find?_insert_self]
  · rw [if_neg h, find?_insert_of_ne m h]

theorem exists_find?_iff {m : NameMap α} {name : String} :
    (∃ a, m.find? name = some a) ↔ name ∈ m.names := by
  rw [← Option.isSome_iff_exists, find?, Option.isSome_map, List.find?_isSome, names, List.mem_map]
  simp

theorem find?_eq_none_iff {m : NameMap α} {name : String} :
    m.find? name = none ↔ name ∉ m.names := by
  rw [← exists_find?_iff, ← Option.isSome_iff_exists, Option.not_isSome_iff_eq_none]

theorem find?_eq_some_iff {m : NameMap α} (h : m.names.Nodup) {name : String} {a : α} :
    m.find? name = some a ↔ (name, a) ∈ m.entries := by
  constructor
  · intro hfind
    obtain ⟨⟨other, b⟩, hentry, rfl⟩ := Option.map_eq_some_iff.mp hfind
    obtain rfl : other = name := by simpa using List.find?_some hentry
    exact List.mem_of_find?_eq_some hentry
  · intro hmem
    have hfound : (m.entries.find? (·.1 == name)).isSome = true :=
      List.find?_isSome.mpr ⟨_, hmem, beq_self_eq_true name⟩
    obtain ⟨⟨other, b⟩, hentry⟩ := Option.isSome_iff_exists.mp hfound
    obtain rfl : other = name := by simpa using List.find?_some hentry
    have heq := List.inj_on_of_nodup_map h (List.mem_of_find?_eq_some hentry) hmem rfl
    cases heq
    rw [find?, hentry]
    rfl

/-- The order in which a table lists its entries does not matter. -/
theorem find?_of_perm {m m' : NameMap α} (h : m.names.Nodup) (hperm : m'.entries.Perm m.entries)
    (name : String) : m'.find? name = m.find? name := by
  have h' : m'.names.Nodup := (hperm.map _).nodup_iff.mpr h
  ext a
  rw [find?_eq_some_iff h', find?_eq_some_iff h, hperm.mem_iff]

theorem mem_names_insertEntry {name n : String} {a : α} {entries : List (String × α)}
    (h : n ∈ (insertEntry name a entries).map (·.1)) : n = name ∨ n ∈ entries.map (·.1) := by
  induction entries with
  | nil => exact .inl (List.mem_singleton.mp h)
  | cons entry entries ih =>
    obtain ⟨other, b⟩ := entry
    unfold insertEntry at h
    split at h
    · exact List.mem_cons.mp h
    · split at h
      · exact (List.mem_cons.mp h).imp_right (List.mem_cons_of_mem _)
      · rcases List.mem_cons.mp h with hother | hrest
        · exact .inr (hother ▸ List.mem_cons_self)
        · exact (ih hrest).imp_right (List.mem_cons_of_mem _)

theorem pairwise_insertEntry (name : String) (a : α) {entries : List (String × α)}
    (h : (entries.map (·.1)).Pairwise (· < ·)) :
    ((insertEntry name a entries).map (·.1)).Pairwise (· < ·) := by
  induction entries with
  | nil => exact List.pairwise_singleton _ _
  | cons entry entries ih =>
    obtain ⟨other, b⟩ := entry
    obtain ⟨hbehind, hrest⟩ := List.pairwise_cons.mp h
    unfold insertEntry
    split
    case isTrue hlt =>
      refine List.Pairwise.cons (fun n hn => ?_) h
      rcases List.mem_cons.mp hn with rfl | hn
      · exact hlt
      · exact Std.lt_trans hlt (hbehind n hn)
    case isFalse hlt =>
      split
      case isTrue heq => exact heq ▸ h
      case isFalse hne =>
        refine List.Pairwise.cons (fun n hn => ?_) (ih hrest)
        rcases mem_names_insertEntry hn with rfl | hn
        · exact Std.lt_of_le_of_ne (Std.not_lt.mp hlt) (Ne.symm hne)
        · exact hbehind n hn

/-- The names stand in increasing order, each of them once. -/
def Sorted (m : NameMap α) : Prop := m.names.Pairwise (· < ·)

theorem sorted_empty : (empty : NameMap α).Sorted := .nil

theorem sorted_insert {m : NameMap α} (h : m.Sorted) (name : String) (a : α) :
    (m.insert name a).Sorted := pairwise_insertEntry name a h

theorem sorted_ofList (entries : List (String × α)) : (ofList entries).Sorted :=
  List.foldlRecOn (motive := Sorted) entries _ sorted_empty
    fun _ hm entry _ => sorted_insert hm entry.1 entry.2

theorem Sorted.nodup {m : NameMap α} (h : m.Sorted) : m.names.Nodup :=
  h.imp fun {n other} (hlt : n < other) (heq : n = other) => Std.lt_irrefl (heq ▸ hlt)

/-- Tables that are put together from entries have each name once. -/
theorem nodup_names_ofList (entries : List (String × α)) : (ofList entries).names.Nodup :=
  (sorted_ofList entries).nodup

/-- A table in order is determined by what is under each name. -/
theorem Sorted.eq_of_find? {m m' : NameMap α} (h : m.Sorted) (h' : m'.Sorted)
    (hfind : ∀ name, m.find? name = m'.find? name) : m = m' := by
  have hentries : m.entries = m'.entries := by
    have hperm : m.entries.Perm m'.entries := by
      refine (List.perm_ext_iff_of_nodup (.of_map _ h.nodup) (.of_map _ h'.nodup)).mpr ?_
      rintro ⟨name, a⟩
      rw [← find?_eq_some_iff h.nodup, ← find?_eq_some_iff h'.nodup, hfind]
    refine hperm.eq_of_pairwise ?_ (List.pairwise_map.mp h) (List.pairwise_map.mp h')
    intro e e' _ _ hlt hgt
    exact absurd (Std.lt_trans hlt hgt) Std.lt_irrefl
  cases m
  cases m'
  cases hentries
  rfl

theorem perm_insertEntry {name : String} {entries : List (String × α)}
    (h : name ∉ entries.map (·.1)) (a : α) :
    (insertEntry name a entries).Perm ((name, a) :: entries) := by
  induction entries with
  | nil => exact .refl _
  | cons entry entries ih =>
    obtain ⟨other, b⟩ := entry
    simp only [List.map_cons, List.mem_cons, not_or] at h
    obtain ⟨hne, hrest⟩ := h
    unfold insertEntry
    split
    · exact .refl _
    · exact ((ih hrest).cons _).trans (.swap ..)

theorem perm_foldl_insert {entries : List (String × α)} {m : NameMap α}
    (h : (m.names ++ entries.map (·.1)).Nodup) :
    (entries.foldl (fun m entry => m.insert entry.1 entry.2) m).entries.Perm
      (m.entries ++ entries) := by
  induction entries generalizing m with
  | nil => simp
  | cons entry entries ih =>
    obtain ⟨name, a⟩ := entry
    obtain ⟨_, _, hapart⟩ := List.nodup_append.mp h
    have hfresh : name ∉ m.names := fun hmem => hapart _ hmem _ List.mem_cons_self rfl
    have hperm := perm_insertEntry hfresh a
    have hnames : ((m.insert name a).names ++ entries.map (·.1)).Perm
        (m.names ++ name :: entries.map (·.1)) :=
      ((hperm.map _).append_right _).trans List.perm_middle.symm
    have hrest := ih (hnames.nodup_iff.mpr h)
    exact hrest.trans ((hperm.append_right _).trans List.perm_middle.symm)

/-- Entries under different names are all kept. -/
theorem perm_ofList {entries : List (String × α)} (h : (entries.map (·.1)).Nodup) :
    (ofList entries).entries.Perm entries :=
  perm_foldl_insert (m := empty) h

end NameMap

end ScopedText
