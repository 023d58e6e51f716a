import ScopedText.Proofs.InternedScopes

/-!
# Names of scopes, read again

The name of a scope is its atoms with dots between them. Cutting it at the dots gives the atoms back
(`Text.split_intercalate`), but a name is trimmed before it is cut, and this is done to the whole
name only: an atom can start or end with blanks that stood next to a dot. So the name of a scope
names the same scope again exactly if no blank stands at its ends (`name_again_iff`).
-/

namespace ScopedText

namespace Text

/-! ## Cutting and joining -/

section

variable {sep : Char} {piece rest : List Char}

theorem split_of_notMem (h : sep ∉ piece) : split sep piece = [piece] := by
  induction piece with
  | nil => rfl
  | cons c cs ih =>
    obtain ⟨hc, hcs⟩ := not_or.mp (mt List.mem_cons.mpr h)
    rw [split, if_neg (Ne.symm hc), ih hcs]

theorem split_append (h : sep ∉ piece) :
    split sep (piece ++ sep :: rest) = piece :: split sep rest := by
  induction piece with
  | nil => simp [split]
  | cons c cs ih =>
    obtain ⟨hc, hcs⟩ := not_or.mp (mt List.mem_cons.mpr h)
    rw [List.cons_append, split, if_neg (Ne.symm hc), ih hcs]

/-- What is joined is cut at the same places. -/
theorem split_intercalate {pieces : List (List Char)} (hne : pieces ≠ [])
    (h : ∀ piece ∈ pieces, sep ∉ piece) : split sep ([sep].intercalate pieces) = pieces := by
  induction pieces with
  | nil => exact absurd rfl hne
  | cons piece pieces ih =>
    obtain ⟨hpiece, hpieces⟩ := List.forall_mem_cons.mp h
    cases pieces with
    | nil => rw [List.intercalate_singleton, split_of_notMem hpiece]
    | cons next pieces =>
      rw [List.intercalate_cons_cons, List.append_assoc, List.singleton_append,
        split_append hpiece, ih (List.cons_ne_nil _ _) hpieces]

/-- The pieces hold all characters but the one the text was cut at. -/
theorem flatten_split (cs : List Char) : (split sep cs).flatten = cs.filter (· != sep) := by
  induction cs with
  | nil => rfl
  | cons c cs ih =>
    unfold split
    split
    case isTrue hc => simp [ih, hc]
    case isFalse hc =>
      have hkept : (c != sep) = true := by simpa using hc
      rw [List.filter_cons, if_pos hkept, ← ih]
      cases hsplit : split sep cs with
      | nil => exact absurd hsplit (split_ne_nil sep cs)
      | cons piece pieces => rfl

end

/-- The first few pieces that are not empty hold at most these characters. -/
theorem length_flatten_take_le (sep : Char) (n : Nat) (cs : List Char) :
    (((split sep cs).filter (! ·.isEmpty)).take n).flatten.length
      ≤ (cs.filter (· != sep)).length := by
  have htake (pieces : List (List Char)) :
      (pieces.take n).flatten.length ≤ pieces.flatten.length := by
    conv_rhs => rw [← List.take_append_drop n pieces, List.flatten_append, List.length_append]
    exact Nat.le_add_right _ _
  have hpieces := htake ((split sep cs).filter (! ·.isEmpty))
  rwa [List.flatten_filter_not_isEmpty, flatten_split] at hpieces

/-! ## The ends of joined pieces -/

section

variable {sep : Char} {piece : List Char} {pieces : List (List Char)}

theorem intercalate_cons_ne_nil (h : piece ≠ []) :
    [sep].intercalate (piece :: pieces) ≠ [] := by
  cases pieces with
  | nil => simpa using h
  | cons next pieces => simp [List.intercalate_cons_cons]

theorem head?_intercalate (h : piece ≠ []) :
    ([sep].intercalate (piece :: pieces)).head? = piece.head? := by
  cases pieces with
  | nil => rw [List.intercalate_singleton]
  | cons next pieces =>
    rw [List.intercalate_cons_cons, List.append_assoc, List.head?_append_of_ne_nil _ h]

theorem getLast?_intercalate (h : ∀ piece ∈ pieces, piece ≠ []) :
    ([sep].intercalate pieces).getLast? = pieces.getLast?.bind List.getLast? := by
  induction pieces with
  | nil => rfl
  | cons piece pieces ih =>
    have hpieces := (List.forall_mem_cons.mp h).2
    cases pieces with
    | nil => simp [List.intercalate_singleton]
    | cons next pieces =>
      have hne : [sep].intercalate (next :: pieces) ≠ [] :=
        intercalate_cons_ne_nil (List.forall_mem_cons.mp hpieces).1
      rw [List.intercalate_cons_cons, List.getLast?_append_of_ne_nil _ hne, ih hpieces,
        List.getLast?_cons_cons]

end

/-! ## Trimming -/

/-- Trimming takes blanks away in front and behind. -/
theorem exists_trim (cs : List Char) : ∃ front back, (∀ c ∈ front, isBlank c = true)
    ∧ (∀ c ∈ back, isBlank c = true) ∧ cs = front ++ trim cs ++ back := by
  refine ⟨cs.takeWhile isBlank, ((trimLeft cs).reverse.takeWhile isBlank).reverse,
    fun c hc => List.mem_takeWhile_imp hc,
    fun c hc => List.mem_takeWhile_imp (List.mem_reverse.mp hc), ?_⟩
  rw [trim, List.append_assoc, ← List.reverse_append, trimLeft, trimLeft,
    List.takeWhile_append_dropWhile, List.reverse_reverse, List.takeWhile_append_dropWhile]

theorem trimLeft_eq_self_iff {cs : List Char} :
    trimLeft cs = cs ↔ ∀ c ∈ cs.head?, isBlank c = false := by
  rw [trimLeft, List.dropWhile_eq_self_iff]
  cases cs <;> simp

theorem trim_eq_self_iff {cs : List Char} : trim cs = cs
    ↔ (∀ c ∈ cs.head?, isBlank c = false) ∧ ∀ c ∈ cs.getLast?, isBlank c = false := by
  rw [← trimLeft_eq_self_iff, ← List.head?_reverse, ← trimLeft_eq_self_iff]
  constructor
  · intro h
    have hshort (cs : List Char) : (trimLeft cs).length ≤ cs.length :=
      (List.dropWhile_suffix isBlank).length_le
    have hlen : (trim cs).length = cs.length := congrArg List.length h
    rw [trim, List.length_reverse] at hlen
    have hinner := hshort (trimLeft cs).reverse
    rw [List.length_reverse] at hinner
    have hleft : trimLeft cs = cs := (List.dropWhile_suffix isBlank).eq_of_length
      (Nat.le_antisymm (hshort cs) (hlen ▸ hinner))
    rw [trim, hleft] at h
    exact ⟨hleft, List.reverse_eq_iff.mp h⟩
  · rintro ⟨hleft, hright⟩
    rw [trim, hleft, hright, List.reverse_reverse]

/-- A text that lost none of its other characters was not trimmed of blanks. -/
theorem trim_eq_self_of_length (sep : Char) (hsep : isBlank sep = false) {cs : List Char}
    (h : (cs.filter (· != sep)).length ≤ ((trim cs).filter (· != sep)).length) : trim cs = cs := by
  obtain ⟨front, back, hfront, hback, hcs⟩ := exists_trim cs
  have hblank {blanks : List Char} (hall : ∀ c ∈ blanks, isBlank c = true) :
      blanks.filter (· != sep) = blanks := by
    refine List.filter_eq_self.mpr fun c hc => bne_iff_ne.mpr ?_
    rintro rfl
    exact absurd (hall _ hc) (by simp [hsep])
  have hkept := congrArg (fun cs => (cs.filter (· != sep)).length) hcs
  simp only [List.filter_append, List.length_append, hblank hfront, hblank hback] at hkept
  have hnone : front = [] ∧ back = [] :=
    ⟨List.eq_nil_of_length_eq_zero (by omega), List.eq_nil_of_length_eq_zero (by omega)⟩
  rw [hnone.1, hnone.2, List.nil_append, List.append_nil] at hcs
  exact hcs.symm

end Text

namespace Scope

open Text

/-- No blank stands at either end of the name. -/
def Bare (s : Scope) : Prop :=
  (∀ atom ∈ s.atoms.head?, ∀ c ∈ atom.toList.head?, isBlank c = false)
    ∧ ∀ atom ∈ s.atoms.getLast?, ∀ c ∈ atom.toList.getLast?, isBlank c = false

theorem ofString_eq_iff {name other : String} :
    ofString name = ofString other ↔ atomsOf name = atomsOf other := by
  rw [ofString, ofString, mk.injEq]

theorem dot_notMem_of_mem_atomsOf {name atom : String} (h : atom ∈ atomsOf name) :
    '.' ∉ atom.toList := by
  obtain ⟨piece, hpiece, rfl⟩ := List.mem_map.mp h
  rw [String.toList_ofList]
  exact sep_notMem_of_mem_split (List.mem_filter.mp (List.mem_of_mem_take hpiece)).1

/-- The characters of the atoms of a name. -/
theorem map_toList_atomsOf (name : String) : (atomsOf name).map String.toList
    = ((split '.' (trim name.toList)).filter (! ·.isEmpty)).take maxAtoms := by
  rw [atomsOf, List.map_map]
  exact (List.map_congr_left fun piece _ => String.toList_ofList).trans (List.map_id _)

theorem toList_name (s : Scope) : s.name.toList = ['.'].intercalate (s.atoms.map String.toList) :=
  String.toList_intercalate

/-- A scope is bare if its name is not changed by trimming. -/
theorem bare_iff {s : Scope} (h : ∀ atom ∈ s.atoms, atom ≠ "") :
    s.Bare ↔ trim s.name.toList = s.name.toList := by
  have hpieces : ∀ piece ∈ s.atoms.map String.toList, piece ≠ [] := by
    intro piece hpiece
    obtain ⟨atom, hatom, rfl⟩ := List.mem_map.mp hpiece
    simpa using h atom hatom
  rw [trim_eq_self_iff, toList_name, getLast?_intercalate hpieces, List.getLast?_map]
  cases hatoms : s.atoms with
  | nil => simp [Bare, hatoms]
  | cons atom atoms =>
    rw [hatoms] at hpieces
    have hfirst := (List.forall_mem_cons.mp hpieces).1
    rw [List.map_cons, head?_intercalate hfirst, Bare, hatoms]
    cases (atom :: atoms).getLast? <;> simp

section

variable {name : String}

theorem bare_ofString_iff : (ofString name).Bare
    ↔ trim (ofString name).name.toList = (ofString name).name.toList :=
  bare_iff fun _ hatom => ne_empty_of_mem_atomsOf hatom

theorem split_name (hne : atomsOf name ≠ []) :
    split '.' (ofString name).name.toList = (atomsOf name).map String.toList := by
  rw [toList_name]
  refine split_intercalate (mt List.map_eq_nil_iff.mp hne) fun piece hpiece => ?_
  obtain ⟨atom, hatom, rfl⟩ := List.mem_map.mp hpiece
  exact dot_notMem_of_mem_atomsOf hatom

/-- A name with no blanks at its ends is cut into the atoms it was made of. -/
theorem ofString_name_of_bare (h : (ofString name).Bare) :
    ofString (ofString name).name = ofString name := by
  have hinj : Function.Injective String.toList := fun _ _ => String.toList_injective
  refine ofString_eq_iff.mpr (List.map_injective_iff.mpr hinj ?_)
  rw [map_toList_atomsOf, bare_ofString_iff.mp h]
  by_cases hne : atomsOf name = []
  · rw [toList_name, ofString, hne]
    rfl
  · have hkept : ((atomsOf name).map String.toList).filter (! ·.isEmpty)
        = (atomsOf name).map String.toList := by
      refine List.filter_eq_self.mpr fun piece hpiece => ?_
      obtain ⟨atom, hatom, rfl⟩ := List.mem_map.mp hpiece
      simpa using ne_empty_of_mem_atomsOf hatom
    rw [split_name hne, hkept, List.take_of_length_le]
    rw [List.length_map]
    exact length_atomsOf_le name

/-- If a name is cut into the atoms it was made of, trimming has taken nothing away: what it takes
away are no dots, so the atoms would have lost characters. -/
theorem bare_of_ofString_name (h : ofString (ofString name).name = ofString name) :
    (ofString name).Bare := by
  rw [bare_ofString_iff]
  have hcut := ofString_eq_iff.mp h
  have hatoms : ((atomsOf name).map String.toList).flatten
      = (ofString name).name.toList.filter (· != '.') := by
    by_cases hne : atomsOf name = []
    · rw [toList_name, atoms_ofString, hne]
      rfl
    · rw [← split_name hne, flatten_split]
  refine trim_eq_self_of_length '.' (by decide) ?_
  rw [← hatoms, ← hcut, map_toList_atomsOf]
  exact length_flatten_take_le _ _ _

end

/-- The name of a scope names the same scope again exactly if no blank stands at its ends. This
holds of scopes and of packed ones, in any table and however far it has grown in the meantime. -/
theorem name_again_iff (name : String) :
    (ofString (ofString name).name = ofString name ↔ (ofString name).Bare)
      ∧ ∀ t later : Table, (t.intern name).2.atoms <+: later.atoms →
        (later.intern (later.scope (t.intern name).1).name).2.atoms.length ≤ Table.capacity →
        ((later.intern (later.scope (t.intern name).1).name).1 = (t.intern name).1
          ↔ (ofString name).Bare) := by
  have hagain : ofString (ofString name).name = ofString name ↔ (ofString name).Bare :=
    ⟨bare_of_ofString_name, ofString_name_of_bare⟩
  refine ⟨hagain, fun t later hgrown hsize => ?_⟩
  have hstands := (t.stands_intern name).later hgrown
  have hlater (again : String) := later.prefix_intern again
  have hscope : later.scope (t.intern name).1 = ofString name :=
    hstands.scope_eq (Nat.le_trans (hlater _).length_le hsize) (length_atoms_ofString_le name)
  rw [hscope] at hsize ⊢
  have hsame := (later.stands_intern (ofString name).name).eq_iff hsize
    (length_atoms_ofString_le _) (length_atoms_ofString_le name) (hstands.later (hlater _))
  rw [hsame, ← hagain, ofString_eq_iff, atoms_ofString, atoms_ofString]

/-- Blanks inside of the name do no harm. -/
theorem name_again_inner_blank :
    (ofString " source. lua ").Bare
      ∧ (Table.intern {} " source. lua ").2.atoms
        <+: (Table.internAll {} [" source. lua ", "text"]).2.atoms
      ∧ (Table.intern (Table.internAll {} [" source. lua ", "text"]).2 "source. lua").1
        = (Table.intern {} " source. lua ").1 := by
  have hbare : (ofString " source. lua ").Bare := bare_ofString_iff.mpr (by decide)
  have hgrown : (Table.intern {} " source. lua ").2.atoms
      <+: (Table.internAll {} [" source. lua ", "text"]).2.atoms := by decide
  exact ⟨hbare, hgrown, ((name_again_iff " source. lua ").2 _ _ hgrown (by decide)).mpr hbare⟩

/-- The blank behind the dot comes to stand in front of the name. -/
theorem name_again_leading_dot :
    (ofString ". a").name = " a" ∧ ofString (ofString ". a").name ≠ ofString ". a"
      ∧ (Table.intern (Table.intern {} ". a").2 " a").1 ≠ (Table.intern {} ". a").1 := by
  decide

end Scope

end ScopedText
