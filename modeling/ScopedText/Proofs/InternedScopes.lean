import ScopedText.Proofs.PackedScopes

/-!
# Scopes from a table of atoms

Names are interned one after the other, starting with an empty table. As long as the atoms fit into
it, what packed scopes answer is decided by the atoms of their names alone (`answers_of_history`):
which of them are equal, which are ancestors of which, how long they are, and the names that are
rebuilt from them, then or later. What else was interned, and in which order, does not show.

A table only grows at its end (`prefix_numbers`), so the number of an atom is its place, once and
for all. `Stands` says what a word means in a table, and it still means this in every later one
(`Stands.later`).
-/

namespace ScopedText.Scope.Table

/-- The number of atoms that a table can hold: each number fits into a slot, and 0 is none. -/
def capacity : Nat := 65534

def numberOf (t : Table) (atom : String) : Nat := t.atoms.idxOf atom + 1

def atomOf (t : Table) (n : Nat) : String := t.atoms.getD (n - 1) ""

/-! ## A table grows at its end -/

section

variable {t t' : Table} {atom : String}

theorem atomOf_numberOf (h : atom ∈ t.atoms) : t.atomOf (t.numberOf atom) = atom := by
  have hlt := List.idxOf_lt_length_of_mem h
  rw [atomOf, numberOf, Nat.add_sub_cancel, List.getD_eq_getElem _ _ hlt, List.getElem_idxOf]

theorem numberOf_of_grown (hgrown : t.atoms <+: t'.atoms) (h : atom ∈ t.atoms) :
    t'.numberOf atom = t.numberOf atom := by
  obtain ⟨added, hadded⟩ := hgrown
  rw [numberOf, numberOf, ← hadded, List.idxOf_append_of_mem h]

theorem fits_numberOf (hsize : t.atoms.length ≤ capacity) (h : atom ∈ t.atoms) :
    Packed.Fits (t.numberOf atom) := by
  have hlt := List.idxOf_lt_length_of_mem h
  unfold capacity at hsize
  unfold Packed.Fits numberOf
  omega

theorem prefix_number (t : Table) (atom : String) : t.atoms <+: (t.number atom).2.atoms := by
  unfold number
  split
  · exact List.prefix_refl _
  · exact List.prefix_append ..

/-- An atom that is given a number is in the table, under this number. -/
theorem number_eq (t : Table) (atom : String) :
    atom ∈ (t.number atom).2.atoms ∧ (t.number atom).1 = (t.number atom).2.numberOf atom := by
  unfold number
  split
  · rename_i i hfound
    obtain ⟨hlt, hidx⟩ := List.findIdx?_eq_some_iff_findIdx_eq.mp hfound
    have hplace : t.atoms.idxOf atom = i := hidx
    exact ⟨List.idxOf_lt_length_iff.mp (hplace ▸ hlt), congrArg (· + 1) hplace.symm⟩
  · rename_i hmissing
    have hnew : atom ∉ t.atoms := fun hmem => by
      simpa using List.findIdx?_eq_none_iff.mp hmissing atom hmem
    refine ⟨List.mem_append_right _ List.mem_cons_self, ?_⟩
    simp [numberOf, List.idxOf_append_of_notMem hnew]

theorem numbers_cons (t : Table) (atom : String) (atoms : List String) :
    t.numbers (atom :: atoms) = ((t.number atom).1 :: ((t.number atom).2.numbers atoms).1,
      ((t.number atom).2.numbers atoms).2) := by
  rw [numbers]

theorem prefix_numbers (t : Table) (atoms : List String) :
    t.atoms <+: (t.numbers atoms).2.atoms := by
  induction atoms generalizing t with
  | nil => exact List.prefix_refl _
  | cons atom atoms ih =>
    rw [numbers_cons]
    exact (t.prefix_number atom).trans (ih _)

theorem numbers_eq (t : Table) (atoms : List String) :
    (∀ atom ∈ atoms, atom ∈ (t.numbers atoms).2.atoms)
      ∧ (t.numbers atoms).1 = atoms.map (t.numbers atoms).2.numberOf := by
  induction atoms generalizing t with
  | nil => simp [numbers]
  | cons atom atoms ih =>
    obtain ⟨hmem, hnumber⟩ := t.number_eq atom
    obtain ⟨hrest, hnumbers⟩ := ih (t.number atom).2
    have hgrown := (t.number atom).2.prefix_numbers atoms
    rw [numbers_cons]
    refine ⟨List.forall_mem_cons.mpr ⟨hgrown.subset hmem, hrest⟩, ?_⟩
    rw [List.map_cons, hnumber, hnumbers, numberOf_of_grown hgrown hmem]

end

theorem intern_eq (t : Table) (name : String) : t.intern name
    = (Packed.ofNumbers (t.numbers (atomsOf name)).1, (t.numbers (atomsOf name)).2) := rfl

theorem prefix_intern (t : Table) (name : String) : t.atoms <+: (t.intern name).2.atoms := by
  rw [intern_eq]
  exact t.prefix_numbers _

/-! ## What a packed scope stands for -/

/-- The word holds the numbers that the atoms of a scope have in a table. -/
structure Stands (t : Table) (p : Packed) (s : Scope) : Prop where
  known : ∀ atom ∈ s.atoms, atom ∈ t.atoms
  eq : p = Packed.ofNumbers (s.atoms.map t.numberOf)

theorem stands_intern (t : Table) (name : String) :
    Stands (t.intern name).2 (t.intern name).1 (ofString name) := by
  obtain ⟨hknown, hnumbers⟩ := t.numbers_eq (atomsOf name)
  rw [intern_eq]
  constructor
  · rw [atoms_ofString]
    exact hknown
  · rw [atoms_ofString, ← hnumbers]

namespace Stands

variable {t t' : Table} {p q : Packed} {s r : Scope}

/-- A word keeps its meaning when the table grows. -/
theorem later (h : Stands t p s) (hgrown : t.atoms <+: t'.atoms) : Stands t' p s where
  known atom hatom := hgrown.subset (h.known atom hatom)
  eq := h.eq.trans <| congrArg Packed.ofNumbers <|
    List.map_congr_left fun _ hatom => (numberOf_of_grown hgrown (h.known _ hatom)).symm

variable (hsize : t.atoms.length ≤ capacity) (hs : s.atoms.length ≤ maxAtoms)
  (hr : r.atoms.length ≤ maxAtoms)

include hsize in
theorem fits (h : Stands t p s) : ∀ n ∈ s.atoms.map t.numberOf, Packed.Fits n := by
  intro n hn
  obtain ⟨atom, hatom, rfl⟩ := List.mem_map.mp hn
  exact fits_numberOf hsize (h.known atom hatom)

/-- The atoms can be read off their numbers. -/
theorem map_atomOf (h : Stands t p s) : (s.atoms.map t.numberOf).map t.atomOf = s.atoms := by
  rw [List.map_map]
  exact (List.map_congr_left fun _ hatom => atomOf_numberOf (h.known _ hatom)).trans (List.map_id _)

include hsize hs in
theorem length_eq (h : Stands t p s) : p.length = s.atoms.length := by
  rw [h.eq, Packed.length_ofNumbers (h.fits hsize) (by simpa using hs), List.length_map]

include hsize hs in
theorem isEmpty_iff (h : Stands t p s) : p.isEmpty = true ↔ s.atoms = [] := by
  rw [h.eq, Packed.isEmpty_ofNumbers_iff (h.fits hsize) (by simpa using hs), List.map_eq_nil_iff]

include hsize hs hr in
theorem isPrefixOf_iff (h : Stands t p s) (h' : Stands t q r) :
    p.isPrefixOf q = true ↔ s.atoms <+: r.atoms := by
  rw [h.eq, h'.eq, Packed.isPrefixOf_ofNumbers_iff (h.fits hsize) (by simpa using hs)
    (h'.fits hsize) (by simpa using hr)]
  refine ⟨fun hprefix => ?_, fun hprefix => hprefix.map _⟩
  have hatoms := hprefix.map t.atomOf
  rwa [h.map_atomOf, h'.map_atomOf] at hatoms

include hsize hs hr in
theorem eq_iff (h : Stands t p s) (h' : Stands t q r) : p = q ↔ s.atoms = r.atoms := by
  rw [h.eq, h'.eq, Packed.ofNumbers_inj (h.fits hsize) (by simpa using hs)
    (h'.fits hsize) (by simpa using hr)]
  refine ⟨fun heq => ?_, congrArg (List.map t.numberOf)⟩
  have hatoms := congrArg (List.map t.atomOf) heq
  rwa [h.map_atomOf, h'.map_atomOf] at hatoms

include hsize hs in
theorem scope_eq (h : Stands t p s) : t.scope p = s := by
  have hlen := h.length_eq hsize hs
  refine eq_of_atoms (List.ext_getElem (by simp [scope, hlen]) fun i hi hi' => ?_)
  have hslot : p.atomAt i = t.numberOf s.atoms[i] := by
    rw [h.eq, Packed.atomAt_ofNumbers (h.fits hsize) (by simpa using hs) (by omega)]
    simp [hi']
  simp only [scope, List.getElem_map, List.getElem_range, hslot]
  exact atomOf_numberOf (h.known _ (List.getElem_mem hi'))

end Stands

/-! ## Histories -/

theorem internAll_cons (t : Table) (name : String) (names : List String) :
    t.internAll (name :: names) = ((t.intern name).1 :: ((t.intern name).2.internAll names).1,
      ((t.intern name).2.internAll names).2) := by
  rw [internAll]

theorem prefix_internAll (t : Table) (names : List String) :
    t.atoms <+: (t.internAll names).2.atoms := by
  induction names generalizing t with
  | nil => exact List.prefix_refl _
  | cons name names ih =>
    rw [internAll_cons]
    exact (t.prefix_intern name).trans (ih _)

/-- What is interned keeps its meaning from then on. -/
theorem stands_internAll (t : Table) {names : List String} {i : Nat} {name : String}
    (h : names[i]? = some name) : ∃ p, (t.internAll names).1[i]? = some p
      ∧ ∀ k, i < k → Stands (t.internAll (names.take k)).2 p (ofString name) := by
  induction names generalizing t i with
  | nil => cases h
  | cons first names ih =>
    rw [internAll_cons]
    cases i with
    | zero =>
      obtain rfl : first = name := by simpa using h
      refine ⟨(t.intern first).1, rfl, fun k hk => ?_⟩
      obtain ⟨k, rfl⟩ := Nat.exists_eq_add_one_of_ne_zero (Nat.ne_of_gt hk)
      rw [List.take_succ_cons, internAll_cons]
      exact (t.stands_intern first).later ((t.intern first).2.prefix_internAll (names.take k))
    | succ i =>
      obtain ⟨p, hp, hstands⟩ := ih (t.intern first).2 (by simpa using h)
      refine ⟨p, hp, fun k hk => ?_⟩
      obtain ⟨k, rfl⟩ := Nat.exists_eq_add_one_of_ne_zero (Nat.ne_zero_of_lt hk)
      rw [List.take_succ_cons, internAll_cons]
      exact hstands k (Nat.lt_of_succ_lt_succ hk)

theorem prefix_take (t : Table) (names : List String) (k : Nat) :
    (t.internAll (names.take k)).2.atoms <+: (t.internAll names).2.atoms := by
  induction names generalizing t k with
  | nil => simp only [List.take_nil, List.prefix_refl]
  | cons name names ih =>
    cases k with
    | zero => exact t.prefix_internAll (name :: names)
    | succ k =>
      rw [List.take_succ_cons, internAll_cons, internAll_cons]
      exact ih (t.intern name).2 k

/-- In a history of names whose atoms fit into the table, the answers about two packed scopes are
those about the atoms of their names, and the name of a scope can be rebuilt at any time. -/
theorem answers_of_history {names : List String}
    (h : (internAll {} names).2.atoms.length ≤ capacity) {i j : Nat} {a b : String}
    (ha : names[i]? = some a) (hb : names[j]? = some b) :
    ∃ p q, (internAll {} names).1[i]? = some p ∧ (internAll {} names).1[j]? = some q
      ∧ (p = q ↔ atomsOf a = atomsOf b)
      ∧ (p.isPrefixOf q = true ↔ atomsOf a <+: atomsOf b)
      ∧ p.length = (atomsOf a).length
      ∧ (p.isEmpty = true ↔ atomsOf a = [])
      ∧ ∀ k, i < k →
        ((internAll {} (names.take k)).2.scope p).name = ".".intercalate (atomsOf a) := by
  obtain ⟨p, hp, hstands⟩ := stands_internAll {} ha
  obtain ⟨q, hq, hstands'⟩ := stands_internAll {} hb
  have hgrown (k : Nat) := prefix_take {} names k
  have hp' := (hstands (i + 1) (Nat.lt_succ_self i)).later (hgrown _)
  have hq' := (hstands' (j + 1) (Nat.lt_succ_self j)).later (hgrown _)
  have hlen := length_atoms_ofString_le a
  have hlen' := length_atoms_ofString_le b
  simp only [← atoms_ofString]
  refine ⟨p, q, hp, hq, hp'.eq_iff h hlen hlen' hq', hp'.isPrefixOf_iff h hlen hlen' hq',
    hp'.length_eq h hlen, hp'.isEmpty_iff h hlen, fun k hk => ?_⟩
  have hsize := Nat.le_trans (hgrown k).length_le h
  rw [(hstands k hk).scope_eq hsize hlen, name]

/-- Some of the atoms are shared, one name has too many, and two are written differently. -/
def mixedNames : List String :=
  ["lua", "source..lua ", "source.luax", " .a.b.c.d.e.f.g.h.i.j", "source.lua", "a.b.c.d.e.f.g.h"]

theorem answers_of_history_mixed :
    (internAll {} mixedNames).2.atoms.length ≤ capacity
      ∧ ∃ p q, (internAll {} mixedNames).1[1]? = some p ∧ (internAll {} mixedNames).1[4]? = some q
        ∧ p = q ∧ p.length = 2
        ∧ ((internAll {} (mixedNames.take 2)).2.scope p).name = "source.lua"
        ∧ ∃ long long', (internAll {} mixedNames).1[3]? = some long
          ∧ (internAll {} mixedNames).1[5]? = some long' ∧ long = long' := by
  have hsize : (internAll {} mixedNames).2.atoms.length ≤ capacity := by decide
  obtain ⟨p, q, hp, hq, heq, _, hlength, _, hname⟩ :=
    answers_of_history hsize (i := 1) (j := 4) rfl rfl
  obtain ⟨long, long', hlong, hlong', hsame, _⟩ :=
    answers_of_history hsize (i := 3) (j := 5) rfl rfl
  refine ⟨hsize, p, q, hp, hq, heq.mpr (by decide), hlength.trans (by decide),
    (hname 2 (by decide)).trans (by decide), long, long', hlong, hlong', hsame.mpr (by decide)⟩

end ScopedText.Scope.Table
