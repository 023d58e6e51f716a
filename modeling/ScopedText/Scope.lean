import ScopedText.Text.Blank

/-!
# Scopes

A scope such as `string.quoted.double.lua` is the list of its atoms. It is an ancestor of every
scope that continues it, so `source.lua` covers `source.lua.embedded` but not `source.luax`.
-/

namespace ScopedText

/-- A dotted scope name, outermost atom first. -/
structure Scope where
  atoms : List String
deriving DecidableEq, Repr, Inhabited

namespace Scope

/-- Atoms after this many are dropped. -/
def maxAtoms : Nat := 8

/-- The atoms of a written name: blanks around the whole name and empty parts do not count. -/
def atomsOf (name : String) : List String :=
  (((Text.split '.' (Text.trim name.toList)).filter (! ·.isEmpty)).take maxAtoms).map String.ofList

def ofString (name : String) : Scope := ⟨atomsOf name⟩

def name (s : Scope) : String := ".".intercalate s.atoms

def length (s : Scope) : Nat := s.atoms.length

/-- The scope with no atoms, an ancestor of every scope. -/
def isEmpty (s : Scope) : Bool := s.atoms.isEmpty

/-- Whether `s` is `t` or one of its ancestors. -/
def isPrefixOf (s t : Scope) : Bool := s.atoms.isPrefixOf t.atoms

theorem eq_of_atoms {s t : Scope} (h : s.atoms = t.atoms) : s = t := by
  cases s
  cases t
  exact congrArg mk h

theorem atoms_ofString (name : String) : (ofString name).atoms = atomsOf name := rfl

theorem length_atomsOf_le (name : String) : (atomsOf name).length ≤ maxAtoms := by
  simp only [atomsOf, List.length_map, List.length_take]
  exact Nat.min_le_left ..

theorem length_atoms_ofString_le (name : String) : (ofString name).atoms.length ≤ maxAtoms := by
  rw [atoms_ofString]
  exact length_atomsOf_le name

theorem ne_empty_of_mem_atomsOf {name atom : String} (h : atom ∈ atomsOf name) : atom ≠ "" := by
  obtain ⟨piece, hp, rfl⟩ := List.mem_map.mp h
  have := (List.mem_filter.mp (List.mem_of_mem_take hp)).2
  intro e
  simp [String.ofList_eq_empty_iff] at e
  simp [e] at this

end Scope

end ScopedText
