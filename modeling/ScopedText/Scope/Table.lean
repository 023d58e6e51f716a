import ScopedText.Scope

/-!
# Interned scopes

A `Table` numbers atoms in the order in which they are first seen, from 1. A `Packed` scope is one
word of eight 16-bit slots, the first atom in the highest slot and 0 in the unused slots, so that
equality is equality of words and an ancestor is found by masking the slots it does not use.
-/

namespace ScopedText.Scope

/-- The atoms seen so far; the atom at index `i` has the number `i + 1`. -/
structure Table where
  atoms : List String := []
deriving Repr, Inhabited

/-- A scope as one word. -/
structure Packed where
  bits : BitVec 128
deriving DecidableEq, Repr, Inhabited

namespace Packed

/-- How far the slot `i` is shifted; slot 0 is the highest. -/
def shift (i : Nat) : Nat := (maxAtoms - 1 - i) * 16

/-- The atom number in the slot `i`, 0 if the slot is unused. -/
def atomAt (p : Packed) (i : Nat) : Nat := ((p.bits >>> shift i) &&& 0xFFFF#128).toNat

/-- Puts the numbers into the slots, the first one highest. -/
def ofNumbers (numbers : List Nat) : Packed :=
  ⟨numbers.zipIdx.foldl (fun bits (n, i) => bits ||| (BitVec.ofNat 128 n <<< shift i)) 0#128⟩

def unused (p : Packed) : Nat :=
  ((List.range maxAtoms).takeWhile fun i => p.atomAt (maxAtoms - 1 - i) == 0).length

def length (p : Packed) : Nat := maxAtoms - p.unused

/-- The word of the scope with no atoms. -/
def isEmpty (p : Packed) : Bool := p.bits == 0#128

/-- Whether `p` is `q` or one of its ancestors: they agree on the slots that `p` uses. -/
def isPrefixOf (p q : Packed) : Bool :=
  p.unused == maxAtoms
    || ((p.bits ^^^ q.bits) &&& (BitVec.allOnes 128 <<< (p.unused * 16))) == 0#128

/-- Whether some slot holds the same atom in both. -/
def sharesSlot (p q : Packed) : Bool :=
  (List.range maxAtoms).any fun i => p.atomAt i != 0 && p.atomAt i == q.atomAt i

end Packed

namespace Table

def number (t : Table) (atom : String) : Nat × Table :=
  match t.atoms.findIdx? (· == atom) with
  | some i => (i + 1, t)
  | none => (t.atoms.length + 1, ⟨t.atoms ++ [atom]⟩)

def numbers (t : Table) : List String → List Nat × Table
  | [] => ([], t)
  | atom :: atoms =>
    let (n, t) := t.number atom
    let (ns, t) := t.numbers atoms
    (n :: ns, t)

def intern (t : Table) (name : String) : Packed × Table :=
  let (ns, t) := t.numbers (Scope.atomsOf name)
  (Packed.ofNumbers ns, t)

def internAll (t : Table) : List String → List Packed × Table
  | [] => ([], t)
  | name :: names =>
    let (p, t) := t.intern name
    let (ps, t) := t.internAll names
    (p :: ps, t)

def scope (t : Table) (p : Packed) : Scope :=
  ⟨(List.range p.length).map fun i => t.atoms.getD (p.atomAt i - 1) ""⟩

end Table

end ScopedText.Scope
