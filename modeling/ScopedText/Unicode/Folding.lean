import ScopedText.Unicode.FoldingRuns

/-!
# Case folding

Two characters are the same up to case when they have one simple case folding. `fold` is that
folding and `caseVariants` lists every character that folds alike.
-/

namespace ScopedText.Unicode

namespace FoldingRun

def covers (r : FoldingRun) (n : Nat) : Bool :=
  r.first ≤ n && n ≤ r.last && (n - r.first) % r.step == 0

/-- Where the run sends a code point that it covers. -/
def apply (r : FoldingRun) (n : Nat) : Nat := n + r.up - r.down

/-- The code point that the run sends to `n`, if there is one. -/
def source? (r : FoldingRun) (n : Nat) : Option Nat :=
  let m := n + r.down - r.up
  if r.covers m && r.apply m == n then some m else none

end FoldingRun

def fold (c : Char) : Char :=
  if c.toNat < 128 then c.toLower
  else match foldingRuns.find? (·.covers c.toNat) with
    | some run => Char.ofNat (run.apply c.toNat)
    | none => c

/-- The characters with the same folding as `c`, the folding itself first. -/
def caseVariants (c : Char) : List Char :=
  fold c :: (foldingRuns.filterMap (·.source? (fold c).toNat)).map Char.ofNat

end ScopedText.Unicode
