import ScopedText.Unicode.CategoryRuns

/-!
# General categories

`Category.of c` is the Unicode general category of a character, found by bisection in the decoded
run table.
-/

namespace ScopedText.Unicode

inductive Category
  | Lu | Ll | Lt | Lm | Lo
  | Mn | Mc | Me
  | Nd | Nl | No
  | Pc | Pd | Ps | Pe | Pi | Pf | Po
  | Sm | Sc | Sk | So
  | Zs | Zl | Zp
  | Cc | Cf | Cs | Co | Cn
deriving DecidableEq, Repr, Inhabited

namespace Category

/-- The two letters of a category in lower case, with its full name; words are not separated. -/
def names : List (Category × String × String) := [
  (Lu, "lu", "uppercaseletter"), (Ll, "ll", "lowercaseletter"), (Lt, "lt", "titlecaseletter"),
  (Lm, "lm", "modifierletter"), (Lo, "lo", "otherletter"), (Mn, "mn", "nonspacingmark"),
  (Mc, "mc", "spacingmark"), (Me, "me", "enclosingmark"), (Nd, "nd", "decimalnumber"),
  (Nl, "nl", "letternumber"), (No, "no", "othernumber"), (Pc, "pc", "connectorpunctuation"),
  (Pd, "pd", "dashpunctuation"), (Ps, "ps", "openpunctuation"), (Pe, "pe", "closepunctuation"),
  (Pi, "pi", "initialpunctuation"), (Pf, "pf", "finalpunctuation"),
  (Po, "po", "otherpunctuation"), (Sm, "sm", "mathsymbol"), (Sc, "sc", "currencysymbol"),
  (Sk, "sk", "modifiersymbol"), (So, "so", "othersymbol"), (Zs, "zs", "spaceseparator"),
  (Zl, "zl", "lineseparator"), (Zp, "zp", "paragraphseparator"), (Cc, "cc", "control"),
  (Cf, "cf", "format"), (Cs, "cs", "surrogate"), (Co, "co", "privateuse"),
  (Cn, "cn", "unassigned")]

/-- The category with the given two-letter name. -/
def ofLetters (first second : Char) : Option Category :=
  (names.find? fun (_, short, _) => short.toList == [first.toLower, second]).map (·.1)

/-- One of the seven groups of categories: L, M, N, P, S, Z and C. -/
def group : Category → Char
  | Lu | Ll | Lt | Lm | Lo => 'l'
  | Mn | Mc | Me => 'm'
  | Nd | Nl | No => 'n'
  | Pc | Pd | Ps | Pe | Pi | Pf | Po => 'p'
  | Sm | Sc | Sk | So => 's'
  | Zs | Zl | Zp => 'z'
  | Cc | Cf | Cs | Co | Cn => 'c'

end Category

/-- What has been read of a run table: the finished runs and the entry in progress. -/
structure RunReader where
  runs : Array (Nat × Category) := #[]
  start : Nat := 0
  first : Option Char := none

namespace RunReader

def digit (c : Char) : Nat := if c.isDigit then c.toNat - 48 else c.toNat - 87

/-- Reads one character of a run table. -/
def push (r : RunReader) (c : Char) : RunReader :=
  match r.first with
  | some first => ⟨r.runs.push (r.start, (Category.ofLetters first c).getD .Cn), 0, none⟩
  | none =>
    if c = ' ' then { r with start := 0 }
    else if c.isUpper then { r with first := some c }
    else { r with start := r.start * 16 + digit c }

end RunReader

/-- The runs of the table, each with its first code point. -/
def categoryTable : Array (Nat × Category) :=
  (categoryRuns.foldl (fun (r : RunReader) (line : String) =>
    (line.toList.foldl RunReader.push r).push ' ') {}).runs

/-- The entry that covers `n` among those from `lo` on and before `hi`, by bisection. -/
def bisect (table : Array (Nat × Category)) (n lo hi : Nat) : Category :=
  if hi ≤ lo + 1 then (table[lo]?.getD (0, .Cn)).2
  else
    let mid := (lo + hi) / 2
    if (table[mid]?.getD (0, .Cn)).1 ≤ n then bisect table n mid hi else bisect table n lo mid
termination_by hi - lo

def Category.of (c : Char) : Category := bisect categoryTable c.toNat 0 categoryTable.size

end ScopedText.Unicode
