import ScopedText.NameMap

/-!
# Grammar sources

A grammar as it is written, before it is compiled. A rule gives whatever fields it likes; which of
them count is decided by the compiler.
-/

namespace ScopedText.Source

/-- The scope given to one group of a match. -/
structure Capture where
  name : Option String := none
deriving DecidableEq, Repr, Inhabited

/-- The captures of a pattern by group number, in increasing order. -/
structure Captures where
  entries : List (Nat × Capture) := []
deriving DecidableEq, Repr, Inhabited

namespace Captures

def insertEntry (group : Nat) (c : Capture) : List (Nat × Capture) → List (Nat × Capture)
  | [] => [(group, c)]
  | (other, d) :: entries =>
    if group < other then (group, c) :: (other, d) :: entries
    else if group = other then (group, c) :: entries
    else (other, d) :: insertEntry group c entries

def insert (cs : Captures) (group : Nat) (c : Capture) : Captures :=
  ⟨insertEntry group c cs.entries⟩

/-- The captures of the given groups; later ones take the place of earlier ones. -/
def ofList (entries : List (Nat × Capture)) : Captures :=
  entries.foldl (fun cs (group, c) => cs.insert group c) {}

/-- The captures of the groups from 0 on; those without a name are left out. -/
def ofNames (captures : List Capture) : Captures :=
  ⟨(captures.zipIdx.filter (·.1.name.isSome)).map fun (c, group) => (group, c)⟩

def isEmpty (cs : Captures) : Bool := cs.entries.isEmpty

def greatest? (cs : Captures) : Option Nat := cs.entries.getLast?.map (·.1)

def find? (cs : Captures) (group : Nat) : Option Capture :=
  (cs.entries.find? (·.1 == group)).map (·.2)

end Captures

/-- A rule as it is written. -/
structure Rule where
  /-- The scope of everything the rule matches. -/
  name : Option String := none
  comment : Option String := none
  /-- The pattern of a rule that matches a single span. -/
  single : Option String := none
  /-- The pattern that opens a region. -/
  opening : Option String := none
  /-- The pattern that closes a region; it may refer to the groups of the opening one. -/
  closing : Option String := none
  captures : Captures := {}
  openingCaptures : Captures := {}
  closingCaptures : Captures := {}
  /-- The rules inside of a region, or the rules of a container. -/
  rules : List Rule := []
  /-- The rules that are included by name. -/
  included : Option String := none
  /-- With 0, the closing pattern comes before the rules of the region. -/
  closingLast : Option Nat := none
deriving Inhabited, Repr

/-- A grammar as it is written. -/
structure Grammar where
  name : String := ""
  displayName : Option String := none
  description : Option String := none
  comment : Option String := none
  scopeName : String := ""
  fileTypes : List String := []
  firstLine : Option String := none
  /-- What the variables in the patterns stand for. -/
  definitions : NameMap String := {}
  rules : List Rule := []
  repository : NameMap Rule := {}
deriving Inhabited, Repr

end ScopedText.Source
