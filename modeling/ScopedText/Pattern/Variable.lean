import ScopedText.NameMap

/-!
# Variables in patterns

A placeholder is the name of a variable in double braces; `expand` puts the values of a table in.
Only an identifier is a name, so the braces of a quantifier are left alone. The values of a table
can themselves hold placeholders, and `expandTable` expands those in whatever order they need.
-/

namespace ScopedText.Pattern.Variable

def isNameStart (c : Char) : Bool := c.isAlpha || c == '_'

def isNameChar (c : Char) : Bool := c.isAlphanum || c == '_'

def isName : List Char → Bool
  | [] => false
  | c :: cs => isNameStart c && cs.all isNameChar

/-- Cuts a text at the first place where the character `c` stands twice in a row. -/
def breakAtPair (c : Char) : List Char → Option (List Char × List Char)
  | [] => none
  | [_] => none
  | d :: e :: cs =>
    if d = c ∧ e = c then some ([], cs)
    else (breakAtPair c (e :: cs)).map fun (before, after) => (d :: before, after)

theorem eq_of_breakAtPair {c : Char} {cs before after : List Char}
    (h : breakAtPair c cs = some (before, after)) : cs = before ++ c :: c :: after := by
  fun_induction breakAtPair c cs generalizing before after with
  | case1 => simp at h
  | case2 => simp at h
  | case3 d e cs hde => simp_all
  | case4 d e cs hde ih =>
    obtain ⟨⟨before', after'⟩, hb, heq⟩ := Option.map_eq_some_iff.mp h
    simp only [Prod.mk.injEq] at heq
    obtain ⟨rfl, rfl⟩ := heq
    simp [ih hb]

/-- A placeholder whose name is in no table. -/
structure Unknown where
  name : String
deriving DecidableEq, Repr

/-- Expands the placeholders of a pattern, from left to right. A pair of braces that encloses no
identifier gives up its first brace. -/
def expandChars (table : NameMap String) (cs : List Char) : Except Unknown (List Char) :=
  match h : breakAtPair '{' cs with
  | none => .ok cs
  | some (before, after) => match h' : breakAtPair '}' after with
    | none => .ok cs
    | some (name, rest) =>
      have := congrArg List.length (eq_of_breakAtPair h)
      have := congrArg List.length (eq_of_breakAtPair h')
      if isName name then
        match table.find? (String.ofList name) with
        | none => .error ⟨String.ofList name⟩
        | some value => do
          let expanded ← expandChars table rest
          return before ++ value.toList ++ expanded
      else do
        let expanded ← expandChars table ('{' :: after)
        return before ++ '{' :: expanded
termination_by cs.length
decreasing_by
  · simp_all only [List.length_append, List.length_cons]; omega
  · simp_all only [List.length_append, List.length_cons]; omega

def expand (table : NameMap String) (pattern : String) : Except Unknown String :=
  (expandChars table pattern.toList).map String.ofList

/-- What one round over the unexpanded variables leads to. -/
structure Round where
  table : NameMap String
  /-- The variables that could not be expanded yet. -/
  left : List (String × String) := []
  /-- Why the last one of them could not. -/
  fault : Option Unknown := none

/-- Expands, one after the other, the variables whose placeholders are all in the table by then. -/
def round (table : NameMap String) : List (String × String) → Round
  | [] => { table }
  | (name, value) :: pending => match expand table value with
    | .ok expanded => round (table.insert name expanded) pending
    | .error fault =>
      let r := round table pending
      { r with left := (name, value) :: r.left, fault := some (r.fault.getD fault) }

/-- Repeats rounds as long as one of them expands something. -/
def rounds (table : NameMap String) (pending : List (String × String)) :
    Except Unknown (NameMap String) :=
  let r := round table pending
  match r.fault with
  | none => .ok r.table
  | some fault =>
    if r.left.length < pending.length then rounds r.table r.left else .error fault
termination_by pending.length

/-- Expands the variables of a table in terms of each other. It fails if a name is missing or a
variable needs itself. -/
def expandTable (raw : NameMap String) : Except Unknown (NameMap String) :=
  rounds .empty raw.entries

end ScopedText.Pattern.Variable
