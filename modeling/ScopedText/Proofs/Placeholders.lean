import ScopedText.Pattern.Variable

/-!
# The placeholders of a pattern

Read from left to right, a pattern consists of placeholders, which are identifiers in double braces,
and of single characters (`Reads`). `pieces` reads it in this way, one position after the other,
without looking ahead for closing braces. Expanding a pattern puts the values of the table in the
places of its placeholders and keeps the characters, and it reports the first placeholder that is
not in the table (`expand_pieces`). So what a pattern expands to depends on its placeholders alone
(`expand_congr`, `exists_expand_iff`).

The two ways of reading agree because an identifier holds no brace: the first two closing braces
behind two opening ones end a placeholder or show that there is none at this place
(`expandChars_eq_fill`).
-/

namespace ScopedText.Pattern.Variable

inductive Piece
  | plain (c : Char)
  | placeholder (name : String)
deriving DecidableEq, Repr

def Piece.chars : Piece → List Char
  | .plain c => [c]
  | .placeholder name => '{' :: '{' :: (name.toList ++ ['}', '}'])

/-- A text is read from left to right: a placeholder where it starts with one, and a single
character where it does not. -/
inductive Reads : List Char → List Piece → Prop
  | done : Reads [] []
  | placeholder {name rest : List Char} {ps : List Piece} (hname : isName name = true)
      (hrest : Reads rest ps) :
      Reads ('{' :: '{' :: (name ++ '}' :: '}' :: rest)) (.placeholder (String.ofList name) :: ps)
  | plain {c : Char} {cs : List Char} {ps : List Piece}
      (hplain : ∀ name rest, isName name = true →
        c :: cs ≠ '{' :: '{' :: (name ++ '}' :: '}' :: rest))
      (hrest : Reads cs ps) : Reads (c :: cs) (.plain c :: ps)

/-- The placeholder that a text starts with: its name, and the text after it. -/
def placeholder? : List Char → Option (List Char × List Char)
  | '{' :: '{' :: cs =>
    match cs.dropWhile isNameChar with
    | '}' :: '}' :: rest =>
      if isName (cs.takeWhile isNameChar) then some (cs.takeWhile isNameChar, rest) else none
    | _ => none
  | _ => none

theorem eq_of_placeholder? {cs name rest : List Char} (h : placeholder? cs = some (name, rest)) :
    isName name = true ∧ cs = '{' :: '{' :: (name ++ '}' :: '}' :: rest) := by
  unfold placeholder? at h
  split at h
  · rename_i cs
    split at h
    · rename_i rest' hdrop
      obtain ⟨hname, heq⟩ := Option.ite_none_right_eq_some.mp h
      cases heq
      refine ⟨hname, ?_⟩
      rw [← hdrop, List.takeWhile_append_dropWhile]
    · cases h
  · cases h

/-- The parts of a pattern, from left to right. -/
def pieces (cs : List Char) : List Piece :=
  match h : placeholder? cs with
  | some (name, rest) =>
    have := congrArg List.length (eq_of_placeholder? h).2
    .placeholder (String.ofList name) :: pieces rest
  | none =>
    match cs with
    | [] => []
    | c :: cs => .plain c :: pieces cs
termination_by cs.length
decreasing_by
  · simp only [List.length_cons, List.length_append] at this
    omega
  · simp

def namesOf : List Piece → List String
  | [] => []
  | .plain _ :: ps => namesOf ps
  | .placeholder name :: ps => name :: namesOf ps

/-- The names of the placeholders of a pattern, from left to right. -/
def references (pattern : String) : List String := namesOf (pieces pattern.toList)

/-- The first of these names that is not in the table. -/
def missing? (table : NameMap String) (names : List String) : Option String :=
  names.find? fun name => (table.find? name).isNone

/-- What takes the place of a part. -/
def valueIn (table : NameMap String) : Piece → List Char
  | .plain c => [c]
  | .placeholder name => ((table.find? name).getD "").toList

/-- Puts the values of a table in the places of the placeholders. -/
def fill (table : NameMap String) : List Piece → Except Unknown (List Char)
  | [] => .ok []
  | .plain c :: ps => do return c :: (← fill table ps)
  | .placeholder name :: ps =>
    match table.find? name with
    | none => .error ⟨name⟩
    | some value => do return value.toList ++ (← fill table ps)

/-! ## The two ways of reading -/

@[simp] theorem pieces_nil : pieces [] = [] := by
  rw [pieces]
  rfl

theorem pieces_of_placeholder? {cs name rest : List Char}
    (h : placeholder? cs = some (name, rest)) :
    pieces cs = .placeholder (String.ofList name) :: pieces rest := by
  rw [pieces]
  split
  · rename_i heq
    rw [h] at heq
    cases heq
    rfl
  · rename_i heq
    rw [h] at heq
    cases heq

theorem pieces_cons {c : Char} {cs : List Char} (h : placeholder? (c :: cs) = none) :
    pieces (c :: cs) = .plain c :: pieces cs := by
  rw [pieces]
  split
  · rename_i heq
    rw [h] at heq
    cases heq
  · rfl

theorem isNameChar_of_isNameStart {c : Char} (h : isNameStart c = true) : isNameChar c = true := by
  unfold isNameStart at h
  unfold isNameChar Char.isAlphanum
  rcases Bool.or_eq_true _ _ |>.mp h with h | h <;> simp [h]

theorem all_isNameChar {name : List Char} (h : isName name = true) :
    ∀ c ∈ name, isNameChar c = true := by
  cases name with
  | nil => exact fun _ hc => absurd hc List.not_mem_nil
  | cons c cs =>
    obtain ⟨hstart, hrest⟩ := Bool.and_eq_true _ _ |>.mp h
    exact List.forall_mem_cons.mpr ⟨isNameChar_of_isNameStart hstart, List.all_eq_true.mp hrest⟩

theorem closing_notMem {name : List Char} (h : isName name = true) : '}' ∉ name := fun hmem =>
  absurd (all_isNameChar h _ hmem) (by decide)

theorem placeholder?_eq_none {c d : Char} {cs : List Char} (h : ¬(c = '{' ∧ d = '{')) :
    placeholder? (c :: d :: cs) = none := by
  unfold placeholder?
  split
  · rename_i heq
    cases heq
    exact absurd ⟨rfl, rfl⟩ h
  · rfl

/-- Where a pair stands behind a text without its character, the text is cut there. -/
theorem breakAtPair_append {c : Char} {cs : List Char} (h : c ∉ cs) (rest : List Char) :
    breakAtPair c (cs ++ c :: c :: rest) = some (cs, rest) := by
  induction cs with
  | nil => simp [breakAtPair]
  | cons d cs ih =>
    obtain ⟨hne, hrest⟩ := not_or.mp (mt List.mem_cons.mpr h)
    obtain ⟨e, es, he⟩ := List.exists_cons_of_ne_nil (l := cs ++ c :: c :: rest) (by simp)
    rw [List.cons_append, he, breakAtPair, if_neg fun hpair => hne hpair.1.symm, ← he, ih hrest]
    rfl

theorem placeholder?_of_isName {name : List Char} (h : isName name = true) (rest : List Char) :
    placeholder? ('{' :: '{' :: (name ++ '}' :: '}' :: rest)) = some (name, rest) := by
  have hclosing : isNameChar '}' = false := by decide
  have hdrop : (name ++ '}' :: '}' :: rest).dropWhile isNameChar = '}' :: '}' :: rest := by
    rw [List.dropWhile_append_of_pos (all_isNameChar h),
      List.dropWhile_cons_of_neg (by simp [hclosing])]
  have htake : (name ++ '}' :: '}' :: rest).takeWhile isNameChar = name := by
    rw [List.takeWhile_append_of_pos (all_isNameChar h),
      List.takeWhile_cons_of_neg (by simp [hclosing]), List.append_nil]
  simp only [placeholder?, hdrop, htake, h, if_true]

/-- Behind two opening braces, the text up to the first two closing ones decides. -/
theorem placeholder?_of_breakAtPair {cs name rest : List Char}
    (h : breakAtPair '}' cs = some (name, rest)) :
    placeholder? ('{' :: '{' :: cs) = if isName name then some (name, rest) else none := by
  split
  case isTrue hname => rw [eq_of_breakAtPair h, placeholder?_of_isName hname]
  case isFalse hname =>
    rw [Option.eq_none_iff_forall_not_mem]
    rintro ⟨name', rest'⟩ hsome
    obtain ⟨hname', heq⟩ := eq_of_placeholder? hsome
    obtain rfl : cs = name' ++ '}' :: '}' :: rest' := by simpa using heq
    rw [breakAtPair_append (closing_notMem hname')] at h
    cases h
    exact hname hname'

/-- In front of the first two opening braces there is no placeholder. -/
theorem pieces_of_breakAtPair {cs before after : List Char}
    (h : breakAtPair '{' cs = some (before, after)) :
    pieces cs = before.map .plain ++ pieces ('{' :: '{' :: after) := by
  fun_induction breakAtPair '{' cs generalizing before with
  | case1 => cases h
  | case2 => cases h
  | case3 d e cs hpair =>
    obtain ⟨rfl, rfl⟩ := hpair
    cases h
    rfl
  | case4 d e cs hpair ih =>
    obtain ⟨⟨before', after'⟩, hrest, heq⟩ := Option.map_eq_some_iff.mp h
    cases heq
    rw [pieces_cons (placeholder?_eq_none hpair), ih hrest]
    rfl

theorem pieces_of_no_opening {cs : List Char} (h : breakAtPair '{' cs = none) :
    pieces cs = cs.map .plain := by
  fun_induction breakAtPair '{' cs with
  | case1 => exact pieces_nil
  | case2 c =>
    rw [pieces_cons (by simp [placeholder?]), pieces_nil]
    rfl
  | case3 d e cs hpair => cases h
  | case4 d e cs hpair ih =>
    rw [pieces_cons (placeholder?_eq_none hpair), ih (Option.map_eq_none_iff.mp h)]
    rfl

theorem breakAtPair_cons_eq_none {c d : Char} {cs : List Char} (hne : d ≠ c)
    (h : breakAtPair c cs = none) : breakAtPair c (d :: cs) = none := by
  cases cs with
  | nil => rfl
  | cons e cs => rw [breakAtPair, if_neg fun hpair => hne hpair.1, h, Option.map_none]

/-- Without two closing braces there is no placeholder. -/
theorem pieces_of_no_closing {cs : List Char} (h : breakAtPair '}' cs = none) :
    pieces cs = cs.map .plain := by
  induction cs with
  | nil => exact pieces_nil
  | cons c cs ih =>
    have hnone : placeholder? (c :: cs) = none := by
      rw [Option.eq_none_iff_forall_not_mem]
      rintro ⟨name, rest⟩ hsome
      obtain ⟨hname, heq⟩ := eq_of_placeholder? hsome
      have hnotMem : '}' ∉ '{' :: '{' :: name := by simp [closing_notMem hname]
      rw [heq] at h
      exact absurd (breakAtPair_append hnotMem rest) (h ▸ nofun)
    have htail : breakAtPair '}' cs = none := by
      cases cs with
      | nil => rfl
      | cons d cs =>
        rw [breakAtPair] at h
        split at h
        · cases h
        · exact Option.map_eq_none_iff.mp h
    rw [pieces_cons hnone, ih htail]
    rfl

theorem fill_plain_append (table : NameMap String) (cs : List Char) (ps : List Piece) :
    fill table (cs.map .plain ++ ps) = (fill table ps).map (cs ++ ·) := by
  induction cs with
  | nil =>
    rw [List.map_nil, List.nil_append]
    cases fill table ps <;> rfl
  | cons c cs ih =>
    rw [List.map_cons, List.cons_append, fill, ih]
    cases fill table ps <;> rfl

theorem fill_plain (table : NameMap String) (cs : List Char) :
    fill table (cs.map .plain) = .ok cs := by
  have h := fill_plain_append table cs []
  rw [List.append_nil] at h
  rw [h, fill]
  simp [Except.map]

/-- Expanding a pattern puts the values in the places of its placeholders. -/
theorem expandChars_eq_fill (table : NameMap String) (cs : List Char) :
    expandChars table cs = fill table (pieces cs) := by
  fun_induction expandChars table cs with
  | case1 cs hopening => rw [pieces_of_no_opening hopening, fill_plain]
  | case2 cs before after hopening hclosing =>
    have hnone : breakAtPair '}' ('{' :: '{' :: after) = none :=
      breakAtPair_cons_eq_none (by decide) (breakAtPair_cons_eq_none (by decide) hclosing)
    rw [pieces_of_breakAtPair hopening, pieces_of_no_closing hnone, ← List.map_append, fill_plain,
      eq_of_breakAtPair hopening]
  | case3 cs before after hopening name rest hclosing _ _ hname hunknown =>
    have hhere := placeholder?_of_breakAtPair hclosing
    rw [if_pos hname] at hhere
    rw [pieces_of_breakAtPair hopening, pieces_of_placeholder? hhere, fill_plain_append, fill,
      hunknown]
    rfl
  | case4 cs before after hopening name rest hclosing _ _ hname value hvalue ih =>
    have hhere := placeholder?_of_breakAtPair hclosing
    rw [if_pos hname] at hhere
    rw [pieces_of_breakAtPair hopening, pieces_of_placeholder? hhere, fill_plain_append, fill,
      hvalue, ih]
    cases fill table (pieces rest) with
    | error fault => rfl
    | ok expanded => exact congrArg Except.ok (List.append_assoc ..)
  | case5 cs before after hopening name rest hclosing _ _ hname ih =>
    have hhere := placeholder?_of_breakAtPair hclosing
    rw [if_neg hname] at hhere
    rw [pieces_of_breakAtPair hopening, pieces_cons hhere, fill_plain_append, fill, ih]
    cases fill table (pieces ('{' :: after)) <;> rfl

/-! ## The reading from left to right -/

theorem reads_pieces (cs : List Char) : Reads cs (pieces cs) := by
  fun_induction pieces cs with
  | case1 cs name rest h _ ih =>
    obtain ⟨hname, rfl⟩ := eq_of_placeholder? h
    exact .placeholder hname ih
  | case2 => exact .done
  | case3 c cs h ih =>
    refine .plain (fun name rest hname heq => ?_) ih
    rw [heq, placeholder?_of_isName hname] at h
    cases h

theorem Reads.pieces_eq {cs : List Char} {ps : List Piece} (h : Reads cs ps) : pieces cs = ps := by
  induction h with
  | done => exact pieces_nil
  | placeholder hname _ ih => rw [pieces_of_placeholder? (placeholder?_of_isName hname _), ih]
  | @plain c cs ps hplain _ ih =>
    have hnone : placeholder? (c :: cs) = none := by
      rw [Option.eq_none_iff_forall_not_mem]
      rintro ⟨name, rest⟩ hsome
      obtain ⟨hname, heq⟩ := eq_of_placeholder? hsome
      exact hplain name rest hname heq
    rw [pieces_cons hnone, ih]

/-- A text can be read in one way only. -/
theorem reads_iff {cs : List Char} {ps : List Piece} : Reads cs ps ↔ ps = pieces cs :=
  ⟨fun h => h.pieces_eq.symm, fun h => h ▸ reads_pieces cs⟩

/-- No character is lost. -/
theorem Reads.chars_eq {cs : List Char} {ps : List Piece} (h : Reads cs ps) :
    ps.flatMap Piece.chars = cs := by
  induction h with
  | done => rfl
  | placeholder _ _ ih => simp [Piece.chars, ih]
  | plain _ _ ih => simp [Piece.chars, ih]

/-! ## What an expansion depends on -/

section

variable {table table' : NameMap String} {name value : String} {names : List String}
  {ps : List Piece}

theorem missing?_cons_of_none (h : table.find? name = none) :
    missing? table (name :: names) = some name := by
  simp [missing?, h]

theorem missing?_cons_of_some (h : table.find? name = some value) :
    missing? table (name :: names) = missing? table names := by
  simp [missing?, h]

theorem missing?_eq_none_iff : missing? table names = none
    ↔ ∀ name ∈ names, ∃ value, table.find? name = some value := by
  simp [missing?, Option.ne_none_iff_exists']

theorem of_missing? (h : missing? table names = some name) :
    name ∈ names ∧ table.find? name = none := by
  have hnone := List.find?_some h
  exact ⟨List.mem_of_find?_eq_some h, by simpa using hnone⟩

theorem fill_congr (h : ∀ name ∈ namesOf ps, table.find? name = table'.find? name) :
    fill table ps = fill table' ps := by
  induction ps with
  | nil => rfl
  | cons p ps ih =>
    cases p with
    | plain c => rw [fill, fill, ih h]
    | placeholder name =>
      obtain ⟨hname, hrest⟩ := List.forall_mem_cons.mp h
      rw [fill, fill, hname, ih hrest]

/-- Either a placeholder is not in the table, or each part has a value. -/
theorem fill_eq (table : NameMap String) (ps : List Piece) :
    fill table ps = match missing? table (namesOf ps) with
      | some name => .error ⟨name⟩
      | none => .ok (ps.flatMap (valueIn table)) := by
  induction ps with
  | nil => rfl
  | cons p ps ih =>
    cases p with
    | plain c =>
      rw [fill, ih, namesOf]
      cases missing? table (namesOf ps) <;> rfl
    | placeholder name =>
      rw [fill, ih, namesOf]
      cases h : table.find? name with
      | none => rw [missing?_cons_of_none h]
      | some value =>
        rw [missing?_cons_of_some h, List.flatMap_cons, valueIn, h]
        cases missing? table (namesOf ps) <;> rfl

end

section

variable {table table' : NameMap String} {pattern expanded : String} {fault : Unknown}

/-- Tables with the same values for the placeholders of a pattern expand it alike. -/
theorem expand_congr (h : ∀ name ∈ references pattern, table.find? name = table'.find? name) :
    expand table pattern = expand table' pattern := by
  rw [expand, expand, expandChars_eq_fill, expandChars_eq_fill, fill_congr h]

theorem expand_eq (table : NameMap String) (pattern : String) :
    expand table pattern = match missing? table (references pattern) with
      | some name => .error ⟨name⟩
      | none => .ok (String.ofList ((pieces pattern.toList).flatMap (valueIn table))) := by
  rw [expand, expandChars_eq_fill, fill_eq, references]
  cases missing? table (namesOf (pieces pattern.toList)) <;> rfl

theorem expand_eq_ok_iff : expand table pattern = .ok expanded
    ↔ missing? table (references pattern) = none
      ∧ expanded.toList = (pieces pattern.toList).flatMap (valueIn table) := by
  rw [expand_eq]
  cases missing? table (references pattern) with
  | some name => simp
  | none => simp [← String.toList_inj, eq_comm]

theorem expand_eq_error_iff : expand table pattern = .error fault
    ↔ missing? table (references pattern) = some fault.name := by
  cases fault
  rw [expand_eq]
  cases missing? table (references pattern) <;> simp

/-- A pattern can be expanded if the table has its placeholders. -/
theorem exists_expand_iff : (∃ expanded, expand table pattern = .ok expanded)
    ↔ ∀ name ∈ references pattern, ∃ value, table.find? name = some value := by
  rw [← missing?_eq_none_iff, expand_eq]
  cases missing? table (references pattern) <;> simp

/-- The variable that is reported is a placeholder of the pattern and not in the table. -/
theorem unknown_of_expand (h : expand table pattern = .error fault) :
    fault.name ∈ references pattern ∧ table.find? fault.name = none :=
  of_missing? (expand_eq_error_iff.mp h)

end

/-- A pattern has one reading from left to right, and its expansion goes by it. If the table has all
placeholders, each gives way to its value, which is not read again, and everything else is kept. If
not, the first one that the table does not have is reported. -/
theorem expand_pieces (table : NameMap String) (pattern : String) :
    (∀ ps, Reads pattern.toList ps ↔ ps = pieces pattern.toList)
      ∧ (pieces pattern.toList).flatMap Piece.chars = pattern.toList
      ∧ (∀ expanded, expand table pattern = .ok expanded
        ↔ (∀ name ∈ references pattern, ∃ value, table.find? name = some value)
          ∧ expanded.toList = (pieces pattern.toList).flatMap (valueIn table))
      ∧ (∀ fault, expand table pattern = .error fault
        ↔ (references pattern).find? (fun name => (table.find? name).isNone) = some fault.name)
      ∧ ((∃ fault, expand table pattern = .error fault)
        ↔ ∃ name ∈ references pattern, table.find? name = none) := by
  refine ⟨fun ps => reads_iff, (reads_pieces _).chars_eq, fun expanded => ?_,
    fun fault => expand_eq_error_iff, ?_⟩
  · rw [expand_eq_ok_iff, missing?_eq_none_iff]
  · constructor
    · rintro ⟨fault, hfault⟩
      exact ⟨fault.name, unknown_of_expand hfault⟩
    · rintro ⟨name, hname, hnone⟩
      cases hexpand : expand table pattern with
      | error fault => exact ⟨fault, rfl⟩
      | ok expanded =>
        obtain ⟨value, hvalue⟩ := exists_expand_iff.mp ⟨_, hexpand⟩ name hname
        rw [hnone] at hvalue
        cases hvalue

/-- Of a run of braces, only the last two before an identifier open a placeholder. -/
example : expand ⟨[("name", "\\w+")]⟩ "\\\x7b\x7b2\x7d\x7d\x7b\x7b\x7bname\x7d\x7d\x7d"
    = .ok "\\\x7b\x7b2\x7d\x7d\x7b\\w+\x7d" := by cbv

end ScopedText.Pattern.Variable
