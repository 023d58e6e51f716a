import ScopedText.Pattern.FreeSpacing

/-!
# Freely written patterns

`strip` looks ahead in a pattern: to the character behind a backslash, and to what stands behind the
bracket that opens a class. Read one character at a time, all that counts is the `Place` in the
pattern: each character leads from one place to the next and is kept or not, and this is what
`strip` does (`stripFrom_eq_kept`).

A pattern can therefore be cut anywhere, and the second part is read from the place where the first
one ends (`kept_append`). At the end of a line this is the start again, unless the line ends in a
class or on a backslash. A reader of what was kept stands where the reader of the pattern stands,
except that it never sees a comment (`shown_next`, `shown_next_of_not_keeps`). `strip_of_lines` puts
both together: stripping twice is stripping once, and lines can be stripped one by one.
-/

namespace ScopedText.Pattern.FreeSpacing

/-- Where the reader of a pattern stands. -/
inductive Place
  | within (mode : Mode)
  /-- Behind a backslash. -/
  | escaped (depth : Nat)
  /-- Behind the bracket that opens a class inside of so many others. -/
  | opened (depth : Nat)
  /-- Behind this bracket and a caret. -/
  | negated (depth : Nat)
deriving DecidableEq, Repr

/-- The place behind a character that takes no meaning from the one in front of it. -/
def Mode.next : Mode → Char → Place
  | .comment, c => if c = '\n' then .within (.code 0) else .within .comment
  | .code depth, c =>
    if c = '\\' then .escaped depth
    else if c = '[' then .opened depth
    else match depth with
      | 0 => if c = '#' then .within .comment else .within (.code 0)
      | depth + 1 => if c = ']' then .within (.code depth) else .within (.code (depth + 1))

namespace Place

def start : Place := .within (.code 0)

/-- The place behind one more character. -/
def next : Place → Char → Place
  | .within mode, c => mode.next c
  | .escaped depth, _ => .within (.code depth)
  | .opened depth, c =>
    if c = '^' then .negated depth
    else if c = ']' then .within (.code (depth + 1))
    else (Mode.code (depth + 1)).next c
  | .negated depth, c =>
    if c = ']' then .within (.code (depth + 1)) else (Mode.code (depth + 1)).next c

def after (place : Place) (cs : List Char) : Place := cs.foldl next place

/-- Whether a character at this place counts. -/
def keeps : Place → Char → Bool
  | .within .comment, _ => false
  | .within (.code 0), c => !(c == '#' || Text.isBlank c)
  | _, _ => true

/-- The characters of a text that count. -/
def kept : Place → List Char → List Char
  | _, [] => []
  | place, c :: cs =>
    if place.keeps c then c :: kept (place.next c) cs else kept (place.next c) cs

def depth : Place → Nat
  | .within .comment => 0
  | .within (.code depth) => depth
  | .escaped depth => depth
  | .opened depth => depth + 1
  | .negated depth => depth + 1

end Place

open Place

/-- Read by itself, the line ends outside of all classes and not on a backslash, other than one in
a comment. -/
def EndsClear (line : String) : Prop :=
  (start.after line.toList).depth = 0 ∧ start.after line.toList ≠ .escaped 0

instance (line : String) : Decidable (EndsClear line) := inferInstanceAs (Decidable (_ ∧ _))

/-! ## One character at a time -/

namespace Place

variable {place other : Place} {depth : Nat} {c : Char} {cs : List Char}

theorem kept_cons_of_keeps (h : place.keeps c = true) :
    place.kept (c :: cs) = c :: (place.next c).kept cs := if_pos h

theorem kept_cons_of_not_keeps (h : place.keeps c = false) :
    place.kept (c :: cs) = (place.next c).kept cs := if_neg (ne_true_of_eq_false h)

theorem kept_cons_congr (hkeeps : place.keeps c = other.keeps c)
    (hnext : place.next c = other.next c) : place.kept (c :: cs) = other.kept (c :: cs) := by
  rw [kept, kept, hkeeps, hnext]

/-- The second part of a text is read from where the first one ends. -/
theorem kept_append (place : Place) (cs rest : List Char) :
    place.kept (cs ++ rest) = place.kept cs ++ (place.after cs).kept rest := by
  induction cs generalizing place with
  | nil => rfl
  | cons c cs ih =>
    rw [List.cons_append, kept, kept, ih]
    split <;> rfl

theorem next_blank (h : Text.isBlank c = true) : start.next c = start := by
  have hne : ∀ d, Text.isBlank d = false → c ≠ d := by
    intro d hd heq
    rw [heq, hd] at h
    cases h
  simp [start, next, Mode.next, hne '\\' rfl, hne '[' rfl, hne '#' rfl]

/-- What does not count is a comment, from its mark on, or a blank outside of classes. -/
theorem keeps_eq_false_iff : place.keeps c = false
    ↔ place = .within .comment ∨ place = start ∧ (c = '#' ∨ Text.isBlank c = true) := by
  unfold keeps
  split <;> simp_all [start, Classical.or_iff_not_imp_left]

theorem kept_escape : kept (.within (.code depth)) ('\\' :: c :: cs)
    = '\\' :: c :: kept (.within (.code depth)) cs := by
  cases depth <;> rfl

theorem kept_opening :
    kept (.within (.code depth)) ('[' :: cs) = '[' :: kept (.opened depth) cs := by
  cases depth <;> rfl

/-- Behind a caret, only a closing bracket is read in another way. -/
theorem kept_negated (h : ∀ rest, cs ≠ ']' :: rest) :
    kept (.negated depth) cs = kept (.within (.code (depth + 1))) cs := by
  cases cs with
  | nil => rfl
  | cons c cs =>
    have hclosing : c ≠ ']' := by
      intro hc
      exact h cs (by rw [hc])
    apply kept_cons_congr
    · rfl
    · simp [next, hclosing]

/-- Behind an opening bracket, only a caret and a closing bracket are read in another way. -/
theorem kept_opened (hcaret : ∀ rest, cs ≠ '^' :: rest) (hclosing : ∀ rest, cs ≠ ']' :: rest) :
    kept (.opened depth) cs = kept (.within (.code (depth + 1))) cs := by
  cases cs with
  | nil => rfl
  | cons c cs =>
    have hc : c ≠ '^' ∧ c ≠ ']' := by
      constructor <;> intro hc
      · exact hcaret cs (by rw [hc])
      · exact hclosing cs (by rw [hc])
    apply kept_cons_congr
    · rfl
    · simp [next, hc.1, hc.2]

/-- In a class, a backslash counts even if nothing is left for it to escape. -/
theorem kept_member (hescape : c = '\\' → cs = []) (hopening : c ≠ '[') (hclosing : c ≠ ']') :
    kept (.within (.code (depth + 1))) (c :: cs)
      = c :: kept (.within (.code (depth + 1))) cs := by
  rw [kept_cons_of_keeps rfl]
  by_cases hc : c = '\\'
  · rw [hescape hc]
    rfl
  · simp [next, Mode.next, hc, hopening, hclosing]

theorem kept_plain (hescape : c = '\\' → cs = []) (hopening : c ≠ '[') (hcomment : c ≠ '#')
    (hblank : ¬Text.isBlank c = true) : start.kept (c :: cs) = c :: start.kept cs := by
  have hkeeps : start.keeps c = true := by simp [start, keeps, hcomment, hblank]
  rw [kept_cons_of_keeps hkeeps]
  by_cases hc : c = '\\'
  · rw [hescape hc]
    rfl
  · simp [start, next, Mode.next, hc, hopening, hcomment]

theorem kept_blank (h : Text.isBlank c = true) : start.kept (c :: cs) = start.kept cs := by
  rw [kept_cons_of_not_keeps (keeps_eq_false_iff.mpr (.inr ⟨rfl, .inr h⟩)), next_blank h]

end Place

/-- Stripping keeps what counts at its place. -/
theorem stripFrom_eq_kept (mode : Mode) (cs : List Char) :
    stripFrom mode cs = kept (.within mode) cs := by
  -- what falls through to the last cases of `stripFrom` can still be a backslash, at the very end
  have hescape {c : Char} {cs : List Char} (h : ∀ d rest, c = '\\' → cs = d :: rest → False)
      (hc : c = '\\') : cs = [] := by
    cases cs with
    | nil => rfl
    | cons d rest => exact (h d rest hc rfl).elim
  fun_induction stripFrom mode cs with
  | case1 => rfl
  | case2 cs ih => exact ih
  | case3 c cs hc ih => rw [ih, kept_cons_of_not_keeps rfl, next, Mode.next, if_neg hc]
  | case4 depth c cs ih => rw [ih, kept_escape]
  | case5 depth cs ih => rw [ih, kept_opening]; rfl
  | case6 depth cs hclosing ih => rw [ih, kept_opening, ← kept_negated hclosing]; rfl
  | case7 depth cs ih => rw [ih, kept_opening]; rfl
  | case8 depth cs _ hcaret hclosing ih => rw [ih, kept_opening, kept_opened hcaret hclosing]
  | case9 depth cs ih => rw [ih]; rfl
  | case10 depth c cs hlast _ _ _ hopening hclosing ih =>
    rw [ih, kept_member (hescape hlast) hopening hclosing]
  | case11 cs _ _ _ _ _ ih => exact ih
  | case12 c cs _ _ _ _ _ _ hblank ih => exact ih.trans (kept_blank hblank).symm
  | case13 c cs hlast _ _ _ hopening hcomment hblank ih =>
    rw [ih, ← start, kept_plain (hescape hlast) hopening hcomment hblank]

theorem toList_strip (pattern : String) : (strip pattern).toList = start.kept pattern.toList := by
  rw [strip, String.toList_ofList, stripFrom_eq_kept, start]

/-! ## Reading what was kept -/

namespace Place

variable {place : Place} {c : Char}

/-- Where the reader of what was kept stands. -/
def shown : Place → Place
  | .within .comment => start
  | place => place

theorem shown_of_ne (h : place ≠ .within .comment) : place.shown = place := by
  unfold shown
  split
  · exact absurd rfl h
  · rfl

theorem ne_comment_of_keeps (h : place.keeps c = true) : place ≠ .within .comment := by
  rintro rfl
  cases h

/-- Only the mark of a comment leads into one. -/
theorem next_ne_comment (h : place.keeps c = true) : place.next c ≠ .within .comment := by
  cases place with
  | within mode =>
    cases mode with
    | code depth => cases depth <;> grind [next, Mode.next, keeps]
    | comment => cases h
  | escaped depth => nofun
  | opened depth => grind [next, Mode.next]
  | negated depth => grind [next, Mode.next]

/-- A character that counts leads both readers to the same place. -/
theorem shown_next (h : place.keeps c = true) : (place.next c).shown = place.shown.next c := by
  rw [shown_of_ne (next_ne_comment h), shown_of_ne (ne_comment_of_keeps h)]

/-- A character that does not count leaves the other reader where it is. -/
theorem shown_next_of_not_keeps (h : place.keeps c = false) :
    (place.next c).shown = place.shown := by
  obtain rfl | ⟨rfl, rfl | hblank⟩ := keeps_eq_false_iff.mp h
  · rw [next, Mode.next]
    split <;> rfl
  · rfl
  · rw [next_blank hblank]

/-- Everything that was kept counts. -/
theorem kept_kept (place : Place) (cs : List Char) :
    place.shown.kept (place.kept cs) = place.kept cs := by
  induction cs generalizing place with
  | nil => rfl
  | cons c cs ih =>
    cases h : place.keeps c with
    | true =>
      have hshown : place.shown.keeps c = true := by rwa [shown_of_ne (ne_comment_of_keeps h)]
      rw [kept_cons_of_keeps h, kept_cons_of_keeps hshown, ← shown_next h, ih]
    | false => rw [kept_cons_of_not_keeps h, ← shown_next_of_not_keeps h, ih]

/-! ## Line breaks -/

/-- A line break leads back to the start and does not count, unless it stands in a class or behind
a backslash. -/
theorem keeps_newline_eq_false_iff :
    place.keeps '\n' = false ↔ place.depth = 0 ∧ place ≠ .escaped 0 := by
  cases place with
  | within mode =>
    cases mode with
    | code depth => cases depth <;> simp [keeps, Place.depth, Text.isBlank]
    | comment => simp [keeps, Place.depth]
  | escaped depth => simp +contextual [keeps, Place.depth]
  | opened depth => simp [keeps, Place.depth]
  | negated depth => simp [keeps, Place.depth]

theorem next_newline (h : place.keeps '\n' = false) : place.next '\n' = start := by
  obtain rfl | ⟨rfl, _⟩ := keeps_eq_false_iff.mp h <;> rfl

end Place

theorem toList_strip_append (line rest : String) : (strip (line ++ "\n" ++ rest)).toList
    = (strip line).toList ++ (start.after line.toList).kept ('\n' :: rest.toList) := by
  simp only [toList_strip, String.toList_append, List.append_assoc]
  exact kept_append start line.toList _

/-- The lines that end clear are those that are stripped in the same way whatever follows. -/
theorem endsClear_iff {line : String} : EndsClear line
    ↔ ∀ rest, strip (line ++ "\n" ++ rest) = strip line ++ strip rest := by
  rw [EndsClear, ← keeps_newline_eq_false_iff]
  constructor
  · intro h rest
    apply String.toList_injective
    rw [toList_strip_append, kept_cons_of_not_keeps h, next_newline h, String.toList_append,
      toList_strip rest]
  · intro h
    have hempty := congrArg String.toList (h "")
    rw [toList_strip_append, String.toList_append, List.append_cancel_left_eq] at hempty
    cases hkeeps : (start.after line.toList).keeps '\n' with
    | true => rw [kept_cons_of_keeps hkeeps] at hempty; cases hempty
    | false => rfl

/-- Stripping a pattern twice is stripping it once. Lines that end clear, and no others, can be
stripped one by one, so that a comment takes nothing away from the next line. -/
theorem strip_of_lines : (∀ pattern, strip (strip pattern) = strip pattern)
    ∧ (∀ line, EndsClear line ↔ ∀ rest, strip (line ++ "\n" ++ rest) = strip line ++ strip rest)
    ∧ ∀ lines : List String, (∀ line ∈ lines, EndsClear line) →
      strip ("\n".intercalate lines) = String.join (lines.map strip) := by
  refine ⟨?_, fun line => endsClear_iff, ?_⟩
  · intro pattern
    apply String.toList_injective
    rw [toList_strip, toList_strip]
    exact kept_kept start _
  · intro lines h
    induction lines with
    | nil => rfl
    | cons line lines ih =>
      obtain ⟨hline, hlines⟩ := List.forall_mem_cons.mp h
      cases lines with
      | nil => simp
      | cons next lines =>
        rw [String.intercalate_cons_cons, endsClear_iff.mp hline, ih hlines]
        exact String.join_cons.symm

/-- A comment that ends on a backslash, and a class with blanks and the mark of a comment. -/
def commentedLines : List String := ["a b # c [\\", "[ #[^] ]] \\ ", "d"]

theorem strip_of_lines_commented : (∀ line ∈ commentedLines, EndsClear line)
    ∧ strip ("\n".intercalate commentedLines) = "ab[ #[^] ]]\\ d" := by
  have hclear : ∀ line ∈ commentedLines, EndsClear line := by decide
  exact ⟨hclear, (strip_of_lines.2.2 _ hclear).trans (by decide)⟩

end ScopedText.Pattern.FreeSpacing
