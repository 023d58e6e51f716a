import Mathlib
import ScopedText.Proofs.Kept
import ScopedText.Proofs.Marks
import ScopedText.Regex.Search

/-!
# Tokens partition the text

`tokens_partition`: whatever the grammar, the text and the regions that are open at the start, the
tokens of a scan follow each other from the start of the text to its end, none of them empty, no two
neighbours with the same scopes, and the outermost scope is that of the stack. The same holds for
each line of a text that is scanned line by line.
-/

namespace ScopedText

section

/-- Tokens that cover a text once, from its start to its end. -/
structure Partition {text : String} (tokens : List (Token text)) : Prop where
  starts : ∀ t ∈ tokens.head?, t.span.start = text.startPos
  follows : tokens.IsChain fun t u => t.span.stop = u.span.start
  ends : ∀ t ∈ tokens.getLast?, t.span.stop = text.endPos
  nonempty : ∀ t ∈ tokens, t.span.start < t.span.stop
  eq_nil_iff : tokens = [] ↔ text = ""
  boundaries : ∀ t ∈ tokens,
    t.span.start.offset.IsValid text ∧ t.span.stop.offset.IsValid text
  differs : tokens.IsChain fun t u => t.scopes ≠ u.scopes

variable {text : String}

namespace Cover

theorem Reaches.eq_startPos {p : text.Pos} (h : Reaches [] p) : p = text.startPos := by
  cases h
  rfl

theorem Reaches.stop_head {tokens : List (Token text)} {p : text.Pos} (h : Reaches tokens p) :
    ∀ t ∈ tokens.head?, t.span.stop = p := by
  intro t ht
  cases h with
  | nil => cases ht
  | cons => cases ht; rfl

theorem Reaches.start_getLast {tokens : List (Token text)} {p : text.Pos} (h : Reaches tokens p) :
    ∀ t ∈ tokens.getLast?, t.span.start = text.startPos := by
  induction h with
  | nil => intro t ht; cases ht
  | @cons u earlier before _ _ ih =>
    intro t ht
    cases earlier with
    | nil =>
      cases ht
      exact before.eq_startPos
    | cons v earlier => exact ih t (by rwa [List.getLast?_cons_cons] at ht)

theorem Reaches.isChain {tokens : List (Token text)} {p : text.Pos} (h : Reaches tokens p) :
    tokens.IsChain fun u t => t.span.stop = u.span.start ∧ t.scopes ≠ u.scopes := by
  induction h with
  | nil => exact .nil
  | cons before _ differs ih =>
    exact List.isChain_cons.mpr ⟨fun t ht => ⟨before.stop_head t ht, differs t ht⟩, ih⟩

theorem Reaches.nonempty {tokens : List (Token text)} {p : text.Pos} (h : Reaches tokens p) :
    ∀ t ∈ tokens, t.span.start < t.span.stop := by
  induction h with
  | nil => intro t ht; cases ht
  | cons _ nonempty _ ih =>
    intro t ht
    rcases List.mem_cons.mp ht with rfl | ht
    · exact nonempty
    · exact ih t ht

theorem Reaches.exists_covers {tokens : List (Token text)} {p : text.Pos} (h : Reaches tokens p)
    {b : Nat} (hb : b < p.offset.byteIdx) : ∃ t ∈ tokens, t.span.Covers b := by
  induction h with
  | nil => exact absurd hb (Nat.not_lt_zero b)
  | @cons t earlier _ _ _ ih =>
    by_cases hstart : b < t.span.start.offset.byteIdx
    · obtain ⟨u, hu, hcovers⟩ := ih hstart
      exact ⟨u, List.mem_cons_of_mem _ hu, hcovers⟩
    · exact ⟨t, List.mem_cons_self, Nat.not_lt.mp hstart, hb⟩

theorem Reaches.eq_nil_iff {tokens : List (Token text)} (h : Reaches tokens text.endPos) :
    tokens = [] ↔ text = "" := by
  constructor
  · rintro rfl
    exact String.startPos_eq_endPos_iff.mp h.eq_startPos.symm
  · intro hempty
    by_contra hne
    obtain ⟨t, ht⟩ := List.exists_mem_of_ne_nil tokens hne
    have hlt := Std.lt_of_lt_of_le (h.nonempty t ht) (String.Pos.le_endPos _)
    rw [← String.startPos_eq_endPos_iff.mpr hempty] at hlt
    exact String.Pos.not_lt_startPos hlt

/-- A cover that reaches the end of the text is a partition of it. -/
theorem Intact.partition {c : Cover text} (h : c.Intact) (hend : c.upTo = text.endPos) :
    Partition c.tokens := by
  have hreaches : Reaches c.reversed text.endPos := hend ▸ h
  have hchain := List.isChain_reverse.mpr hreaches.isChain
  constructor
  case starts =>
    intro t ht
    rw [tokens, List.head?_reverse] at ht
    exact hreaches.start_getLast t ht
  case follows => exact hchain.imp fun _ _ h => h.1
  case ends =>
    intro t ht
    rw [tokens, List.getLast?_reverse] at ht
    exact hreaches.stop_head t ht
  case nonempty => exact fun t ht => hreaches.nonempty t (List.mem_reverse.mp ht)
  case eq_nil_iff => exact List.reverse_eq_nil_iff.trans hreaches.eq_nil_iff
  case boundaries => exact fun t _ => ⟨t.span.start.isValid, t.span.stop.isValid⟩
  case differs => exact hchain.imp fun _ _ h => h.2

end Cover

/-! ## The outermost scope -/

variable [Engine]

/-- The scopes inside of every open region begin with the scope of the grammar. -/
def Stack.Rooted (s : Stack) : Prop := ∀ frame ∈ s.frames, frame.scopes.head? = some s.scope

namespace Stack

theorem Rooted.head_scopes {s : Stack} (h : s.Rooted) : s.scopes.head? = some s.scope := by
  unfold scopes
  split
  · exact h _ (by simp [*])
  · rfl

omit [Engine] in
theorem head_append {scopes added : List Scope} {scope : Scope} (h : scopes.head? = some scope) :
    (scopes ++ added).head? = some scope := by
  rw [List.head?_append, h, Option.some_or]

theorem rooted_push {s : Stack} (h : s.Rooted) (rule : RuleId) (scope : Option Scope)
    (closer : Closer) (entered : Nat) : (s.push rule scope closer entered).Rooted := by
  intro frame hframe
  rcases List.mem_cons.mp hframe with rfl | hframe
  · exact head_append h.head_scopes
  · exact h frame hframe

theorem rooted_outer {s : Stack} (h : s.Rooted) {frame : Frame} {outer : List Frame}
    (hframes : s.frames = frame :: outer) : Rooted { s with frames := outer } :=
  fun f hf => h f (hframes ▸ List.mem_cons_of_mem _ hf)

theorem rooted_forgetEntries {s : Stack} (h : s.Rooted) : s.forgetEntries.Rooted := by
  intro frame hframe
  obtain ⟨frame, hf, rfl⟩ := List.mem_map.mp hframe
  exact h frame hf

end Stack

variable {g : Grammar}

namespace Move

variable {stack : Stack} {pos : text.Pos}

theorem scope_after (mv : Move g stack pos) : mv.after.scope = stack.scope := by
  cases mv <;> rfl

theorem rooted_after (mv : Move g stack pos) (h : stack.Rooted) : mv.after.Rooted := by
  cases mv with
  | skip | span | closesNone => exact h
  | opens => exact Stack.rooted_push h _ _ _ _
  | closes frame outer m frames_eq advances => exact Stack.rooted_outer h frames_eq

theorem head_of_gives {mv : Move g stack pos} (h : stack.Rooted) {b : Nat} {scopes : List Scope}
    (hgives : mv.Gives b scopes) : scopes.head? = some stack.scope := by
  have hinside : mv.inside.head? = some stack.scope := by
    cases mv with
    | opens => exact (Stack.rooted_push h _ _ _ _).head_scopes
    | skip | span | closes | closesNone => exact h.head_scopes
  unfold Gives at hgives
  split at hgives
  · exact hgives ▸ h.head_scopes
  · split at hgives
    · exact hgives ▸ h.head_scopes
    · obtain ⟨added, _, rfl⟩ := hgives
      exact Stack.head_append (Stack.head_append hinside)

end Move

namespace Path

variable {stack : Stack} {pos : text.Pos}

theorem rooted_last (path : Path g stack pos) (h : stack.Rooted) :
    path.last.Rooted ∧ path.last.scope = stack.scope := by
  induction path with
  | done => exact ⟨h, rfl⟩
  | move mv rest ih =>
    obtain ⟨hrooted, hscope⟩ := ih (mv.rooted_after h)
    exact ⟨hrooted, hscope.trans mv.scope_after⟩

theorem head_of_gives {path : Path g stack pos} (h : stack.Rooted) {b : Nat}
    {scopes : List Scope} (hgives : path.Gives b scopes) : scopes.head? = some stack.scope := by
  induction path with
  | done => exact hgives ▸ h.head_scopes
  | move mv rest ih =>
    unfold Gives at hgives
    split at hgives
    · exact Move.head_of_gives h hgives
    · exact (ih (mv.rooted_after h) hgives).trans (congrArg some mv.scope_after)

/-- The tokens of a path partition the text under the outermost scope. -/
theorem partition (path : Path g stack text.startPos) : Partition (path.cover {}).tokens :=
  (path.intact_cover Cover.intact_empty).partition (path.upTo_cover rfl)

theorem exists_covers (path : Path g stack text.startPos) {b : Nat} (hb : b < text.utf8ByteSize) :
    ∃ t ∈ (path.cover {}).tokens, t.span.Covers b := by
  have hintact : Cover.Reaches _ _ := path.intact_cover Cover.intact_empty
  rw [path.upTo_cover rfl] at hintact
  obtain ⟨t, ht, hcovers⟩ := hintact.exists_covers hb
  exact ⟨t, List.mem_reverse.mpr ht, hcovers⟩

theorem head_of_mem_tokens {path : Path g stack text.startPos} (h : stack.Rooted)
    {t : Token text} (ht : t ∈ (path.cover {}).tokens) :
    t.scopes.head? = some stack.scope := by
  have hnonempty := path.partition.nonempty t ht
  exact head_of_gives h (gives_of_mem_tokens ht ⟨Nat.le_refl _, pos_lt_iff.mp hnonempty⟩)

end Path

/-! ## Scans -/

/-- The stacks there are: a new one, one on which a region is opened or closed or whose entries are
forgotten, and one that a scan of any text by any tokenizer leaves behind. -/
inductive Stack.Built : Stack → Prop
  | new (scope : Scope) : Built { scope }
  | push {s : Stack} (h : Built s) (rule : RuleId) (scope : Option Scope) (closer : Closer)
      (entered : Nat) : Built (s.push rule scope closer entered)
  | pop {s s' : Stack} {frame : Frame} (h : Built s) (popped : s.pop? = some (frame, s')) :
      Built s'
  | forgetEntries {s : Stack} (h : Built s) : Built s.forgetEntries
  | scanned {s s' : Stack} {g : Grammar} {text : String} {tokens : List (Token text)}
      (h : Built s) (t : Tokenizer g)
      (left : t.run (Tokenizer.tokenizeFrom text s) = .ok (tokens, s')) : Built s'

theorem Stack.Built.rooted {s : Stack} (h : s.Built) : s.Rooted := by
  induction h with
  | new => intro frame hframe; cases hframe
  | push _ _ _ _ _ ih => exact rooted_push ih _ _ _ _
  | @pop s s' frame _ popped ih =>
    unfold pop? at popped
    split at popped
    · rename_i hframes
      cases popped
      exact rooted_outer ih hframes
    · cases popped
  | forgetEntries _ ih => exact rooted_forgetEntries ih
  | scanned _ t left ih =>
    obtain ⟨path, _, _, rfl⟩ := exists_path_of_run left
    exact (path.rooted_last ih).1

/-- Each line of a scan of lines is a partition of its text, and there is one for every text. -/
theorem partition_of_scanLines {stack : Stack} {texts : List String} {lines : List Line}
    (hrooted : stack.Rooted) (h : scanLines (Supply.direct g) g stack texts = .ok lines) :
    lines.map Line.text = texts ∧ ∀ line ∈ lines, Partition line.tokens
      ∧ ∀ t ∈ line.tokens, t.scopes.head? = some stack.scope := by
  induction texts generalizing stack lines with
  | nil =>
    cases h
    exact ⟨rfl, fun line hline => by cases hline⟩
  | cons text texts ih =>
    obtain ⟨⟨tokens, stack'⟩, hscan, h⟩ := bind_eq_ok h
    obtain ⟨rest, hrest, h⟩ := bind_eq_ok h
    cases h
    obtain ⟨path, _, rfl, rfl⟩ := exists_path_of_scan hscan
    obtain ⟨hlast, hscope⟩ := path.rooted_last hrooted
    obtain ⟨htexts, hlines⟩ := ih (Stack.rooted_forgetEntries hlast) hrest
    refine ⟨congrArg _ htexts, fun line hline => ?_⟩
    rcases List.mem_cons.mp hline with rfl | hline
    · exact ⟨path.partition, fun t ht => path.head_of_mem_tokens hrooted ht⟩
    · rw [← hscope]
      exact hlines line hline

/-- **Tokens partition the text**, whatever a tokenizer has kept from earlier work: the tokens of a
text that is scanned from any stack there is, and those of each line of a text. -/
theorem tokens_partition (g : Grammar) (t : Tokenizer g) (text : String) :
    (∀ (stack stack' : Stack) (tokens : List (Token text)), stack.Built →
      t.run (Tokenizer.tokenizeFrom text stack) = .ok (tokens, stack') →
      Partition tokens ∧ ∀ token ∈ tokens, token.scopes.head? = some stack.scope) ∧
    ∀ lines : List Line, t.run (Tokenizer.tokenizeLines text) = .ok lines →
      lines.map Line.text = Text.linesInclusive text ∧
      ∀ line ∈ lines, Partition line.tokens ∧
        ∀ token ∈ line.tokens, token.scopes.head? = some g.scope := by
  constructor
  · intro stack stack' tokens hbuilt h
    obtain ⟨path, _, rfl, _⟩ := exists_path_of_run h
    exact ⟨path.partition, fun token ht => path.head_of_mem_tokens hbuilt.rooted ht⟩
  · intro lines h
    rw [Tokenizer.gives_tokenizeLines] at h
    exact partition_of_scanLines (Stack.Built.new g.scope).rooted h

end

/-- A grammar whose one rule matches an `a`. -/
def letterGrammar : Grammar where
  name := "letter"
  displayName := none
  description := none
  scopeName := "text"
  scope := ⟨["text"]⟩
  fileTypes := []
  firstLine := none
  patterns := #["a"]
  rules := #[.container { id := 0, entries := [.rule 1] },
    .span { id := 1, scope := some ⟨["letter"]⟩, pattern := 0, captures := [] }]
  repository := {}

/-- A text of two tokens, and the same text as the second of two lines. -/
theorem tokens_partition_letter :
    let t := Tokenizer.new letterGrammar
    (∃ (tokens : List (Token "ba")) (stack' : Stack),
      (letterGrammar.initialStack).Built
      ∧ t.run (Tokenizer.tokenizeFrom "ba" letterGrammar.initialStack) = .ok (tokens, stack')
      ∧ Partition tokens ∧ ∀ token ∈ tokens, token.scopes.head? = some ⟨["text"]⟩) ∧
    ∃ lines : List Line, t.run (Tokenizer.tokenizeLines "\nba") = .ok lines
      ∧ lines.map Line.text = ["\n", "ba"] ∧ ∀ line ∈ lines, Partition line.tokens
        ∧ ∀ token ∈ line.tokens, token.scopes.head? = some ⟨["text"]⟩ := by
  intro t
  have text : (t.run (Tokenizer.tokenizeFrom "ba" letterGrammar.initialStack)).toBool = true := by
    rw [Tokenizer.gives_tokenizeFrom]
    cbv
  have texts : (t.run (Tokenizer.tokenizeLines "\nba")).toBool = true := by
    rw [Tokenizer.gives_tokenizeLines]
    cbv
  obtain ⟨⟨tokens, stack'⟩, htext⟩ := exists_ok_of_toBool text
  obtain ⟨lines, htexts⟩ := exists_ok_of_toBool texts
  have built : (letterGrammar.initialStack).Built := .new _
  obtain ⟨hpartition, hroot⟩ :=
    (tokens_partition letterGrammar t "ba").1 letterGrammar.initialStack stack' tokens built htext
  obtain ⟨hlines, hall⟩ := (tokens_partition letterGrammar t "\nba").2 lines htexts
  have pieces : Text.linesInclusive "\nba" = ["\n", "ba"] := by cbv
  exact ⟨⟨tokens, stack', built, htext, hpartition, hroot⟩, lines, htexts,
    hlines.trans pieces, hall⟩

end ScopedText
