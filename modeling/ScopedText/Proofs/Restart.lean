import ScopedText.Grammar.Compile
import ScopedText.Proofs.Twins
import ScopedText.Regex.Search

/-!
# Restarting from saved stacks

Lines can be scanned one by one, each from the stack that was saved at the end of the line before
it. `resumeLines` does so with the stacks as they are, while `scanLines` lets each of them forget
where its regions were entered. Both give the same tokens as long as no region is `Stale` in a line
(`lines_from_saved_stacks`): where the answer of a search takes no text, no region may have been
entered at the same offset of an earlier line. Such a region is taken for one that was entered just
there, so it is not closed and its rule does not open again.
-/

namespace ScopedText

section

variable [Engine]

section

variable {m : Type → Type} [Monad m]

@[specialize]
def resumeLines (supply : Supply m) (g : Grammar) (stack : Stack) : List String → m (List Line)
  | [] => return []
  | text :: texts => do
    let (tokens, stack) ← scan supply g text stack
    let lines ← resumeLines supply g stack texts
    return ⟨text, tokens⟩ :: lines

end

namespace Tokenizer

variable {g : Grammar}

/-- The lines of a text and their tokens, each line scanned from the stack that was saved at the end
of the line before it. -/
def resumeLines (text : String) : Tokenizing g (List Line) :=
  ScopedText.resumeLines (supply g) g g.initialStack (Text.linesInclusive text)

theorem gives_resumeLines (stack : Stack) (texts : List String) :
    Gives (ScopedText.resumeLines (supply g) g stack texts)
      (ScopedText.resumeLines (Supply.direct g) g stack texts) := by
  induction texts generalizing stack with
  | nil => exact gives_pure _
  | cons text texts ih =>
    refine gives_bind (gives_scan text stack) fun result => ?_
    exact gives_bind (ih result.2) fun _ => gives_pure _

end Tokenizer

variable {g : Grammar}

/-- The region was entered in an earlier text, at the offset at which a search in this one is
idle. -/
def Stale (g : Grammar) (text : String) (saved : Stack) (frame : Frame) : Prop :=
  ∃ a : Standpoint text, Visits g ⟨saved.forgetEntries, text.startPos⟩ a ∧ a.Idle g
    ∧ frame.entered = some a.pos.offset.byteIdx

/-- In none of the lines a saved stack has a stale region. -/
def NoneStale (g : Grammar) : Stack → List String → Prop
  | _, [] => True
  | saved, text :: texts => (∀ frame ∈ saved.frames, ¬ Stale g text saved frame)
      ∧ ∀ tokens stack, g.tokenizeFrom text saved = .ok (tokens, stack) → NoneStale g stack texts

/-- A stack that was saved knows more than one that has forgotten the entries: where the regions of
some frames were entered. -/
def Remembers (frames : List Frame) (e e' : Option Nat) : Prop :=
  e' = e ∨ e = none ∧ ∃ frame ∈ frames, e' = frame.entered

theorem remembers_refl (frames : List Frame) (e : Option Nat) : Remembers frames e e := .inl rfl

theorem alikeAt_remembers {frames : List Frame} {offset : Nat}
    (h : ∀ frame ∈ frames, frame.entered ≠ some offset) : AlikeAt (Remembers frames) offset := by
  rintro e e' (rfl | ⟨rfl, frame, hframe, rfl⟩)
  · exact Iff.rfl
  · simpa using h frame hframe

omit [Engine] in
theorem Entry.twins_self (entries : List Entry) :
    List.Forall₂ (Entry.Twins g g Eq) entries entries := by
  refine List.forall₂_same.mpr fun e _ => ?_
  unfold Entry.Twins
  cases g.target? e with
  | none => exact .none
  | some id => exact .some rfl

omit [Engine] in
/-- A grammar has itself for a twin. -/
theorem Grammar.twins_self (g : Grammar) : g.Twins g Eq where
  scope := rfl
  root := rfl
  unique := ⟨fun _ _ _ h h' => h.trans h'.symm, fun _ _ _ h h' => h.symm.trans h'⟩
  rules := by
    rintro id _ rfl
    rcases g.rules[id]? with _ | (r | r | r | _)
    · exact .none
    · exact .span rfl rfl rfl
    · exact .region ⟨rfl, rfl, rfl, rfl, rfl, rfl, rfl, rfl, Entry.twins_self _⟩
    · exact .container (Entry.twins_self _)
    · exact .inert

theorem twins_forgetEntries (saved : Stack) :
    saved.forgetEntries.Twins Eq (Remembers saved.frames) saved where
  scope := rfl
  frames := by
    unfold Stack.forgetEntries
    rw [List.forall₂_map_left_iff]
    exact List.forall₂_same.mpr fun frame hframe =>
      ⟨rfl, rfl, rfl, .inr ⟨rfl, frame, hframe, rfl⟩⟩

theorem forgetEntries_of_twins {entry : Option Nat → Option Nat → Prop} {s s' : Stack}
    (h : s.Twins Eq entry s') : s'.forgetEntries = s.forgetEntries := by
  obtain ⟨scope, frames⟩ := s
  obtain ⟨scope', frames'⟩ := s'
  have hframes : frames'.map (fun frame => { frame with entered := none })
      = frames.map fun frame => { frame with entered := none } := by
    have htwins : List.Forall₂ (Frame.Twins Eq entry) frames frames' := h.frames
    clear h
    induction htwins with
    | nil => rfl
    | cons hframe _ ih =>
      rw [List.map_cons, List.map_cons, ih, hframe.rule, hframe.scopes, hframe.closer]
  simp only [Stack.forgetEntries, hframes, Stack.mk.injEq, and_true]
  exact h.scope

/-- The scan of a line from a saved stack gives the same tokens as from the stack without its
entries, and leaves the same stack up to them. -/
theorem scan_saved [LawfulEngine] {text : String} {saved : Stack}
    (h : ∀ frame ∈ saved.frames, ¬ Stale g text saved frame) :
    Agree (fun result result' => result'.1 = result.1
        ∧ result'.2.forgetEntries = result.2.forgetEntries)
      (scan (Supply.direct g) g text saved.forgetEntries)
      (scan (Supply.direct g) g text saved) := by
  have hscan := twins_scan g.twins_self (fun h => h ▸ rfl) text (twins_forgetEntries saved)
    (remembers_refl _) fun a hvisits hidle => alikeAt_remembers fun frame hframe hentered =>
      h frame hframe ⟨a, hvisits, hidle, hentered⟩
  exact hscan.mono fun result result' htwins => ⟨htwins.1, forgetEntries_of_twins htwins.2⟩

theorem resumeLines_direct [LawfulEngine] {saved : Stack} {texts : List String}
    (h : NoneStale g saved texts) :
    resumeLines (Supply.direct g) g saved texts
      = scanLines (Supply.direct g) g saved.forgetEntries texts := by
  induction texts generalizing saved with
  | nil => rfl
  | cons text texts ih =>
    obtain ⟨hline, hrest⟩ := h
    have hscan := scan_saved hline
    rw [resumeLines, scanLines]
    generalize hsaved : scan (Supply.direct g) g text saved = result' at hscan ⊢
    generalize scan (Supply.direct g) g text saved.forgetEntries = result at hscan ⊢
    cases hscan with
    | error e => rfl
    | @ok result result' heq =>
      obtain ⟨tokens, stack⟩ := result
      obtain ⟨tokens', stack'⟩ := result'
      obtain ⟨rfl, hforget⟩ := heq
      have hlines := ih (hrest _ _ hsaved)
      simp only [bind, Except.bind, hlines, hforget]

/-- **Saved stacks are all that is needed to restart, unless a region is stale.** -/
theorem lines_from_saved_stacks [LawfulEngine] (t t' : Tokenizer g) (text : String)
    (h : NoneStale g g.initialStack (Text.linesInclusive text)) :
    t'.run (Tokenizer.resumeLines text) = t.run (Tokenizer.tokenizeLines text) := by
  rw [Tokenizer.gives_tokenizeLines, Tokenizer.resumeLines, Tokenizer.gives_resumeLines,
    resumeLines_direct h]
  rfl

end

/-- A grammar whose one region begins with an `a` and ends before a `b`. -/
def untilSource : Source.Grammar where
  name := "t"
  scopeName := "source.t"
  rules := [{ name := some "r", opening := some "a", closing := some "(?=b)" }]

def untilGrammar : Grammar where
  name := "t"
  displayName := none
  description := none
  scopeName := "source.t"
  scope := ⟨["source", "t"]⟩
  fileTypes := []
  firstLine := none
  patterns := #["a", "(?=b)"]
  rules := #[
    .container { id := 0, entries := [.rule 1] },
    .region { id := 1, scope := some ⟨["r"]⟩, opening := 0, openingCaptures := [], closing := 1,
              closingIsTemplate := false, closingCaptures := [], closingFirst := false,
              entries := [] }]
  repository := {}

/-- The scopes of the tokens of a line, with the offset at which each token ends. -/
def Line.outline (line : Line) : List (Nat × List Scope) :=
  line.tokens.map fun token => (token.span.stop.offset.byteIdx, token.scopes)

/-- The region was entered where the second line begins, at offset 0, and it ends there without
taking text. From the saved stack it does not end. -/
theorem resumeLines_untilGrammar :
    let t := Tokenizer.new untilGrammar
    Grammar.ofSource untilSource = .ok untilGrammar
      ∧ (t.run (Tokenizer.tokenizeLines "a\nb")).map (·.map Line.outline)
        = .ok [[(2, [⟨["source", "t"]⟩, ⟨["r"]⟩])], [(1, [⟨["source", "t"]⟩])]]
      ∧ (t.run (Tokenizer.resumeLines "a\nb")).map (·.map Line.outline)
        = .ok [[(2, [⟨["source", "t"]⟩, ⟨["r"]⟩])], [(1, [⟨["source", "t"]⟩, ⟨["r"]⟩])]] := by
  refine ⟨by cbv, ?_, ?_⟩
  · rw [Tokenizer.gives_tokenizeLines]
    cbv
  · rw [Tokenizer.resumeLines, Tokenizer.gives_resumeLines]
    cbv

/-- A region that was entered behind the end of the second line is not stale in it. -/
theorem lines_from_saved_stacks_behind :
    let t := Tokenizer.new untilGrammar
    NoneStale untilGrammar untilGrammar.initialStack (Text.linesInclusive "--a\nb")
      ∧ t.run (Tokenizer.resumeLines "--a\nb") = t.run (Tokenizer.tokenizeLines "--a\nb")
      ∧ (t.run (Tokenizer.resumeLines "--a\nb")).map (·.map Line.outline)
        = .ok [[(2, [⟨["source", "t"]⟩]), (4, [⟨["source", "t"]⟩, ⟨["r"]⟩])],
          [(1, [⟨["source", "t"]⟩])]] := by
  intro t
  have hlines : Text.linesInclusive "--a\nb" = ["--a\n", "b"] := by cbv
  have hentries : (untilGrammar.tokenizeFrom "--a\n" untilGrammar.initialStack).map
      (·.2.frames.map (·.entered)) = .ok [some 2] := by cbv
  have hstale : NoneStale untilGrammar untilGrammar.initialStack
      (Text.linesInclusive "--a\nb") := by
    rw [hlines]
    refine ⟨fun frame hframe => absurd hframe List.not_mem_nil, ?_⟩
    refine fun tokens stack hscan => ⟨?_, fun _ _ _ => trivial⟩
    rintro frame hframe ⟨a, _, _, hentered⟩
    rw [hscan] at hentries
    have hentered' : stack.frames.map (·.entered) = [some 2] := Except.ok.inj hentries
    have hmem := List.mem_map_of_mem (f := (·.entered)) hframe
    rw [hentered', List.mem_singleton, hentered] at hmem
    have hend : a.pos.offset.byteIdx ≤ 1 := String.Pos.le_endPos a.pos
    exact absurd (Option.some.inj hmem) (by omega)
  have heq := lines_from_saved_stacks t t "--a\nb" hstale
  refine ⟨hstale, heq, ?_⟩
  rw [heq, Tokenizer.gives_tokenizeLines]
  cbv

end ScopedText
