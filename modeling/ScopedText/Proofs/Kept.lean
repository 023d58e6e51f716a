import ScopedText.Proofs.Path
import ScopedText.Tokenizer

/-!
# What a tokenizer keeps is never seen

`Gives work answer` says that some work has this answer whatever the tokenizer that does it has kept
from the work before it. A chain of steps each of which gives an answer gives the chained answer, so
a scan by a tokenizer gives what a scan without one does (`gives_scan`, `gives_scanLines`) and takes
its path (`exists_path_of_run`).
-/

namespace ScopedText

variable [Engine]

variable {g : Grammar}

namespace Tokenizer

variable {α β : Type}

/-- The answer does not depend on what the tokenizer has kept. -/
def Gives (work : Tokenizing g α) (answer : Except ScanError α) : Prop :=
  ∀ t : Tokenizer g, t.run work = answer

theorem gives_pure (a : α) : Gives (pure a : Tokenizing g α) (pure a) := fun _ => rfl

theorem gives_bind {work : Tokenizing g α} {answer : Except ScanError α}
    {next : α → Tokenizing g β} {nextAnswer : α → Except ScanError β} (h : Gives work answer)
    (hnext : ∀ a, Gives (next a) (nextAnswer a)) :
    Gives (work >>= next) (answer >>= nextAnswer) := by
  intro t
  rw [← h t]
  simp only [run, ExceptT.run, StateT.run, bind, ExceptT.bind, ExceptT.mk, StateT.bind]
  cases hwork : work t with
  | mk result kept =>
    cases result with
    | error e => rfl
    | ok a => exact hnext a kept

theorem gives_active (id : RuleId) : Gives ((supply g).active id) ((Supply.direct g).active id) :=
  fun t => t.askActive_fst id

theorem gives_closing (text : String) :
    Gives ((supply g).closing text) ((Supply.direct g).closing text) :=
  fun t => t.askClosing_fst text

variable {text : String}

theorem gives_never {α : Type} : Gives ((supply g).never (α := α)) (Supply.direct g).never :=
  fun _ => rfl

theorem gives_respondRule (stack : Stack) (pos : text.Pos) (id : RuleId)
    (found : Regex.Found text pos) :
    Gives (respondRule (supply g) g stack pos id found)
      (respondRule (Supply.direct g) g stack pos id found) := by
  unfold respondRule
  split
  case h_1 => split <;> exact gives_pure _
  case h_2 =>
    split
    · exact gives_bind (gives_closing _) fun _ => gives_pure _
    · exact gives_pure _
  all_goals exact gives_pure _

theorem gives_respond (stack : Stack) (pos : text.Pos)
    (answer : Target stack × Regex.Found text pos) :
    Gives (respond (supply g) g stack pos answer)
      (respond (Supply.direct g) g stack pos answer) := by
  obtain ⟨target, found⟩ := answer
  cases target with
  | closing => exact gives_pure _
  | rule id =>
    simp only [respond]
    split
    · exact gives_pure _
    · exact gives_respondRule stack pos id found

theorem gives_nextMove (stack : Stack) (pos : text.Pos) :
    Gives (nextMove (supply g) g stack pos) (nextMove (Supply.direct g) g stack pos) := by
  refine gives_bind (gives_active stack.rule) fun active => ?_
  split
  · exact gives_pure _
  · exact gives_respond stack pos _

theorem gives_scanFrom (stack : Stack) (pos : text.Pos) (c : Cover text) :
    Gives (scanFrom (supply g) g stack pos c) (scanFrom (Supply.direct g) g stack pos c) := by
  fun_induction scanFrom (Supply.direct g) g stack pos c with
  | case1 stack pos c ih =>
    rw [scanFrom]
    refine gives_bind (gives_nextMove stack pos) fun answer => ?_
    cases answer with
    | none => exact gives_pure _
    | some mv =>
      dsimp only
      split
      · exact gives_never
      · exact ih mv ‹_›

theorem gives_scan (text : String) (stack : Stack) :
    Gives (scan (supply g) g text stack) (scan (Supply.direct g) g text stack) :=
  gives_bind (gives_scanFrom stack text.startPos {}) fun _ => gives_pure _

theorem gives_scanLines (stack : Stack) (texts : List String) :
    Gives (scanLines (supply g) g stack texts) (scanLines (Supply.direct g) g stack texts) := by
  induction texts generalizing stack with
  | nil => exact gives_pure _
  | cons text texts ih =>
    refine gives_bind (gives_scan text stack) fun result => ?_
    exact gives_bind (ih result.2.forgetEntries) fun _ => gives_pure _

/-- A tokenizer answers as the grammar does without it. -/
theorem gives_tokenizeFrom (text : String) (stack : Stack) :
    Gives (tokenizeFrom (g := g) text stack) (g.tokenizeFrom text stack) :=
  gives_scan text stack

theorem gives_tokenizeLines (text : String) :
    Gives (tokenizeLines (g := g) text) (g.tokenizeLines text) :=
  gives_scanLines g.initialStack _

end Tokenizer

/-- A scan by a tokenizer takes a path. -/
theorem exists_path_of_run {t : Tokenizer g} {text : String} {stack stack' : Stack}
    {tokens : List (Token text)}
    (h : t.run (Tokenizer.tokenizeFrom text stack) = .ok (tokens, stack')) :
    ∃ path : Path g stack text.startPos,
      findPath (Supply.direct g) g stack text.startPos = .ok path
      ∧ tokens = (path.cover {}).tokens ∧ stack' = path.last := by
  rw [Tokenizer.gives_tokenizeFrom] at h
  exact exists_path_of_scan h

end ScopedText
