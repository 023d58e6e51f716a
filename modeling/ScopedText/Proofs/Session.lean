import ScopedText.Proofs.Kept

/-!
# Sessions of a tokenizer

A tokenizer is asked for one thing after the other: to go on in a text from a stack, to scan a text,
to scan the lines of a text. What it compiles on the way stays with it, also when a call fails in
the middle of a text, and a closing pattern that was compiled for one region serves every region
whose closing pattern gets the same text. `answers_of_session`: none of this can be told from the
answers.
-/

namespace ScopedText

variable [Engine]

inductive Call
  | resume (text : String) (stack : Stack)
  | whole (text : String)
  | lines (text : String)

namespace Call

/-- What a call returns if no pattern is refused. -/
def Result : Call → Type
  | resume text _ => List (Token text) × Stack
  | whole text => List (Token text)
  | lines _ => List Line

def work (g : Grammar) : (call : Call) → Tokenizing g call.Result
  | resume text stack => Tokenizer.tokenizeFrom text stack
  | whole text => Tokenizer.tokenize text
  | lines text => Tokenizer.tokenizeLines text

/-- A call with its answer: a result, or the error that stopped it. -/
structure Answered where
  call : Call
  answer : Except ScanError call.Result

end Call

namespace Tokenizer

variable {g : Grammar}

/-- The answer to a call, and the tokenizer with what it has compiled up to there. -/
def perform (t : Tokenizer g) (call : Call) : Except ScanError call.Result × Tokenizer g :=
  StateT.run (ExceptT.run (call.work g)) t

/-- The answers to calls that are made one after the other. -/
def session (t : Tokenizer g) : List Call → List Call.Answered
  | [] => []
  | call :: calls => ⟨call, (t.perform call).1⟩ :: (t.perform call).2.session calls

theorem gives_tokenize (text : String) :
    Gives (tokenize (g := g) text) (g.tokenize text) :=
  gives_bind (gives_tokenizeFrom text g.initialStack) fun _ => gives_pure _

/-- Two tokenizers of a grammar answer a call alike, whatever each of them has kept. -/
theorem answer_perform (t t' : Tokenizer g) (call : Call) :
    (t.perform call).1 = (t'.perform call).1 := by
  have alike {α : Type} {work : Tokenizing g α} {answer : Except ScanError α}
      (h : Gives work answer) : t.run work = t'.run work := (h t).trans (h t').symm
  cases call with
  | resume text stack => exact alike (gives_tokenizeFrom text stack)
  | whole text => exact alike (gives_tokenize text)
  | lines text => exact alike (gives_tokenizeLines text)

/-- **What is kept is never seen.** In every session, with calls that fail among the others, each
call has the answer that a new tokenizer of the grammar gives to it. -/
theorem answers_of_session (t : Tokenizer g) (calls : List Call) :
    t.session calls = calls.map fun call => ⟨call, ((new g).perform call).1⟩ := by
  induction calls generalizing t with
  | nil => rfl
  | cons call calls ih =>
    rw [session, List.map_cons, ih, answer_perform t (new g) call]

end Tokenizer

end ScopedText
