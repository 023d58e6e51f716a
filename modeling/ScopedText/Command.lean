import ScopedText.Bundled
import ScopedText.Command.Arguments
import ScopedText.Command.Report

/-!
# The command line program

The program tokenizes a file and prints the tokens, or prints the indentation hints of its lines.
`run` is the whole program but for reading files and printing: it is given what the files hold.
-/

namespace ScopedText.Command

inductive Outcome
  /-- It prints, to the output and as a note. -/
  | done (output note : String)
  /-- The file with the text does not exist. -/
  | noText
  | failed (cause : Error)
  | refused (why : Refusal)

/-- What a request prints, given the registry and the text. -/
def report (r : Registry) (request : Request) (text : String) : Except Error (String × String) := do
  if request.indent then
    let g ← r.getGrammar request.grammar
    match r.settingsFor? g.scopeName with
    | some s => return (String.join ((Text.lines text).map (Report.hints s)), "")
    | none => return ("", "No editor settings for " ++ g.scopeName ++ "\n")
  else if request.lines then
    let lines ← r.tokenizeLines request.grammar text
    if request.json then return (Report.linesLayout lines 0 ++ "\n", "")
    else return (Report.lines lines, "")
  else
    let tokens ← r.tokenize request.grammar text
    if request.json then return (Report.tokensLayout tokens 0 ++ "\n", "")
    else return (Report.tokens tokens, "")

/-- The bundled registry with the grammar file of a request, if it names one. -/
def registryFor (files : String → Option String) (request : Request) : Except Error Registry := do
  let r ← Registry.builtin
  match request.grammarFile with
  | none => return r
  | some file =>
    let (_, r) ← r.addGrammarFile (files file)
    return r

/-- Runs the program; `files` says what a file holds, if it exists. The grammar file is read before
the text. -/
def run (files : String → Option String) (arguments : List String) : Outcome :=
  match Request.ofArguments arguments with
  | .error why => .refused why
  | .ok request => match registryFor files request with
    | .error cause => .failed cause
    | .ok r => match files request.file with
      | none => .noText
      | some text => match report r request text with
        | .error cause => .failed cause
        | .ok (output, note) => .done output note

def help : String := "\n".intercalate [
  "Cuts a file into tokens by the rules of a grammar",
  "",
  "Usage: scoped-text [OPTIONS] <FILE>",
  "",
  "Arguments:",
  "  <FILE>  Path to the file to tokenize",
  "",
  "Options:",
  "  -g, --grammar <GRAMMAR>            Grammar name, alias or scope name [default: source.lua]",
  "      --grammar-file <GRAMMAR_FILE>  A grammar file to load on top of the bundled one",
  "      --json                         Print the tokens as JSON",
  "      --lines                        Tokenize line by line, with spans relative to each line",
  "      --indent                       Print the indentation hints of each line instead",
  "  -h, --help                         Print help",
  ""]

end ScopedText.Command
