import ScopedText.Json.Printer
import ScopedText.Settings
import ScopedText.Scan

/-!
# Reports

What the program prints about a text: a line for each token, the tokens as JSON, or the lines of the
text with their indentation hints.
-/

namespace ScopedText.Command.Report

/-- A token on a line: its span, its text and its scopes. -/
def token {text : String} (t : Token text) : String :=
  "[" ++ toString t.span.start.offset.byteIdx ++ "-" ++ toString t.span.stop.offset.byteIdx ++ "] "
    ++ Text.quote t.span.text ++ " " ++ " ".intercalate (t.scopes.map Scope.name) ++ "\n"

def tokens {text : String} (ts : List (Token text)) : String := String.join (ts.map token)

def lines (ls : List Line) : String :=
  String.join (ls.zipIdx.flatMap fun (line, i) =>
    line.tokens.map fun t => toString (i + 1) ++ ":" ++ token t)

def tokenLayout {text : String} (t : Token text) : Json.Layout :=
  .object [
    ("span", .object [
      ("start", .number t.span.start.offset.byteIdx),
      ("end", .number t.span.stop.offset.byteIdx)]),
    ("scopes", .array (t.scopes.map fun s => .string s.name))]

def tokensLayout {text : String} (ts : List (Token text)) : Json.Layout :=
  .array (ts.map tokenLayout)

def linesLayout (ls : List Line) : Json.Layout :=
  .array (ls.map fun line => tokensLayout line.tokens)

/-- A line of a text after its indentation hints. -/
def hints [Engine] (s : Settings) (line : String) : String :=
  (if s.suggestsDecrease line then "<" else " ") ++ (if s.suggestsIncrease line then ">" else " ")
    ++ " " ++ line ++ "\n"

end ScopedText.Command.Report
