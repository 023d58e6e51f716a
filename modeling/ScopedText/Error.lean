import ScopedText.Grammar.Error
import ScopedText.Json.Fault
import ScopedText.Scan.Supply

/-!
# Errors

Everything that can go wrong when grammars and settings are added and texts are tokenized.
-/

namespace ScopedText

inductive Error
  /-- A grammar or settings file that does not exist. -/
  | missingFile
  | json (fault : Json.Fault)
  | compile (cause : CompileError)
  | unknownGrammar (name : String)
  | scan (cause : ScanError)

/-- How a failure is reported. A fault of a JSON text is reported by what it says about the data. -/
def Error.message : Error → String
  | missingFile => "I/O error: No such file or directory (os error 2)"
  | json fault => "JSON parsing error: " ++ fault.message
  | compile cause => "grammar compilation error: " ++ cause.message
  | unknownGrammar name => "grammar '" ++ name ++ "' not found"
  | scan cause => "regex compilation error: " ++ cause.message

def Error.hasCause : Error → Bool
  | missingFile | json _ | compile _ => true
  | unknownGrammar _ | scan _ => false

end ScopedText
