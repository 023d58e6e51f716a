import ScopedText.Regex.Error

/-!
# Refused grammars

Why a grammar or a settings file that could be read cannot be compiled.
-/

namespace ScopedText

inductive CompileError
  | invalidRegex (pattern : String) (cause : Regex.Error)
  | unresolvedInclude (included : String)
  | unknownVariable (name : String)
  | invalidCaptureIndex (pattern : String) (index : Nat)
deriving DecidableEq, Repr

def Regex.Error.message (e : Regex.Error) : String := "Oniguruma error: " ++ e.description

def CompileError.message : CompileError → String
  | invalidRegex pattern cause => "Invalid regex pattern '" ++ pattern ++ "': " ++ cause.message
  | unresolvedInclude included => "Unresolved include '" ++ included ++ "'"
  | unknownVariable name => "Unknown variable '\x7b\x7b" ++ name ++ "\x7d\x7d'"
  | invalidCaptureIndex pattern index =>
    "Capture " ++ toString index ++ " does not exist in pattern '" ++ pattern ++ "'"

end ScopedText
