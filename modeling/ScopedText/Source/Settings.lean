import ScopedText.Source.Reader

/-!
# Settings sources

Editor settings as they are written: for each scope selector the text that starts a comment, and the
patterns of the lines after which, and of the lines from which on, the indentation changes.
-/

namespace ScopedText.Source

open Json

structure EditorSettings where
  commentStart : Option String := none
  /-- The lines after which the indentation is larger. -/
  increaseIndent : Option String := none
  /-- The lines that are indented less than the line before. -/
  decreaseIndent : Option String := none
deriving DecidableEq, Repr, Inhabited

abbrev Settings := NameMap EditorSettings

def EditorSettings.fields (depth : Nat) : List (FieldReader EditorSettings) := [
  { name := "commentStart",
    read := fun v s => do return { s with commentStart := ← readOptional readString v } },
  { name := "increaseIndentPattern",
    read := fun v s => do return { s with increaseIndent := ← readPattern depth v } },
  { name := "decreaseIndentPattern",
    read := fun v s => do return { s with decreaseIndent := ← readPattern depth v } }]

def EditorSettings.read (depth : Nat) (v : Value) : Except Fault EditorSettings :=
  readRecord "struct RawEditorSettings" "struct RawEditorSettings with 3 elements" fields {} depth v

/-- The entry of a selector, of which the editor settings are the one field. -/
def EditorSettings.readEntry (depth : Nat) (v : Value) : Except Fault EditorSettings :=
  let fields (depth : Nat) : List (FieldReader EditorSettings) :=
    [{ name := "editor", read := fun v _ => EditorSettings.read depth v }]
  readRecord "struct RawSettingsEntry" "struct RawSettingsEntry with 1 element" fields {} depth v

def Settings.ofJson (text : String) : Except Fault Settings :=
  decode (readMap (EditorSettings.readEntry (maxDepth - 1)) maxDepth) text

end ScopedText.Source
