import ScopedText.Error
import ScopedText.Settings
import ScopedText.Tokenizer

/-!
# Registries

A `Registry` holds grammars and settings. A grammar is found by its name, by an alias or by its
scope name; one with a scope name that is already there takes the place of the other and keeps its
number and its aliases. What fails leaves the registry as it was.
-/

namespace ScopedText

abbrev GrammarId := Nat

variable [Engine]

/-- Grammars by name, and settings by scope. -/
structure Registry where
  grammars : Array Grammar := #[]
  scopeNames : NameMap GrammarId := {}
  /-- The names and aliases. -/
  names : NameMap GrammarId := {}
  /-- The settings in the order in which they were added. -/
  settings : List Settings := []

namespace Registry

def find? (r : Registry) (name : String) : Option GrammarId :=
  r.names.find? name <|> r.scopeNames.find? name

/-- A grammar, given its name, an alias or its scope name. -/
def grammar? (r : Registry) (name : String) : Option Grammar :=
  (r.find? name).bind (r.grammars[·]?)

def contains (r : Registry) (name : String) : Bool := (r.find? name).isSome

/-- Adds a compiled grammar; the result is its number. -/
def insert (r : Registry) (g : Grammar) : GrammarId × Registry :=
  match r.scopeNames.find? g.scopeName with
  | some id =>
    (id, { r with
      grammars := r.grammars.setIfInBounds id g
      names := r.names.insert g.name id })
  | none =>
    let id := r.grammars.size
    (id, { r with
      grammars := r.grammars.push g
      scopeNames := r.scopeNames.insert g.scopeName id
      names := r.names.insert g.name id })

/-- Compiles and adds a grammar; the result is its number. -/
def addSource (r : Registry) (source : Source.Grammar) : Except Error (GrammarId × Registry) :=
  match Grammar.ofSource source with
  | .ok g => .ok (r.insert g)
  | .error cause => .error (.compile cause)

/-- Adds the grammar that a JSON document describes; the result is its number. -/
def addGrammar (r : Registry) (json : String) : Except Error (GrammarId × Registry) :=
  match Source.Grammar.ofJson json with
  | .ok source => r.addSource source
  | .error fault => .error (.json fault)

/-- Adds the grammar of a file, given what the file holds if it exists. -/
def addGrammarFile (r : Registry) (contents : Option String) :
    Except Error (GrammarId × Registry) :=
  match contents with
  | some json => r.addGrammar json
  | none => .error .missingFile

def addSettingsSource (r : Registry) (source : Source.Settings) : Except Error Registry :=
  match Settings.ofSource source with
  | .ok settings => .ok { r with settings := r.settings ++ settings }
  | .error cause => .error (.compile cause)

def addSettings (r : Registry) (json : String) : Except Error Registry :=
  match Source.Settings.ofJson json with
  | .ok source => r.addSettingsSource source
  | .error fault => .error (.json fault)

/-- Adds the settings of a file, given what the file holds if it exists. -/
def addSettingsFile (r : Registry) (contents : Option String) : Except Error Registry :=
  match contents with
  | some json => r.addSettings json
  | none => .error .missingFile

/-- Gives a grammar another name; nothing happens if the grammar is not known. -/
def addAlias (r : Registry) (name other : String) : Registry :=
  match r.find? name with
  | some id => { r with names := r.names.insert other id }
  | none => r

def getGrammar (r : Registry) (name : String) : Except Error Grammar :=
  match r.grammar? name with
  | some g => .ok g
  | none => .error (.unknownGrammar name)

def tokenize (r : Registry) (name text : String) : Except Error (List (Token text)) := do
  let g ← r.getGrammar name
  (Tokenizer.runNew (Tokenizer.tokenize (g := g) text)).mapError .scan

def tokenizeLines (r : Registry) (name text : String) : Except Error (List Line) := do
  let g ← r.getGrammar name
  (Tokenizer.runNew (Tokenizer.tokenizeLines (g := g) text)).mapError .scan

/-- The settings that apply to a scope with the longest selector; of several such, the last. -/
def settingsFor? (r : Registry) (scopeName : String) : Option Settings :=
  Settings.choose? r.settings (Scope.ofString scopeName)

end Registry

end ScopedText
