/-!
# Refused regular expressions

Why a pattern is not a regular expression. Every cause has the code and the description under
which matching engines of this family report it.
-/

namespace ScopedText.Regex

inductive Error
  | emptyClass
  | unclosedClass
  | endAtEscape
  | endAtMeta
  | endAtControl
  | metaCode
  | controlCode
  | classAtRangeEnd
  | loneRangeMark
  | nothingToRepeat
  | closedTwice
  | unclosedGroup
  | endInGroup
  | groupOption
  | posixName
  | lookBehind
  | bigNumber
  | bigRepeat
  | emptyRange
  | shortBytes
  | backreference
  | numberedBackreference
  | shortDigits
  | emptyName
  | badName (name : String)
  | badNameCharacter (name : String)
  | undefinedName (name : String)
  | propertyName (name : String)
  | calloutPattern
  | calloutName
  | undefinedCallout
  | codePoint
  | bigCodePoint
  /-- The pattern may well be one, but not all of what it uses is implemented. -/
  | unsupported
deriving DecidableEq, Repr

namespace Error

def code : Error → Int
  | emptyClass => -102
  | unclosedClass => -103
  | endAtEscape => -104
  | endAtMeta => -105
  | endAtControl => -106
  | metaCode => -108
  | controlCode => -109
  | classAtRangeEnd => -110
  | loneRangeMark => -112
  | nothingToRepeat => -113
  | closedTwice => -116
  | unclosedGroup => -117
  | endInGroup => -118
  | groupOption => -119
  | posixName => -121
  | lookBehind => -122
  | bigNumber => -200
  | bigRepeat => -201
  | emptyRange => -203
  | shortBytes => -206
  | backreference => -208
  | numberedBackreference => -209
  | shortDigits => -211
  | emptyName => -214
  | badName _ => -215
  | badNameCharacter _ => -216
  | undefinedName _ => -217
  | propertyName _ => -223
  | calloutPattern => -227
  | calloutName => -228
  | undefinedCallout => -229
  | codePoint => -400
  | bigCodePoint => -401
  | unsupported => -2

/-- A name as it is shown: at most 30 bytes of it. -/
def shown (name : String) : String :=
  let rec fitting : Nat → List Char → List Char
    | _, [] => []
    | room, c :: cs => if c.utf8Size ≤ room then c :: fitting (room - c.utf8Size) cs else []
  if name.utf8ByteSize ≤ 30 then name else String.ofList (fitting 30 name.toList) ++ "..."

def description : Error → String
  | emptyClass => "empty char-class"
  | unclosedClass => "premature end of char-class"
  | endAtEscape => "end pattern at escape"
  | endAtMeta => "end pattern at meta"
  | endAtControl => "end pattern at control"
  | metaCode => "invalid meta-code syntax"
  | controlCode => "invalid control-code syntax"
  | classAtRangeEnd => "char-class value at end of range"
  | loneRangeMark => "unmatched range specifier in char-class"
  | nothingToRepeat => "target of repeat operator is not specified"
  | closedTwice => "unmatched close parenthesis"
  | unclosedGroup => "end pattern with unmatched parenthesis"
  | endInGroup => "end pattern in group"
  | groupOption => "undefined group option"
  | posixName => "invalid POSIX bracket type"
  | lookBehind => "invalid pattern in look-behind"
  | bigNumber => "too big number"
  | bigRepeat => "too big number for repeat range"
  | emptyRange => "empty range in char class"
  | shortBytes => "too short multibyte string"
  | backreference => "invalid backref number/name"
  | numberedBackreference => "numbered backref/call is not allowed. (use name)"
  | shortDigits => "too short digits"
  | emptyName => "group name is empty"
  | badName name => "invalid group name <" ++ shown name ++ ">"
  | badNameCharacter name => "invalid char in group name <" ++ shown name ++ ">"
  | undefinedName name => "undefined name <" ++ shown name ++ "> reference"
  | propertyName name => "invalid character property name \x7b" ++ shown name ++ "\x7d"
  | calloutPattern => "invalid callout pattern"
  | calloutName => "invalid callout name"
  | undefinedCallout => "undefined callout name"
  | codePoint => "invalid code point value"
  | bigCodePoint => "too big wide-char value"
  | unsupported => "no support in this configuration"

end Error

end ScopedText.Regex
