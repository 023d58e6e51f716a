import ScopedText.Text.Blank
import ScopedText.Unicode.Category
import ScopedText.Unicode.ExtraRanges

/-!
# Character properties

The properties a regular expression can name: the general categories and their groups, and the
classes of the POSIX bracket notation in their Unicode reading. `Property.holds` decides a
property; characters below 128 are decided without the category table.
-/

namespace ScopedText.Unicode

/-- A class of characters with a name. -/
inductive Property
  | alnum | alpha | ascii | blank | cntrl | digit | graph | lower | print | punct | space | upper
  | word | xdigit
  | any | assigned
  | category (c : Category)
  | group (letter : Char)
deriving DecidableEq, Repr

namespace Property

def inRanges (ranges : List (Nat × Nat)) (n : Nat) : Bool :=
  ranges.any fun (lo, hi) => lo ≤ n && n ≤ hi

/-- Whether a character below 128 is punctuation; the ASCII symbols count. -/
def isAsciiPunct (n : Nat) : Bool :=
  inRanges [(33, 47), (58, 64), (91, 96), (123, 126)] n

def isAlpha (c : Char) : Bool :=
  if c.toNat < 128 then c.isAlpha
  else
    let cat := Category.of c
    cat.group == 'l' || cat == .Nl || inRanges otherAlphabetic c.toNat

def isDigit (c : Char) : Bool :=
  if c.toNat < 128 then c.isDigit else Category.of c == .Nd

def isWord (c : Char) : Bool :=
  if c.toNat < 128 then c.isAlphanum || c == '_'
  else
    let cat := Category.of c
    cat.group == 'l' || cat.group == 'm' || cat == .Nl || cat == .Nd || cat == .Pc
      || inRanges otherAlphabetic c.toNat

def isLower (c : Char) : Bool :=
  if c.toNat < 128 then c.isLower else Category.of c == .Ll || inRanges otherLowercase c.toNat

def isUpper (c : Char) : Bool :=
  if c.toNat < 128 then c.isUpper else Category.of c == .Lu || inRanges otherUppercase c.toNat

/-- Punctuation of any kind, and the symbols below 128. -/
def isPunct (c : Char) : Bool :=
  if c.toNat < 128 then isAsciiPunct c.toNat else (Category.of c).group == 'p'

/-- Visible characters: neither blank, control, surrogate nor unassigned. -/
def isGraph (c : Char) : Bool :=
  let cat := Category.of c
  !Text.isBlank c && cat != .Cc && cat != .Cn && cat != .Cs

def isXdigit (c : Char) : Bool :=
  c.isDigit || ('a' ≤ c && c ≤ 'f') || ('A' ≤ c && c ≤ 'F')

def holds (p : Property) (c : Char) : Bool :=
  match p with
  | alnum => isAlpha c || isDigit c
  | alpha => isAlpha c
  | ascii => c.toNat < 128
  | blank => c == '\t' || Category.of c == .Zs
  | cntrl => Category.of c == .Cc
  | digit => isDigit c
  | graph => isGraph c
  | lower => isLower c
  | print => isGraph c || Category.of c == .Zs
  | punct => isPunct c
  | space => Text.isBlank c
  | upper => isUpper c
  | word => isWord c
  | xdigit => isXdigit c
  | any => true
  | assigned => Category.of c != .Cn
  | category cat => Category.of c == cat
  | group letter => (Category.of c).group == letter

/-- The classes that POSIX brackets name. -/
def posix : List (String × Property) := [
  ("alnum", alnum), ("alpha", alpha), ("blank", blank), ("cntrl", cntrl), ("digit", digit),
  ("graph", graph), ("lower", lower), ("print", print), ("punct", punct), ("space", space),
  ("upper", upper), ("xdigit", xdigit), ("ascii", ascii), ("word", word)]

/-- Further names of properties, in lower case and with the words run together. -/
def others : List (String × Property) := [
  ("any", any), ("assigned", assigned), ("alphabetic", alpha), ("lowercase", lower),
  ("uppercase", upper), ("whitespace", space),
  ("l", group 'l'), ("letter", group 'l'), ("m", group 'm'), ("mark", group 'm'),
  ("combiningmark", group 'm'), ("n", group 'n'), ("number", group 'n'), ("p", group 'p'),
  ("punctuation", group 'p'), ("s", group 's'), ("symbol", group 's'), ("z", group 'z'),
  ("separator", group 'z'), ("c", group 'c'), ("other", group 'c')]

/-- The property a name denotes; case, spaces, hyphens and underscores do not count. -/
def ofName (name : List Char) : Option Property :=
  let key := (name.filter fun c => c != ' ' && c != '-' && c != '_').map Char.toLower
  ((posix ++ others).find? fun (n, _) => n.toList == key).map (·.2)
    |>.orElse fun _ =>
      (Category.names.find? fun (_, short, long) => short.toList == key || long.toList == key).map
        fun (cat, _) => category cat

end Property

end ScopedText.Unicode
