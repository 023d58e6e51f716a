import ScopedText.Pattern.Item

/-!
# Backreferences

The end pattern of a region can be a template: `\1` to `\9` stand for the text that the groups of
the begin pattern matched. `fill` puts the texts in, `has` tells whether there is any reference.
-/

namespace ScopedText.Pattern.Backreference

/-- The group a character refers to after a backslash. -/
def digit? (c : Char) : Option Nat :=
  if '1' ≤ c && c ≤ '9' then some (c.toNat - 48) else none

/-- Replaces every reference; everything else is kept. -/
def replace (text : Nat → List Char) : List Char → List Char
  | [] => []
  | '\\' :: [] => ['\\']
  | '\\' :: c :: cs => match digit? c with
    | some n => text n ++ replace text cs
    | none => '\\' :: c :: replace text cs
  | c :: cs => c :: replace text cs

def isIn : List Char → Bool
  | [] => false
  | '\\' :: [] => false
  | '\\' :: c :: cs => (digit? c).isSome || isIn cs
  | _ :: cs => isIn cs

def has (pattern : String) : Bool := isIn pattern.toList

/-- The pattern without its references. -/
def strip (pattern : String) : String := String.ofList (replace (fun _ => []) pattern.toList)

/-- Puts the texts of the groups, the whole match first, into a template. They match literally; a
group that did not participate, or that is not there, matches nothing. -/
def fill (template : String) (groups : List (Option String)) : String :=
  let texts := groups.map fun g => match g with
    | some s => escapeChars s.toList
    | none => []
  String.ofList (replace (fun n => texts.getD n []) template.toList)

theorem replace_of_not_isIn {cs : List Char} (h : isIn cs = false) (text : Nat → List Char) :
    replace text cs = cs := by
  fun_induction isIn cs with
  | case1 => rfl
  | case2 => rfl
  | case3 c cs ih =>
    simp only [Bool.or_eq_false_iff, Option.isSome_eq_false_iff, Option.isNone_iff_eq_none] at h
    simp [replace, h.1, ih h.2]
  | case4 c cs _ hc ih =>
    rw [replace]
    · rw [ih h]
    · assumption
    · assumption

end ScopedText.Pattern.Backreference
