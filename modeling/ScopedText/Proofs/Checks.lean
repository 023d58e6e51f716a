import ScopedText.Proofs.Items

/-!
# What a pattern is checked for

Once a pattern has been read, it is checked that what it refers to is there and that nothing stands
in a lookbehind that may not. These checks go through an expression part by part (`Test`). A pattern
compiles if it can be read and passes the test for its mode of capturing (`exists_compile_iff`).
-/

namespace ScopedText.Regex

/-- A part of the check of an expression, whose groups get other numbers. -/
inductive Test
  /-- What it refers to is there, and its lookbehinds are allowed. -/
  | sound (f : Nat → Option Nat) (groups : Nat)
  /-- It can stand in a lookbehind. -/
  | behind (f : Nat → Option Nat) (negative : Bool)

theorem Expr.renumber_some (e : Expr) : e.renumber some = e := by
  induction e <;> simp_all [renumber]

namespace Test

def Passes : Test → Expr → Prop
  | sound f groups, e => (e.renumber f).check groups = .ok ()
  | behind f negative, e => (e.renumber f).allowedBehind negative = true

theorem check_and {x y : Except Error Unit} :
    (do x; y) = .ok () ↔ x = .ok () ∧ y = .ok () := by
  cases x with
  | error e => simp [bind, Except.bind]
  | ok u => simp [bind, Except.bind]

theorem local_passes (t : Test) : Expr.Local t.Passes := by
  cases t with
  | sound f groups =>
    exact ⟨rfl, fun _ _ => check_and, fun _ _ => check_and, fun _ _ _ _ => .rfl, fun _ => .rfl⟩
  | behind f negative =>
    exact ⟨rfl, fun _ _ => Bool.and_eq_true_iff, fun _ _ => Bool.and_eq_true_iff,
      fun _ _ _ _ => .rfl, fun _ => .rfl⟩

theorem passes_group {f : Nat → Option Nat} {groups n : Nat} {e : Expr} :
    (sound f groups).Passes (.group n e) ↔ (sound f groups).Passes e := by
  simp only [Passes, Expr.renumber]
  split <;> rfl

theorem behind_passes_group {f : Nat → Option Nat} {negative : Bool} {n : Nat} {e : Expr} :
    (behind f negative).Passes (.group n e)
      ↔ (negative = false ∨ f n = none) ∧ (behind f negative).Passes e := by
  simp only [Passes, Expr.renumber]
  split <;> simp_all [Expr.allowedBehind]

theorem sound_passes_behind {f : Nat → Option Nat} {groups : Nat} {negative : Bool} {e : Expr} :
    (sound f groups).Passes (.behind negative e)
      ↔ (behind f negative).Passes e ∧ (sound f groups).Passes e := by
  simp only [Passes, Expr.renumber, Expr.check]
  split <;> simp_all

end Test

/-- The numbers of the named groups if the others do not capture. -/
def Reading.byName (r : Reading) (n : Nat) : Option Nat :=
  ((r.names.map (·.2)).findIdx? (· == n)).map (· + 1)

/-- What has to be checked once a pattern has been read. -/
def Reading.test (capturing : Capturing) (r : Reading) : Test :=
  if capturing = .all ∨ r.names = [] then .sound some r.groups
  else .sound r.byName r.names.length

theorem ofReading_of_finish {capturing : Capturing} {r : Reading} {e : Expr}
    (h : r.finish = .ok e) :
    ofReading capturing r
      = if capturing = .all ∨ r.names = [] then .ok ⟨e, r.groups⟩
        else if r.numbered then .error .numberedBackreference
        else .ok ⟨e.renumber r.byName, r.names.length⟩ := by
  have hnumbers : (r.names.map (·.2)).length = r.names.length := List.length_map _
  simp only [ofReading, h, bind, Except.bind, Bool.or_eq_true, decide_eq_true_eq,
    List.isEmpty_iff, hnumbers]
  rfl

/-- A pattern compiles to what is read of it if this passes the check. -/
theorem compile_eq_ok_iff {capturing : Capturing} {pattern : String} {regex : Regex} :
    compile capturing pattern = .ok regex
      ↔ ∃ r, Reading.ofPattern pattern.toList = .ok r ∧ ofReading capturing r = .ok regex
        ∧ regex.expr.check regex.groups = .ok () := by
  constructor
  · intro h
    obtain ⟨r, hread, h⟩ := bind_eq_ok h
    obtain ⟨regex', hregex, h⟩ := bind_eq_ok h
    obtain ⟨_, hcheck, h⟩ := bind_eq_ok h
    cases h
    exact ⟨r, hread, hregex, hcheck⟩
  · rintro ⟨r, hread, hregex, hcheck⟩
    simp only [compile, hread, hregex, hcheck, bind, Except.bind]
    rfl

/-- A pattern compiles if it is read to its end, does not refer to groups by number where only named
ones capture, and passes the test. -/
theorem exists_compile_iff {capturing : Capturing} {pattern : String} :
    (∃ regex, compile capturing pattern = .ok regex)
      ↔ ∃ r e, Reading.ofPattern pattern.toList = .ok r ∧ r.finish = .ok e
        ∧ (capturing = .all ∨ r.names = [] ∨ r.numbered = false)
        ∧ (r.test capturing).Passes e := by
  constructor
  · rintro ⟨regex, h⟩
    obtain ⟨r, hread, hregex, hcheck⟩ := compile_eq_ok_iff.mp h
    obtain ⟨e, hfinish, _⟩ := bind_eq_ok hregex
    refine ⟨r, e, hread, hfinish, ?_⟩
    rw [ofReading_of_finish hfinish] at hregex
    by_cases hall : capturing = .all ∨ r.names = []
    · rw [if_pos hall] at hregex
      cases hregex
      rw [Reading.test, if_pos hall, Test.Passes, Expr.renumber_some]
      exact ⟨hall.imp_right .inl, hcheck⟩
    · rw [if_neg hall] at hregex
      rw [Reading.test, if_neg hall]
      split at hregex
      · cases hregex
      · rename_i hnumbered
        cases hregex
        exact ⟨.inr (.inr (Bool.eq_false_iff.mpr hnumbered)), hcheck⟩
  · rintro ⟨r, e, hread, hfinish, hnumbered, hpasses⟩
    by_cases hall : capturing = .all ∨ r.names = []
    · rw [Reading.test, if_pos hall, Test.Passes, Expr.renumber_some] at hpasses
      refine ⟨⟨e, r.groups⟩, compile_eq_ok_iff.mpr ⟨r, hread, ?_, hpasses⟩⟩
      rw [ofReading_of_finish hfinish, if_pos hall]
    · rw [Reading.test, if_neg hall] at hpasses
      have hfalse : r.numbered = false := (or_assoc.mpr hnumbered).resolve_left hall
      refine ⟨⟨e.renumber r.byName, r.names.length⟩,
        compile_eq_ok_iff.mpr ⟨r, hread, ?_, hpasses⟩⟩
      rw [ofReading_of_finish hfinish, if_neg hall, hfalse, if_neg Bool.false_ne_true]

end ScopedText.Regex
