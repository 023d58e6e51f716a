import Mathlib.Data.List.Forall2
import ScopedText.Proofs.Checks

/-!
# Readings with more in them

A reading fills another one if it has read the same items and more between them: literal characters,
and references to groups (`Reading.Fills`). What stands between the items passes every check, so the
fuller reading accepts what the other one accepts (`Reading.Fills.readAll`), and what comes out of
both passes the same checks (`Reading.Fills.finish`). Conversely, the other one accepts what the
fuller one accepts, unless what is repeated there is not in it (`Reading.Fills.readAll_back`).
-/

namespace ScopedText.Regex

/-- What a reading can have more than another one: literal characters, and references to the first
`k` groups. -/
inductive Extra (k : Nat) : Expr → Prop
  | one (s : CharSet) : Extra k (.one s)
  | backref {n : Nat} (pos : 0 < n) (le : n ≤ k) (ignoreCase : Bool) :
    Extra k (.backref [n] ignoreCase)

namespace Test

/-- The test lets pass what a reading can have more. -/
def Allows (k : Nat) (t : Test) : Prop := ∀ e, Extra k e → t.Passes e

theorem allows_behind {k : Nat} (f : Nat → Option Nat) (negative : Bool) :
    (behind f negative).Allows k := by
  rintro _ (_ | _) <;> rfl

/-- Literal characters alone pass every test. -/
theorem allows_zero (t : Test) : t.Allows 0 := by
  rintro _ (s | ⟨pos, le, _⟩)
  · cases t <;> rfl
  · omega

theorem allows_some {k groups : Nat} (h : k ≤ groups) : (sound some groups).Allows k := by
  rintro _ (s | @⟨n, _, le, _⟩)
  · rfl
  · have hle : n ≤ groups := Nat.le_trans le h
    simp [Passes, Expr.renumber, Expr.check, hle]

/-- The expressions pass the same tests of those that let pass more. -/
def Same (k : Nat) (e e' : Expr) : Prop := ∀ t : Test, t.Allows k → (t.Passes e ↔ t.Passes e')

/-- A group passes the same tests with more in it. -/
theorem same_wrap {k : Nat} {e e' : Expr} (h : Same k e e') (o : Opening) :
    Same k (o.wrap e) (o.wrap e') := by
  intro t hallows
  cases o with
  | plain | inlineOption => exact h t hallows
  | atomic =>
    simp only [Opening.wrap, t.local_passes.atomic]
    exact h t hallows
  | capture n =>
    cases t with
    | sound f groups =>
      simp only [Opening.wrap, passes_group]
      exact h _ hallows
    | behind f negative =>
      simp only [Opening.wrap, behind_passes_group]
      exact and_congr_right fun _ => h _ hallows
  | ahead negative =>
    cases t with
    | sound f groups => exact h (sound f groups) hallows
    | behind f negative => exact .rfl
  | behind negative =>
    cases t with
    | sound f groups =>
      simp only [Opening.wrap, sound_passes_behind]
      exact and_congr (h _ (allows_behind f negative)) (h _ hallows)
    | behind f other => exact h (behind f other) hallows

end Test

/-! ## Readings side by side -/

/-- The group has the items of another one, and more between them. -/
structure Level.Fills (k : Nat) (l l' : Level) : Prop where
  opening : l'.opening = l.opening
  outside : l'.outside = l.outside
  items : l.items ≠ [] → l'.items ≠ []
  passes : ∀ t : Test, t.Allows k → (l.All t.Passes ↔ l'.All t.Passes)

/-- What has been read is what another reading has read, and more between it. -/
structure Reading.Fills (k : Nat) (r r' : Reading) : Prop extends r.Beside r' where
  numbered : k = 0 → r'.numbered = r.numbered
  level : r.level.Fills k r'.level
  outer : List.Forall₂ (Level.Fills k) r.outer r'.outer

variable {k : Nat}

namespace Level.Fills

variable {l l' : Level} (h : l.Fills k l')

theorem refl (l : Level) : l.Fills k l := ⟨rfl, rfl, id, fun _ _ => .rfl⟩

include h

theorem expr : Test.Same k l.expr l'.expr := fun t hallows => by
  rw [Level.all_expr t.local_passes, Level.all_expr t.local_passes]
  exact h.passes t hallows

theorem push {e e' : Expr} (he : Test.Same k e e') : (l.push e).Fills k (l'.push e') where
  opening := h.opening
  outside := h.outside
  items _ := List.cons_ne_nil _ _
  passes t hallows := by
    rw [Level.all_push, Level.all_push]
    exact and_congr (he t hallows) (h.passes t hallows)

theorem nextBranch : l.nextBranch.Fills k l'.nextBranch where
  opening := h.opening
  outside := h.outside
  items hitems := absurd rfl hitems
  passes t hallows := by
    rw [Level.all_nextBranch t.local_passes, Level.all_nextBranch t.local_passes]
    exact h.passes t hallows

theorem settle {outer outer' : List Level} (houter : List.Forall₂ (Level.Fills k) outer outer') :
    (l.settle outer).1.Fills k (l'.settle outer').1
      ∧ List.Forall₂ (Level.Fills k) (l.settle outer).2 (l'.settle outer').2 := by
  induction houter generalizing l l' with
  | nil => exact ⟨h, .nil⟩
  | cons hparent houter ih =>
    simp only [Level.settle, h.opening]
    split
    · exact ih (hparent.push h.expr)
    · exact ⟨h, .cons hparent houter⟩

end Level.Fills

namespace Reading.Fills

variable {r r' r₁ : Reading} (h : r.Fills k r')

theorem refl (r : Reading) : r.Fills k r where
  toBeside := beside_self r
  numbered _ := rfl
  level := .refl _
  outer := List.forall₂_same.mpr fun _ _ => .refl _

include h

/-- Both readings can go on with other contents of the open group. -/
theorem setLevel {level level' : Level} (hlevel : level.Fills k level') :
    { r with level }.Fills k { r' with level := level' } where
  options := h.options
  groups := h.groups
  names := h.names
  numbered := h.numbered
  level := hlevel
  outer := h.outer

/-- The other reading can have more. -/
theorem add {e : Expr} (he : Extra k e) : r.Fills k (r'.push e) where
  options := h.options
  groups := h.groups
  names := h.names
  numbered := h.numbered
  level := {
    opening := h.level.opening
    outside := h.level.outside
    items := fun _ => List.cons_ne_nil _ _
    passes := fun t hallows => by
      have hpush : (r'.push e).level.All t.Passes ↔ t.Passes e ∧ r'.level.All t.Passes :=
        Level.all_push
      rw [hpush, and_iff_right (hallows e he)]
      exact h.level.passes t hallows }
  outer := h.outer

theorem pushChar (c : Char) : r.Fills k (r'.pushChar c) := h.add (.one _)

theorem refer {n : Nat} (pos : 0 < n) (le : n ≤ k) :
    r.Fills k { r'.push (.backref [n] r'.options.ignoreCase) with numbered := true } :=
  { h.add (.backref pos le _) with numbered := by omega }

theorem openGroup (o : Opening) (inside : Options) :
    (r.openGroup o inside).Fills k (r'.openGroup o inside) where
  options := rfl
  groups := h.groups
  names := h.names
  numbered := h.numbered
  level := ⟨rfl, h.options, id, fun _ _ => .rfl⟩
  outer := .cons h.level h.outer

theorem openCapture : r.openCapture.Fills k r'.openCapture where
  options := h.options
  groups := congrArg (· + 1) h.groups
  names := h.names
  numbered := h.numbered
  level := ⟨congrArg (fun n => Opening.capture (n + 1)) h.groups, h.options, id, fun _ _ => .rfl⟩
  outer := .cons h.level h.outer

/-- A repeated item passes what it passed before. -/
theorem quantify {low : Nat} {high : Option Nat} {greedy possessive : Bool}
    (hrun : r.quantify low high greedy possessive = .ok r₁) :
    ∃ r₁', r'.quantify low high greedy possessive = .ok r₁' ∧ r₁.Fills k r₁' := by
  obtain ⟨e, es, hitems⟩ := exists_item_of_quantify hrun
  cases (quantify_of_items hitems ..).symm.trans hrun
  -- what the other reading repeats may be something that only it has
  have hne : r'.level.items ≠ [] := h.level.items (by simp [hitems])
  obtain ⟨e', es', hitems'⟩ := List.exists_cons_of_ne_nil hne
  refine ⟨_, quantify_of_items hitems' .., h.setLevel ?_⟩
  refine ⟨h.level.opening, h.level.outside, fun _ => List.cons_ne_nil _ _, fun t hallows => ?_⟩
  have hlevel := h.level.passes t hallows
  simp only [Level.All, hitems, hitems', List.forall_mem_cons, t.local_passes.quantified]
    at hlevel ⊢
  exact hlevel

theorem closeGroup (hrun : r.closeGroup = .ok r₁) :
    ∃ r₁', r'.closeGroup = .ok r₁' ∧ r₁.Fills k r₁' := by
  obtain ⟨level, parent, outer, hsettle⟩ := settle_of_closeGroup hrun
  cases (closeGroup_of_settle hsettle).symm.trans hrun
  have hlevels := h.level.settle h.outer
  rw [hsettle] at hlevels
  cases hsettle' : r'.level.settle r'.outer with
  | mk level' rest' =>
    rw [hsettle'] at hlevels
    obtain ⟨hlevel, houter⟩ := hlevels
    cases houter with
    | cons hparent houter =>
      have hpush := hparent.push (Test.same_wrap hlevel.expr level.opening)
      refine ⟨_, closeGroup_of_settle hsettle',
        ⟨⟨hlevel.outside, h.groups, h.names⟩, h.numbered, ?_, houter⟩⟩
      rw [hlevel.opening]
      exact hpush

/-- An action that one reading can do, the other one can do as well. -/
theorem run {a : Action} (hrun : a.run r = .ok r₁) :
    ∃ r₁', a.run r' = .ok r₁' ∧ r₁.Fills k r₁' := by
  cases a with
  | keep =>
    cases hrun
    exact ⟨r', rfl, h⟩
  | push e =>
    cases hrun
    exact ⟨_, rfl, h.setLevel (h.level.push fun _ _ => .rfl)⟩
  | refer n =>
    cases hrun
    have hlevel : (r.push (.backref [n] r.options.ignoreCase)).level.Fills k
        (r'.push (.backref [n] r'.options.ignoreCase)).level := by
      rw [h.options]
      exact h.level.push fun _ _ => .rfl
    exact ⟨_, rfl, { h.setLevel hlevel with numbered := fun _ => rfl }⟩
  | branch =>
    cases hrun
    exact ⟨_, rfl, h.setLevel h.level.nextBranch⟩
  | quantify low high greedy possessive => exact h.quantify hrun
  | group o inside =>
    cases hrun
    exact ⟨_, rfl, h.openGroup o inside⟩
  | capture =>
    cases hrun
    exact ⟨_, rfl, h.openCapture⟩
  | named name =>
    cases hrun
    have hnames : r'.names ++ [(name, r'.groups + 1)] = r.names ++ [(name, r.groups + 1)] := by
      rw [h.names, h.groups]
    exact ⟨_, rfl, { h.openCapture with names := hnames }⟩
  | close => exact h.closeGroup hrun

/-- An item that one reading accepts, the other one accepts as well. -/
theorem next {cs rest : List Char} (hnext : r.next cs = .ok (r₁, rest)) :
    ∃ r₁', r'.next cs = .ok (r₁', rest) ∧ r₁.Fills k r₁' := by
  obtain ⟨a, _, hrun, hnext'⟩ := (alike_next h.toBeside cs).exists_action hnext
  obtain ⟨r₁', hrun', hfills⟩ := h.run hrun
  rw [hrun'] at hnext'
  exact ⟨r₁', hnext', hfills⟩

theorem readAll {cs : List Char} (hread : r.readAll cs = .ok r₁) :
    ∃ r₁', r'.readAll cs = .ok r₁' ∧ r₁.Fills k r₁' := by
  fun_induction Reading.readAll r cs generalizing r' with
  | case1 r cs hempty =>
    cases hread
    exact ⟨r', by rw [Reading.readAll, if_pos hempty]; rfl, h⟩
  | case2 r cs hempty ih =>
    obtain ⟨⟨r₂, rest⟩, hnext, hread⟩ := bind_eq_ok hread
    dsimp only at hread
    split at hread
    · rename_i hlt
      obtain ⟨r₂', hnext', hfills₂⟩ := h.next hnext
      obtain ⟨r₁', hread', hfills₁⟩ := ih r₂ rest hlt hfills₂ hread
      exact ⟨r₁', (readAll_of_next hnext' hlt).trans hread', hfills₁⟩
    · cases hread

theorem finish {e : Expr} (hfinish : r.finish = .ok e) :
    ∃ e', r'.finish = .ok e' ∧ Test.Same k e e' := by
  have hlevels := h.level.settle h.outer
  unfold Reading.finish at hfinish ⊢
  split at hfinish
  · rename_i level hsettle
    cases hfinish
    rw [hsettle] at hlevels
    cases hsettle' : r'.level.settle r'.outer with
    | mk level' outer' =>
      rw [hsettle'] at hlevels
      obtain ⟨hlevel, houter⟩ := hlevels
      cases houter
      exact ⟨_, rfl, hlevel.expr⟩
  · cases hfinish

/-- What the other reading can do, this one can do as well, unless it has nothing to repeat. -/
theorem run_back {a : Action} {r₁' : Reading} (hrun : a.run r' = .ok r₁') :
    a.run r = .error .nothingToRepeat ∨ ∃ r₁, a.run r = .ok r₁ ∧ r₁.Fills k r₁' := by
  cases hback : a.run r with
  | ok r₁ =>
    obtain ⟨r₂', hrun', hfills⟩ := h.run hback
    cases hrun.symm.trans hrun'
    exact .inr ⟨r₁, rfl, hfills⟩
  | error e =>
    refine .inl ?_
    cases a with
    | quantify low high greedy possessive =>
      simp only [Action.run, Reading.quantify] at hback
      split at hback
      · exact hback.symm
      · cases hback
    | close =>
      obtain ⟨level', parent', outer', hsettle'⟩ := settle_of_closeGroup hrun
      have hlevels := (h.level.settle h.outer).2
      rw [hsettle'] at hlevels
      cases hsettle : r.level.settle r.outer with
      | mk level outer =>
        rw [hsettle] at hlevels
        cases hlevels
        cases (closeGroup_of_settle hsettle).symm.trans hback
    | _ => cases hback

theorem next_back {cs rest : List Char} {r₁' : Reading} (hnext : r'.next cs = .ok (r₁', rest)) :
    r.next cs = .error .nothingToRepeat
      ∨ ∃ r₁, r.next cs = .ok (r₁, rest) ∧ r₁.Fills k r₁' := by
  have hbeside : r'.Beside r := ⟨h.options.symm, h.groups.symm, h.names.symm⟩
  obtain ⟨a, _, hrun, hnext'⟩ := (alike_next hbeside cs).exists_action hnext
  rw [hnext']
  rcases h.run_back hrun with hback | ⟨r₁, hback, hfills⟩
  · exact .inl (by rw [hback]; rfl)
  · exact .inr ⟨r₁, by rw [hback]; rfl, hfills⟩

theorem readAll_back {cs : List Char} {r₁' : Reading} (hread : r'.readAll cs = .ok r₁') :
    r.readAll cs = .error .nothingToRepeat
      ∨ ∃ r₁, r.readAll cs = .ok r₁ ∧ r₁.Fills k r₁' := by
  fun_induction Reading.readAll r' cs generalizing r with
  | case1 r' cs hempty =>
    cases hread
    exact .inr ⟨r, by rw [Reading.readAll, if_pos hempty]; rfl, h⟩
  | case2 r' cs hempty ih =>
    obtain ⟨⟨r₂', rest⟩, hnext, hread⟩ := bind_eq_ok hread
    dsimp only at hread
    split at hread
    · rename_i hlt
      rcases h.next_back hnext with hback | ⟨r₂, hback, hfills₂⟩
      · exact .inl (readAll_of_refused hempty hback)
      · rw [readAll_of_next hback hlt]
        exact ih r₂' rest hlt hfills₂ hread
    · cases hread

theorem finish_back {e' : Expr} (hfinish : r'.finish = .ok e') :
    ∃ e, r.finish = .ok e ∧ Test.Same k e e' := by
  cases hback : r.finish with
  | ok e =>
    obtain ⟨e₂, hfinish', hsame⟩ := h.finish hback
    cases hfinish.symm.trans hfinish'
    exact ⟨e, rfl, hsame⟩
  | error e =>
    -- if a group is left open, one is in the other reading
    have houter := (h.level.settle h.outer).2
    unfold Reading.finish at hfinish hback
    split at hback
    · cases hback
    · rename_i hsettle
      rw [hsettle] at houter
      split at hfinish
      · rename_i hsettle'
        rw [hsettle'] at houter
        cases houter
      · cases hfinish

end Reading.Fills

end ScopedText.Regex
