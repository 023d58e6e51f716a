import Mathlib.Data.List.Nodup
import ScopedText.Proofs.Checks

/-!
# The numbers of groups

The groups of a pattern get their numbers in the order in which they open. What has been read up to
some point has numbered all the groups that have opened, those that are still open and those that
are not (`Reading.InOrder`). Where plain groups do not capture next to named ones, the named ones
are numbered again, in the same order. So in both modes the groups that capture have the numbers
from 1 on (`numbers_of_compile`).
-/

namespace ScopedText.Regex

namespace Expr

def numbers : Expr → List Nat
  | empty | one _ | anchor _ | backref _ _ => []
  | group n e => n :: e.numbers
  | seq e f | alt e f => e.numbers ++ f.numbers
  | repeated _ _ _ e | atomic e | ahead _ e | behind _ e => e.numbers

theorem length_numbers (e : Expr) : e.numbers.length = e.groupCount := by
  induction e <;> simp_all [numbers, groupCount]

theorem numbers_renumber (f : Nat → Option Nat) (e : Expr) :
    (e.renumber f).numbers = e.numbers.filterMap f := by
  induction e with
  | group n e ih =>
    rw [renumber]
    cases hn : f n <;> simp [numbers, hn, ih]
  | _ => simp_all [numbers, renumber]

theorem numbers_concat (es : List Expr) : (concat es).numbers = es.flatMap numbers := by
  fun_induction concat es <;> simp_all [numbers]

theorem numbers_choice (es : List Expr) : (choice es).numbers = es.flatMap numbers := by
  fun_induction choice es <;> simp_all [numbers]

theorem numbers_quantified (low : Nat) (high : Option Nat) (greedy possessive : Bool) (e : Expr) :
    (e.quantified low high greedy possessive).numbers = e.numbers := by
  unfold quantified
  split <;> rfl

end Expr

def Opening.numbers : Opening → List Nat
  | capture n => [n]
  | _ => []

theorem Opening.numbers_wrap (o : Opening) (e : Expr) :
    (o.wrap e).numbers = o.numbers ++ e.numbers := by
  cases o <;> rfl

namespace Level

def numbers (l : Level) : List Nat := l.opening.numbers ++ l.expr.numbers

theorem numbers_expr (l : Level) : l.expr.numbers
    = l.branches.reverse.flatMap Expr.numbers ++ l.items.reverse.flatMap Expr.numbers := by
  simp [expr, Expr.numbers_choice, Expr.numbers_concat]

theorem numbers_push (l : Level) (e : Expr) : (l.push e).numbers = l.numbers ++ e.numbers := by
  simp [numbers, numbers_expr, push]

theorem numbers_nextBranch (l : Level) : l.nextBranch.numbers = l.numbers := by
  simp [numbers, numbers_expr, nextBranch, Expr.numbers_concat]

/-- The numbers of open groups, of which the innermost is listed first, and of those in them. -/
def allNumbers (ls : List Level) : List Nat := ls.reverse.flatMap numbers

@[simp] theorem allNumbers_cons (l : Level) (ls : List Level) :
    allNumbers (l :: ls) = allNumbers ls ++ l.numbers := by
  simp [allNumbers]

/-- The outermost group is the pattern itself. -/
def Rooted (ls : List Level) : Prop := (ls.map (·.opening)).getLast? = some .plain

theorem rooted_cons_cons {l m : Level} {ls : List Level} :
    Rooted (l :: m :: ls) ↔ Rooted (m :: ls) := by
  simp [Rooted, List.getLast?_cons_cons]

theorem allNumbers_settle (l : Level) (outer : List Level) :
    allNumbers ((l.settle outer).1 :: (l.settle outer).2) = allNumbers (l :: outer) := by
  fun_induction settle l outer with
  | case1 => rfl
  | case2 l parent outer hinline ih =>
    have hinside : l.numbers = l.expr.numbers := by
      rw [numbers, hinline]
      rfl
    rw [ih, allNumbers_cons, allNumbers_cons, allNumbers_cons, numbers_push, hinside,
      List.append_assoc]
  | case3 => rfl

theorem rooted_settle {l : Level} {outer : List Level} (h : Rooted (l :: outer)) :
    Rooted ((l.settle outer).1 :: (l.settle outer).2) := by
  fun_induction settle l outer with
  | case1 => exact h
  | case2 l parent outer hinline ih => exact ih (rooted_cons_cons.mp h)
  | case3 => exact h

end Level

theorem range'_one_succ (n : Nat) : List.range' 1 (n + 1) = List.range' 1 n ++ [n + 1] := by
  rw [List.range'_1_concat, Nat.add_comm 1]

/-- The groups of what has been read have the numbers from 1 on, in the order in which they open,
and so do the named ones among them. -/
structure Reading.InOrder (r : Reading) : Prop where
  groups : Level.allNumbers (r.level :: r.outer) = List.range' 1 r.groups
  names : (r.names.map (·.2)).Sublist (List.range' 1 r.groups)
  rooted : Level.Rooted (r.level :: r.outer)

namespace Reading.InOrder

variable {r r₁ : Reading} (h : r.InOrder)

include h

/-- The open group can go on with contents that open no groups. -/
theorem setLevel {level : Level} (hnumbers : level.numbers = r.level.numbers)
    (hopening : level.opening = r.level.opening) : { r with level }.InOrder where
  groups := by
    rw [← h.groups]
    simp only [Level.allNumbers_cons, hnumbers]
  names := h.names
  rooted := by
    have hrooted := h.rooted
    simp only [Level.Rooted, List.map_cons, hopening] at hrooted ⊢
    exact hrooted

theorem push {e : Expr} (he : e.groupCount = 0) : (r.push e).InOrder := by
  refine h.setLevel ?_ rfl
  have hnone : e.numbers = [] := List.length_eq_zero_iff.mp (e.length_numbers.trans he)
  rw [Level.numbers_push, hnone, List.append_nil]

theorem openGroup {o : Opening} (ho : o.numbers = []) (inside : Options) :
    (r.openGroup o inside).InOrder where
  groups := by
    have hgroups := h.groups
    simp only [Reading.openGroup, Level.allNumbers_cons, Level.numbers, ho] at hgroups ⊢
    rw [hgroups]
    exact List.append_nil _
  names := h.names
  rooted := Level.rooted_cons_cons.mpr h.rooted

theorem openCapture : r.openCapture.InOrder where
  groups := by
    have hgroups := h.groups
    simp only [Reading.openCapture, Reading.openGroup, Level.allNumbers_cons] at hgroups ⊢
    rw [hgroups, range'_one_succ]
    rfl
  names := by
    have hgroups : r.openCapture.groups = r.groups + 1 := rfl
    rw [hgroups, range'_one_succ]
    exact h.names.trans (List.sublist_append_left _ _)
  rooted := Level.rooted_cons_cons.mpr h.rooted

theorem run {a : Action} (fair : a.Fair r.names) (hrun : a.run r = .ok r₁) : r₁.InOrder := by
  cases a with
  | keep =>
    cases hrun
    exact h
  | push e =>
    cases hrun
    exact h.push fair.2
  | refer n =>
    cases hrun
    have hpush : (r.push (.backref [n] r.options.ignoreCase)).InOrder := h.push rfl
    exact ⟨hpush.groups, hpush.names, hpush.rooted⟩
  | branch =>
    cases hrun
    exact h.setLevel (Level.numbers_nextBranch _) rfl
  | quantify low high greedy possessive =>
    obtain ⟨e, es, hitems⟩ := exists_item_of_quantify hrun
    cases (quantify_of_items hitems ..).symm.trans hrun
    refine h.setLevel ?_ rfl
    simp [Level.numbers, Level.numbers_expr, hitems, Expr.numbers_quantified]
  | group o inside =>
    cases hrun
    refine h.openGroup ?_ inside
    cases o with
    | capture n => exact absurd rfl (fair n)
    | _ => rfl
  | capture =>
    cases hrun
    exact h.openCapture
  | named name =>
    cases hrun
    refine ⟨h.openCapture.groups, ?_, h.openCapture.rooted⟩
    have hgroups : (r.openNamed name).groups = r.groups + 1 := rfl
    have hnames : (r.openNamed name).names.map (·.2) = r.names.map (·.2) ++ [r.groups + 1] := by
      simp [openNamed]
    rw [hgroups, hnames, range'_one_succ]
    exact h.names.append_right _
  | close =>
    obtain ⟨level, parent, outer, hsettle⟩ := settle_of_closeGroup hrun
    cases (closeGroup_of_settle hsettle).symm.trans hrun
    have hgroups := Level.allNumbers_settle r.level r.outer
    have hrooted := Level.rooted_settle h.rooted
    rw [hsettle, h.groups] at hgroups
    rw [hsettle] at hrooted
    refine ⟨?_, h.names, Level.rooted_cons_cons.mp hrooted⟩
    rw [← hgroups, Level.allNumbers_cons, Level.numbers_push, Opening.numbers_wrap,
      Level.allNumbers_cons, Level.allNumbers_cons, List.append_assoc]
    rfl

end Reading.InOrder

theorem Reading.inOrder_ofPattern {pattern : List Char} {r : Reading}
    (h : ofPattern pattern = .ok r) : r.InOrder := by
  have start : InOrder {} := ⟨rfl, .refl _, rfl⟩
  exact invariant_readAll (fun _ _ _ fair hrun h => h.run fair hrun) start h

/-- All groups of an expression have been numbered. -/
theorem Reading.InOrder.numbers_of_finish {r : Reading} (h : r.InOrder) {e : Expr}
    (hfinish : r.finish = .ok e) : e.numbers = List.range' 1 r.groups := by
  have hgroups := Level.allNumbers_settle r.level r.outer
  have hrooted := Level.rooted_settle h.rooted
  rw [h.groups] at hgroups
  unfold finish at hfinish
  split at hfinish
  · rename_i level hsettle
    cases hfinish
    rw [hsettle] at hgroups hrooted
    have hplain : level.opening = .plain := Option.some.inj hrooted
    rw [← hgroups]
    simp [Level.allNumbers, Level.numbers, hplain, Opening.numbers]
  · cases hfinish

/-- The members of a sublist that are replaced with their places in it, and the others dropped. -/
theorem filterMap_findIdx? {l l' : List Nat} (h : l.Sublist l') (hnodup : l'.Nodup) (k : Nat) :
    l'.filterMap (fun n => (l.findIdx? (· == n)).map (· + k)) = List.range' k l.length := by
  induction h generalizing k with
  | slnil => rfl
  | @cons l l' n h ih =>
    obtain ⟨hn, hnodup⟩ := List.nodup_cons.mp hnodup
    have hnone : l.findIdx? (· == n) = none := by
      rw [List.findIdx?_eq_none_iff]
      intro m hm
      exact beq_eq_false_iff_ne.mpr fun heq => hn (heq ▸ h.subset hm)
    rw [List.filterMap_cons_none (by rw [hnone]; rfl)]
    exact ih hnodup k
  | @cons_cons l l' n h ih =>
    obtain ⟨hn, hnodup⟩ := List.nodup_cons.mp hnodup
    have hhead : ((n :: l).findIdx? (· == n)).map (· + k) = some k := by
      simp [List.findIdx?_cons]
    have htail : ∀ m ∈ l', ((n :: l).findIdx? (· == m)).map (· + k)
        = (l.findIdx? (· == m)).map (· + (k + 1)) := by
      intro m hm
      have hne : n ≠ m := fun heq => hn (heq ▸ hm)
      simp [List.findIdx?_cons, hne, Function.comp_def, Nat.add_comm, Nat.add_left_comm]
    simp only [List.filterMap_cons, hhead]
    rw [List.filterMap_congr htail, ih hnodup, List.length_cons, List.range'_succ]

/-- In both modes the groups that capture have the numbers from 1 on, in the order in which they
open. -/
theorem numbers_of_compile {capturing : Capturing} {pattern : String} {regex : Regex}
    (h : compile capturing pattern = .ok regex) :
    regex.expr.numbers = List.range' 1 regex.groups := by
  obtain ⟨r, hread, hregex, -⟩ := compile_eq_ok_iff.mp h
  obtain ⟨e, hfinish, _⟩ := bind_eq_ok hregex
  have hinOrder := Reading.inOrder_ofPattern hread
  have hnumbers := hinOrder.numbers_of_finish hfinish
  rw [ofReading_of_finish hfinish] at hregex
  split at hregex
  · cases hregex
    exact hnumbers
  · split at hregex
    · cases hregex
    · cases hregex
      rw [Expr.numbers_renumber, hnumbers, ← List.length_map (·.2)]
      exact filterMap_findIdx? hinOrder.names List.nodup_range' 1

end ScopedText.Regex
