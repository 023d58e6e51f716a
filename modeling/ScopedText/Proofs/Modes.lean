import ScopedText.Proofs.Checks

/-!
# Patterns in both modes of capturing

A pattern is checked in the mode in which plain groups do not capture next to named ones, and then
searched for in the mode in which they do. The two differ in one way: a group that does not capture
may stand in a negative lookbehind. A pattern without such a group that compiles in the first mode
compiles in the second one (`compile_all`), and one that compiles in the second mode compiles in the
first one if it does not refer to groups by number next to named ones (`compile_namedFirst`).
-/

namespace ScopedText.Regex

namespace Expr

def hasGroup : Expr → Bool
  | empty | one _ | anchor _ | backref _ _ => false
  | group _ _ => true
  | seq e f | alt e f => e.hasGroup || f.hasGroup
  | repeated _ _ _ e | atomic e | ahead _ e | behind _ e => e.hasGroup

def groupBehind : Expr → Bool
  | empty | one _ | anchor _ | backref _ _ => false
  | group _ e | repeated _ _ _ e | atomic e | ahead _ e => e.groupBehind
  | seq e f | alt e f => e.groupBehind || f.groupBehind
  | behind negative e => negative && e.hasGroup || e.groupBehind

/-- Renumbering matters to a lookbehind only if it is negative and has groups. -/
theorem allowedBehind_of_renumber {f : Nat → Option Nat} {negative : Bool} {e : Expr}
    (hgroup : (negative && e.hasGroup) = false)
    (h : (e.renumber f).allowedBehind negative = true) : e.allowedBehind negative = true := by
  induction e with
  | empty | one | backref => rfl
  | anchor a => exact h
  | group n e ih =>
    cases negative with
    | true => cases hgroup
    | false =>
      rw [renumber] at h
      split at h
      · exact ih rfl h
      · exact ih rfl h
  | seq e g ihe ihg | alt e g ihe ihg =>
    simp only [hasGroup, Bool.and_or_distrib_left, Bool.or_eq_false_iff] at hgroup
    simp only [renumber, allowedBehind, Bool.and_eq_true] at h ⊢
    exact ⟨ihe hgroup.1 h.1, ihg hgroup.2 h.2⟩
  | repeated low high greedy e ih | atomic e ih => exact ih hgroup h
  | ahead negative e => exact h
  | behind _ e ih => exact ih hgroup h

/-- The check passes whatever numbers the groups get. -/
theorem check_of_renumber {f : Nat → Option Nat} {groups groups' : Nat} {e : Expr}
    (hrefers : e.RefersTo (· ≤ groups)) (hbehind : e.groupBehind = false)
    (h : (e.renumber f).check groups' = .ok ()) : e.check groups = .ok () := by
  induction e with
  | empty | one | anchor => rfl
  | backref ns =>
    have hnone : ns.any (groups < ·) = false := by simpa [RefersTo] using hrefers
    simp [check, hnone]
  | group n e ih =>
    rw [renumber] at h
    split at h
    · exact ih hrefers hbehind h
    · exact ih hrefers hbehind h
  | seq e g ihe ihg | alt e g ihe ihg =>
    simp only [groupBehind, Bool.or_eq_false_iff] at hbehind
    obtain ⟨_, he, hg⟩ := bind_eq_ok h
    simp only [check, ihe hrefers.1 hbehind.1 he, ihg hrefers.2 hbehind.2 hg]
    rfl
  | repeated low high greedy e ih | atomic e ih | ahead _ e ih => exact ih hrefers hbehind h
  | behind negative e ih =>
    simp only [groupBehind, Bool.or_eq_false_iff] at hbehind
    simp only [renumber, check] at h
    split at h
    · rename_i hallowed
      rw [check, if_pos (allowedBehind_of_renumber hbehind.1 hallowed)]
      exact ih hrefers hbehind.2 h
    · cases h

theorem local_refersTo (p : Nat → Prop) : Local (RefersTo p) where
  empty := trivial
  seq _ _ := .rfl
  alt _ _ := .rfl
  repeated _ _ _ _ := .rfl
  atomic _ := .rfl

theorem RefersTo.mono {p q : Nat → Prop} (hpq : ∀ n, p n → q n) {e : Expr} (h : e.RefersTo p) :
    e.RefersTo q := by
  induction e with
  | empty | one | anchor => trivial
  | backref ns => exact fun n hn => hpq n (h n hn)
  | group _ e ih | repeated _ _ _ e ih | atomic e ih | ahead _ e ih | behind _ e ih => exact ih h
  | seq e f ihe ihf | alt e f ihe ihf => exact ⟨ihe h.1, ihf h.2⟩

theorem refersTo_wrap {p : Nat → Prop} (o : Opening) {e : Expr} (h : e.RefersTo p) :
    (o.wrap e).RefersTo p := by
  cases o <;> exact h

end Expr

theorem Level.All.mono {P Q : Expr → Prop} (hPQ : ∀ e, P e → Q e) {l : Level} (h : l.All P) :
    l.All Q :=
  ⟨fun e he => hPQ e (h.1 e he), fun e he => hPQ e (h.2 e he)⟩

namespace Reading

/-- As long as no group is referred to by its number, all that is referred to is there. -/
structure Referring (r : Reading) : Prop where
  names : ∀ n ∈ r.names.map (·.2), n ≤ r.groups
  levels : r.numbered = false → ∀ l ∈ r.level :: r.outer, l.All (Expr.RefersTo (· ≤ r.groups))

variable {r r₁ : Reading}

/-- The open group can get other contents. -/
theorem Referring.setLevel (h : r.Referring) {level : Level}
    (hlevel : r.level.All (Expr.RefersTo (· ≤ r.groups)) →
      level.All (Expr.RefersTo (· ≤ r.groups))) : { r with level }.Referring where
  names := h.names
  levels hnumbered l hl := by
    have hlevels := h.levels hnumbered
    rcases List.mem_cons.mp hl with rfl | hl
    · exact hlevel (hlevels _ List.mem_cons_self)
    · exact hlevels l (List.mem_cons_of_mem _ hl)

theorem Referring.openGroup (h : r.Referring) (o : Opening) (inside : Options) :
    (r.openGroup o inside).Referring where
  names := h.names
  levels hnumbered l hl := by
    rcases List.mem_cons.mp hl with rfl | hl
    · simp [Reading.openGroup, Level.All]
    · exact h.levels hnumbered l hl

theorem Referring.addGroup (h : r.Referring) :
    { r with groups := r.groups + 1 }.Referring where
  names n hn := Nat.le_succ_of_le (h.names n hn)
  levels hnumbered l hl := (h.levels hnumbered l hl).mono fun _ he =>
    he.mono fun _ hn => Nat.le_succ_of_le hn

theorem Referring.openCapture (h : r.Referring) : r.openCapture.Referring :=
  (h.openGroup (.capture (r.groups + 1)) r.options).addGroup

theorem Referring.openNamed (h : r.Referring) (name : String) : (r.openNamed name).Referring where
  names n hn := by
    simp only [Reading.openNamed, List.map_append, List.map_cons, List.map_nil, List.mem_append,
      List.mem_singleton] at hn
    rcases hn with hn | rfl
    · exact h.openCapture.names n hn
    · exact Nat.le_refl _
  levels := h.openCapture.levels

/-- The inline options that are open close one after the other. -/
theorem all_settle {P : Expr → Prop} (hP : Expr.Local P) {l : Level} {outer : List Level}
    (h : ∀ m ∈ l :: outer, m.All P) :
    ∀ m ∈ (l.settle outer).1 :: (l.settle outer).2, m.All P := by
  fun_induction Level.settle l outer with
  | case1 l => exact h
  | case2 l parent outer hinline ih =>
    refine ih fun m hm => ?_
    rcases List.mem_cons.mp hm with rfl | hm
    · exact Level.all_push.mpr ⟨(Level.all_expr hP).mpr (h l (by simp)), h parent (by simp)⟩
    · exact h m (by simp [hm])
  | case3 l parent outer hinline => exact h

theorem Referring.run (h : r.Referring) {a : Action} (fair : a.Fair r.names)
    (hrun : a.run r = .ok r₁) : r₁.Referring := by
  cases a with
  | keep =>
    cases hrun
    exact h
  | push e =>
    cases hrun
    exact h.setLevel fun hl => Level.all_push.mpr ⟨fair.1.mono h.names, hl⟩
  | refer n =>
    cases hrun
    -- from here on nothing is said about what the pattern refers to
    exact ⟨h.names, fun hnumbered => by cases hnumbered⟩
  | branch =>
    cases hrun
    exact h.setLevel fun hl => (Level.all_nextBranch (Expr.local_refersTo _)).mpr hl
  | quantify low high greedy possessive =>
    obtain ⟨e, es, hitems⟩ := exists_item_of_quantify hrun
    cases (quantify_of_items hitems ..).symm.trans hrun
    refine h.setLevel fun hl => ⟨?_, hl.2⟩
    have hitem := hl.1
    rw [hitems, List.forall_mem_cons] at hitem
    exact List.forall_mem_cons.mpr
      ⟨(Expr.local_refersTo _).quantified.mpr hitem.1, hitem.2⟩
  | group o inside =>
    cases hrun
    exact h.openGroup o inside
  | capture =>
    cases hrun
    exact h.openCapture
  | named name =>
    cases hrun
    exact h.openNamed name
  | close =>
    obtain ⟨level, parent, outer, hsettle⟩ := settle_of_closeGroup hrun
    cases (closeGroup_of_settle hsettle).symm.trans hrun
    refine ⟨h.names, fun hnumbered l hl => ?_⟩
    have hall := all_settle (Expr.local_refersTo _) (h.levels hnumbered)
    rw [hsettle] at hall
    rcases List.mem_cons.mp hl with rfl | hl
    · have hlevel := (Level.all_expr (Expr.local_refersTo _)).mpr (hall level (by simp))
      exact Level.all_push.mpr ⟨Expr.refersTo_wrap _ hlevel, hall parent (by simp)⟩
    · exact hall l (by simp [hl])

theorem referring_ofPattern {pattern : List Char} (h : ofPattern pattern = .ok r) :
    r.Referring := by
  refine invariant_readAll (fun a r r₁ fair hrun h => h.run fair hrun) ⟨?_, ?_⟩ h
  · intro n hn
    cases hn
  · intro _ l hl
    cases List.mem_singleton.mp hl
    simp [Level.All]

/-- What has been read refers to groups that are there, as long as it does so by name. -/
theorem refersTo_of_finish (h : r.Referring) (hnumbered : r.numbered = false) {e : Expr}
    (hfinish : r.finish = .ok e) : e.RefersTo (· ≤ r.groups) := by
  have hall := all_settle (Expr.local_refersTo _) (h.levels hnumbered)
  unfold finish at hfinish
  split at hfinish
  · rename_i level hsettle
    cases hfinish
    rw [hsettle] at hall
    exact (Level.all_expr (Expr.local_refersTo _)).mpr (hall level (by simp))
  · cases hfinish

end Reading

/-- A group that does not capture next to a named one stands in a negative lookbehind. -/
def Mixed (pattern : String) : Prop :=
  ∃ r e, Reading.ofPattern pattern.toList = .ok r ∧ r.finish = .ok e ∧ r.names ≠ []
    ∧ e.groupBehind = true

/-- A pattern that compiles when plain groups do not capture next to named ones also does when they
do, if none of them stands in a negative lookbehind. -/
theorem compile_all {pattern : String} (h : ∃ regex, compile .namedFirst pattern = .ok regex)
    (hmixed : ¬ Mixed pattern) : ∃ regex, compile .all pattern = .ok regex := by
  obtain ⟨r, e, hread, hfinish, hnumbered, hpasses⟩ := exists_compile_iff.mp h
  refine exists_compile_iff.mpr ⟨r, e, hread, hfinish, .inl rfl, ?_⟩
  have hall : r.test .all = .sound some r.groups := if_pos (.inl rfl)
  rw [hall]
  by_cases hnames : r.names = []
  · have hsame : r.test .namedFirst = .sound some r.groups := if_pos (.inr hnames)
    rwa [hsame] at hpasses
  · have hnamed : r.test .namedFirst = .sound r.byName r.names.length :=
      if_neg (by simp [hnames])
    rw [hnamed] at hpasses
    have hfalse : r.numbered = false := by simpa [hnames] using hnumbered
    have hrefers := Reading.refersTo_of_finish (Reading.referring_ofPattern hread) hfalse hfinish
    have hbehind : e.groupBehind = false :=
      Bool.eq_false_iff.mpr fun hbehind => hmixed ⟨r, e, hread, hfinish, hnames, hbehind⟩
    have hcheck := Expr.check_of_renumber hrefers hbehind hpasses
    rwa [Test.Passes, Expr.renumber_some]

/-! ## The other way round -/

namespace Expr

theorem allowedBehind_renumber (f : Nat → Option Nat) {negative : Bool} {e : Expr}
    (h : e.allowedBehind negative = true) : (e.renumber f).allowedBehind negative = true := by
  induction e with
  | empty | one | backref => rfl
  | anchor a => exact h
  | group n e ih =>
    simp only [allowedBehind, Bool.and_eq_true] at h
    rw [renumber]
    split
    · simp only [allowedBehind, Bool.and_eq_true]
      exact ⟨h.1, ih h.2⟩
    · exact ih h.2
  | seq e g ihe ihg | alt e g ihe ihg =>
    simp only [renumber, allowedBehind, Bool.and_eq_true] at h ⊢
    exact ⟨ihe h.1, ihg h.2⟩
  | repeated low high greedy e ih | atomic e ih | behind _ e ih => exact ih h
  | ahead negative e => exact h

/-- An expression that passes the check passes it with other numbers, or with fewer groups. -/
theorem check_renumber {f : Nat → Option Nat} {groups groups' : Nat}
    (hf : ∀ n m, f n = some m → m ≤ groups') {e : Expr} (h : e.check groups = .ok ()) :
    (e.renumber f).check groups' = .ok () := by
  induction e with
  | empty | one | anchor => rfl
  | backref ns =>
    have hnone : (ns.filterMap f).any (groups' < ·) = false := by
      rw [List.any_eq_false]
      intro m hm
      obtain ⟨n, -, hn⟩ := List.mem_filterMap.mp hm
      simpa using hf n m hn
    simp [renumber, check, hnone]
  | group n e ih =>
    rw [renumber]
    split
    · exact ih h
    · exact ih h
  | seq e g ihe ihg | alt e g ihe ihg =>
    obtain ⟨_, he, hg⟩ := bind_eq_ok h
    simp only [renumber, check, ihe he, ihg hg]
    rfl
  | repeated low high greedy e ih | atomic e ih | ahead _ e ih => exact ih h
  | behind negative e ih =>
    simp only [check] at h
    split at h
    · rename_i hallowed
      rw [renumber, check, if_pos (allowedBehind_renumber f hallowed)]
      exact ih h
    · cases h

end Expr

theorem Reading.byName_le {r : Reading} {n m : Nat} (h : r.byName n = some m) :
    m ≤ r.names.length := by
  obtain ⟨i, hi, rfl⟩ := Option.map_eq_some_iff.mp h
  have hlt := (List.findIdx?_eq_some_iff_getElem.mp hi).1
  rw [List.length_map] at hlt
  exact hlt

/-- What passes the check with all groups passes it where plain groups do not capture next to named
ones, unless a group is referred to by its number there. -/
theorem compile_namedFirst {pattern : String} {r : Reading} {e : Expr}
    (hread : Reading.ofPattern pattern.toList = .ok r) (hfinish : r.finish = .ok e)
    (hcheck : e.check r.groups = .ok ()) :
    compile .namedFirst pattern
      = if r.names = [] then .ok ⟨e, r.groups⟩
        else if r.numbered then .error .numberedBackreference
        else .ok ⟨e.renumber r.byName, r.names.length⟩ := by
  have hregex : ofReading .namedFirst r = _ := ofReading_of_finish hfinish
  by_cases hnames : r.names = []
  · rw [if_pos (.inr hnames)] at hregex
    rw [if_pos hnames]
    exact compile_eq_ok_iff.mpr ⟨r, hread, hregex, hcheck⟩
  · rw [if_neg (by simp [hnames])] at hregex
    rw [if_neg hnames]
    cases hnumbered : r.numbered with
    | true =>
      rw [hnumbered, if_pos rfl] at hregex
      simp only [compile, hread, hregex, bind, Except.bind]
      rfl
    | false =>
      rw [hnumbered, if_neg Bool.false_ne_true] at hregex
      refine compile_eq_ok_iff.mpr ⟨r, hread, hregex, ?_⟩
      exact Expr.check_renumber (fun _ _ => Reading.byName_le) hcheck

end ScopedText.Regex
