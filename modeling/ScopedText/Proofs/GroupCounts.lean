import Mathlib
import ScopedText.Proofs.FirstMatch
import ScopedText.Proofs.Notations
import ScopedText.Proofs.Numbering
import ScopedText.Proofs.Templates

/-!
# Groups that are counted and groups that capture

A pattern is compiled twice. With its grammar it is compiled to count its groups, without its
references, and then plain groups do not capture next to named ones. With the others of a list it is
compiled to be searched for, as it is written, and all groups capture. Leaving out references that
stand free changes no group, but as many groups are counted as capture only if none of them has a
name, or all of them have one (`countGroups_eq_iff`). Then the captures of the pattern are accepted
exactly if its matches have their groups (`groups_of_set`).
-/

namespace ScopedText.Regex

open Pattern Backreference

/-! ## Groups without references -/

/-- A pattern that is searched for as it is written can also be read without its references if these
stand free, unless nothing is left to repeat. -/
theorem read_strip_of_compile {pattern : String} {regex : Regex}
    (h : compile .all pattern = .ok regex)
    (hfree : Stands (.asWritten regex.groups) {} pattern.toList) :
    Reading.ofPattern (strip pattern).toList = .error .nothingToRepeat
      ∨ ∃ r e, Reading.ofPattern (strip pattern).toList = .ok r ∧ r.finish = .ok e
        ∧ r.groups = regex.groups ∧ e.check r.groups = .ok () := by
  obtain ⟨r', hread', hregex, hcheck⟩ := compile_eq_ok_iff.mp h
  obtain ⟨e', hfinish', _⟩ := bind_eq_ok hregex
  rw [ofReading_of_finish hfinish', if_pos (.inl rfl)] at hregex
  cases hregex
  rw [strip, String.toList_ofList]
  have hback := hfree.readAll_back (Filling.asWritten_adds r'.groups) (.inr rfl) (.refl {})
    (by rwa [replace_asWritten])
  rcases hback with hnothing | ⟨r, hread, hfills⟩
  · exact .inl hnothing
  · obtain ⟨e, hfinish, hsame⟩ := hfills.finish_back hfinish'
    refine .inr ⟨r, e, hread, hfinish, hfills.groups.symm, ?_⟩
    have hpasses := hsame (.sound some r'.groups) (Test.allows_some (Nat.le_refl _))
    rw [Test.Passes, Test.Passes, Expr.renumber_some, Expr.renumber_some] at hpasses
    rw [← hfills.groups]
    exact hpasses.mpr hcheck

/-- The pattern can be read without its references, and none of its groups has a name, or all of
them have one and none is referred to by its number. -/
def Uniform (pattern : String) : Prop :=
  ∃ r, Reading.ofPattern (strip pattern).toList = .ok r
    ∧ (r.names = [] ∨ r.names.length = r.groups ∧ r.numbered = false)

/-- If all references stand free, the groups are counted as they capture exactly if the pattern is
uniform. -/
theorem countGroups_eq_iff {pattern : String} {regex : Regex}
    (h : compile .all pattern = .ok regex)
    (hfree : Stands (.asWritten regex.groups) {} pattern.toList) :
    countGroups pattern = .ok regex.groups ↔ Uniform pattern := by
  rw [countGroups_eq, Uniform]
  rcases read_strip_of_compile h hfree with hnothing | ⟨r, e, hread, hfinish, hgroups, hcheck⟩
  · have hrefused : compile .namedFirst (strip pattern) = .error .nothingToRepeat := by
      simp only [compile, hnothing, bind, Except.bind]
    rw [hrefused, hnothing]
    simp [Except.map]
  · have hany : (∃ r', Reading.ofPattern (strip pattern).toList = .ok r'
        ∧ (r'.names = [] ∨ r'.names.length = r'.groups ∧ r'.numbered = false))
        ↔ r.names = [] ∨ r.names.length = r.groups ∧ r.numbered = false := by
      simp [hread]
    rw [hany, compile_namedFirst hread hfinish hcheck, ← hgroups]
    by_cases hnames : r.names = []
    · rw [if_pos hnames]
      simp [hnames, Except.map]
    · rw [if_neg hnames]
      cases hnumbered : r.numbered with
      | true => simp [hnames, Except.map]
      | false => simp [hnames, Except.map]

/-! ## Groups of matches -/

section Matches

variable {text : String} {origin : text.Pos}

/-- A match has a place for each group. -/
theorem length_of_find [Engine] [LawfulEngine] {regex : Engine.Compiled} {m : Found text origin}
    (h : Engine.find regex origin = some m) : m.groups.length = Engine.groups regex + 1 :=
  congrArg (· + 1) (LawfulEngine.length_matchAt (find_eq_some_iff.mp h).1)

end Matches

/-- Captures are accepted if the pattern has all their groups. -/
theorem exists_captureTable_iff {cs : Source.Captures}
    (hsorted : cs.entries.Pairwise (·.1 < ·.1)) {p : Prepared} :
    (∃ table, captureTable cs p = .ok table) ↔ ∀ entry ∈ cs.entries, entry.1 ≤ p.groups := by
  constructor
  · rintro ⟨table, htable⟩ entry hentry
    obtain ⟨greatest, hgreatest, hle⟩ := cs.exists_greatest?_of_mem hsorted hentry
    refine Nat.le_trans hle (Nat.le_of_not_lt fun hlt => ?_)
    cases htable.symm.trans (captureTable_of_lt hgreatest hlt)
  · intro hall
    refine captureTable_of_le fun greatest hgreatest => ?_
    obtain ⟨last, hlast, rfl⟩ := Option.map_eq_some_iff.mp hgreatest
    exact hall last (List.mem_of_getLast? hlast)

/-- What the check counts is what a search reports, in a uniform pattern. -/
theorem preparePattern_of_uniform {pattern : String} {regex : Regex}
    (h : compile .all pattern = .ok regex)
    (hfree : Stands (.asWritten regex.groups) {} pattern.toList) (huniform : Uniform pattern)
    {definitions : NameMap String} {raw : String}
    (hprepare : Pattern.prepare definitions raw = .ok pattern) :
    preparePattern definitions raw = .ok ⟨pattern, regex.groups⟩ := by
  rw [preparePattern, hprepare]
  dsimp only
  rw [(countGroups_eq_iff h hfree).mpr huniform]

/-- **Groups are counted as they capture** in a pattern whose references stand free exactly if it is
uniform. Then the groups have the same numbers both times, and captures are accepted exactly if the
matches of the pattern in a set have their groups; there the pattern is told from others by its
label. -/
theorem groups_of_set {ι : Type} (items : List (ι × String)) (set : Regex.Set ι)
    (hset : Set.ofPatterns items = .ok set) (label : ι) (pattern : String)
    (honly : ∀ other, (label, other) ∈ items → other = pattern) (regex : Regex)
    (compiled : compile .all pattern = .ok regex)
    (hfree : Stands (.asWritten regex.groups) {} pattern.toList) :
    (countGroups pattern = .ok regex.groups ↔ Uniform pattern)
      ∧ (Uniform pattern → ∃ counted, compile .namedFirst (strip pattern) = .ok counted
        ∧ counted.expr.numbers = List.range' 1 regex.groups
        ∧ regex.expr.numbers = List.range' 1 regex.groups)
      ∧ ∀ (text : String) (origin : text.Pos) (m : Found text origin),
        set.find origin = some (label, m) → m.groups.length = regex.groups + 1
          ∧ (Uniform pattern → ∀ (definitions : NameMap String) (raw : String),
            Pattern.prepare definitions raw = .ok pattern →
            ∃ p, preparePattern definitions raw = .ok p
              ∧ ∀ cs : Source.Captures, cs.entries.Pairwise (·.1 < ·.1) →
                ((∃ table, captureTable cs p = .ok table)
                  ↔ ∀ entry ∈ cs.entries, entry.1 < m.groups.length)) := by
  refine ⟨countGroups_eq_iff compiled hfree, fun huniform => ?_, fun text origin m hfind => ?_⟩
  · have hcount := (countGroups_eq_iff compiled hfree).mpr huniform
    rw [countGroups_eq] at hcount
    obtain ⟨counted, hcounted, hgroups⟩ := map_eq_ok hcount
    refine ⟨counted, hcounted, ?_, numbers_of_compile compiled⟩
    rw [numbers_of_compile hcounted, hgroups]
  · obtain ⟨searched, hmem, hmatch⟩ := exists_mem_of_find hfind
    obtain ⟨other, hother, hcompiled⟩ := exists_mem_of_ofPatterns hset hmem
    rw [honly other hother] at hcompiled
    obtain rfl : regex = searched := Except.ok.inj (compiled.symm.trans hcompiled)
    have hlength : m.groups.length = regex.groups + 1 := length_of_find hmatch
    refine ⟨hlength, fun huniform definitions raw hprepare => ?_⟩
    refine ⟨_, preparePattern_of_uniform compiled hfree huniform hprepare, fun cs hsorted => ?_⟩
    rw [exists_captureTable_iff hsorted, hlength]
    simp only [Nat.lt_succ_iff]

/-- A letter in a group and the letter again, next to nothing else. -/
def twiceSet : Regex.Set Nat :=
  ⟨[(0, ⟨.seq (.group 1 (.one (.single 'a'))) (.backref [1] false), 1⟩)]⟩

def twiceMatch : Found "aa" "aa".startPos where
  span := ⟨"aa".startPos, "aa".endPos, by decide⟩
  le := String.Pos.le_refl _
  captured := [some ⟨"aa".startPos, ⟨⟨1⟩, by decide⟩, by decide⟩]

/-- The group is counted, and its capture is accepted. -/
theorem groups_of_set_twice :
    Set.ofPatterns [(0, "(a)\\1")] = .ok twiceSet
      ∧ Stands (.asWritten 1) {} "(a)\\1".toList
      ∧ Uniform "(a)\\1"
      ∧ countGroups "(a)\\1" = .ok 1
      ∧ twiceSet.find "aa".startPos = some (0, twiceMatch)
      ∧ twiceMatch.groups.length = 2
      ∧ ∃ p table, preparePattern {} "(a)\\1" = .ok p
        ∧ captureTable ⟨[(1, { name := some "x" })]⟩ p = .ok table := by
  have hset : Set.ofPatterns [(0, "(a)\\1")] = .ok twiceSet := by cbv
  have compiled : compile .all "(a)\\1"
      = .ok ⟨.seq (.group 1 (.one (.single 'a'))) (.backref [1] false), 1⟩ := by cbv
  have hfree : Stands (.asWritten 1) {} "(a)\\1".toList := by
    refine .item (w := ['(']) (by simp) (fun _ => rfl) (fun _ _ => rfl) ?_
    refine .item (w := ['a']) (by simp) (fun _ => rfl) (fun _ _ => rfl) ?_
    refine .item (w := [')']) (by simp) (fun _ => rfl) (fun _ _ => rfl) ?_
    exact .reference rfl ⟨Nat.le_refl _, by simp⟩ (.rest _ rfl)
  have huniform : Uniform "(a)\\1" := by
    have hstrip : strip "(a)\\1" = "(a)" := by cbv
    have hreading : (Reading.ofPattern "(a)".toList).map (·.names) = .ok [] := by cbv
    obtain ⟨r, hread, hnames⟩ := map_eq_ok hreading
    exact ⟨r, hstrip ▸ hread, .inl hnames⟩
  have hfind : twiceSet.find "aa".startPos = some (0, twiceMatch) := by cbv
  obtain ⟨hcount, -, hmatches⟩ := groups_of_set [(0, "(a)\\1")] twiceSet hset 0 "(a)\\1"
    (by simp) _ compiled hfree
  obtain ⟨hlength, hcaptures⟩ := hmatches _ _ _ hfind
  obtain ⟨p, hprepared, haccepts⟩ := hcaptures huniform {} "(a)\\1" (by cbv)
  obtain ⟨table, htable⟩ :=
    (haccepts ⟨[(1, { name := some "x" })]⟩ (by simp)).mpr (by simp [hlength])
  exact ⟨hset, hfree, huniform, hcount.mpr huniform, hfind, hlength, p, table, hprepared, htable⟩

/-- A plain group next to a named one, each with a letter in it. -/
def plainNextToNamed : Regex :=
  ⟨.seq (.group 1 (.one (.single 'a'))) (.group 2 (.one (.single 'b'))), 2⟩

def plainNextToNamedMatch : Found "ab" "ab".startPos where
  span := ⟨"ab".startPos, "ab".endPos, by decide⟩
  le := String.Pos.le_refl _
  captured := [some ⟨"ab".startPos, ⟨⟨1⟩, by decide⟩, by decide⟩,
    some ⟨⟨⟨1⟩, by decide⟩, "ab".endPos, by decide⟩]

/-- Of a plain group and a named one only the second is counted, as the first group, and the capture
of the second one is refused. -/
theorem countGroups_plain_next_to_named :
    Set.ofPatterns [(0, "(a)(?<n>b)")] = .ok ⟨[(0, plainNextToNamed)]⟩
      ∧ Set.find ⟨[(0, plainNextToNamed)]⟩ "ab".startPos = some (0, plainNextToNamedMatch)
      ∧ plainNextToNamedMatch.groups.length = 3
      ∧ countGroups "(a)(?<n>b)" = .ok 1
      ∧ preparePattern {} "(a)(?<n>b)" = .ok ⟨"(a)(?<n>b)", 1⟩
      ∧ captureTable ⟨[(2, { name := some "x" })]⟩ ⟨"(a)(?<n>b)", 1⟩
        = .error (.invalidCaptureIndex "(a)(?<n>b)" 2) := by
  have hset : Set.ofPatterns [(0, "(a)(?<n>b)")] = .ok ⟨[(0, plainNextToNamed)]⟩ := by cbv
  have hcount : countGroups "(a)(?<n>b)" = .ok 1 := by
    rw [countGroups_eq, strip_of_not_has (by decide)]
    cbv
  have hprepare : Pattern.prepare {} "(a)(?<n>b)" = .ok "(a)(?<n>b)" := by cbv
  have hprepared : preparePattern {} "(a)(?<n>b)" = .ok ⟨"(a)(?<n>b)", 1⟩ := by
    rw [preparePattern, hprepare]
    dsimp only
    rw [hcount]
  exact ⟨hset, by cbv, rfl, hcount, hprepared, rfl⟩

end ScopedText.Regex
