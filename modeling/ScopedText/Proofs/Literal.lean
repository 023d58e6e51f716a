import ScopedText.Proofs.Answer
import ScopedText.Proofs.Templates

/-!
# Patterns that match one text literally

A text that is escaped is read as the sequence of its characters and nothing else
(`compile_escape`), and that matches where these characters stand, without any group
(`run_literal`). So a search for it stops at the first place where the text occurs
(`find_ofText_eq_some_iff`, `find_ofText_eq_none_iff`).
-/

namespace ScopedText.Regex

open Pattern

/-- The expression that matches this text and has no groups. -/
def ofText (s : String) : Regex := ⟨.literal s.toList, 0⟩

/-! ## Reading -/

def Reading.pushChars (r : Reading) (cs : List Char) : Reading := cs.foldl Reading.pushChar r

theorem Reading.readAll_escapeChars {r : Reading} (hr : r.options.extended = false)
    (s cs : List Char) : r.readAll (escapeChars s ++ cs) = (r.pushChars s).readAll cs := by
  induction s generalizing r with
  | nil => rfl
  | cons c s ih =>
    obtain ⟨r₁, hr₁, hnext⟩ := r.next_literal c
    have hpush : r₁ = r.pushChar c :=
      hr₁.resolve_right fun hblank => Bool.false_ne_true (hr.symm.trans hblank.1)
    have hlt : (escapeChars s ++ cs).length
        < ((Item.ofLiteral c).chars ++ (escapeChars s ++ cs)).length := by
      have hpos : 0 < (Item.ofLiteral c).chars.length := by
        unfold Item.ofLiteral
        split <;> exact Nat.succ_pos _
      simp only [List.length_append]
      omega
    rw [escapeChars_cons, List.append_assoc, readAll_of_next (hnext _) hlt, hpush]
    exact ih (r := r.pushChar c) hr

/-- What has been read, with more literal characters behind it. -/
theorem Reading.pushChars_eq (r : Reading) (cs : List Char) :
    r.pushChars cs = { r with level := { r.level with
      items := (cs.map fun c => Expr.one (.upToCase r.options.ignoreCase (.single c))).reverse
        ++ r.level.items } } := by
  induction cs generalizing r with
  | nil => rfl
  | cons c cs ih =>
    have hcons : r.pushChars (c :: cs) = (r.pushChar c).pushChars cs := rfl
    rw [hcons, ih]
    simp only [pushChar, push, Level.push, List.map_cons, List.reverse_cons, List.append_assoc,
      List.singleton_append]

theorem Expr.check_literal (groups : Nat) (cs : List Char) :
    (Expr.literal cs).check groups = .ok () := by
  have hlocal := (Test.sound some groups).local_passes
  have hpasses : (Test.sound some groups).Passes (.literal cs) := by
    rw [Expr.literal, hlocal.concat]
    simp only [List.mem_map, forall_exists_index, and_imp, forall_apply_eq_imp_iff₂]
    exact fun c _ => rfl
  rwa [Test.Passes, Expr.renumber_some] at hpasses

/-- What is escaped compiles in either mode, to the sequence of its characters. -/
theorem compile_escape (capturing : Capturing) (s : String) :
    compile capturing (escape s) = .ok (ofText s) := by
  have hread : Reading.ofPattern (escape s).toList = .ok (Reading.pushChars {} s.toList) := by
    have hall := Reading.readAll_escapeChars (r := {}) rfl s.toList []
    rw [List.append_nil] at hall
    rw [Reading.ofPattern, escape, String.toList_ofList, hall, Reading.readAll]
    rfl
  have hfinish : (Reading.pushChars {} s.toList).finish = .ok (.literal s.toList) := by
    rw [Reading.pushChars_eq, Reading.finish, Level.settle]
    simp only [Level.expr, List.append_nil, List.reverse_reverse, List.reverse_cons,
      List.reverse_nil, List.nil_append, Expr.choice, Expr.literal]
    rfl
  have hregex : ofReading capturing (Reading.pushChars {} s.toList)
      = .ok (ofText s) := by
    rw [ofReading_of_finish hfinish, Reading.pushChars_eq]
    exact if_pos (.inr rfl)
  simp only [compile, hread, hregex, ofText, Expr.check_literal, bind, Except.bind]
  rfl

/-! ## Matching -/

variable {text : String}

/-- Where the characters end that stand at a position, if they do. -/
def spelled? (p : text.Pos) : List Char → Option { q : text.Pos // p ≤ q }
  | [] => some ⟨p, String.Pos.le_refl p⟩
  | c :: cs =>
    if h : p = text.endPos then none
    else if p.get h = c then
      (spelled? (p.next h) cs).map fun q =>
        ⟨q.1, String.Pos.le_trans (String.Pos.le_of_lt String.Pos.lt_next) q.2⟩
    else none

theorem ofList_cons (c : Char) (cs : List Char) :
    String.ofList (c :: cs) = String.singleton c ++ String.ofList cs := by
  rw [← String.toList_inj]
  simp

/-- The text goes on with the characters, and what is found is where they end. -/
theorem splits_of_spelled? {p : text.Pos} {cs : List Char} {q : { q : text.Pos // p ≤ q }}
    (h : spelled? p cs = some q) {before after : String} (hp : p.Splits before after) :
    ∃ rest, after = String.ofList cs ++ rest ∧ q.1.Splits (before ++ String.ofList cs) rest := by
  induction cs generalizing p before after with
  | nil =>
    cases h
    exact ⟨after, by simp, by simpa using hp⟩
  | cons c cs ih =>
    unfold spelled? at h
    split at h
    · cases h
    · rename_i hend
      split at h
      · rename_i hget
        obtain ⟨q', hq', rfl⟩ := Option.map_eq_some_iff.mp h
        obtain ⟨after, rfl⟩ := hp.exists_eq_singleton_append hend
        rw [hget] at hp ⊢
        obtain ⟨rest, rfl, hq⟩ := ih hq' hp.next
        exact ⟨rest, by rw [ofList_cons, String.append_assoc],
          by rwa [ofList_cons, ← String.append_assoc]⟩
      · cases h

theorem spelled?_of_splits {p q : text.Pos} {cs : List Char} {before rest : String}
    (hp : p.Splits before (String.ofList cs ++ rest))
    (hq : q.Splits (before ++ String.ofList cs) rest) :
    ∃ hle, spelled? p cs = some ⟨q, hle⟩ := by
  induction cs generalizing p before with
  | nil =>
    have hq' : q.Splits before rest := by simpa using hq
    obtain rfl := hq'.pos_eq hp
    exact ⟨String.Pos.le_refl q, rfl⟩
  | cons c cs ih =>
    rw [ofList_cons, String.append_assoc] at hp
    rw [ofList_cons, ← String.append_assoc] at hq
    have hend := hp.ne_endPos_of_singleton
    have hget : p.get hend = c := hp.next.get_eq_of_singleton
    obtain ⟨hle, hfound⟩ := ih hp.next hq
    refine ⟨String.Pos.le_trans (String.Pos.le_of_lt String.Pos.lt_next) hle, ?_⟩
    rw [spelled?, dif_neg hend, if_pos hget, hfound]
    rfl

/-- A stretch of a text is the given text if its characters are spelled there. -/
theorem spelled?_eq_some_iff {p q : text.Pos} {hle : p ≤ q} {s : String} :
    spelled? p s.toList = some ⟨q, hle⟩ ↔ Span.text ⟨p, q, hle⟩ = s := by
  have hcopy : Span.text ⟨p, q, hle⟩ = (text.slice p q hle).copy :=
    String.extract_eq_copy_slice p q hle
  have hsplits : (∃ h, (text.slice p q h).copy = s)
      ↔ ∃ before after, p.Splits before (s ++ after) ∧ q.Splits (before ++ s) after :=
    String.copy_slice_eq_iff_splits
  rw [exists_prop_of_true hle, ← hcopy] at hsplits
  rw [hsplits]
  constructor
  · intro h
    obtain ⟨rest, hafter, hq⟩ := splits_of_spelled? h p.splits
    rw [String.ofList_toList] at hafter hq
    exact ⟨_, rest, hafter ▸ p.splits, hq⟩
  · rintro ⟨before, rest, hp, hq⟩
    rw [← s.ofList_toList] at hp hq
    obtain ⟨_, hfound⟩ := spelled?_of_splits hp hq
    simpa using hfound

theorem Expr.run_literal_cons (origin : text.Pos) {start : text.Pos} {β : Type} (c : Char)
    (cs : List Char) (st : State text start) (k : State text start → Option β) :
    (Expr.literal (c :: cs)).run origin st k
      = (Expr.one (.single c)).run origin st fun st => (Expr.literal cs).run origin st k := by
  cases cs <;> rfl

/-- The characters of an expression that is written literally are matched one after the other. -/
theorem run_literal (origin : text.Pos) {start : text.Pos} {β : Type} (cs : List Char)
    (st : State text start) (k : State text start → Option β) :
    (Expr.literal cs).run origin st k
      = (spelled? st.pos cs).bind fun q => k ⟨q.1, String.Pos.le_trans st.le q.2, st.groups⟩ := by
  induction cs generalizing st with
  | nil => rfl
  | cons c cs ih =>
    rw [Expr.run_literal_cons, Expr.run, spelled?]
    split
    · rfl
    · rename_i hend
      rw [CharSet.contains_single, ih]
      by_cases hget : st.pos.get hend = c
      · rw [if_pos hget, if_pos (beq_iff_eq.mpr hget.symm), Option.bind_map]
        rfl
      · rw [if_neg hget, if_neg (mt beq_iff_eq.mp (Ne.symm hget))]
        rfl

/-! ## Searching -/

/-- The span is the first one with the given text that starts at a position or behind it. -/
structure Occurs (origin : text.Pos) (s : String) (span : Span text) : Prop where
  text_eq : span.text = s
  le : origin ≤ span.start
  first : ∀ other : Span text, origin ≤ other.start → other.text = s → span.start ≤ other.start

variable {origin : text.Pos} {s : String}

theorem matchAt_ofText (s : String) (p : text.Pos) (hp : origin ≤ p) :
    (ofText s).matchAt p hp
      = (spelled? p s.toList).map fun q => ⟨⟨p, q.1, q.2⟩, hp, []⟩ := by
  unfold matchAt ofText
  dsimp only
  rw [run_literal, Option.map_eq_bind]
  rfl

theorem matchAt_ofText_eq_none_iff {p : text.Pos} {hp : origin ≤ p} :
    (ofText s).matchAt p hp = none ↔ ∀ span : Span text, span.start = p → span.text ≠ s := by
  rw [matchAt_ofText, Option.map_eq_none_iff, Option.eq_none_iff_forall_ne_some]
  constructor
  · rintro h ⟨p, q, hle⟩ rfl htext
    exact h ⟨q, hle⟩ (spelled?_eq_some_iff.mpr htext)
  · rintro h ⟨q, hle⟩ hspelled
    exact h ⟨p, q, hle⟩ rfl (spelled?_eq_some_iff.mp hspelled)

/-- A search finds nothing only if there is nothing at any position. -/
theorem firstFrom_eq_none_iff {β : Type} {attempt : (p : text.Pos) → origin ≤ p → Option β}
    {p : text.Pos} {hp : origin ≤ p} :
    firstFrom attempt p hp = none ↔ ∀ q hq, p ≤ q → attempt q hq = none := by
  fun_induction firstFrom attempt p hp with
  | case1 p hp answer hanswer =>
    simp only [reduceCtorEq, false_iff, not_forall]
    exact ⟨p, hp, String.Pos.le_refl p, by rw [hanswer]; exact Option.some_ne_none _⟩
  | case2 hp hnone =>
    refine iff_of_true rfl fun q hq hle => ?_
    obtain rfl : q = text.endPos := Std.le_antisymm q.le_endPos hle
    exact hnone
  | case3 p hp hnone hend ih =>
    rw [ih]
    constructor
    · intro h q hq hle
      by_cases heq : p = q
      · subst heq
        exact hnone
      · exact h q hq (String.Pos.next_le_of_lt (String.Pos.lt_of_le_of_ne hle heq))
    · exact fun h q hq hle => h q hq (String.Pos.le_of_lt (String.Pos.next_le_iff_lt.mp hle))

/-- A search for a text finds its first occurrence. -/
theorem find_ofText_eq_some_iff {m : Found text origin} :
    (ofText s).find origin = some m ↔ Occurs origin s m.span ∧ m.captured = [] := by
  rw [find, firstFrom_eq_some_iff]
  constructor
  · rintro ⟨p, hp, -, hat, hbefore⟩
    rw [matchAt_ofText] at hat
    obtain ⟨⟨q, hle⟩, hspelled, rfl⟩ := Option.map_eq_some_iff.mp hat
    refine ⟨⟨spelled?_eq_some_iff.mp hspelled, hp, fun other hother htext => ?_⟩, rfl⟩
    refine Std.not_lt.mp fun hlt => ?_
    exact matchAt_ofText_eq_none_iff.mp (hbefore other.start hother hother hlt) other rfl htext
  · obtain ⟨⟨p, q, hle⟩, hp, captured⟩ := m
    rintro ⟨hoccurs, rfl⟩
    refine ⟨p, hp, hp, ?_, fun r hr _ hlt => ?_⟩
    · rw [matchAt_ofText, spelled?_eq_some_iff.mpr hoccurs.text_eq]
      rfl
    · refine matchAt_ofText_eq_none_iff.mpr fun other hstart htext => ?_
      have hfirst := hoccurs.first other (hstart ▸ hr) htext
      exact absurd (hstart ▸ hfirst) (Std.not_le.mpr hlt)

theorem find_ofText_eq_none_iff :
    (ofText s).find origin = none ↔ ∀ span : Span text, origin ≤ span.start → span.text ≠ s := by
  rw [find, firstFrom_eq_none_iff]
  constructor
  · exact fun h span hle => matchAt_ofText_eq_none_iff.mp (h span.start hle hle) span rfl
  · exact fun h p hp _ => matchAt_ofText_eq_none_iff.mpr fun span hstart => h span (hstart ▸ hp)

end ScopedText.Regex
