import Mathlib
import ScopedText.Proofs.NestedGroups
import ScopedText.Regex.Search

/-!
# Overlapping groups

Groups inside of lookarounds can lie anywhere, so the groups of a match need not nest. Still the
scopes that a byte gets on top of the base are those of groups that have begun, in the order of
their numbers (`shows_of_groups`). A group stays on the stack beyond its end only below a later one
that began before that end and goes on behind it: the end is straddled.

`Stacked` is what holds while the groups are covered, wherever they lie. On the stack, each group
began before the end of the one below it; so the innermost group ends before all others, or the end
of another one is straddled (`Stacked.stop_le_or_straddled`).
-/

namespace ScopedText.Cover

variable {text : String}

/-- A later group begins before the end of the group and goes on behind it. -/
def Straddled (groups : List (Scoped text)) (g : Scoped text) : Prop :=
  ∃ h, [g, h].Sublist groups ∧ h.span.start < g.span.stop ∧ g.span.stop < h.span.stop

/-- The group contains the byte, or it ends before it and its end is straddled. -/
def Lasts (groups : List (Scoped text)) (g : Scoped text) (b : Nat) : Prop :=
  g.span.Covers b ∨ g.span.stop.offset.byteIdx ≤ b ∧ Straddled groups g

/-- What the second cover shows, the first one shows, or it is the base with the scopes of groups
that last up to the byte, in the order of their numbers. -/
def Accounts (base : List Scope) (groups : List (Scoped text)) (c d : Cover text) : Prop :=
  ∀ b scopes, d.Shows b scopes → c.Shows b scopes
    ∨ ∃ added : List (Scoped text), added.Sublist groups ∧ scopes = base ++ added.map (·.scope)
      ∧ ∀ g ∈ added, Lasts groups g b

theorem accounts_refl (base : List Scope) (groups : List (Scoped text)) (c : Cover text) :
    Accounts base groups c c := fun _ _ h => .inl h

theorem Accounts.trans {base : List Scope} {groups : List (Scoped text)} {c d e : Cover text}
    (h : Accounts base groups c d) (h' : Accounts base groups d e) : Accounts base groups c e := by
  intro b scopes he
  rcases h' b scopes he with hd | hadded
  · exact h b scopes hd
  · exact .inr hadded

theorem le_upTo_extend (c : Cover text) (p : text.Pos) (scopes : List Scope) :
    p ≤ (c.extend p scopes).upTo := by
  rcases pos_le_total c.upTo p with h | h
  · rw [upTo_extend_of_le h]
    exact String.Pos.le_refl _
  · rwa [extend_of_le h]

/-! ## Groups on the stack -/

/-- The groups on the stack, innermost first, when the text is covered up to a position and the
rest of the groups is still to come. -/
structure Stacked (groups opened rest : List (Scoped text)) (p : text.Pos) : Prop where
  listed : (opened.reverse ++ rest).Sublist groups
  begun : ∀ g ∈ opened, g.span.start ≤ p
  entwined : opened.IsChain fun inner outer => inner.span.start < outer.span.stop

namespace Stacked

variable {groups opened rest : List (Scoped text)} {g : Scoped text} {p q : text.Pos}

theorem advance (h : Stacked groups opened rest p) (hle : p ≤ q) :
    Stacked groups opened rest q where
  listed := h.listed
  begun o ho := String.Pos.le_trans (h.begun o ho) hle
  entwined := h.entwined

/-- The innermost group leaves the stack. -/
theorem close (h : Stacked groups (g :: opened) rest p) : Stacked groups opened rest p where
  listed := by
    refine List.Sublist.trans ?_ h.listed
    rw [List.reverse_cons]
    exact (List.sublist_append_left _ _).append_right _
  begun o ho := h.begun o (List.mem_cons_of_mem _ ho)
  entwined := h.entwined.tail

/-- The next group comes onto the stack. -/
theorem push (h : Stacked groups opened (g :: rest) p) (hp : g.span.start ≤ p)
    (hopen : ∀ o ∈ opened.head?, g.span.start < o.span.stop) :
    Stacked groups (g :: opened) rest p where
  listed := by simpa using h.listed
  begun o ho := by
    rcases List.mem_cons.mp ho with rfl | ho
    · exact hp
    · exact h.begun o ho
  entwined := List.isChain_cons.mpr ⟨hopen, h.entwined⟩

/-- The innermost group ends first, other than before groups whose ends are straddled. The induction
is on the stack: what began before the end of the group below it, and goes on behind the end of a
group further below, straddles that end. -/
theorem stop_le_or_straddled (h : Stacked groups (g :: opened) rest p) :
    ∀ o ∈ g :: opened, g.span.stop ≤ o.span.stop ∨ Straddled groups o := by
  induction opened generalizing g rest with
  | nil =>
    intro o ho
    rw [List.mem_singleton.mp ho]
    exact .inl (String.Pos.le_refl _)
  | cons below opened ih =>
    intro o ho
    rcases List.mem_cons.mp ho with rfl | ho
    · exact .inl (String.Pos.le_refl _)
    rcases ih h.close o ho with hbelow | hstraddled
    · by_cases hstop : g.span.stop ≤ o.span.stop
      · exact .inl hstop
      have hbegins : g.span.start < below.span.stop := (List.isChain_cons_cons.mp h.entwined).1
      have hpair : [o, g].Sublist ((below :: opened).reverse ++ [g]) :=
        (List.singleton_sublist.mpr (List.mem_reverse.mpr ho)).append_right [g]
      have hlisted : ((below :: opened).reverse ++ [g]).Sublist groups := by
        refine List.Sublist.trans ?_ h.listed
        rw [List.reverse_cons (a := g)]
        exact List.sublist_append_left _ _
      exact .inr ⟨g, hpair.trans hlisted, Std.lt_of_lt_of_le hbegins hbelow, Std.not_le.mp hstop⟩
    · exact .inr hstraddled

/-- What is covered before the innermost group ends gets the scopes of groups that last. -/
theorem accounts_extend {c : Cover text} (h : Stacked groups opened rest c.upTo)
    (hp : ∀ g ∈ opened.head?, p ≤ g.span.stop) (base : List Scope) :
    Accounts base groups c (c.extend p (innermost base (openedGroups base opened))) := by
  intro b scopes hshows
  rcases shows_extend.mp hshows with hbefore | ⟨⟨hfrom, hto⟩, rfl⟩
  · exact .inl hbefore
  refine .inr ⟨opened.reverse, (List.sublist_append_left _ _).trans h.listed,
    innermost_openedGroups base opened, fun o ho => ?_⟩
  have hmem := List.mem_reverse.mp ho
  have hbegun : o.span.start.offset.byteIdx ≤ b :=
    Nat.le_trans (pos_le_iff.mp (h.begun o hmem)) hfrom
  by_cases hb : b < o.span.stop.offset.byteIdx
  · exact .inl ⟨hbegun, hb⟩
  refine .inr ⟨Nat.not_lt.mp hb, ?_⟩
  cases opened with
  | nil => cases hmem
  | cons g opened =>
    refine (h.stop_le_or_straddled o hmem).resolve_left fun hstop => hb ?_
    exact Nat.lt_of_lt_of_le hto (pos_le_iff.mp (String.Pos.le_trans (hp g rfl) hstop))

end Stacked

/-! ## Covering groups that overlap -/

section
variable (base : List Scope) {groups opened rest : List (Scoped text)}

/-- The groups that leave the stack are covered, and the innermost that stays ends later. -/
theorem accounts_closeUpTo {c : Cover text} (p : text.Pos)
    (h : Stacked groups opened rest c.upTo) :
    ∃ (d : Cover text) (left : List (Scoped text)),
      c.closeUpTo p (openedGroups base opened) = (d, openedGroups base left)
        ∧ Stacked groups left rest d.upTo ∧ (∀ g ∈ left.head?, p < g.span.stop)
        ∧ Accounts base groups c d := by
  induction opened generalizing c with
  | nil => exact ⟨c, [], rfl, h, by simp, accounts_refl base groups c⟩
  | cons g opened ih =>
    by_cases hclosed : g.span.stop ≤ p
    · let next := c.extend g.span.stop (innermost base (openedGroups base (g :: opened)))
      have hnext : Accounts base groups c next := by
        refine h.accounts_extend (fun o ho => ?_) base
        obtain rfl : g = o := Option.some.inj ho
        exact String.Pos.le_refl _
      obtain ⟨d, left, heq, hstacked, hleft, hd⟩ :=
        ih (c := next) (h.close.advance (upTo_le_extend c _ _))
      refine ⟨d, left, ?_, hstacked, hleft, hnext.trans hd⟩
      rw [openedGroups, closeUpTo, if_pos hclosed]
      exact heq
    · refine ⟨c, g :: opened, ?_, h, fun o ho => ?_, accounts_refl base groups c⟩
      · rw [openedGroups, closeUpTo, if_neg hclosed]
      · obtain rfl : g = o := Option.some.inj ho
        exact Std.not_le.mp hclosed

/-- The induction is on the groups whose turn is to come; `Stacked` goes through it. -/
theorem accounts_extendGroups {c : Cover text} (h : Stacked groups opened rest c.upTo) :
    Accounts base groups c (extendGroups base c (openedGroups base opened) rest) := by
  induction rest generalizing c opened with
  | nil =>
    obtain ⟨d, left, heq, _, _, hd⟩ := accounts_closeUpTo base text.endPos h
    rw [closeUpTo_endPos] at heq
    have hall : extendGroups base c (openedGroups base opened) [] = d := congrArg Prod.fst heq
    rwa [hall]
  | cons g rest ih =>
    obtain ⟨d, left, heq, hstacked, hleft, hd⟩ := accounts_closeUpTo base g.span.start h
    let next := d.extend g.span.start (innermost base (openedGroups base left))
    have hnext : Accounts base groups d next :=
      hstacked.accounts_extend (fun o ho => String.Pos.le_of_lt (hleft o ho)) base
    have hpush : Stacked groups (g :: left) rest next.upTo :=
      (hstacked.advance (upTo_le_extend d _ _)).push (le_upTo_extend d _ _) hleft
    have hstep : extendGroups base c (openedGroups base opened) (g :: rest)
        = extendGroups base next (openedGroups base (g :: left)) rest := by
      rw [extendGroups, heq]
      rfl
    rw [hstep]
    exact (hd.trans hnext).trans (ih (c := next) hpush)

end

/-- **No scope goes beyond its group, unless the end of the group is straddled.** -/
theorem shows_of_groups {origin : text.Pos} (c : Cover text) (base : List Scope)
    (table : CaptureTable) (m : Regex.Found text origin) (b : Nat) (scopes : List Scope)
    (h : (c.extendGroups base [] (scopedGroups table m.span m.groups)).Shows b scopes) :
    c.Shows b scopes ∨ ∃ added : List (Scoped text),
      added.Sublist (scopedGroups table m.span m.groups) ∧ scopes = base ++ added.map (·.scope)
        ∧ ∀ g ∈ added, g.span.Covers b
          ∨ g.span.stop.offset.byteIdx ≤ b ∧ Straddled (scopedGroups table m.span m.groups) g := by
  have hstart : Stacked (scopedGroups table m.span m.groups) []
      (scopedGroups table m.span m.groups) c.upTo := ⟨List.Sublist.refl _, by simp, .nil⟩
  exact accounts_extendGroups base hstart b scopes h

/-! ## A group that is straddled -/

/-- An `abc` in front of which one group looks ahead at `ab`; another one is the `bc`. -/
def aheadRegex : Regex where
  expr := .concat
    [.ahead false (.group 1 (.literal ['a', 'b'])), .one (.single 'a'),
      .group 2 (.literal ['b', 'c'])]
  groups := 2

def aheadMatch : Regex.Found "abc" "abc".startPos :=
  let b := "abc".startPos.next (by decide)
  let c := b.next (by decide)
  { span := ⟨"abc".startPos, "abc".endPos, by decide⟩
    le := String.Pos.le_refl _
    captured := [some ⟨"abc".startPos, c, by decide⟩, some ⟨b, "abc".endPos, by decide⟩] }

/-- Where the groups of a match lie, the whole match first. -/
def offsets {origin : text.Pos} (m : Regex.Found text origin) : List (Option (Nat × Nat)) :=
  m.groups.map (·.map fun span => (span.start.offset.byteIdx, span.stop.offset.byteIdx))

/-- The groups of that match, with a scope for each. -/
def aheadGroups : List (Scoped "abc") :=
  scopedGroups [none, some ⟨["x"]⟩, some ⟨["y"]⟩] aheadMatch.span aheadMatch.groups

/-- The `c` gets the scope of the group in the lookahead, which is the `ab`. -/
theorem shows_behind_aheadGroups :
    (Regex.compile .all "(?=(ab))a(bc)").toOption = some aheadRegex
      ∧ (aheadRegex.find "abc".startPos).map offsets = some (offsets aheadMatch)
      ∧ (({} : Cover "abc").extendGroups [⟨["text"]⟩] [] aheadGroups).Shows 2
          [⟨["text"]⟩, ⟨["x"]⟩, ⟨["y"]⟩]
      ∧ ∀ g ∈ aheadGroups, g.scope = ⟨["x"]⟩ → ¬ g.span.Covers 2 := by
  refine ⟨by decide +kernel, by cbv, ?_, by decide⟩
  unfold Shows
  decide

/-- Of the two groups whose scopes the `c` gets, one is around it and the other one is straddled. -/
theorem shows_of_groups_ahead :
    (({} : Cover "abc").extendGroups [⟨["text"]⟩] [] aheadGroups).Shows 2
        [⟨["text"]⟩, ⟨["x"]⟩, ⟨["y"]⟩]
      ∧ ∃ added : List (Scoped "abc"), added.Sublist aheadGroups
        ∧ added.map (·.scope) = [⟨["x"]⟩, ⟨["y"]⟩]
        ∧ ∀ g ∈ added, g.span.Covers 2
          ∨ g.span.stop.offset.byteIdx ≤ 2 ∧ Straddled aheadGroups g := by
  have hshows : (({} : Cover "abc").extendGroups [⟨["text"]⟩] [] aheadGroups).Shows 2
      [⟨["text"]⟩, ⟨["x"]⟩, ⟨["y"]⟩] := by
    unfold Shows
    decide
  refine ⟨hshows, ?_⟩
  rcases shows_of_groups {} [⟨["text"]⟩] _ aheadMatch 2 _ hshows with hbefore | hadded
  · obtain ⟨token, htoken, _⟩ := hbefore
    cases htoken
  · obtain ⟨added, hsub, hscopes, hlasts⟩ := hadded
    exact ⟨added, hsub, (List.cons.inj hscopes).2.symm, hlasts⟩

end ScopedText.Cover
