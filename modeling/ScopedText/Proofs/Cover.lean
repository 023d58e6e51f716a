import ScopedText.Token

/-!
# What a cover shows

`Shows c b scopes` says that a cover gives the scopes to a byte of the text. Extending a cover gives
scopes to the bytes that are added and changes no others (`shows_extend`), and leaves no gap, no
empty token and no two neighbours with the same scopes (`intact_extend`). `Grows` is any number of
extensions; covering a match is one of its instances (`grows_extendMatch`).
-/

namespace ScopedText

variable {text : String}

theorem pos_le_iff {p q : text.Pos} : p ≤ q ↔ p.offset.byteIdx ≤ q.offset.byteIdx := Iff.rfl

theorem pos_lt_iff {p q : text.Pos} : p < q ↔ p.offset.byteIdx < q.offset.byteIdx := Iff.rfl

theorem pos_le_total (p q : text.Pos) : p ≤ q ∨ q ≤ p := Std.le_total

def Span.Covers (s : Span text) (b : Nat) : Prop :=
  s.start.offset.byteIdx ≤ b ∧ b < s.stop.offset.byteIdx

namespace Cover

/-- A token with these scopes covers the byte. -/
def Shows (c : Cover text) (b : Nat) (scopes : List Scope) : Prop :=
  ∃ t ∈ c.reversed, t.span.Covers b ∧ t.scopes = scopes

theorem extend_of_le {c : Cover text} {p : text.Pos} (h : p ≤ c.upTo) (scopes : List Scope) :
    c.extend p scopes = c := by
  rw [extend, dif_neg (Std.not_lt.mpr h)]

theorem upTo_extend_of_le {c : Cover text} {p : text.Pos} (h : c.upTo ≤ p) (scopes : List Scope) :
    (c.extend p scopes).upTo = p := by
  unfold extend
  split
  · split
    · rfl
    · split <;> rfl
  · exact Std.le_antisymm h (Std.not_lt.mp ‹_›)

theorem upTo_le_extend (c : Cover text) (p : text.Pos) (scopes : List Scope) :
    c.upTo ≤ (c.extend p scopes).upTo := by
  rcases pos_le_total c.upTo p with h | h
  · rwa [upTo_extend_of_le h]
  · rw [extend_of_le h]
    exact String.Pos.le_refl _

/-- What is added gets the new scopes, and nothing else changes. -/
theorem shows_extend {c : Cover text} {p : text.Pos} {scopes scopes' : List Scope} {b : Nat} :
    (c.extend p scopes).Shows b scopes' ↔ c.Shows b scopes'
      ∨ (c.upTo.offset.byteIdx ≤ b ∧ b < p.offset.byteIdx) ∧ scopes' = scopes := by
  unfold extend
  split
  · rename_i hp
    split
    · rename_i hnil
      simp [Shows, hnil, Span.Covers, eq_comm]
    · rename_i last earlier hcons
      split
      · -- the last token grows, and so covers what it covered and what is added
        rename_i hl
        obtain ⟨hstop, rfl⟩ := hl
        have hle := last.span.le
        rw [pos_le_iff] at hle
        rw [pos_lt_iff] at hp
        have hcovers : last.span.start.offset.byteIdx ≤ b ∧ b < p.offset.byteIdx
            ↔ last.span.Covers b ∨ c.upTo.offset.byteIdx ≤ b ∧ b < p.offset.byteIdx := by
          rw [← hstop] at hp ⊢
          simp only [Span.Covers]
          omega
        simp only [Shows, hcons, List.mem_cons, exists_eq_or_imp, Span.Covers] at hcovers ⊢
        rw [hcovers]
        grind
      · simp only [Shows, hcons, List.mem_cons, exists_eq_or_imp, Span.Covers]
        grind
  · rename_i hp
    rw [pos_lt_iff] at hp
    constructor
    · exact Or.inl
    · rintro (h | h)
      · exact h
      · omega

/-- Tokens, last one first, that follow each other from the start of the text up to a position. -/
inductive Reaches : List (Token text) → text.Pos → Prop
  | nil : Reaches [] text.startPos
  | cons {t : Token text} {earlier : List (Token text)} (before : Reaches earlier t.span.start)
      (nonempty : t.span.start < t.span.stop)
      (differs : ∀ e ∈ earlier.head?, e.scopes ≠ t.scopes) : Reaches (t :: earlier) t.span.stop

/-- The tokens of the cover lead up to where it ends. -/
def Intact (c : Cover text) : Prop := Reaches c.reversed c.upTo

theorem intact_empty : ({} : Cover text).Intact := .nil

theorem intact_extend {c : Cover text} (h : c.Intact) (p : text.Pos) (scopes : List Scope) :
    (c.extend p scopes).Intact := by
  obtain ⟨tokens, upTo⟩ := c
  unfold extend
  split
  · rename_i hp
    cases h with
    | nil => exact .cons (t := ⟨⟨_, p, String.Pos.le_of_lt hp⟩, scopes⟩) .nil hp (by simp)
    | @cons last earlier before nonempty differs =>
      dsimp only
      split
      · rename_i hl
        have hle := String.Pos.le_trans last.span.le (String.Pos.le_of_lt hp)
        exact .cons (t := ⟨⟨last.span.start, p, hle⟩, scopes⟩) before (Std.lt_trans nonempty hp)
          (hl.2 ▸ differs)
      · rename_i hl
        refine .cons (t := ⟨⟨_, p, String.Pos.le_of_lt hp⟩, scopes⟩)
          (.cons before nonempty differs) hp ?_
        intro e he heq
        cases he
        exact hl ⟨rfl, heq⟩
  · exact h

/-- A cover that grows by extensions, each of them an allowed one. -/
inductive Grows (allowed : text.Pos → List Scope → Prop) : Cover text → Cover text → Prop
  | refl (c : Cover text) : Grows allowed c c
  | extend {c d : Cover text} (h : Grows allowed c d) {p : text.Pos} {scopes : List Scope}
      (ok : allowed p scopes) : Grows allowed c (d.extend p scopes)

section
variable {allowed : text.Pos → List Scope → Prop} {c d e : Cover text}

theorem Grows.trans (h : Grows allowed c d) (h' : Grows allowed d e) : Grows allowed c e := by
  induction h' with
  | refl => exact h
  | extend _ ok ih => exact .extend ih ok

theorem Grows.intact (h : Grows allowed c d) (hc : c.Intact) : d.Intact := by
  induction h with
  | refl => exact hc
  | extend _ _ ih => exact intact_extend ih _ _

theorem Grows.upTo_le (h : Grows allowed c d) : c.upTo ≤ d.upTo := by
  induction h with
  | refl => exact String.Pos.le_refl _
  | extend _ _ ih => exact String.Pos.le_trans ih (upTo_le_extend _ _ _)

/-- A cover does not grow beyond the positions it is extended to. -/
theorem Grows.upTo_le_of (h : Grows allowed c d) {q : text.Pos} (hc : c.upTo ≤ q)
    (hq : ∀ p scopes, allowed p scopes → p ≤ q) : d.upTo ≤ q := by
  induction h with
  | refl => exact hc
  | @extend d _ p scopes ok ih =>
    rcases pos_le_total d.upTo p with hp | hp
    · rw [upTo_extend_of_le hp]
      exact hq p scopes ok
    · rw [extend_of_le hp]
      exact ih

/-- What a cover shows that has grown, it showed before, or it has some allowed scopes. -/
theorem Grows.shows (h : Grows allowed c d) {b : Nat} {scopes : List Scope}
    (hd : d.Shows b scopes) :
    c.Shows b scopes ∨ (c.upTo.offset.byteIdx ≤ b ∧ b < d.upTo.offset.byteIdx)
      ∧ ∃ p, allowed p scopes := by
  induction h with
  | refl => exact .inl hd
  | @extend d hgrows p scopes' ok ih =>
    have hle := pos_le_iff.mp (upTo_le_extend d p scopes')
    rcases shows_extend.mp hd with hd | ⟨⟨hfrom, hto⟩, rfl⟩
    · rcases ih hd with hc | ⟨⟨hfrom, hto⟩, hallowed⟩
      · exact .inl hc
      · exact .inr ⟨⟨hfrom, by omega⟩, hallowed⟩
    · have hstart := pos_le_iff.mp hgrows.upTo_le
      have hup : (d.extend p scopes).upTo = p := upTo_extend_of_le (pos_le_iff.mpr (by omega)) _
      exact .inr ⟨⟨by omega, by rwa [hup]⟩, p, ok⟩

end

/-! ## Matches -/

/-- What the groups of a match add to the base: the scopes of some of them, in their order, up to
the end of the match. -/
def WithinGroups (base : List Scope) (whole : Span text) (scopes : List Scope) (p : text.Pos)
    (shown : List Scope) : Prop :=
  p ≤ whole.stop ∧ ∃ added, added.Sublist scopes ∧ shown = base ++ added

section
variable {base : List Scope} {whole : Span text} {scopes : List Scope}

theorem grows_closeUpTo (p : text.Pos) (c : Cover text) {opened : List (OpenGroup text)}
    (h : ∀ o ∈ opened, WithinGroups base whole scopes o.stop o.scopes) :
    Grows (WithinGroups base whole scopes) c (c.closeUpTo p opened).1
      ∧ (c.closeUpTo p opened).2 ⊆ opened := by
  induction opened generalizing c with
  | nil => exact ⟨.refl c, List.Subset.refl _⟩
  | cons o opened ih =>
    unfold closeUpTo
    split
    · have hrest : ∀ o ∈ opened, WithinGroups base whole scopes o.stop o.scopes :=
        fun o ho => h o (List.mem_cons_of_mem _ ho)
      obtain ⟨hgrows, hsub⟩ := ih (c.extend o.stop o.scopes) hrest
      exact ⟨(Grows.extend (.refl c) (h o List.mem_cons_self)).trans hgrows,
        List.Subset.trans hsub (List.subset_cons_self _ _)⟩
    · exact ⟨.refl c, List.Subset.refl _⟩

theorem grows_closeAll (c : Cover text) {opened : List (OpenGroup text)}
    (h : ∀ o ∈ opened, WithinGroups base whole scopes o.stop o.scopes) :
    Grows (WithinGroups base whole scopes) c
      (opened.foldl (fun c o => c.extend o.stop o.scopes) c) := by
  induction opened generalizing c with
  | nil => exact .refl c
  | cons o opened ih =>
    exact (Grows.extend (.refl c) (h o List.mem_cons_self)).trans
      (ih _ fun o ho => h o (List.mem_cons_of_mem _ ho))

theorem innermost_within {opened : List (OpenGroup text)} {p : text.Pos} (hp : p ≤ whole.stop)
    (h : ∀ o ∈ opened, WithinGroups base whole scopes o.stop o.scopes) :
    WithinGroups base whole scopes p (innermost base opened) := by
  cases opened with
  | nil => exact ⟨hp, [], List.nil_sublist _, (List.append_nil _).symm⟩
  | cons o opened => exact ⟨hp, (h o List.mem_cons_self).2⟩

theorem WithinGroups.mono {scopes' : List Scope} (hsub : scopes.Sublist scopes') {p : text.Pos}
    {shown : List Scope} (h : WithinGroups base whole scopes p shown) :
    WithinGroups base whole scopes' p shown := by
  obtain ⟨hp, added, hadded, rfl⟩ := h
  exact ⟨hp, added, hadded.trans hsub, rfl⟩

theorem Grows.mono {allowed allowed' : text.Pos → List Scope → Prop}
    (hsub : ∀ p shown, allowed p shown → allowed' p shown) {c d : Cover text}
    (h : Grows allowed c d) : Grows allowed' c d := by
  induction h with
  | refl => exact .refl _
  | extend _ ok ih => exact .extend ih (hsub _ _ ok)

/-- The groups of a match only ever add their own scopes. The induction is on the groups that are
left; `before` are the scopes of those whose turn has been. -/
theorem grows_extendGroups (before : List Scope) (groups : List (Scoped text)) (c : Cover text)
    (opened : List (OpenGroup text))
    (hgroups : ∀ g ∈ groups, g.span.start ≤ whole.stop ∧ g.span.stop ≤ whole.stop)
    (hopened : ∀ o ∈ opened, WithinGroups base whole before o.stop o.scopes) :
    Grows (WithinGroups base whole (before ++ groups.map (·.scope))) c
      (extendGroups base c opened groups) := by
  induction groups generalizing before c opened with
  | nil =>
    rw [List.map_nil, List.append_nil]
    exact grows_closeAll c hopened
  | cons g groups ih =>
    obtain ⟨hclosed, hsub⟩ := grows_closeUpTo g.span.start c hopened
    obtain ⟨hstart, hstop⟩ := hgroups g List.mem_cons_self
    have hstill : ∀ o ∈ (c.closeUpTo g.span.start opened).2,
        WithinGroups base whole before o.stop o.scopes := fun o ho => hopened o (hsub ho)
    have hinner := innermost_within hstart hstill
    have hall : before.Sublist (before ++ (g :: groups).map (·.scope)) :=
      List.sublist_append_left _ _
    have hnext := ih (before ++ [g.scope])
      ((c.closeUpTo g.span.start opened).1.extend g.span.start
        (innermost base (c.closeUpTo g.span.start opened).2))
      (⟨innermost base (c.closeUpTo g.span.start opened).2 ++ [g.scope], g.span.stop⟩
        :: (c.closeUpTo g.span.start opened).2)
      (fun g hg => hgroups g (List.mem_cons_of_mem _ hg)) ?_
    · rw [List.append_assoc, List.singleton_append] at hnext
      refine Grows.trans (.extend (hclosed.mono fun _ _ => WithinGroups.mono hall) ?_) hnext
      exact hinner.mono hall
    · intro o ho
      rcases List.mem_cons.mp ho with rfl | ho
      · obtain ⟨_, added, hadded, heq⟩ := hinner
        exact ⟨hstop, added ++ [g.scope], hadded.append (List.Sublist.refl _),
          by rw [heq, List.append_assoc]⟩
      · exact (hstill o ho).mono (List.sublist_append_left _ _)

end

/-- The scopes of the groups of a match that took part in it, in the order of their numbers. -/
def groupScopes (table : CaptureTable) {origin : text.Pos} (m : Regex.Found text origin) :
    List Scope :=
  (scopedGroups table m.span m.groups).map (·.scope)

theorem scopedGroups_within {table : CaptureTable} {whole : Span text} {groups : Regex.Groups text}
    {g : Scoped text} (h : g ∈ scopedGroups table whole groups) :
    g.span.start ≤ whole.stop ∧ g.span.stop ≤ whole.stop := by
  obtain ⟨⟨scope?, span?⟩, _, hg⟩ := List.mem_filterMap.mp h
  cases scope? with
  | none => cases hg
  | some scope =>
    cases span? with
    | none => cases hg
    | some span =>
      simp only at hg
      split at hg
      · cases hg
        exact ⟨whole.clamp_le_stop _, whole.clamp_le_stop _⟩
      · cases hg

theorem grows_groups {origin : text.Pos} (c : Cover text) (base : List Scope)
    (table : CaptureTable) (m : Regex.Found text origin) :
    Grows (WithinGroups base m.span (groupScopes table m)) c
      (c.extendGroups base [] (scopedGroups table m.span m.groups)) :=
  grows_extendGroups [] _ c [] (fun _ hg => scopedGroups_within hg) (by simp)

theorem grows_extendMatch {origin : text.Pos} (c : Cover text) (base : List Scope)
    (table : CaptureTable) (m : Regex.Found text origin) :
    Grows (WithinGroups base m.span (groupScopes table m)) c (c.extendMatch base table m) :=
  .extend (grows_groups c base table m)
    ⟨String.Pos.le_refl _, [], List.nil_sublist _, (List.append_nil _).symm⟩

theorem upTo_extendMatch {origin : text.Pos} {c : Cover text} {m : Regex.Found text origin}
    (h : c.upTo ≤ m.span.stop) (base : List Scope) (table : CaptureTable) :
    (c.extendMatch base table m).upTo = m.span.stop :=
  upTo_extend_of_le ((grows_groups c base table m).upTo_le_of h fun _ _ hp => hp.1) base

end Cover

end ScopedText
