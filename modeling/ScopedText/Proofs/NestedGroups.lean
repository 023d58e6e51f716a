import ScopedText.Proofs.Cover

/-!
# Nested groups

The groups of a match are covered in the order of their numbers, with those that have not ended yet
on a stack. If a later group always begins behind an earlier one or lies inside of it, every byte of
the match gets the scopes of just the groups around it (`shows_nested_groups`).

`Around` is what holds while this goes on: the open groups lie around the position that is covered,
each of them inside of the next, and the groups whose turn is to come begin there or later. It is
kept when the position moves on, when a group ends and when one begins; and as long as no group
begins or ends, the scopes of the innermost open group are the right ones (`Around.innermost_eq`).
-/

namespace ScopedText.Cover

variable {text : String}

instance (s : Span text) (b : Nat) : Decidable (s.Covers b) :=
  inferInstanceAs (Decidable (_ ∧ _))

/-! ## Painting -/

/-- The second cover goes on from the first one and gives these scopes to the bytes in between. -/
structure Paints (scopesOf : Nat → List Scope) (c d : Cover text) : Prop where
  le : c.upTo ≤ d.upTo
  shows : ∀ b scopes, d.Shows b scopes ↔ c.Shows b scopes
    ∨ (c.upTo.offset.byteIdx ≤ b ∧ b < d.upTo.offset.byteIdx) ∧ scopes = scopesOf b

section
variable {scopesOf : Nat → List Scope} {c d e : Cover text}

theorem paints_refl (scopesOf : Nat → List Scope) (c : Cover text) : Paints scopesOf c c where
  le := String.Pos.le_refl _
  shows b scopes := by
    have : ¬ (c.upTo.offset.byteIdx ≤ b ∧ b < c.upTo.offset.byteIdx) := by omega
    simp [this]

theorem Paints.trans (h : Paints scopesOf c d) (h' : Paints scopesOf d e) :
    Paints scopesOf c e where
  le := String.Pos.le_trans h.le h'.le
  shows b scopes := by
    have hle := pos_le_iff.mp h.le
    have hle' := pos_le_iff.mp h'.le
    rw [h'.shows, h.shows, or_assoc, ← or_and_right]
    refine or_congr_right (and_congr_left fun _ => ?_)
    omega

/-- An extension paints what it is asked to if its scopes are the right ones for all its bytes. -/
theorem paints_extend {p : text.Pos} {scopes : List Scope} (hp : c.upTo ≤ p)
    (h : ∀ b, c.upTo.offset.byteIdx ≤ b → b < p.offset.byteIdx → scopesOf b = scopes) :
    Paints scopesOf c (c.extend p scopes) where
  le := upTo_le_extend c p scopes
  shows b shown := by
    rw [shows_extend, upTo_extend_of_le hp]
    refine or_congr_right (and_congr_right fun hb => ?_)
    rw [h b hb.1 hb.2]

end

/-! ## Groups around a position -/

/-- A later group begins behind an earlier one, or lies inside of it. -/
def Nested (groups : List (Scoped text)) : Prop :=
  groups.Pairwise fun g h =>
    g.span.stop ≤ h.span.start ∨ g.span.start ≤ h.span.start ∧ h.span.stop ≤ g.span.stop

/-- The scopes of the groups around a byte. -/
def scopesAt (groups : List (Scoped text)) (b : Nat) : List Scope :=
  (groups.filter fun g => g.span.Covers b).map (·.scope)

def openedGroups (base : List Scope) : List (Scoped text) → List (OpenGroup text)
  | [] => []
  | g :: gs =>
    ⟨innermost base (openedGroups base gs) ++ [g.scope], g.span.stop⟩ :: openedGroups base gs

theorem innermost_openedGroups (base : List Scope) (gs : List (Scoped text)) :
    innermost base (openedGroups base gs) = base ++ gs.reverse.map (·.scope) := by
  induction gs with
  | nil => simp [openedGroups, innermost]
  | cons g gs ih =>
    rw [openedGroups, innermost, ih]
    simp

theorem scopesAt_append (gs hs : List (Scoped text)) (b : Nat) :
    scopesAt (gs ++ hs) b = scopesAt gs b ++ scopesAt hs b := by
  simp [scopesAt]

theorem scopesAt_of_covers {gs : List (Scoped text)} {b : Nat} (h : ∀ g ∈ gs, g.span.Covers b) :
    scopesAt gs b = gs.map (·.scope) := by
  rw [scopesAt, List.filter_eq_self.mpr fun g hg => decide_eq_true (h g hg)]

theorem scopesAt_of_not_covers {gs : List (Scoped text)} {b : Nat}
    (h : ∀ g ∈ gs, ¬ g.span.Covers b) : scopesAt gs b = [] := by
  rw [scopesAt, List.filter_eq_nil_iff.mpr fun g hg => by simpa using h g hg]
  rfl

/-- How the groups of a match lie around a position: some are open, innermost first, the rest have
their turn later, and all others end at the position or before it. -/
structure Around (groups opened rest : List (Scoped text)) (p : text.Pos) : Prop where
  accounted : ∀ b, p.offset.byteIdx ≤ b → scopesAt groups b = scopesAt (opened.reverse ++ rest) b
  nested : Nested (opened.reverse ++ rest)
  nonempty : ∀ g ∈ rest, g.span.start < g.span.stop
  begun : ∀ g ∈ opened, g.span.start ≤ p
  unfinished : ∀ g ∈ opened, p ≤ g.span.stop
  inward : opened.Pairwise fun g h => g.span.stop ≤ h.span.stop
  ahead : ∀ g ∈ rest, p ≤ g.span.start

namespace Around

variable {groups opened rest : List (Scoped text)} {g : Scoped text} {p q : text.Pos}

/-- As long as no group begins or ends, just the open groups are around. -/
theorem innermost_eq (h : Around groups opened rest p) (base : List Scope)
    (hopened : ∀ g ∈ opened, q ≤ g.span.stop) (hrest : ∀ g ∈ rest, q ≤ g.span.start) {b : Nat}
    (hp : p.offset.byteIdx ≤ b) (hq : b < q.offset.byteIdx) :
    base ++ scopesAt groups b = innermost base (openedGroups base opened) := by
  have hin : ∀ g ∈ opened.reverse, g.span.Covers b := by
    intro g hg
    have hmem := List.mem_reverse.mp hg
    exact ⟨Nat.le_trans (pos_le_iff.mp (h.begun g hmem)) hp,
      Nat.lt_of_lt_of_le hq (pos_le_iff.mp (hopened g hmem))⟩
  have hout : ∀ g ∈ rest, ¬ g.span.Covers b := by
    intro g hg hb
    exact absurd (Nat.lt_of_lt_of_le hq (pos_le_iff.mp (hrest g hg))) (Nat.not_lt.mpr hb.1)
  rw [h.accounted b hp, scopesAt_append, scopesAt_of_covers hin, scopesAt_of_not_covers hout,
    List.append_nil, innermost_openedGroups]

/-- The position moves on, but not beyond where a group begins or ends. -/
theorem advance (h : Around groups opened rest p) (hle : p ≤ q)
    (hopened : ∀ g ∈ opened, q ≤ g.span.stop) (hrest : ∀ g ∈ rest, q ≤ g.span.start) :
    Around groups opened rest q where
  accounted b hb := h.accounted b (Nat.le_trans (pos_le_iff.mp hle) hb)
  nested := h.nested
  nonempty := h.nonempty
  begun g hg := String.Pos.le_trans (h.begun g hg) hle
  unfinished := hopened
  inward := h.inward
  ahead := hrest

/-- The innermost group ends. -/
theorem close (h : Around groups (g :: opened) rest g.span.stop) :
    Around groups opened rest g.span.stop where
  accounted b hb := by
    have hpast : ∀ h ∈ [g], ¬ h.span.Covers b := by
      intro h hh hb'
      cases List.mem_singleton.mp hh
      exact absurd hb'.2 (Nat.not_lt.mpr hb)
    rw [h.accounted b hb, List.reverse_cons, scopesAt_append, scopesAt_append,
      scopesAt_of_not_covers hpast, List.append_nil, scopesAt_append]
  nested := by
    refine List.Pairwise.sublist ?_ h.nested
    rw [List.reverse_cons]
    exact (List.sublist_append_left _ _).append_right _
  nonempty := h.nonempty
  begun o ho := h.begun o (List.mem_cons_of_mem _ ho)
  unfinished o ho := h.unfinished o (List.mem_cons_of_mem _ ho)
  inward := (List.pairwise_cons.mp h.inward).2
  ahead := h.ahead

/-- No later group begins before the next one. -/
theorem start_le (h : Around groups opened (g :: rest) p) :
    ∀ o ∈ g :: rest, g.span.start ≤ o.span.start := by
  intro o ho
  rcases List.mem_cons.mp ho with rfl | ho
  · exact String.Pos.le_refl _
  · have hlater := (List.pairwise_append.mp h.nested).2.1
    rcases (List.pairwise_cons.mp hlater).1 o ho with hbehind | hinside
    · exact String.Pos.le_trans g.span.le hbehind
    · exact hinside.1

/-- The next group begins, inside of those that are open. -/
theorem push (h : Around groups opened (g :: rest) g.span.start)
    (hopen : ∀ o ∈ opened, g.span.start < o.span.stop) :
    Around groups (g :: opened) rest g.span.start := by
  have hlist : (g :: opened).reverse ++ rest = opened.reverse ++ g :: rest := by simp
  have hnonempty := h.nonempty g List.mem_cons_self
  obtain ⟨_, _, hbefore⟩ := List.pairwise_append.mp h.nested
  refine ⟨hlist ▸ h.accounted, hlist ▸ h.nested, ?nonempty, ?begun, ?unfinished, ?inward, ?ahead⟩
  case nonempty => exact fun o ho => h.nonempty o (List.mem_cons_of_mem _ ho)
  case begun =>
    intro o ho
    rcases List.mem_cons.mp ho with rfl | ho
    · exact String.Pos.le_refl _
    · exact h.begun o ho
  case unfinished =>
    intro o ho
    rcases List.mem_cons.mp ho with rfl | ho
    · exact String.Pos.le_of_lt hnonempty
    · exact String.Pos.le_of_lt (hopen o ho)
  case inward =>
    refine List.pairwise_cons.mpr ⟨fun o ho => ?_, h.inward⟩
    rcases hbefore o (List.mem_reverse.mpr ho) g List.mem_cons_self with hbehind | hinside
    · exact absurd (hopen o ho) (Std.not_lt.mpr hbehind)
    · exact hinside.2
  case ahead => exact fun o ho => h.start_le o (List.mem_cons_of_mem _ ho)

end Around

/-! ## Covering nested groups -/

section
variable (base : List Scope) {groups opened rest : List (Scoped text)}

/-- The groups that end up to a position are covered, and those that are left are open there. -/
theorem paints_closeUpTo {c : Cover text} {p : text.Pos} (h : Around groups opened rest c.upTo)
    (hp : c.upTo ≤ p) (hrest : ∀ g ∈ rest, p ≤ g.span.start) :
    ∃ (d : Cover text) (left : List (Scoped text)),
      c.closeUpTo p (openedGroups base opened) = (d, openedGroups base left)
        ∧ Around groups left rest d.upTo ∧ (∀ g ∈ left, p < g.span.stop) ∧ d.upTo ≤ p
        ∧ Paints (fun b => base ++ scopesAt groups b) c d := by
  induction opened generalizing c with
  | nil => exact ⟨c, [], rfl, h, by simp, hp, paints_refl _ c⟩
  | cons g opened ih =>
    have houter := (List.pairwise_cons.mp h.inward).1
    have hstops : ∀ o ∈ g :: opened, g.span.stop ≤ o.span.stop := by
      intro o ho
      rcases List.mem_cons.mp ho with rfl | ho
      · exact String.Pos.le_refl _
      · exact houter o ho
    by_cases hclosed : g.span.stop ≤ p
    · have hupTo := h.unfinished g List.mem_cons_self
      have hstarts : ∀ o ∈ rest, g.span.stop ≤ o.span.start :=
        fun o ho => String.Pos.le_trans hclosed (hrest o ho)
      let next := c.extend g.span.stop (innermost base (openedGroups base (g :: opened)))
      have hnext : next.upTo = g.span.stop := upTo_extend_of_le hupTo _
      have hpaints : Paints (fun b => base ++ scopesAt groups b) c next :=
        paints_extend hupTo fun b => h.innermost_eq base hstops hstarts
      have hclose := (h.advance hupTo hstops hstarts).close
      obtain ⟨d, left, heq, haround, hleft, hd, hrest⟩ :=
        ih (c := next) (hnext ▸ hclose) (hnext ▸ hclosed)
      refine ⟨d, left, ?_, haround, hleft, hd, hpaints.trans hrest⟩
      rw [openedGroups, closeUpTo, if_pos hclosed]
      exact heq
    · refine ⟨c, g :: opened, ?_, h, fun o ho => ?_, hp, paints_refl _ c⟩
      · rw [openedGroups, closeUpTo, if_neg hclosed]
      · exact Std.lt_of_lt_of_le (Std.not_le.mp hclosed) (hstops o ho)

theorem closeUpTo_endPos (c : Cover text) (opened : List (OpenGroup text)) :
    c.closeUpTo text.endPos opened
      = (opened.foldl (fun c o => c.extend o.stop o.scopes) c, []) := by
  induction opened generalizing c with
  | nil => rfl
  | cons o opened ih => rw [closeUpTo, if_pos (String.Pos.le_endPos _), ih, List.foldl_cons]

/-- The induction is on the groups whose turn is to come; `Around` goes through it. -/
theorem paints_extendGroups {c : Cover text} (h : Around groups opened rest c.upTo) :
    Paints (fun b => base ++ scopesAt groups b) c
        (extendGroups base c (openedGroups base opened) rest)
      ∧ ∀ b, (extendGroups base c (openedGroups base opened) rest).upTo.offset.byteIdx ≤ b →
        scopesAt groups b = [] := by
  induction rest generalizing c opened with
  | nil =>
    obtain ⟨d, left, heq, haround, hleft, _, hpaints⟩ :=
      paints_closeUpTo base h (String.Pos.le_endPos _) (by simp)
    rw [closeUpTo_endPos] at heq
    have hd : extendGroups base c (openedGroups base opened) [] = d := congrArg Prod.fst heq
    obtain rfl : left = [] := List.eq_nil_iff_forall_not_mem.mpr fun g hg =>
      absurd (hleft g hg) (Std.not_lt.mpr (String.Pos.le_endPos _))
    rw [hd]
    exact ⟨hpaints, haround.accounted⟩
  | cons g rest ih =>
    obtain ⟨d, left, heq, haround, hleft, hd, hpaints⟩ := paints_closeUpTo base h
      (h.ahead g List.mem_cons_self) h.start_le
    have hstops : ∀ o ∈ left, g.span.start ≤ o.span.stop :=
      fun o ho => String.Pos.le_of_lt (hleft o ho)
    let next := d.extend g.span.start (innermost base (openedGroups base left))
    have hnext : next.upTo = g.span.start := upTo_extend_of_le hd _
    have hup : Paints (fun b => base ++ scopesAt groups b) d next :=
      paints_extend hd fun b => haround.innermost_eq base hstops haround.start_le
    have hpush := (haround.advance hd hstops haround.start_le).push hleft
    have hstep : extendGroups base c (openedGroups base opened) (g :: rest)
        = extendGroups base next (openedGroups base (g :: left)) rest := by
      rw [extendGroups, heq]
      rfl
    obtain ⟨hrest, hend⟩ := ih (c := next) (hnext ▸ hpush)
    rw [hstep]
    exact ⟨(hpaints.trans hup).trans hrest, hend⟩

end

/-! ## Covering a match -/

/-- The cover ends exactly here, and no token of it goes further. -/
structure EndsAt (c : Cover text) (p : text.Pos) : Prop where
  upTo_eq : c.upTo = p
  stop_le : ∀ t ∈ c.reversed, t.span.stop ≤ p

theorem EndsAt.not_shows {c : Cover text} {p : text.Pos} (h : c.EndsAt p) {b : Nat}
    (hb : p.offset.byteIdx ≤ b) (scopes : List Scope) : ¬ c.Shows b scopes := by
  rintro ⟨t, ht, hcovers, _⟩
  have hstop := pos_le_iff.mp (h.stop_le t ht)
  exact absurd hcovers.2 (Nat.not_lt.mpr (Nat.le_trans hstop hb))

theorem EndsAt.extend {c : Cover text} {p q : text.Pos} (h : c.EndsAt p) (hq : p ≤ q)
    (scopes : List Scope) : (c.extend q scopes).EndsAt q where
  upTo_eq := upTo_extend_of_le (h.upTo_eq ▸ hq) scopes
  stop_le := by
    have hbefore : ∀ t ∈ c.reversed, t.span.stop ≤ q :=
      fun t ht => String.Pos.le_trans (h.stop_le t ht) hq
    unfold Cover.extend
    split
    · split
      · simp
      · rename_i last earlier hcons
        rw [hcons] at hbefore
        split <;> simp_all
    · exact hbefore

/-- A cover that grows without passing a position still has no token that goes further. -/
theorem EndsAt.grows {allowed : text.Pos → List Scope → Prop} {c d : Cover text} {p q : text.Pos}
    (h : Grows allowed c d) (hc : c.EndsAt p) (hd : d.upTo = q) : d.EndsAt q := by
  induction h generalizing q with
  | refl => exact hd ▸ hc.upTo_eq ▸ hc
  | @extend d _ r scopes _ ih =>
    have hbefore := ih rfl
    rcases pos_le_total d.upTo r with hr | hr
    · rw [upTo_extend_of_le hr] at hd
      exact hd ▸ hbefore.extend hr scopes
    · rw [extend_of_le hr] at hd ⊢
      exact hd ▸ hbefore

/-- The scopes of the groups that took part in a match and lie around a byte, in the order of their
numbers. -/
def groupScopesAt (table : CaptureTable) (groups : Regex.Groups text) (b : Nat) : List Scope :=
  (table.zip groups).filterMap fun
    | (some scope, some span) => if span.Covers b then some scope else none
    | _ => none

theorem covers_clampTo {s whole : Span text} {b : Nat} (h : whole.Covers b) :
    (s.clampTo whole).Covers b ↔ s.Covers b := by
  have hle := pos_le_iff.mp s.le
  have hstart : (whole.clamp s.start).offset.byteIdx ≤ b ↔ s.start.offset.byteIdx ≤ b := by
    unfold Span.clamp
    have hb := h
    simp only [pos_lt_iff, Span.Covers] at *
    grind
  have hstop : b < (whole.clamp s.stop).offset.byteIdx ↔ b < s.stop.offset.byteIdx := by
    unfold Span.clamp
    have hb := h
    simp only [pos_lt_iff, Span.Covers] at *
    grind
  exact and_congr hstart hstop

/-- On the match itself it makes no difference that groups are cut at its ends. -/
theorem scopesAt_scopedGroups (table : CaptureTable) {whole : Span text}
    (groups : Regex.Groups text) {b : Nat} (h : whole.Covers b) :
    scopesAt (scopedGroups table whole groups) b = groupScopesAt table groups b := by
  unfold scopesAt scopedGroups groupScopesAt
  induction table.zip groups with
  | nil => rfl
  | cons entry entries ih =>
    rcases entry with ⟨_ | scope, _ | span⟩
    case none.none | none.some | some.none => simpa using ih
    case some.some =>
      have hcut := covers_clampTo (s := span) h
      by_cases hempty : (span.clampTo whole).start < (span.clampTo whole).stop
      · by_cases hb : span.Covers b
        · simpa [hempty, hb, hcut] using ih
        · simpa [hempty, hb, hcut] using ih
      · -- nothing lies in what is cut off as a whole
        have hb : ¬ span.Covers b := by
          rw [← hcut]
          intro hb
          have := Nat.lt_of_le_of_lt hb.1 hb.2
          exact hempty (pos_lt_iff.mpr this)
        simpa [hempty, hb] using ih

theorem around_scopedGroups {table : CaptureTable} {whole : Span text}
    {groups : Regex.Groups text} (h : Nested (scopedGroups table whole groups)) :
    Around (scopedGroups table whole groups) [] (scopedGroups table whole groups) whole.start where
  accounted _ _ := rfl
  nested := h
  nonempty g hg := by
    obtain ⟨⟨scope?, span?⟩, _, hg⟩ := List.mem_filterMap.mp hg
    rcases scope? with _ | scope <;> rcases span? with _ | span <;> simp at hg
    exact hg.2 ▸ hg.1
  begun := by simp
  unfinished := by simp
  inward := .nil
  ahead g hg := by
    obtain ⟨⟨scope?, span?⟩, _, hg⟩ := List.mem_filterMap.mp hg
    rcases scope? with _ | scope <;> rcases span? with _ | span <;> simp at hg
    exact hg.2 ▸ whole.start_le_clamp _

/-- The match of nested groups is covered byte for byte: what comes before it stays as it is, and
each of its bytes gets the scopes of just the groups around it. -/
theorem shows_nested_groups {origin : text.Pos} (c : Cover text) (base : List Scope)
    (table : CaptureTable) (m : Regex.Found text origin) (hc : c.EndsAt m.span.start)
    (hnested : Nested (scopedGroups table m.span m.groups)) :
    (c.extendMatch base table m).EndsAt m.span.stop
      ∧ (∀ b scopes, b < m.span.start.offset.byteIdx →
          ((c.extendMatch base table m).Shows b scopes ↔ c.Shows b scopes))
      ∧ ∀ b scopes, m.span.Covers b →
          ((c.extendMatch base table m).Shows b scopes
            ↔ scopes = base ++ groupScopesAt table m.groups b) := by
  have hle : c.upTo ≤ m.span.stop := hc.upTo_eq ▸ m.span.le
  have hends : (c.extendMatch base table m).EndsAt m.span.stop :=
    hc.grows (grows_extendMatch c base table m) (upTo_extendMatch hle base table)
  have haround := around_scopedGroups hnested
  rw [← hc.upTo_eq] at haround
  obtain ⟨hgroups, hbeyond⟩ := paints_extendGroups base haround
  -- behind the last group the match has no scopes but the base
  have hrest : Paints (fun b => base ++ scopesAt _ b) _ _ := paints_extend
    ((grows_groups c base table m).upTo_le_of hle fun _ _ hp => hp.1)
    fun b hb _ => by rw [hbeyond b hb, List.append_nil]
  have hpaints := hgroups.trans hrest
  refine ⟨hends, fun b scopes hb => ?before, fun b scopes hb => ?within⟩
  case before =>
    rw [extendMatch, hpaints.shows, hc.upTo_eq, or_iff_left]
    exact fun hin => absurd hin.1.1 (Nat.not_le.mpr hb)
  case within =>
    have hupTo : ((extendGroups base c [] (scopedGroups table m.span m.groups)).extend
        m.span.stop base).upTo = m.span.stop := hends.upTo_eq
    rw [extendMatch, hpaints.shows, hc.upTo_eq, hupTo, or_iff_right (hc.not_shows hb.1 scopes),
      scopesAt_scopedGroups table m.groups hb]
    exact and_iff_right hb

/-- A call as a match of its own, behind a dash: its groups are the function, the parentheses with
what is in them, a group that took no part, and the argument. -/
def callMatch : Regex.Found "-f(x)" ("-f(x)".startPos.next (by decide)) :=
  let f := "-f(x)".startPos.next (by decide)
  let opening := f.next (by decide)
  let x := opening.next (by decide)
  let closing := x.next (by decide)
  { span := ⟨f, "-f(x)".endPos, by decide⟩
    le := String.Pos.le_refl _
    captured := [some ⟨f, opening, by decide⟩, some ⟨opening, "-f(x)".endPos, by decide⟩, none,
      some ⟨x, closing, by decide⟩] }

/-- The argument of a call lies in the whole call and in its parentheses. -/
theorem shows_nested_groups_call :
    let c : Cover "-f(x)" := ({} : Cover "-f(x)").extend callMatch.span.start [⟨["text"]⟩]
    let table : CaptureTable :=
      [some ⟨["call"]⟩, some ⟨["function"]⟩, some ⟨["arguments"]⟩, some ⟨["none"]⟩,
        some ⟨["argument"]⟩]
    c.EndsAt callMatch.span.start
      ∧ Nested (scopedGroups table callMatch.span callMatch.groups)
      ∧ ∀ scopes, (c.extendMatch [⟨["text"]⟩] table callMatch).Shows 3 scopes
        ↔ scopes = [⟨["text"]⟩, ⟨["call"]⟩, ⟨["arguments"]⟩, ⟨["argument"]⟩] := by
  intro c table
  have hc : c.EndsAt callMatch.span.start := ⟨by decide, by decide⟩
  have hnested : Nested (scopedGroups table callMatch.span callMatch.groups) := by
    unfold Nested
    decide
  refine ⟨hc, hnested, fun scopes => ?_⟩
  exact (shows_nested_groups c [⟨["text"]⟩] table callMatch hc hnested).2.2 3 scopes (by decide)

end ScopedText.Cover
