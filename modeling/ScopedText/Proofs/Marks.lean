import ScopedText.Proofs.Cover
import ScopedText.Proofs.Path

/-!
# Which scopes a move gives to the text

Every move accounts for the text from where the scan stands up to where it goes on. `Move.Gives`
says which scopes the bytes there get: those of the open region before a match, and those of the
region that the match belongs to on the match, followed by what the match itself adds. `Path.shows`
is the same for a whole scan: a byte shows what the move that passes over it gives.
-/

namespace ScopedText

variable {text : String}

namespace Cover

variable {c : Cover text} {pos : text.Pos}

theorem upTo_match {m : Regex.Found text pos} (hc : c.upTo = pos) (outer base : List Scope)
    (table : CaptureTable) :
    ((c.extend m.span.start outer).extendMatch base table m).upTo = m.span.stop := by
  have hle : c.upTo ≤ m.span.start := hc ▸ m.le
  exact upTo_extendMatch (by rw [upTo_extend_of_le hle]; exact m.span.le) base table

theorem intact_match {m : Regex.Found text pos} (h : c.Intact) (outer base : List Scope)
    (table : CaptureTable) :
    ((c.extend m.span.start outer).extendMatch base table m).Intact :=
  (grows_extendMatch _ base table m).intact (intact_extend h _ _)

/-- The text before a match has the outer scopes, the match has its base and scopes of groups. -/
theorem shows_match {m : Regex.Found text pos} (hc : c.upTo = pos) {outer base : List Scope}
    {table : CaptureTable} {b : Nat} {scopes : List Scope}
    (h : ((c.extend m.span.start outer).extendMatch base table m).Shows b scopes) :
    c.Shows b scopes ∨ (pos.offset.byteIdx ≤ b ∧ b < m.span.stop.offset.byteIdx)
      ∧ if b < m.span.start.offset.byteIdx then scopes = outer
        else ∃ added, added.Sublist (groupScopes table m) ∧ scopes = base ++ added := by
  have hle : c.upTo ≤ m.span.start := hc ▸ m.le
  have hstart : (c.extend m.span.start outer).upTo = m.span.start := upTo_extend_of_le hle outer
  have hbefore := pos_le_iff.mp m.le
  have hmatch := pos_le_iff.mp m.span.le
  rcases (grows_extendMatch _ base table m).shows h with h | ⟨⟨hfrom, hto⟩, p, _, hadded⟩
  · rcases shows_extend.mp h with h | ⟨⟨hfrom, hto⟩, rfl⟩
    · exact .inl h
    · rw [hc] at hfrom
      refine .inr ⟨⟨hfrom, by omega⟩, ?_⟩
      rw [if_pos hto]
  · rw [hstart] at hfrom
    rw [upTo_match hc] at hto
    refine .inr ⟨⟨by omega, hto⟩, ?_⟩
    rwa [if_neg (by omega)]

end Cover

/-- A match on which a scan acts, with the scopes it adds to those of its region. -/
structure Hit (text : String) where
  span : Span text
  /-- The scope of the rule, if the rule matches a single span. -/
  own : List Scope
  /-- The scopes of the groups that took part, in the order of their numbers. -/
  groups : List Scope

variable [Engine] {g : Grammar}

namespace Move

variable {stack : Stack} {pos : text.Pos}

def hit? : Move g stack pos → Option (Hit text)
  | skip _ => none
  | span rule m _ => some ⟨m.span, rule.scope.toList, Cover.groupScopes rule.captures m⟩
  | opens region m _ _ _ _ => some ⟨m.span, [], Cover.groupScopes region.openingCaptures m⟩
  | closes frame _ m _ _ => some ⟨m.span, [], Cover.groupScopes (closingCaptures g frame.rule) m⟩
  | closesNone m _ => some ⟨m.span, [], Cover.groupScopes (closingCaptures g rootRule) m⟩

/-- The scopes of the region that the match of a move belongs to. What opens a region is inside of
it already, what closes it is inside of it still. -/
def inside (mv : Move g stack pos) : List Scope :=
  match mv with
  | opens .. => mv.after.scopes
  | skip _ | span .. | closes .. | closesNone .. => stack.scopes

/-- The move can give these scopes to the byte. -/
def Gives (mv : Move g stack pos) (b : Nat) (scopes : List Scope) : Prop :=
  match mv.hit? with
  | none => scopes = stack.scopes
  | some hit =>
    if b < hit.span.start.offset.byteIdx then scopes = stack.scopes
    else ∃ added, added.Sublist hit.groups ∧ scopes = mv.inside ++ hit.own ++ added

end Move

namespace Move

variable {stack : Stack} {pos : text.Pos}

theorem upTo_extend (mv : Move g stack pos) {c : Cover text} (hc : c.upTo = pos) :
    (mv.extend c).upTo = mv.next := by
  cases mv with
  | skip inside => exact Cover.upTo_extend_of_le (hc ▸ le_next (.skip inside : Move g stack pos)) _
  | span | opens | closes | closesNone => exact Cover.upTo_match hc _ _ _

theorem intact_extend (mv : Move g stack pos) {c : Cover text} (h : c.Intact) :
    (mv.extend c).Intact := by
  cases mv with
  | skip => exact Cover.intact_extend h _ _
  | span | opens | closes | closesNone => exact Cover.intact_match h _ _ _

theorem shows_extend (mv : Move g stack pos) {c : Cover text} (hc : c.upTo = pos) {b : Nat}
    {scopes : List Scope} (h : (mv.extend c).Shows b scopes) :
    c.Shows b scopes ∨ (pos.offset.byteIdx ≤ b ∧ b < mv.next.offset.byteIdx)
      ∧ mv.Gives b scopes := by
  cases mv with
  | skip inside =>
    rcases Cover.shows_extend.mp h with h | ⟨hb, heq⟩
    · exact .inl h
    · rw [hc] at hb
      exact .inr ⟨hb, heq⟩
  | span rule m advances => exact Cover.shows_match hc h
  | opens region m pattern mem text_eq advances =>
    simpa only [Gives, hit?, inside, after, next, Stack.scopes_push, List.append_nil]
      using Cover.shows_match hc h
  | closes | closesNone =>
    simpa only [Gives, hit?, inside, next, List.append_nil] using Cover.shows_match hc h

end Move

namespace Path

def Gives {stack : Stack} {pos : text.Pos} : Path g stack pos → Nat → List Scope → Prop
  | done, _, scopes => scopes = stack.scopes
  | move mv rest, b, scopes =>
    if b < mv.next.offset.byteIdx then mv.Gives b scopes else rest.Gives b scopes

variable {stack : Stack} {pos : text.Pos}

theorem upTo_cover (path : Path g stack pos) {c : Cover text} (hc : c.upTo = pos) :
    (path.cover c).upTo = text.endPos := by
  induction path generalizing c with
  | done => exact Cover.upTo_extend_of_le (String.Pos.le_endPos _) _
  | move mv rest ih => exact ih (mv.upTo_extend hc)

theorem intact_cover (path : Path g stack pos) {c : Cover text} (h : c.Intact) :
    (path.cover c).Intact := by
  induction path generalizing c with
  | done => exact Cover.intact_extend h _ _
  | move mv rest ih => exact ih (mv.intact_extend h)

/-- What a scan shows it showed before, or the path gives it. -/
theorem shows (path : Path g stack pos) {c : Cover text} (hc : c.upTo = pos) {b : Nat}
    {scopes : List Scope} (h : (path.cover c).Shows b scopes) :
    c.Shows b scopes ∨ pos.offset.byteIdx ≤ b ∧ path.Gives b scopes := by
  induction path generalizing c with
  | done =>
    rcases Cover.shows_extend.mp h with h | ⟨⟨hfrom, _⟩, heq⟩
    · exact .inl h
    · rw [hc] at hfrom
      exact .inr ⟨hfrom, heq⟩
  | move mv rest ih =>
    have hle := pos_le_iff.mp mv.le_next
    rcases ih (mv.upTo_extend hc) h with h | ⟨hfrom, hgives⟩
    · rcases mv.shows_extend hc h with h | ⟨⟨hfrom, hto⟩, hgives⟩
      · exact .inl h
      · refine .inr ⟨hfrom, ?_⟩
        rwa [Gives, if_pos hto]
    · refine .inr ⟨by omega, ?_⟩
      rwa [Gives, if_neg (by omega)]

/-- The tokens of a scan show what its path gives. -/
theorem gives_of_mem_tokens {path : Path g stack text.startPos} {t : Token text}
    (ht : t ∈ (path.cover {}).tokens) {b : Nat} (hb : t.span.Covers b) : path.Gives b t.scopes := by
  have hshows : (path.cover {}).Shows b t.scopes := ⟨t, List.mem_reverse.mp ht, hb, rfl⟩
  rcases path.shows rfl hshows with ⟨_, h, _⟩ | ⟨_, h⟩
  · cases h
  · exact h

end Path

end ScopedText
