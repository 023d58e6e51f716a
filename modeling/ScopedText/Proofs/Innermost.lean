import ScopedText.Proofs.Extent
import ScopedText.Proofs.Partition
import ScopedText.Regex.Search

/-!
# The innermost region of each byte

The tokens of a scan tell which regions there were: each byte has the scopes of the innermost region
whose extent it lies in, followed by what the one match on it adds (`scopes_of_innermost`). A byte
that a move passes over lies in the regions that are open at the move, and in the one that the move
opens if it comes after the opening; all regions that are opened later begin behind it.
-/

namespace ScopedText

section

variable {text : String}

/-! ## Matches -/

/-- The scopes of a byte are those of its region, followed by what the match on it adds; without a
match, nothing follows. -/
structure Explained (hits : List (Hit text)) (region : List Scope) (b : Nat) (scopes : List Scope) :
    Prop where
  matched : ∀ hit ∈ hits, hit.span.Covers b →
    ∃ added, added.Sublist hit.groups ∧ scopes = region ++ hit.own ++ added
  unmatched : (∀ hit ∈ hits, ¬ hit.span.Covers b) → scopes = region

section
variable {hits others : List (Hit text)} {region scopes : List Scope} {b : Nat}

theorem explained_nil (h : scopes = region) : Explained ([] : List (Hit text)) region b scopes := by
  constructor
  · intro hit hmem
    cases hmem
  · exact fun _ => h

/-- Only the matches on the byte count. -/
theorem Explained.congr (h : Explained hits region b scopes)
    (hsame : ∀ hit, hit.span.Covers b → (hit ∈ others ↔ hit ∈ hits)) :
    Explained others region b scopes := by
  constructor
  · intro hit hmem hcovers
    exact h.matched hit ((hsame hit hcovers).mp hmem) hcovers
  · intro hnone
    apply h.unmatched
    intro hit hmem hcovers
    exact hnone hit ((hsame hit hcovers).mpr hmem) hcovers

end

variable [Engine] {g : Grammar}

namespace Move

variable {stack : Stack} {pos : text.Pos}

theorem span_of_hit? {mv : Move g stack pos} {hit : Hit text} (h : mv.hit? = some hit) :
    pos ≤ hit.span.start ∧ hit.span.stop = mv.next := by
  cases mv with
  | skip => cases h
  | span _ m _ | opens _ m _ _ _ _ | closes _ _ m _ _ | closesNone m _ =>
    cases h
    exact ⟨m.le, rfl⟩

/-- The level and the scopes of the innermost region of a byte that the move passes over. -/
def regionAt (mv : Move g stack pos) (b : Nat) : Nat × List Scope :=
  match mv.opening? with
  | some start =>
    if start.offset.byteIdx ≤ b then (mv.after.depth, mv.after.scopes)
    else (stack.depth, stack.scopes)
  | none => (stack.depth, stack.scopes)

theorem explained_of_gives {mv : Move g stack pos} {b : Nat} {scopes : List Scope}
    (hb : b < mv.next.offset.byteIdx) (h : mv.Gives b scopes) :
    Explained mv.hit?.toList (mv.regionAt b).2 b scopes := by
  have matched {hit : Hit text} {region : List Scope}
      (hgives : ∃ added, added.Sublist hit.groups ∧ scopes = region ++ hit.own ++ added)
      (hcovers : hit.span.Covers b) : Explained [hit] region b scopes := by
    refine ⟨fun other hmem _ => ?_, fun hnone => absurd hcovers (hnone hit List.mem_cons_self)⟩
    cases List.mem_singleton.mp hmem
    exact hgives
  have before {hit : Hit text} (hbefore : b < hit.span.start.offset.byteIdx)
      (hgives : scopes = stack.scopes) : Explained [hit] stack.scopes b scopes := by
    refine ⟨fun other hmem hcovers => ?_, fun _ => hgives⟩
    cases List.mem_singleton.mp hmem
    exact absurd hcovers.1 (Nat.not_le.mpr hbefore)
  cases mv with
  | skip inside => exact explained_nil h
  | span _ m _ | closes _ _ m _ _ | closesNone m _ =>
    simp only [Gives, hit?, inside] at h
    split at h
    · exact before ‹_› h
    · exact matched h ⟨Nat.not_lt.mp ‹_›, hb⟩
  | opens region m pattern mem text_eq advances =>
    simp only [Gives, hit?, inside] at h
    simp only [regionAt, opening?]
    split at h
    · rw [if_neg (Nat.not_le.mpr ‹_›)]
      exact before ‹_› h
    · rw [if_pos (Nat.not_lt.mp ‹_›)]
      exact matched h ⟨Nat.not_lt.mp ‹_›, hb⟩

end Move

namespace Path

variable {stack : Stack} {pos : text.Pos}

def hits {stack : Stack} {pos : text.Pos} : Path g stack pos → List (Hit text)
  | done => []
  | move mv rest => mv.hit?.toList ++ rest.hits

theorem le_start_of_mem_hits {path : Path g stack pos} {hit : Hit text} (h : hit ∈ path.hits) :
    pos ≤ hit.span.start := by
  induction path with
  | done => cases h
  | move mv rest ih =>
    rcases List.mem_append.mp h with h | h
    · exact (Move.span_of_hit? (Option.mem_toList.mp h)).1
    · exact String.Pos.le_trans mv.le_next (ih h)

/-- A match begins where the one before it has ended, or later. -/
theorem hits_apart (path : Path g stack pos) :
    path.hits.Pairwise fun hit later => hit.span.stop ≤ later.span.start := by
  induction path with
  | done => exact .nil
  | move mv rest ih =>
    refine List.pairwise_append.mpr ⟨?_, ih, ?_⟩
    · cases mv.hit? with
      | none => exact .nil
      | some => exact List.pairwise_singleton _ _
    · intro hit hmem later hlater
      rw [(Move.span_of_hit? (Option.mem_toList.mp hmem)).2]
      exact le_start_of_mem_hits hlater

/-! ## Extents that hold a byte -/

/-- A region at this level and with these scopes extends over the byte. -/
def Holds (path : Path g stack pos) (b level : Nat) (scopes : List Scope) : Prop :=
  ∃ e ∈ path.extents, e.Covers b ∧ e.level = level ∧ e.scopes = scopes

theorem holds_iff {path : Path g stack pos} {b level : Nat} {scopes : List Scope}
    (hb : pos.offset.byteIdx ≤ b) : path.Holds b level scopes ↔
      (level, scopes) ∈ stack.levels ∧ b < (path.stop level).offset.byteIdx
      ∨ ∃ e ∈ path.opened, e.Covers b ∧ e.level = level ∧ e.scopes = scopes := by
  constructor
  · rintro ⟨e, he, hcovers, rfl, rfl⟩
    rcases List.mem_append.mp he with he | he
    · obtain ⟨⟨level, scopes⟩, hmem, rfl⟩ := List.mem_map.mp he
      exact .inl ⟨hmem, hcovers.2⟩
    · exact .inr ⟨e, he, hcovers, rfl, rfl⟩
  · rintro (⟨hmem, hstop⟩ | ⟨e, he, h⟩)
    · exact ⟨_, List.mem_append_left _ (List.mem_map_of_mem hmem), ⟨hb, hstop⟩, rfl, rfl⟩
    · exact ⟨e, List.mem_append_right _ he, h⟩

/-- At the end of a scan the open regions hold what is left of the text. -/
theorem holds_done {b level : Nat} {scopes : List Scope} (hfrom : pos.offset.byteIdx ≤ b)
    (hto : b < text.endPos.offset.byteIdx) :
    (done : Path g stack pos).Holds b level scopes ↔ (level, scopes) ∈ stack.levels := by
  rw [holds_iff hfrom]
  constructor
  · rintro (⟨hmem, _⟩ | ⟨e, he, _⟩)
    · exact hmem
    · cases he
  · exact fun hmem => .inl ⟨hmem, hto⟩

/-- What a move passes over lies in the open regions, and in the one that it opens. -/
theorem holds_move_before {mv : Move g stack pos} {rest : Path g mv.after mv.next} {b level : Nat}
    {scopes : List Scope} (hfrom : pos.offset.byteIdx ≤ b) (hto : b < mv.next.offset.byteIdx) :
    (move mv rest).Holds b level scopes ↔ (level, scopes) ∈ stack.levels
      ∨ ∃ start, mv.opening? = some start ∧ start.offset.byteIdx ≤ b
        ∧ (level, scopes) = (mv.after.depth, mv.after.scopes) := by
  have within (level : Nat) : b < ((move mv rest).stop level).offset.byteIdx := by
    have hnext : mv.next ≤ (move mv rest).stop level := by
      rw [stop_move]
      split
      · exact String.Pos.le_refl _
      · exact rest.le_stop level
    exact Nat.lt_of_lt_of_le hto (pos_le_iff.mp hnext)
  have inside (level : Nat) : b < (rest.stop level).offset.byteIdx :=
    Nat.lt_of_lt_of_le hto (pos_le_iff.mp (rest.le_stop level))
  rw [holds_iff hfrom]
  constructor
  · rintro (⟨hmem, _⟩ | ⟨e, he, hcovers, rfl, rfl⟩)
    · exact .inl hmem
    · rcases mem_opened_move.mp he with ⟨start, hstart, rfl⟩ | he
      · exact .inr ⟨start, hstart, hcovers.1, rfl⟩
      · have hlater := pos_le_iff.mp (le_start_of_mem_opened he)
        exact absurd hcovers.1 (by omega)
  · rintro (hmem | ⟨start, hstart, hbefore, heq⟩)
    · exact .inl ⟨hmem, within level⟩
    · cases heq
      exact .inr ⟨_, mem_opened_move.mpr (.inl ⟨start, hstart, rfl⟩), ⟨hbefore, inside _⟩, rfl, rfl⟩

/-- What a move leaves behind it lies in the regions of the rest of the scan. -/
theorem holds_move_after {mv : Move g stack pos} {rest : Path g mv.after mv.next} {b level : Nat}
    {scopes : List Scope} (hb : mv.next.offset.byteIdx ≤ b) :
    (move mv rest).Holds b level scopes ↔ rest.Holds b level scopes := by
  have hpos := pos_le_iff.mp mv.le_next
  have still (level : Nat) : b < ((move mv rest).stop level).offset.byteIdx
      ↔ level ≤ mv.after.depth ∧ b < (rest.stop level).offset.byteIdx := by
    rw [stop_move]
    split <;> omega
  rw [holds_iff (by omega), holds_iff hb, Move.mem_levels_after, still]
  constructor
  · rintro (⟨hmem, hle, hstop⟩ | ⟨e, he, hcovers, rfl, rfl⟩)
    · exact .inl ⟨.inl ⟨hmem, hle⟩, hstop⟩
    · rcases mem_opened_move.mp he with ⟨start, hstart, rfl⟩ | he
      · exact .inl ⟨.inr ⟨by rw [hstart]; rfl, rfl⟩, hcovers.2⟩
      · exact .inr ⟨e, he, hcovers, rfl, rfl⟩
  · rintro (⟨⟨hmem, hle⟩ | ⟨hopening, heq⟩, hstop⟩ | ⟨e, he, h⟩)
    · exact .inl ⟨hmem, hle, hstop⟩
    · cases heq
      obtain ⟨start, hstart⟩ := Option.isSome_iff_exists.mp hopening
      have hbefore := pos_le_iff.mp (Move.opening?_le_next hstart).2
      exact .inr ⟨_, mem_opened_move.mpr (.inl ⟨start, hstart, rfl⟩),
        ⟨Nat.le_trans hbefore hb, hstop⟩, rfl, rfl⟩
    · exact .inr ⟨e, mem_opened_move.mpr (.inr he), h⟩

/-- The region that a move gives a byte to holds it, and no other one has a greater level. -/
theorem innermost_move_before {mv : Move g stack pos} (rest : Path g mv.after mv.next) {b : Nat}
    (hfrom : pos.offset.byteIdx ≤ b) (hto : b < mv.next.offset.byteIdx) :
    (move mv rest).Holds b (mv.regionAt b).1 (mv.regionAt b).2
      ∧ ∀ level scopes, (move mv rest).Holds b level scopes → level ≤ (mv.regionAt b).1 := by
  simp only [holds_move_before hfrom hto]
  unfold Move.regionAt
  cases hopening : mv.opening? with
  | none =>
    refine ⟨.inl stack.mem_levels_innermost, ?_⟩
    rintro level scopes (hmem | ⟨start, hstart, _⟩)
    · exact Stack.le_of_mem_levels hmem
    · cases hstart
  | some start =>
    have hdepth := Move.depth_after_of_opening? hopening
    dsimp only
    split
    · refine ⟨.inr ⟨start, rfl, ‹_›, rfl⟩, ?_⟩
      rintro level scopes (hmem | ⟨_, _, _, heq⟩)
      · have := Stack.le_of_mem_levels hmem
        dsimp only
        omega
      · cases heq
        exact Nat.le_refl _
    · refine ⟨.inl stack.mem_levels_innermost, ?_⟩
      rintro level scopes (hmem | ⟨start', hstart, hbefore, _⟩)
      · exact Stack.le_of_mem_levels hmem
      · cases hstart
        exact absurd hbefore ‹_›

/-- What a path gives to a byte is explained by the region of the greatest level that holds it. -/
theorem explained_of_gives {path : Path g stack pos} {b : Nat} {scopes : List Scope}
    (hfrom : pos.offset.byteIdx ≤ b) (hto : b < text.endPos.offset.byteIdx)
    (h : path.Gives b scopes) :
    ∃ level region, path.Holds b level region
      ∧ (∀ level' region', path.Holds b level' region' → level' ≤ level)
      ∧ Explained path.hits region b scopes := by
  induction path with
  | @done stack pos =>
    refine ⟨stack.depth, stack.scopes, (holds_done hfrom hto).mpr stack.mem_levels_innermost, ?_,
      explained_nil h⟩
    intro level region hholds
    exact Stack.le_of_mem_levels ((holds_done hfrom hto).mp hholds)
  | move mv rest ih =>
    unfold Gives at h
    split at h
    · rename_i hnext
      obtain ⟨hholds, hmax⟩ := innermost_move_before rest hfrom hnext
      refine ⟨_, _, hholds, hmax, (Move.explained_of_gives hnext h).congr ?_⟩
      intro hit hcovers
      refine List.mem_append.trans (or_iff_left fun hmem => ?_)
      have hlater := pos_le_iff.mp (le_start_of_mem_hits hmem)
      exact absurd hcovers.1 (by omega)
    · rename_i hnext
      obtain ⟨level, region, hholds, hmax, hexplained⟩ := ih (Nat.not_lt.mp hnext) h
      simp only [holds_move_after (Nat.not_lt.mp hnext)]
      refine ⟨level, region, hholds, hmax, hexplained.congr ?_⟩
      intro hit hcovers
      refine List.mem_append.trans (or_iff_right fun hmem => ?_)
      have hstop := (Move.span_of_hit? (Option.mem_toList.mp hmem)).2
      exact hnext (hstop ▸ hcovers.2)

/-- The region whose extent holds a byte and lies inside of all others that do. -/
structure Innermost (path : Path g stack pos) (b : Nat) (e : Extent text) : Prop where
  mem : e ∈ path.extents
  covers : e.Covers b
  inside : ∀ outer ∈ path.extents, outer.Covers b → outer = e ∨ outer.Around e

theorem innermost_of_level {path : Path g stack pos} {b : Nat} {e : Extent text}
    (he : e ∈ path.extents) (hcovers : e.Covers b)
    (hmax : ∀ outer ∈ path.extents, outer.Covers b → outer.level ≤ e.level) :
    path.Innermost b e := by
  refine ⟨he, hcovers, fun outer houter hbyte => ?_⟩
  have notApart {first later : Extent text} (hfirst : first.Covers b) (hlater : later.Covers b)
      (h : Nests first later) : first.Around later := by
    refine h.resolve_left fun hle => ?_
    have := pos_le_iff.mp hle
    exact absurd hfirst.2 (by have := hlater.1; omega)
  have : Std.Symm fun a b : Extent text => Nests a b ∨ Nests b a := ⟨fun _ _ h => h.symm⟩
  have either := path.extents_nest.imp (S := fun a b => Nests a b ∨ Nests b a) .inl
  by_cases heq : outer = e
  · exact .inl heq
  · rcases either.forall houter he heq with h | h
    · exact .inr (notApart hbyte hcovers h)
    · have := (notApart hcovers hbyte h).level
      have := hmax outer houter hbyte
      omega

/-- How the tokens of a scan tell the regions that it opened, went on with and closed. -/
structure Tells (path : Path g stack text.startPos) (tokens : List (Token text)) : Prop where
  nested : path.extents.Pairwise Nests
  closed : ∀ e ∈ path.opened, ∀ stop, e.closed = some stop → e.start < stop
  apart : path.hits.Pairwise fun hit later => hit.span.stop ≤ later.span.start
  covered : ∀ b < text.utf8ByteSize, ∃ token ∈ tokens, token.span.Covers b
  explained : ∀ token ∈ tokens, ∀ b, token.span.Covers b →
    ∃ e, path.Innermost b e ∧ Explained path.hits e.scopes b token.scopes

theorem exists_innermost {path : Path g stack text.startPos} {token : Token text}
    (ht : token ∈ (path.cover {}).tokens) {b : Nat} (hb : token.span.Covers b) :
    ∃ e, path.Innermost b e ∧ Explained path.hits e.scopes b token.scopes := by
  have hend : b < text.endPos.offset.byteIdx :=
    Nat.lt_of_lt_of_le hb.2 (pos_le_iff.mp (String.Pos.le_endPos _))
  obtain ⟨_, _, ⟨e, he, hcovers, rfl, rfl⟩, hmax, hexplained⟩ :=
    explained_of_gives (Nat.zero_le b) hend (gives_of_mem_tokens ht hb)
  refine ⟨e, innermost_of_level he hcovers fun outer houter hbyte => ?_, hexplained⟩
  exact hmax _ _ ⟨outer, houter, hbyte, rfl, rfl⟩

theorem tells (path : Path g stack text.startPos) : path.Tells (path.cover {}).tokens where
  nested := path.extents_nest
  closed _ he _ := start_lt_of_closed he
  apart := path.hits_apart
  covered _ hb := path.exists_covers hb
  explained _ ht _ hb := exists_innermost ht hb

end Path

/-- **Tokens have the scopes of the innermost region**, and on a match what the match adds. -/
theorem scopes_of_innermost (g : Grammar) (t : Tokenizer g) (text : String)
    (stack stack' : Stack) (tokens : List (Token text))
    (h : t.run (Tokenizer.tokenizeFrom text stack) = .ok (tokens, stack')) :
    ∃ path : Path g stack text.startPos,
      findPath (Supply.direct g) g stack text.startPos = .ok path
      ∧ path.last = stack' ∧ path.Tells tokens := by
  obtain ⟨path, hpath, rfl, rfl⟩ := exists_path_of_run h
  exact ⟨path, hpath, rfl, path.tells⟩

end

/-- A grammar whose one region begins with an `a` and ends with a `b`. -/
def regionGrammar : Grammar where
  name := "region"
  displayName := none
  description := none
  scopeName := "text"
  scope := ⟨["text"]⟩
  fileTypes := []
  firstLine := none
  patterns := #["a", "b"]
  rules := #[
    .container { id := 0, entries := [.rule 1] },
    .region {
      id := 1, scope := some ⟨["region"]⟩, opening := 0, openingCaptures := []
      closing := 1, closingIsTemplate := false, closingCaptures := []
      closingFirst := false, entries := [] }]
  repository := {}

/-- A region inside of a text, with its delimiters. -/
theorem scopes_of_innermost_region :
    let g := regionGrammar
    let t := Tokenizer.new g
    ∃ (tokens : List (Token "-ab-")) (path : Path g g.initialStack "-ab-".startPos),
      t.run (Tokenizer.tokenizeFrom "-ab-" g.initialStack) = .ok (tokens, path.last)
      ∧ findPath (Supply.direct g) g g.initialStack "-ab-".startPos = .ok path ∧ path.Tells tokens
      ∧ path.opened.map (fun e => (e.level, e.start.offset.byteIdx, e.stop.offset.byteIdx))
        = [(1, 1, 3)] := by
  intro g t
  have scans : (t.run (Tokenizer.tokenizeFrom "-ab-" g.initialStack)).toBool = true := by
    rw [Tokenizer.gives_tokenizeFrom]
    cbv
  have opens : (findPath (Supply.direct g) g g.initialStack "-ab-".startPos).toOption.map
      (·.opened.map fun e => (e.level, e.start.offset.byteIdx, e.stop.offset.byteIdx))
        = some [(1, 1, 3)] := by
    cbv
  obtain ⟨⟨tokens, stack'⟩, hscan⟩ := exists_ok_of_toBool scans
  obtain ⟨path, hpath, rfl, htells⟩ := scopes_of_innermost g t "-ab-" _ _ tokens hscan
  rw [hpath] at opens
  exact ⟨tokens, path, hscan, hpath, htells, Option.some.inj opens⟩

end ScopedText
