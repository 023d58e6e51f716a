import Mathlib
import ScopedText.Grammar.Compile
import ScopedText.Proofs.Answer
import ScopedText.Proofs.Session
import ScopedText.Regex.Search

/-!
# A scan comes to an end

One turn of a scan is a search and the move that its answer asks for. As long as no rule bears the
number that marks closing matches, `scan_terminates` bounds the turns of a scan before it starts, by
the regions that are open, the regions of the grammar and the length of the text. The searches can
answer what they like, as long as a match does not begin before the position of the search; the
regions can have been entered anywhere, also in another text.

The bound falls with every turn (`turnsLeft_lt`). A turn that takes text may open one region and may
let every region open once more without taking text; a region that opens without taking text cannot
do so again here, and pays for closing later.

`scanWithin` makes so many turns and does not look whether a move stays where it is. A scan is
`endless` if no number of turns is enough (`endless_iff`). This happens if a rule does bear that
number (`tokenize_crowded`).
-/

namespace ScopedText

section

variable [Engine]

/-- Where a scan has got to, and the regions that are open there. -/
structure Standpoint (text : String) where
  stack : Stack
  pos : text.Pos

/-- A turn of a scan in which the search has some answer and a closing pattern compiles to
something, it does not matter what. -/
inductive Turn (g : Grammar) {text : String} : Standpoint text → Standpoint text → Prop
  | intro {stack : Stack} {pos : text.Pos} (supply : Supply (Except ScanError))
      (answer : Target stack × Regex.Found text pos) (mv : Move g stack pos)
      (asked : respond supply g stack pos answer = .ok (some mv)) :
      Turn g ⟨stack, pos⟩ ⟨mv.after, mv.next⟩

inductive Turns (g : Grammar) {text : String} : Nat → Standpoint text → Standpoint text → Prop
  | refl (a : Standpoint text) : Turns g 0 a a
  | head {n : Nat} {a b c : Standpoint text} (turn : Turn g a b) (rest : Turns g n b c) :
      Turns g (n + 1) a c

def Grammar.regionCount (g : Grammar) : Nat :=
  g.rules.toList.countP fun
    | .region _ => true
    | _ => false

/-- The turns that can be left. Each region that can still open here without taking text counts
twice, since it can close later. -/
def turnsLeft (g : Grammar) {text : String} (a : Standpoint text) : Nat :=
  a.stack.depth + 2 * Move.unentered g a.stack a.pos
    + (2 * g.regionCount + 2) * a.pos.remainingBytes

namespace Move

variable {g : Grammar} {text : String} {stack : Stack} {pos : text.Pos}

theorem unentered_le (g : Grammar) (stack : Stack) (pos : text.Pos) :
    unentered g stack pos ≤ g.regionCount := by
  refine List.countP_mono_left fun rule _ h => ?_
  cases rule with
  | region => rfl
  | span | container | inert => exact absurd h Bool.false_ne_true

theorem depth_after_le (mv : Move g stack pos) : mv.after.depth ≤ stack.depth + 1 := by
  cases mv with
  | skip | span | closesNone => exact Nat.le_succ _
  | opens => exact Nat.le_refl _
  | closes frame outer m frames_eq advances =>
    simp only [after, Stack.depth, frames_eq, List.length_cons]
    omega

/-- Every move that does not stay leaves fewer turns. -/
theorem turnsLeft_lt (mv : Move g stack pos) (hmoves : mv.stays = false) :
    turnsLeft g ⟨mv.after, mv.next⟩ < turnsLeft g ⟨stack, pos⟩ := by
  simp only [turnsLeft]
  by_cases h : pos < mv.next
  · have hbytes := (String.Pos.lt_iff_remainingBytes_lt _ _).mp h
    have hpaid := Nat.mul_le_mul_left (2 * g.regionCount + 2) (Nat.succ_le_of_lt hbytes)
    have hopen := unentered_le g mv.after mv.next
    have hdepth := mv.depth_after_le
    rw [Nat.mul_succ] at hpaid
    omega
  -- the move takes no text, so it opens or closes a region where the scan stands
  obtain ⟨hnext, ⟨region, closer, mem, hentered, hafter⟩
    | ⟨frame, outer, hframes, hentered, hafter⟩⟩ := mv.opens_or_closes_of_not_lt hmoves h
  · have hopen := unentered_push_lt mem hentered region.scope closer
    simp only [hnext, hafter, Stack.depth, Stack.push, List.length_cons] at hopen ⊢
    omega
  · simp only [hnext, hafter, unentered_frames hframes hentered]
    simp only [Stack.depth, hframes, List.length_cons]
    omega

/-- A move that takes no text leaves fewer such moves at its position. -/
theorem standing_lt {mv : Move g stack pos} (hmoves : mv.stays = false) (h : mv.next = pos) :
    standing g mv.after pos < standing g stack pos := by
  have hlt := mv.measure_lt hmoves
  rw [h] at hlt
  cases hlt with
  | left _ _ hbytes => exact absurd hbytes (Nat.lt_irrefl _)
  | right _ hstanding => exact hstanding

theorem stays_skip? {mv : Move g stack pos} (h : skip? = some mv) : mv.stays = false := by
  obtain ⟨_, rfl⟩ := eq_skip_of_skip? h
  rfl

theorem stays_close? {frame : Frame} {outer : List Frame}
    {frames_eq : stack.frames = frame :: outer} {found : Regex.Found text pos}
    {mv : Move g stack pos} (h : close? frame outer frames_eq found = some mv) :
    mv.stays = false := by
  rcases eq_closes_of_close? h with ⟨_, rfl⟩ | ⟨_, rfl⟩ <;> rfl

/-- What stays where it is leads back there. -/
theorem next_of_stays {mv : Move g stack pos} (h : mv.stays = true) :
    mv.next = pos ∧ mv.after = stack := by
  cases mv with
  | skip | span | opens | closes => cases h
  | closesNone m frames_eq =>
    have hlt : ¬ pos < m.span.stop := by simpa [stays] using h
    exact ⟨(eq_of_not_lt hlt).2, rfl⟩

end Move

variable {g : Grammar} {text : String}

section Unmarked

variable {stack : Stack} {pos : text.Pos} (hmarks : ∀ id, g.marks id = false)

include hmarks

/-- What comes after the answer of a search need not look whether its move stays, if no rule bears
the number that marks closing matches. -/
theorem bind_respond_congr {m : Type → Type} [Monad m] [LawfulMonad m] {α : Type}
    {supply : Supply m} {answer : Target stack × Regex.Found text pos}
    {f f' : Option (Move g stack pos) → m α}
    (hf : ∀ mv? : Option (Move g stack pos), (∀ mv, mv? = some mv → mv.stays = false) →
      f mv? = f' mv?) :
    respond supply g stack pos answer >>= f = respond supply g stack pos answer >>= f' := by
  have skips : f Move.skip? = f' Move.skip? := hf _ fun _ => Move.stays_skip?
  obtain ⟨target, found⟩ := answer
  cases target with
  | closing frame outer frames_eq =>
    simp only [respond, pure_bind]
    exact hf _ fun _ => Move.stays_close?
  | rule id =>
    rw [respond_unmarked _ _ (hmarks id)]
    unfold respondRule
    split
    case h_1 =>
      split
      · simp only [pure_bind]
        apply hf
        rintro _ ⟨⟩
        rfl
      · simp only [pure_bind, skips]
    case h_2 =>
      split
      · simp only [bind_assoc, pure_bind]
        congr 1
        funext pattern
        apply hf
        rintro _ ⟨⟩
        rfl
      · simp only [pure_bind, skips]
    all_goals simp only [pure_bind, skips]

theorem stays_of_respond {supply : Supply (Except ScanError)}
    {answer : Target stack × Regex.Found text pos} {mv : Move g stack pos}
    (h : respond supply g stack pos answer = .ok (some mv)) : mv.stays = false := by
  let report (mv? : Option (Move g stack pos)) : Except ScanError Bool := .ok (mv?.any (·.stays))
  have hnever : respond supply g stack pos answer >>= report
      = respond supply g stack pos answer >>= fun _ => .ok false := by
    apply bind_respond_congr hmarks
    intro mv? hmoves
    cases mv? with
    | none => rfl
    | some mv => simp [report, hmoves]
  rw [h] at hnever
  exact Except.ok.inj hnever

theorem Turns.le_turnsLeft {n : Nat} {a b : Standpoint text} (h : Turns g n a b) :
    n ≤ turnsLeft g a := by
  induction h with
  | refl => exact Nat.zero_le _
  | head turn _ ih =>
    cases turn with
    | intro supply answer mv asked =>
      have := mv.turnsLeft_lt (stays_of_respond hmarks asked)
      omega

end Unmarked

theorem Turns.pos_le {n : Nat} {a b : Standpoint text} (h : Turns g n a b) : a.pos ≤ b.pos := by
  induction h with
  | refl => exact String.Pos.le_refl _
  | head turn _ ih =>
    cases turn with
    | intro supply answer mv asked => exact String.Pos.le_trans mv.le_next ih

/-- The turns that take no text at a position, opening and closing regions in any order, come to an
end there. -/
theorem Turns.le_standing (hmarks : ∀ id, g.marks id = false) {n : Nat} {a b : Standpoint text}
    (h : Turns g n a b) (hpos : b.pos = a.pos) : n ≤ Move.standing g a.stack a.pos := by
  induction h with
  | refl => exact Nat.zero_le _
  | head turn rest ih =>
    cases turn with
    | @intro stack pos supply answer mv asked =>
      have hle : mv.next ≤ pos := String.Pos.le_trans rest.pos_le (Std.le_of_eq hpos)
      have hnext : mv.next = pos := Std.le_antisymm hle mv.le_next
      have hrest := ih (hpos.trans hnext.symm)
      simp only [hnext] at hrest
      have := Move.standing_lt (stays_of_respond hmarks asked) hnext
      exact Nat.succ_le_of_lt (Nat.lt_of_le_of_lt hrest this)

/-- Every move of a scan is a turn. -/
theorem turn_of_nextMove {supply : Supply (Except ScanError)} {stack : Stack} {pos : text.Pos}
    {mv : Move g stack pos} (h : nextMove supply g stack pos = .ok (some mv)) :
    Turn g ⟨stack, pos⟩ ⟨mv.after, mv.next⟩ := by
  obtain ⟨_, answer, _, _, hrespond⟩ := answer_of_nextMove h
  exact .intro supply answer mv hrespond

theorem stays_of_nextMove (hmarks : ∀ id, g.marks id = false)
    {supply : Supply (Except ScanError)} {stack : Stack} {pos : text.Pos} {mv : Move g stack pos}
    (h : nextMove supply g stack pos = .ok (some mv)) : mv.stays = false := by
  obtain ⟨_, _, _, _, hrespond⟩ := answer_of_nextMove h
  exact stays_of_respond hmarks hrespond

/-- A scan that gives up after so many turns. -/
def scanWithin {m : Type → Type} [Monad m] (supply : Supply m) (g : Grammar) {text : String} :
    Nat → (stack : Stack) → (pos : text.Pos) → Cover text → m (Option (Cover text × Stack))
  | 0, _, _, _ => return none
  | n + 1, stack, pos, c => do
    match ← nextMove supply g stack pos with
    | none => return some (c.extend text.endPos stack.scopes, stack)
    | some mv => scanWithin supply g n mv.after mv.next (mv.extend c)

theorem bind_nextMove_congr (hmarks : ∀ id, g.marks id = false) {m : Type → Type} [Monad m]
    [LawfulMonad m] {α : Type} {supply : Supply m} {stack : Stack} {pos : text.Pos}
    {f f' : Option (Move g stack pos) → m α}
    (hf : ∀ mv? : Option (Move g stack pos), (∀ mv, mv? = some mv → mv.stays = false) →
      f mv? = f' mv?) :
    nextMove supply g stack pos >>= f = nextMove supply g stack pos >>= f' := by
  unfold nextMove
  simp only [bind_assoc]
  congr 1
  funext active
  split
  · simp only [pure_bind]
    exact hf none (by simp)
  · exact bind_respond_congr hmarks hf

theorem scanWithin_eq_scanFrom (hmarks : ∀ id, g.marks id = false) {m : Type → Type} [Monad m]
    [LawfulMonad m] (supply : Supply m) {n : Nat} {stack : Stack} {pos : text.Pos}
    (h : turnsLeft g ⟨stack, pos⟩ < n) (c : Cover text) :
    scanWithin supply g n stack pos c = some <$> scanFrom supply g stack pos c := by
  induction n generalizing stack pos c with
  | zero => exact absurd h (Nat.not_lt_zero _)
  | succ n ih =>
    rw [scanWithin, scanFrom, map_bind]
    apply bind_nextMove_congr hmarks
    intro mv? hmoves
    cases mv? with
    | none => simp
    | some mv =>
      have hmove := hmoves mv rfl
      simp only [hmove, Bool.false_eq_true, dite_false]
      exact ih (Nat.lt_of_lt_of_le (mv.turnsLeft_lt hmove) (Nat.le_of_lt_succ h)) _

theorem turnsLeft_le (g : Grammar) (a : Standpoint text) :
    turnsLeft g a ≤ a.stack.depth + (2 * g.regionCount + 2) * (a.pos.remainingBytes + 1) := by
  have := Move.unentered_le g a.stack a.pos
  rw [turnsLeft, Nat.mul_succ]
  omega

/-! ## Endless scans -/

section Endless

variable {stack : Stack} {pos : text.Pos}

theorem nextMove_ne_endless : nextMove (Supply.direct g) g stack pos ≠ .error .endless := by
  have hclosing (closing : String) : (Supply.direct g).closing closing ≠ .error .endless := by
    intro h
    have hcompile := map_closing_direct (g := g) closing
    rw [h, compileClosing] at hcompile
    split at hcompile <;> cases hcompile
  intro h
  rcases bind_eq_error h with hactive | ⟨active, _, h⟩
  · have hset : compileTogether (g.active stack.rule) = .error .endless := hactive
    unfold compileTogether at hset
    cases hpatterns : Regex.Set.ofPatterns (g.active stack.rule) <;> rw [hpatterns] at hset <;>
      cases hset
  · split at h
    · cases h
    · rename_i answer _
      obtain ⟨target, found⟩ := answer
      cases target with
      | closing => cases h
      | rule id =>
        simp only [respond, respondRule] at h
        split at h
        · cases h
        · split at h
          case h_1 => split at h <;> cases h
          case h_2 =>
            split at h
            · rcases bind_eq_error h with h | ⟨_, _, h⟩
              · exact hclosing _ h
              · cases h
            · cases h
          all_goals cases h

/-- A move that stays where it is is made again and again. -/
theorem scanWithin_of_stays {mv : Move g stack pos}
    (hmove : nextMove (Supply.direct g) g stack pos = .ok (some mv)) (hstays : mv.stays = true)
    (n : Nat) (c : Cover text) : scanWithin (Supply.direct g) g n stack pos c = .ok none := by
  induction n generalizing c with
  | zero => rfl
  | succ n ih =>
    obtain ⟨hnext, hafter⟩ := mv.next_of_stays hstays
    simp only [scanWithin, hmove, bind, Except.bind, hnext, hafter]
    exact ih _

theorem scanWithin_of_endless {c : Cover text}
    (h : scanFrom (Supply.direct g) g stack pos c = .error .endless) (n : Nat) :
    scanWithin (Supply.direct g) g n stack pos c = .ok none := by
  induction n generalizing stack pos c with
  | zero => rfl
  | succ n ih =>
    rw [scanFrom] at h
    rw [scanWithin]
    cases hmove : nextMove (Supply.direct g) g stack pos with
    | error e =>
      rw [hmove] at h
      cases h
      exact absurd hmove nextMove_ne_endless
    | ok mv? =>
      rw [hmove] at h
      cases mv? with
      | none => cases h
      | some mv =>
        by_cases hstays : mv.stays = true
        · obtain ⟨hnext, hafter⟩ := mv.next_of_stays hstays
          simp only [bind, Except.bind, hnext, hafter]
          exact scanWithin_of_stays hmove hstays n _
        · simp only [bind, Except.bind, dif_neg hstays] at h
          exact ih h

/-- A scan that is not endless gets to its result in some number of turns. -/
theorem exists_scanWithin {c : Cover text}
    (h : scanFrom (Supply.direct g) g stack pos c ≠ .error .endless) :
    ∃ n, scanWithin (Supply.direct g) g n stack pos c
      = some <$> scanFrom (Supply.direct g) g stack pos c := by
  fun_induction scanFrom (Supply.direct g) g stack pos c with
  | case1 stack pos c ih =>
    cases hmove : nextMove (Supply.direct g) g stack pos with
    | error e =>
      refine ⟨1, ?_⟩
      rw [scanWithin, hmove]
      rfl
    | ok mv? =>
      rw [hmove] at h
      cases mv? with
      | none =>
        refine ⟨1, ?_⟩
        rw [scanWithin, hmove]
        rfl
      | some mv =>
        by_cases hstays : mv.stays = true
        · simp only [bind, Except.bind, dif_pos hstays] at h
          exact absurd rfl h
        · simp only [bind, Except.bind, dif_neg hstays] at h ⊢
          obtain ⟨n, hn⟩ := ih mv hstays h
          refine ⟨n + 1, ?_⟩
          rw [scanWithin, hmove]
          exact hn

/-- **A scan is endless if no number of turns is enough for it.** -/
theorem endless_iff {c : Cover text} :
    scanFrom (Supply.direct g) g stack pos c = .error .endless
      ↔ ∀ n, scanWithin (Supply.direct g) g n stack pos c = .ok none := by
  constructor
  · exact scanWithin_of_endless
  · intro h
    by_contra hends
    obtain ⟨n, hn⟩ := exists_scanWithin hends
    rw [h n] at hn
    cases hscan : scanFrom (Supply.direct g) g stack pos c <;> rw [hscan] at hn <;> cases hn

end Endless

/-- **A scan comes to an end**, as long as no rule bears the number that marks closing matches. Its
moves are turns. Whatever the searches answer, there are only so many turns one after the other, and
only so many that take no text at one position; a scan that is given one turn more gets to its
result, and is not endless. -/
theorem scan_terminates (g : Grammar) (hsize : g.rules.size ≤ closingMark) (text : String) :
    (∀ (supply : Supply (Except ScanError)) (stack : Stack) (pos : text.Pos)
      (mv : Move g stack pos), nextMove supply g stack pos = .ok (some mv) →
      Turn g ⟨stack, pos⟩ ⟨mv.after, mv.next⟩) ∧
    (∀ (n : Nat) (a b : Standpoint text), Turns g n a b →
      n ≤ a.stack.depth + (2 * g.regionCount + 2) * (a.pos.remainingBytes + 1)) ∧
    (∀ (n : Nat) (a b : Standpoint text), Turns g n a b → b.pos = a.pos →
      n ≤ Move.standing g a.stack a.pos) ∧
    (∀ (m : Type → Type) [Monad m] [LawfulMonad m] (supply : Supply m) (stack : Stack) (n : Nat),
      stack.depth + (2 * g.regionCount + 2) * (text.utf8ByteSize + 1) < n →
      scanWithin supply g n stack text.startPos {}
        = some <$> scanFrom supply g stack text.startPos {}) ∧
    ∀ stack : Stack, g.tokenizeFrom text stack ≠ .error .endless := by
  have hmarks := Grammar.marks_eq_false hsize
  have bounded (a : Standpoint text) : turnsLeft g a
      ≤ a.stack.depth + (2 * g.regionCount + 2) * (a.pos.remainingBytes + 1) := turnsLeft_le g a
  have getsThere (m : Type → Type) [Monad m] [LawfulMonad m] (supply : Supply m) (stack : Stack)
      (n : Nat) (h : stack.depth + (2 * g.regionCount + 2) * (text.utf8ByteSize + 1) < n) :
      scanWithin supply g n stack text.startPos {}
        = some <$> scanFrom supply g stack text.startPos {} := by
    have hbound := bounded ⟨stack, text.startPos⟩
    have hbytes : text.startPos.remainingBytes = text.utf8ByteSize := by
      simp [String.Pos.remainingBytes_eq]
    rw [hbytes] at hbound
    exact scanWithin_eq_scanFrom hmarks supply (Nat.lt_of_le_of_lt hbound h) {}
  refine ⟨fun supply stack pos mv h => turn_of_nextMove h, fun n a b h => ?_,
    fun n a b h hpos => h.le_standing hmarks hpos, getsThere, fun stack hendless => ?_⟩
  · exact Nat.le_trans (h.le_turnsLeft hmarks) (bounded a)
  · have hscan : scanFrom (Supply.direct g) g stack text.startPos {} = .error .endless := by
      rcases bind_eq_error hendless with h | ⟨_, _, h⟩
      · exact h
      · cases h
    have hresult := getsThere (Except ScanError) (Supply.direct g) stack _ (Nat.lt_succ_self _)
    rw [scanWithin_of_endless hscan, hscan] at hresult
    cases hresult

end

/-- A grammar whose one region opens and closes before an `a`, without taking text. -/
def lookaheadGrammar : Grammar where
  name := "lookahead"
  displayName := none
  description := none
  scopeName := "text"
  scope := ⟨["text"]⟩
  fileTypes := []
  firstLine := none
  patterns := #["(?=a)", "(?=a)"]
  rules := #[
    .container { id := 0, entries := [.rule 1] },
    .region {
      id := 1, scope := some ⟨["region"]⟩, opening := 0, openingCaptures := []
      closing := 1, closingIsTemplate := false, closingCaptures := []
      closingFirst := false, entries := [] }]
  repository := {}

/-- The region opens where the scan stands, in one of at most eight turns and in the only one that
takes no text. -/
theorem scan_terminates_lookahead :
    let g := lookaheadGrammar
    let start := "a".startPos
    g.rules.size ≤ closingMark ∧ (∃ mv : Move g g.initialStack start,
      nextMove (Supply.direct g) g g.initialStack start = .ok (some mv)
      ∧ Turns g 1 ⟨g.initialStack, start⟩ ⟨mv.after, mv.next⟩ ∧ 1 ≤ 0 + (2 * 1 + 2) * (1 + 1)
      ∧ mv.next = start ∧ 1 ≤ Move.standing g g.initialStack start) ∧
    scanWithin (Supply.direct g) g 9 g.initialStack start {}
      = some <$> scanFrom (Supply.direct g) g g.initialStack start {} := by
  intro g start
  have hsize : g.rules.size ≤ closingMark := by decide
  obtain ⟨isTurn, bounded, boundedHere, getsThere, _⟩ := scan_terminates g hsize "a"
  have moves : (nextMove (Supply.direct g) g g.initialStack start).toOption.map
      (·.map fun mv => mv.next.offset.byteIdx) = some (some 0) := by cbv
  refine ⟨hsize, ?_, getsThere _ _ _ 9 (by decide)⟩
  cases hmove : nextMove (Supply.direct g) g g.initialStack start with
  | error e => simp [hmove, Except.toOption] at moves
  | ok mv =>
    cases mv with
    | none => simp [hmove, Except.toOption] at moves
    | some mv =>
      have hnext : mv.next = start :=
        String.Pos.ext (String.Pos.Raw.ext (by simpa [hmove, Except.toOption, start] using moves))
      have turns := Turns.head (isTurn _ _ _ mv hmove) (.refl _)
      exact ⟨mv, rfl, turns, bounded 1 _ _ turns, hnext, boundedHere 1 _ _ turns hnext⟩

/-! ## A table with too many rules -/

def blankRule : Source.Rule := {}

/-- A rule that matches before an `a` without taking text. -/
def lookaheadRule : Source.Rule := { single := some "(?=a)" }

/-- So many blank rules, and one that matches behind them in the table. -/
def crowdedSource (n : Nat) : Source.Grammar where
  name := "t"
  scopeName := "source.t"
  rules := List.replicate n blankRule ++ [lookaheadRule]

def crowdedEntries (n : Nat) : List Entry := (List.range' 1 n).map .rule ++ [.rule (n + 1)]

def crowdedLast (n : Nat) : Rule :=
  .span { id := n + 1, scope := none, pattern := 0, captures := [] }

def crowdedGrammar (n : Nat) : Grammar where
  name := "t"
  displayName := none
  description := none
  scopeName := "source.t"
  scope := ⟨["source", "t"]⟩
  fileTypes := []
  firstLine := none
  patterns := #["(?=a)"]
  rules := #[.container { id := 0, entries := crowdedEntries n }] ++ Array.replicate n .inert
    ++ #[crowdedLast n]
  repository := {}

theorem size_crowdedGrammar (n : Nat) : (crowdedGrammar n).rules.size = n + 2 := by
  simp [crowdedGrammar]
  omega

theorem inert_crowdedGrammar {n id : Nat} (hfirst : 1 ≤ id) (hlast : id ≤ n) :
    (crowdedGrammar n).rules[id]? = some .inert := by
  obtain ⟨i, rfl⟩ := Nat.exists_eq_add_of_le' hfirst
  simp only [crowdedGrammar, Array.append_assoc]
  rw [Array.getElem?_append_right (by simp)]
  simp only [List.size_toArray, List.length_cons, List.length_nil, Nat.zero_add,
    Nat.add_sub_cancel]
  rw [Array.getElem?_append_left (by simpa using hlast)]
  simp only [Array.getElem?_replicate, if_pos (Nat.lt_of_succ_le hlast)]

theorem last_crowdedGrammar (n : Nat) :
    (crowdedGrammar n).rules[n + 1]? = some (crowdedLast n) := by
  simp only [crowdedGrammar]
  rw [Array.getElem?_append_right (by simp; omega)]
  simp [Nat.add_comm]

/-- Entries that stand for rules without any effect have no active patterns. -/
theorem Grammar.activeFrom_inert {g : Grammar} {ids : List RuleId}
    (h : ∀ id ∈ ids, g.rules[id]? = some .inert) (visited : List RuleId) (es : List Entry) :
    g.activeFrom visited (ids.map .rule ++ es) = g.activeFrom visited es := by
  induction ids with
  | nil => rfl
  | cons id ids ih =>
    have hid := h id List.mem_cons_self
    rw [List.map_cons, List.cons_append, activeFrom_cons]
    simp only [target?, hid]
    exact ih fun other hother => h other (List.mem_cons_of_mem _ hother)

theorem active_crowdedGrammar (n : Nat) :
    (crowdedGrammar n).active rootRule = [(n + 1, "(?=a)")] := by
  have hentries : (crowdedGrammar n).entries rootRule = crowdedEntries n := by
    simp [Grammar.entries, crowdedGrammar, rootRule, Rule.entries]
  have hinert : ∀ id ∈ List.range' 1 n, (crowdedGrammar n).rules[id]? = some .inert := by
    intro id hid
    obtain ⟨hfirst, hlast⟩ := List.mem_range'_1.mp hid
    exact inert_crowdedGrammar hfirst (by omega)
  unfold Grammar.active
  rw [hentries, crowdedEntries, Grammar.activeFrom_inert hinert, Grammar.activeFrom_cons]
  simp only [Grammar.target?, last_crowdedGrammar, crowdedLast, Grammar.activeFrom]
  rfl

theorem dangling?_crowdedGrammar (n : Nat) : (crowdedGrammar n).dangling? = none := by
  unfold Grammar.dangling?
  rw [List.findSome?_eq_none_iff]
  intro e he
  obtain ⟨rule, hrule, he⟩ := List.mem_flatMap.mp he
  simp only [crowdedGrammar, Array.toList_append, Array.toList_replicate, List.mem_append,
    List.mem_singleton, List.mem_replicate] at hrule
  rcases hrule with (rfl | ⟨_, rfl⟩) | rfl
  · simp only [Rule.entries, crowdedEntries, List.mem_append, List.mem_map,
      List.mem_singleton] at he
    rcases he with ⟨id, _, rfl⟩ | rfl <;> rfl
  · cases he
  · cases he

theorem Tables.setRule_reserve (t : Tables) (r : Rule) :
    t.reserve.setRule t.rules.size r = { t with rules := t.rules.push r } := by
  have hset : (t.rules.push .inert).setIfInBounds t.rules.size r = t.rules.push r := by
    apply Array.ext'
    simp
  simp only [reserve, setRule, hset]

theorem compileRule_blankRule (definitions : NameMap String) (t : Tables) :
    compileRule definitions blankRule t = .ok (t.rules.size, t.reserve) := by
  rw [compileRule]
  rfl

theorem compileRule_lookaheadRule (t : Tables) :
    compileRule {} lookaheadRule t = .ok (t.rules.size, {
      patterns := t.patterns.push "(?=a)"
      rules := t.rules.push (.span {
        id := t.rules.size, scope := none, pattern := t.patterns.size, captures := [] }) }) := by
  have hprepare : preparePattern {} "(?=a)" = .ok ⟨"(?=a)", 0⟩ := by cbv
  have hset := (t.addPattern "(?=a)").setRule_reserve (.span {
    id := t.rules.size, scope := none, pattern := t.patterns.size, captures := [] })
  rw [compileRule]
  simp only [lookaheadRule, hprepare, bind, Except.bind]
  exact congrArg (fun t' => Except.ok (t.rules.size, t')) hset

theorem compileRules_replicate (definitions : NameMap String) (n : Nat)
    (raws : List Source.Rule) (t : Tables) :
    compileRules definitions (List.replicate n blankRule ++ raws) t
      = (compileRules definitions raws { t with rules := t.rules ++ Array.replicate n .inert }).map
          fun (entries, t') => ((List.range' t.rules.size n).map .rule ++ entries, t') := by
  induction n generalizing t with
  | zero => cases hraws : compileRules definitions raws t <;> simp [Except.map, hraws]
  | succ n ih =>
    have hblank : blankRule.included = none := rfl
    have hrules : t.rules.push .inert ++ Array.replicate n .inert
        = t.rules ++ Array.replicate (n + 1) Rule.inert := by
      apply Array.ext'
      simp [List.replicate_succ]
    rw [List.replicate_succ, List.cons_append, compileRules]
    simp only [hblank, compileRule_blankRule, bind, Except.bind, ih, Tables.reserve, hrules,
      Array.size_push]
    cases compileRules definitions raws
      { t with rules := t.rules ++ Array.replicate (n + 1) Rule.inert } with
    | error e => rfl
    | ok result => simp [List.range'_succ, Except.map, pure, Except.pure]

/-- The grammar compiles, however many rules there are. -/
theorem ofSource_crowdedSource (n : Nat) :
    Grammar.ofSource (crowdedSource n) = .ok (crowdedGrammar n) := by
  have hexpand : Pattern.Variable.expandTable (crowdedSource n).definitions = .ok {} := by cbv
  have hlast (t : Tables) : compileRules {} [lookaheadRule] t
      = .ok ([.rule t.rules.size], {
          patterns := t.patterns.push "(?=a)"
          rules := t.rules.push (.span {
            id := t.rules.size, scope := none, pattern := t.patterns.size,
            captures := [] }) }) := by
    have hincluded : lookaheadRule.included = none := rfl
    rw [compileRules]
    simp only [hincluded, compileRule_lookaheadRule, bind, Except.bind]
    rw [compileRules]
    rfl
  have hrules : compileRules {} (crowdedSource n).rules ({} : Tables).reserve
      = .ok (crowdedEntries n, {
          patterns := #["(?=a)"]
          rules := #[.inert] ++ Array.replicate n .inert ++ #[crowdedLast n] }) := by
    have hsize : (#[Rule.inert] ++ Array.replicate n Rule.inert).size = n + 1 := by simp; omega
    unfold crowdedSource
    rw [compileRules_replicate, hlast]
    simp [Tables.reserve, Except.map, hsize, crowdedEntries, crowdedLast]
  have hroot : (#[Rule.inert] ++ Array.replicate n Rule.inert
        ++ #[crowdedLast n]).setIfInBounds rootRule (.container ⟨0, crowdedEntries n⟩)
      = (crowdedGrammar n).rules := by
    apply Array.ext'
    simp [crowdedGrammar, rootRule]
  have hrepository (t : Tables) :
      compileRepository {} (crowdedSource n).repository.entries t = .ok ([], t) := rfl
  have hscope : Scope.ofString (crowdedSource n).scopeName = ⟨["source", "t"]⟩ := by cbv
  have hnone := dangling?_crowdedGrammar n
  unfold Grammar.ofSource
  simp only [hexpand, hrules, bind, Except.bind, pure, Except.pure, hrepository, Tables.setRule,
    hscope]
  simp only [rootRule] at hroot ⊢
  simp only [hroot]
  split
  · rename_i r hdangling
    cases hnone.symm.trans hdangling
  · rfl

/-- Where no region is open, nothing closes when the marked rule matches. -/
theorem nextMove_marked {g : Grammar} {text : String} {stack : Stack} {pos : text.Pos}
    {active : Regex.Set RuleId} (hactive : g.activeSet stack.rule = .ok active) {id : RuleId}
    {m : Regex.Found text pos} (hfind : (stack.targets active).find pos = some (.rule id, m))
    (hmarks : g.marks id = true) (hframes : stack.frames = []) :
    nextMove (Supply.direct g) g stack pos = .ok (some (.closesNone m hframes)) := by
  have hsupply : (Supply.direct g).active stack.rule = .ok active := hactive
  obtain ⟨scope, frames⟩ := stack
  cases hframes
  unfold nextMove
  rw [hsupply]
  simp only [bind, Except.bind, hfind, respond_marked _ _ hmarks]
  rfl

/-- A turn that leads back to where it began can be repeated. -/
theorem Turn.repeated {g : Grammar} {text : String} {a : Standpoint text} (h : Turn g a a) :
    ∀ n, Turns g n a a := by
  intro n
  induction n with
  | zero => exact .refl a
  | succ n ih => exact .head h ih

/-- Before an `a`, the last of 65535 rules matches without taking it. -/
theorem find_crowded {active : Regex.Set RuleId}
    (h : compileTogether [((65535 : RuleId), "(?=a)")] = .ok active) :
    ∃ m : Regex.Found "a" "a".startPos,
      ((crowdedGrammar 65534).initialStack.targets active).find "a".startPos
          = some (.rule 65535, m)
        ∧ m.span.stop = "a".startPos := by
  have hfound : (compileTogether [((65535 : RuleId), "(?=a)")]).toOption.map (fun active =>
      ((Stack.targets ⟨⟨["source", "t"]⟩, []⟩ active).find "a".startPos).map fun answer =>
        (answer.1.rule?, answer.2.span.stop.offset.byteIdx)) = some (some (some 65535, 0)) := by
    cbv
  rw [h] at hfound
  obtain ⟨⟨target, m⟩, hfind, heq⟩ := Option.map_eq_some_iff.mp (Option.some.inj hfound)
  obtain ⟨hrule, hstop⟩ := Prod.mk.inj heq
  cases target with
  | closing => cases hrule
  | rule id =>
    cases Option.some.inj hrule
    exact ⟨m, hfind, String.Pos.ext (String.Pos.Raw.ext hstop)⟩

/-- Behind 65534 blank rules, the rule bears the number that marks closing matches. Where no region
is open nothing closes, so it matches again and again at the start of the text. -/
theorem tokenize_crowded :
    let g := crowdedGrammar 65534
    let start : Standpoint "a" := ⟨g.initialStack, "a".startPos⟩
    Grammar.ofSource (crowdedSource 65534) = .ok g ∧ g.rules.size = 65536
      ∧ (∀ n, Turns g n start start)
      ∧ (∀ n, scanWithin (Supply.direct g) g n start.stack start.pos {} = .ok none)
      ∧ (Tokenizer.new g).run (Tokenizer.tokenize "a") = .error .endless := by
  intro g start
  have hsize : g.rules.size = 65536 := size_crowdedGrammar 65534
  have hmarks : g.marks 65535 = true := by simp [Grammar.marks, hsize, closingMark]
  have hset : g.activeSet rootRule = compileTogether [(65535, "(?=a)")] :=
    congrArg compileTogether (active_crowdedGrammar 65534)
  obtain ⟨active, hcompiled⟩ :
      ∃ active, compileTogether [((65535 : RuleId), "(?=a)")] = .ok active :=
    exists_ok_of_toBool (by cbv)
  have hactive := hset.trans hcompiled
  obtain ⟨m, hfind, hstop⟩ := find_crowded hcompiled
  have hmove := nextMove_marked hactive hfind hmarks rfl
  have hstays : (Move.closesNone m rfl : Move g start.stack start.pos).stays = true := by
    simp [Move.stays, hstop]
  have hturn : Turn g start start := by
    have hnext := (Move.next_of_stays hstays).1
    have hturn := turn_of_nextMove hmove
    rwa [hnext] at hturn
  have hgoesOn := scanWithin_of_stays hmove hstays
  refine ⟨ofSource_crowdedSource 65534, hsize, hturn.repeated, fun n => hgoesOn n {}, ?_⟩
  have hendless := endless_iff.mpr fun n => hgoesOn n {}
  rw [Tokenizer.gives_tokenize]
  unfold Grammar.tokenize Grammar.tokenizeFrom scan
  rw [hendless]
  rfl

end ScopedText
