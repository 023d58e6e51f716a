import ScopedText.Proofs.Outcome
import ScopedText.Scan

/-!
# The path of a scan

A scan is a sequence of moves. `Path` is that sequence as data, so that a fact about a whole scan is
an induction over moves:

* `findPath` collects the moves of a scan, and `scanFrom_eq_findPath` says that a scan is nothing
  but the tokens and the regions its path leads to;
* `followed_of_findPath`: every move of the path is the answer to the search at its place.
-/

namespace ScopedText

variable [Engine]

/-- The moves of a scan from a position with some regions open, up to where no pattern matches. -/
inductive Path (g : Grammar) {text : String} : Stack → text.Pos → Type
  | done {stack : Stack} {pos : text.Pos} : Path g stack pos
  | move {stack : Stack} {pos : text.Pos} (mv : Move g stack pos)
      (rest : Path g mv.after mv.next) : Path g stack pos

namespace Path

variable {g : Grammar} {text : String}

def last {stack : Stack} {pos : text.Pos} : Path g stack pos → Stack
  | done => stack
  | move _ rest => rest.last

/-- The tokens at the end, after those that are there already. -/
def cover {stack : Stack} {pos : text.Pos} : Path g stack pos → Cover text → Cover text
  | done, c => c.extend text.endPos stack.scopes
  | move mv rest, c => rest.cover (mv.extend c)

/-- Each move is what the search at its place asks for and does not stay there, and the last search
finds nothing. -/
def Followed (supply : Supply (Except ScanError)) {stack : Stack} {pos : text.Pos} :
    Path g stack pos → Prop
  | done => nextMove supply g stack pos = .ok none
  | move mv rest =>
    nextMove supply g stack pos = .ok (some mv) ∧ mv.stays = false ∧ rest.Followed supply

end Path

variable {m : Type → Type} [Monad m]

theorem Supply.never_ne_ok {α : Type} (supply : Supply (Except ScanError)) {a : α} :
    supply.never ≠ .ok a := by
  intro h
  obtain ⟨impossible, _, _⟩ := bind_eq_ok h
  cases impossible

def findPath (supply : Supply m) (g : Grammar) {text : String} (stack : Stack) (pos : text.Pos) :
    m (Path g stack pos) := do
  match ← nextMove supply g stack pos with
  | none => return .done
  | some mv =>
    if _h : mv.stays then supply.never
    else return .move mv (← findPath supply g mv.after mv.next)
termination_by (pos.remainingBytes, Move.standing g stack pos)
decreasing_by exact mv.measure_lt (Bool.eq_false_iff.mpr _h)

theorem scanFrom_eq_findPath [LawfulMonad m] (supply : Supply m) (g : Grammar) {text : String}
    (stack : Stack) (pos : text.Pos) (c : Cover text) :
    scanFrom supply g stack pos c
      = (fun path => (path.cover c, path.last)) <$> findPath supply g stack pos := by
  fun_induction scanFrom supply g stack pos c with
  | case1 stack pos c ih =>
    rw [findPath, map_bind]
    congr 1
    funext mv
    cases mv with
    | none => simp [Path.cover, Path.last]
    | some mv =>
      by_cases hstays : mv.stays
      · simp [hstays, Supply.map_never]
      · simp [hstays, ih mv hstays, Path.cover, Path.last]

/-- The path that a scan of a whole text takes gives its tokens and its final stack. -/
theorem scan_eq_findPath [LawfulMonad m] (supply : Supply m) (g : Grammar) (text : String)
    (stack : Stack) :
    scan supply g text stack
      = (fun path => ((path.cover {}).tokens, path.last))
          <$> findPath supply g stack text.startPos := by
  simp [scan, scanFrom_eq_findPath]

theorem followed_of_findPath {supply : Supply (Except ScanError)} {g : Grammar} {text : String}
    {stack : Stack} {pos : text.Pos} {path : Path g stack pos}
    (h : findPath supply g stack pos = .ok path) : path.Followed supply := by
  fun_induction findPath supply g stack pos with
  | case1 stack pos ih =>
    obtain ⟨answer, hanswer, h⟩ := bind_eq_ok h
    cases answer with
    | none =>
      cases h
      exact hanswer
    | some mv =>
      dsimp only at h
      split at h
      · exact absurd h supply.never_ne_ok
      · obtain ⟨rest, hrest, h⟩ := bind_eq_ok h
        cases h
        exact ⟨hanswer, Bool.eq_false_iff.mpr ‹_›, ih mv ‹_› hrest⟩

/-- A scan that succeeds took a path. -/
theorem exists_path_of_scan {supply : Supply (Except ScanError)} {g : Grammar} {text : String}
    {stack stack' : Stack} {tokens : List (Token text)}
    (h : scan supply g text stack = .ok (tokens, stack')) :
    ∃ path : Path g stack text.startPos, findPath supply g stack text.startPos = .ok path
      ∧ tokens = (path.cover {}).tokens ∧ stack' = path.last := by
  rw [scan_eq_findPath] at h
  obtain ⟨path, hpath, heq⟩ := map_eq_ok h
  cases heq
  exact ⟨path, hpath, rfl, rfl⟩

end ScopedText
