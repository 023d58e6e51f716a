import ScopedText.Regex.Answers

/-!
# Searching

The engine that this library brings along: expressions are matched by backtracking, at one position
after the other.
-/

namespace ScopedText.Regex

variable {text : String} {origin : text.Pos}

def matchAt (r : Regex) (p : text.Pos) (hp : origin ≤ p) : Option (Found text origin) :=
  let first : State text p := ⟨p, String.Pos.le_refl p, List.replicate r.groups none⟩
  r.expr.run origin first fun st => some ⟨⟨p, st.pos, st.le⟩, hp, st.groups⟩

/-- A match begins at its position and has a place for each group. -/
theorem of_matchAt {r : Regex} {p : text.Pos} {hp : origin ≤ p} {m : Found text origin}
    (h : r.matchAt p hp = some m) : m.span.start = p ∧ m.captured.length = r.groups := by
  have hset (groups : Groups text) (n : Nat) (span : Option (Span text)) :
      groups.length = r.groups → (groups.set n span).length = r.groups := by simp
  obtain ⟨st, hst, hm⟩ := exists_of_run r.expr hset (List.length_replicate ..) h
  cases hm
  exact ⟨rfl, hst⟩

def find (r : Regex) (origin : text.Pos) : Option (Found text origin) :=
  firstFrom (fun p hp => r.matchAt p hp) origin (String.Pos.le_refl origin)

instance : Engine where
  Compiled := Regex
  compile := compile
  groups := groups
  matchAt r _ _ p hp := r.matchAt p hp
  find r _ origin := r.find origin
  findAmong regexes _ origin :=
    firstFrom (fun p hp => firstAmong (matchAt · p hp) regexes) origin (String.Pos.le_refl origin)

instance : LawfulEngine where
  start_matchAt h := (of_matchAt h).1
  length_matchAt h := (of_matchAt h).2
  find_leftmost _ _ _ := rfl
  findAmong_leftmost _ _ _ := rfl

end ScopedText.Regex
