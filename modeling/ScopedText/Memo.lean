/-!
# Memoised functions

A `Memo f` remembers results of `f`, a function that may fail. Only successes are remembered, and
the table holds nothing but what `f` returns, so asking it is the same as calling `f`.
-/

namespace ScopedText

/-- Results of a function that may fail. -/
structure Memo {α β ε : Type} (f : α → Except ε β) where
  entries : List (α × β) := []
  sound : ∀ e ∈ entries, f e.1 = .ok e.2 := by simp

namespace Memo

variable {α β ε : Type} {f : α → Except ε β}

def find? [DecidableEq α] (m : Memo f) (a : α) : Option β :=
  (m.entries.find? fun e => e.1 = a).map (·.2)

def add (m : Memo f) (a : α) (b : β) (h : f a = .ok b) : Memo f where
  entries := (a, b) :: m.entries
  sound := by
    intro e he
    rcases List.mem_cons.mp he with rfl | he
    · exact h
    · exact m.sound e he

/-- The result for an argument, remembered or computed. -/
def ask [DecidableEq α] (m : Memo f) (a : α) : Except ε β × Memo f :=
  match m.find? a with
  | some b => (.ok b, m)
  | none => match h : f a with
    | .ok b => (.ok b, m.add a b h)
    | .error e => (.error e, m)

theorem eq_ok_of_find? [DecidableEq α] {m : Memo f} {a : α} {b : β} (h : m.find? a = some b) :
    f a = .ok b := by
  obtain ⟨e, he, rfl⟩ := Option.map_eq_some_iff.mp h
  have hsound := m.sound e (List.mem_of_find?_eq_some he)
  have hkey := List.find?_some he
  simp only [decide_eq_true_eq] at hkey
  rwa [hkey] at hsound

@[simp] theorem ask_fst [DecidableEq α] (m : Memo f) (a : α) : (m.ask a).1 = f a := by
  unfold ask
  split
  · rename_i b h
    exact (eq_ok_of_find? h).symm
  · split <;> rename_i h <;> exact h.symm

end Memo

end ScopedText
