import ScopedText.Regex.Matching

/-!
# Where answers come from

An expression makes up no answers: what `Expr.run` gives, the continuation gave at some state
(`exists_of_run`). A condition on the groups that holds at the start, and that no capture breaks,
holds at that state.
-/

namespace ScopedText.Regex

variable {text : String} {origin : text.Pos} {I : Groups text → Prop}

section Steps

variable {start : text.Pos} {β : Type} {b : β} {k : State text start → Option β}
  {step : State text start → (State text start → Option β) → Option β}
  (hstep : ∀ st (k : State text start → Option β), I st.groups → step st k = some b →
    ∃ st', I st'.groups ∧ k st' = some b)

include hstep

theorem exists_of_times {n : Nat} {st : State text start} (hst : I st.groups)
    (h : times step n st k = some b) : ∃ st', I st'.groups ∧ k st' = some b := by
  induction n generalizing st with
  | zero => exact ⟨st, hst, h⟩
  | succ n ih =>
    obtain ⟨st', hst', h⟩ := hstep st _ hst h
    exact ih hst' h

theorem exists_of_upTo {greedy : Bool} {n : Nat} {st : State text start} (hst : I st.groups)
    (h : upTo step greedy n st k = some b) : ∃ st', I st'.groups ∧ k st' = some b := by
  induction n generalizing st with
  | zero => exact ⟨st, hst, h⟩
  | succ n ih =>
    have again (h : (step st fun st' => if st'.pos = st.pos then k st'
        else upTo step greedy n st' k) = some b) : ∃ st', I st'.groups ∧ k st' = some b := by
      obtain ⟨st', hst', h⟩ := hstep st _ hst h
      split at h
      · exact ⟨st', hst', h⟩
      · exact ih hst' h
    unfold upTo at h
    split at h
    · split at h
      · exact again (by rwa [← Option.some.inj h])
      · exact ⟨st, hst, h⟩
    · split at h
      · exact ⟨st, hst, by rwa [← Option.some.inj h]⟩
      · exact again h

end Steps

theorem exists_of_backFrom {β : Type} {attempt : text.Pos → Option β} {n : Nat} {p : text.Pos}
    {b : β} (h : backFrom attempt n p = some b) : ∃ q, attempt q = some b := by
  fun_induction backFrom attempt n p with
  | case1 p => exact ⟨p, h⟩
  | case2 n p b' hb => exact ⟨p, hb.trans h⟩
  | case3 => cases h
  | case4 n p hnone hstart ih => exact ih h

/-- What the expression gives, the continuation gave at a state whose groups satisfy the
condition. -/
def Expr.Passes (origin : text.Pos) (I : Groups text → Prop) (e : Expr) : Prop :=
  ∀ {start : text.Pos} {β : Type} {st : State text start} {k : State text start → Option β}
    {b : β}, I st.groups → e.run origin st k = some b → ∃ st', I st'.groups ∧ k st' = some b

namespace Expr

theorem passes_one (s : CharSet) : (one s).Passes origin I := by
  intro start β st k b hst h
  simp only [run] at h
  split at h
  · cases h
  · split at h
    · refine ⟨_, ?_, h⟩
      exact hst
    · cases h

theorem passes_anchor (a : Anchor) : (anchor a).Passes origin I := by
  intro start β st k b hst h
  simp only [run] at h
  split at h
  · exact ⟨st, hst, h⟩
  · cases h

theorem passes_backref (ns : List Nat) (ignoreCase : Bool) :
    (backref ns ignoreCase).Passes origin I := by
  intro start β st k b hst h
  simp only [run] at h
  split at h
  · refine ⟨_, ?_, h⟩
    exact hst
  · cases h

namespace Passes

variable {e f : Expr} (he : e.Passes origin I)

include he

theorem group (hset : ∀ groups n span, I groups → I (groups.set n span)) (n : Nat) :
    (Expr.group n e).Passes origin I := by
  intro start β st k b hst h
  obtain ⟨st', hst', h⟩ := @he _ _ ⟨st.pos, String.Pos.le_refl _, st.groups⟩ _ _ hst h
  refine ⟨_, ?_, h⟩
  exact hset _ _ _ hst'

theorem seq (hf : f.Passes origin I) : (Expr.seq e f).Passes origin I := by
  intro start β st k b hst h
  obtain ⟨st', hst', h⟩ := he hst h
  exact hf hst' h

theorem alt (hf : f.Passes origin I) : (Expr.alt e f).Passes origin I := by
  intro start β st k b hst h
  simp only [run] at h
  split at h
  · exact he hst (by rwa [← Option.some.inj h])
  · exact hf hst h

theorem repeated (low : Nat) (high : Option Nat) (greedy : Bool) :
    (Expr.repeated low high greedy e).Passes origin I := by
  intro start β st k b hst h
  obtain ⟨st', hst', h⟩ := exists_of_times (fun st k hst h => he hst h) hst h
  exact exists_of_upTo (fun st k hst h => he hst h) hst' h

theorem atomic : (Expr.atomic e).Passes origin I := by
  intro start β st k b hst h
  simp only [run] at h
  split at h
  · rename_i st₁ hinside
    obtain ⟨st', hst', hsome⟩ := he hst hinside
    cases hsome
    exact ⟨st₁, hst', h⟩
  · cases h

theorem ahead (negative : Bool) : (Expr.ahead negative e).Passes origin I := by
  intro start β st k b hst h
  simp only [run] at h
  split at h
  · rename_i st₁ hinside
    obtain ⟨st', hst', hsome⟩ := he hst hinside
    cases hsome
    refine ⟨_, ?_, h⟩
    exact hst'
  · exact ⟨_, hst, h⟩
  · cases h

theorem behind (negative : Bool) : (Expr.behind negative e).Passes origin I := by
  intro start β st k b hst h
  simp only [run] at h
  split at h
  · rename_i groups hinside
    obtain ⟨p, hinside⟩ := exists_of_backFrom hinside
    obtain ⟨st', hst', hgroups⟩ := @he _ _ ⟨p, String.Pos.le_refl p, st.groups⟩ _ _ hst hinside
    split at hgroups
    · cases hgroups
      refine ⟨_, ?_, h⟩
      exact hst'
    · cases hgroups
  · exact ⟨_, hst, h⟩
  · cases h

end Passes

end Expr

/-- An expression makes up no answers. -/
theorem exists_of_run (e : Expr) (hset : ∀ groups n span, I groups → I (groups.set n span)) :
    e.Passes origin I := by
  induction e with
  | empty => exact fun hst h => ⟨_, hst, h⟩
  | one s => exact Expr.passes_one s
  | anchor a => exact Expr.passes_anchor a
  | backref ns ignoreCase => exact Expr.passes_backref ns ignoreCase
  | group n e ih => exact ih.group hset n
  | seq e f ihe ihf => exact ihe.seq ihf
  | alt e f ihe ihf => exact ihe.alt ihf
  | repeated low high greedy e ih => exact ih.repeated low high greedy
  | atomic e ih => exact ih.atomic
  | ahead negative e ih => exact ih.ahead negative
  | behind negative e ih => exact ih.behind negative

end ScopedText.Regex
