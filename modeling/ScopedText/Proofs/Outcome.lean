/-!
# Computations that may fail

How the result of a computation in `Except` is taken apart, and how two computations are compared:
they agree if they fail with the same error, or succeed with results that are related.
-/

namespace ScopedText

variable {ε α β : Type}

/-- A chain of two computations succeeds only if both do. -/
theorem bind_eq_ok {x : Except ε α} {f : α → Except ε β} {b : β} (h : x >>= f = .ok b) :
    ∃ a, x = .ok a ∧ f a = .ok b := by
  cases x with
  | error e => cases h
  | ok a => exact ⟨a, rfl, h⟩

/-- A chain of two computations fails if the first one does, or the second one. -/
theorem bind_eq_error {x : Except ε α} {f : α → Except ε β} {e : ε} (h : x >>= f = .error e) :
    x = .error e ∨ ∃ a, x = .ok a ∧ f a = .error e := by
  cases x with
  | error e' =>
    cases h
    exact .inl rfl
  | ok a => exact .inr ⟨a, rfl, h⟩

theorem map_eq_ok {x : Except ε α} {f : α → β} {b : β} (h : f <$> x = .ok b) :
    ∃ a, x = .ok a ∧ f a = b := by
  cases x with
  | error e => cases h
  | ok a => exact ⟨a, rfl, Except.ok.inj h⟩

theorem exists_ok_of_toBool {x : Except ε α} (h : x.toBool = true) : ∃ a, x = .ok a := by
  cases x with
  | error e => cases h
  | ok a => exact ⟨a, rfl⟩

/-- Both computations fail with the same error, or both succeed and the results are related. -/
inductive Agree (R : α → β → Prop) : Except ε α → Except ε β → Prop
  | error (e : ε) : Agree R (.error e) (.error e)
  | ok {a : α} {b : β} (h : R a b) : Agree R (.ok a) (.ok b)

namespace Agree

variable {γ δ : Type} {R : α → β → Prop} {S : γ → δ → Prop} {x : Except ε α} {y : Except ε β}

theorem bind (h : Agree R x y) {f : α → Except ε γ} {f' : β → Except ε δ}
    (hf : ∀ a b, x = .ok a → R a b → Agree S (f a) (f' b)) : Agree S (x >>= f) (y >>= f') := by
  cases h with
  | error e => exact .error e
  | ok h => exact hf _ _ rfl h

/-- The same computation on both sides goes first. -/
theorem bind_self {z : Except ε α} {f : α → Except ε γ} {f' : α → Except ε δ}
    (hf : ∀ a, z = .ok a → Agree S (f a) (f' a)) : Agree S (z >>= f) (z >>= f') := by
  cases z with
  | error e => exact .error e
  | ok a => exact hf a rfl

theorem exists_ok_iff (h : Agree R x y) : (∃ a, x = .ok a) ↔ ∃ b, y = .ok b := by
  cases h with
  | error e => simp
  | ok h => simp

theorem mono {R' : α → β → Prop} (h : Agree R x y) (hR : ∀ a b, R a b → R' a b) :
    Agree R' x y := by
  cases h with
  | error e => exact .error e
  | ok h => exact .ok (hR _ _ h)

theorem refl {R : α → α → Prop} (hR : ∀ a, R a a) (x : Except ε α) : Agree R x x := by
  cases x with
  | error e => exact .error e
  | ok a => exact .ok (hR a)

theorem eq {x y : Except ε α} (h : Agree Eq x y) : x = y := by
  cases h with
  | error e => rfl
  | ok h => rw [h]

end Agree

end ScopedText
