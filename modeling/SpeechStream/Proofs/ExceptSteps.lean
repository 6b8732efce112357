/-!
Steps of computations that can fault.

A computation in `Except` that succeeds has run each of its steps to success. These lemmas take a
successful bind, `pure`, or a guarded step apart, so that a proof about one of the model's
functions peels its steps one by one with `obtain` and never unfolds `bind`.
-/

set_option autoImplicit false

namespace SpeechStream

theorem Except.bind_eq_ok {ε α β : Type} {x : Except ε α} {f : α → Except ε β} {b : β} :
    x >>= f = .ok b ↔ ∃ a, x = .ok a ∧ f a = .ok b := by
  cases x <;> simp [bind, Except.bind]

theorem Except.pure_eq_ok {ε α : Type} {a b : α} : (pure a : Except ε α) = .ok b ↔ a = b := by
  simp [pure, Except.pure]

theorem Except.ite_bind_eq_ok {ε α β : Type} {c : Prop} [Decidable c] {a b : Except ε α}
    {k : α → Except ε β} {r : β} (h : (if c then a >>= k else b >>= k) = .ok r) :
    ∃ v, (if c then a else b) = .ok v ∧ k v = .ok r := by
  by_cases hc : c
  · rw [if_pos hc] at h ⊢
    exact Except.bind_eq_ok.1 h
  · rw [if_neg hc] at h ⊢
    exact Except.bind_eq_ok.1 h

theorem Except.ite_throw_eq_ok {ε β : Type} {c : Prop} [Decidable c] {e : ε}
    {k : PUnit → Except ε β} {t : Except ε β} {r : β} (h : (if c then throw e >>= k else t) = .ok r) :
    ¬ c ∧ t = .ok r := by
  by_cases hc : c
  · rw [if_pos hc] at h
    cases h
  · rw [if_neg hc] at h
    exact ⟨hc, h⟩

end SpeechStream
