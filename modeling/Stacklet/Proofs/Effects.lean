/-!
Inversion of computations with a state and errors, one lemma for each way of
putting them together. A successful sequence splits into its two successful
parts and the state between them.
-/

namespace Stacklet

variable {ε σ α β : Type}

theorem pure_eq_ok {a b : α} {s t : σ} :
    (pure a : EStateM ε σ α) s = .ok b t ↔ a = b ∧ s = t := by
  constructor
  · intro same
    cases same
    exact ⟨rfl, rfl⟩
  · rintro ⟨rfl, rfl⟩
    rfl

theorem bind_of_ok {x : EStateM ε σ α} {f : α → EStateM ε σ β} {s t : σ} {a : α}
    (first : x s = .ok a t) : (x >>= f) s = f a t := by
  change EStateM.bind x f s = _
  rw [EStateM.bind, first]

theorem bind_of_error {x : EStateM ε σ α} {f : α → EStateM ε σ β} {s t : σ} {e : ε}
    (first : x s = .error e t) : (x >>= f) s = .error e t := by
  change EStateM.bind x f s = _
  rw [EStateM.bind, first]

theorem bind_eq_ok {x : EStateM ε σ α} {f : α → EStateM ε σ β} {s u : σ} {b : β} :
    (x >>= f) s = .ok b u ↔ ∃ a t, x s = .ok a t ∧ f a t = .ok b u := by
  constructor
  · intro both
    cases first : x s with
    | error e t =>
      rw [bind_of_error first] at both
      cases both
    | ok a t =>
      rw [bind_of_ok first] at both
      exact ⟨a, t, rfl, both⟩
  · rintro ⟨a, t, first, second⟩
    rw [bind_of_ok first, second]

theorem bind_eq_error {x : EStateM ε σ α} {f : α → EStateM ε σ β} {s u : σ} {e : ε} :
    (x >>= f) s = .error e u ↔ x s = .error e u ∨ ∃ a t, x s = .ok a t ∧ f a t = .error e u := by
  cases first : x s with
  | error e' t =>
    rw [bind_of_error first]
    simp
  | ok a t =>
    rw [bind_of_ok first]
    constructor
    · exact fun failed => .inr ⟨a, t, rfl, failed⟩
    · rintro (impossible | ⟨_, _, same, failed⟩)
      · cases impossible
      · cases same
        exact failed

theorem pure_ne_error {e : ε} {s t : σ} {a : α} :
    (pure a : EStateM ε σ α) s ≠ .error e t := by
  intro same
  cases same

theorem throw_eq_error {e e' : ε} {s t : σ} :
    (throw e : EStateM ε σ α) s = .error e' t ↔ e = e' ∧ s = t := by
  constructor
  · intro same
    cases same
    exact ⟨rfl, rfl⟩
  · rintro ⟨rfl, rfl⟩
    rfl

theorem get_bind {f : σ → EStateM ε σ β} {s : σ} : (get >>= f) s = f s s := rfl

theorem modify_bind {g : σ → σ} {f : PUnit → EStateM ε σ β} {s : σ} :
    (modify g >>= f) s = f ⟨⟩ (g s) := rfl

theorem throw_ne_ok {e : ε} {s t : σ} {a : α} :
    (throw e : EStateM ε σ α) s ≠ .ok a t := by
  intro same
  cases same

end Stacklet
