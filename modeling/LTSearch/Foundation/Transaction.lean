/-
# LTSearch.Foundation.Transaction -- statements that may fail, inside all-or-nothing transactions

A procedure is an `EStateM` computation on a database state.  Every statement it runs may be made
to fail by its caller (`orFault`), and a block of statements may be wrapped in a transaction
(`transaction`), whose opening and whose commit may fail as well.  The one fact the rest rests on is
that a transaction which does not return leaves no trace: it is `Atomic`, whatever its body does.
-/
import Mathlib

namespace LTSearch.Foundation

variable {ε σ α β : Type}

/-- An `EStateM` computation that leaves the state as it found it whenever it fails. -/
def Atomic (x : EStateM ε σ α) : Prop :=
  ∀ s e s', x s = .error e s' → s' = s

/-- Run `x`, unless the engine fails the statement with `fault` first. -/
def orFault (fault : Option ε) (x : EStateM ε σ α) : EStateM ε σ α := fun s =>
  match fault with
  | some e => .error e s
  | none => x s

/-- `BEGIN; body; COMMIT`.  Whatever stops the block also rolls it back.  The fault of the commit
may depend on what the body returned, as the texts of some commits do. -/
def transaction (openFault : Option ε) (commitFault : α → Option ε) (body : EStateM ε σ α) :
    EStateM ε σ α := fun s =>
  match openFault with
  | some e => .error e s
  | none =>
      match body s with
      | .error e _ => .error e s
      | .ok a s' =>
          match commitFault a with
          | some e => .error e s
          | none => .ok a s'

/-! ## Inversion -/

/-- A sequence returned exactly when both halves did, the second from where the first ended. -/
theorem estate_bind_eq_ok {x : EStateM ε σ α} {f : α → EStateM ε σ β} {s s'' : σ} {b : β} :
    (x >>= f) s = .ok b s'' ↔ ∃ a s', x s = .ok a s' ∧ f a s' = .ok b s'' := by
  change (EStateM.bind x f s = _) ↔ _
  unfold EStateM.bind
  cases hx : x s with
  | ok a s' =>
      constructor
      · intro h
        exact ⟨a, s', rfl, h⟩
      · rintro ⟨_, _, h, hf⟩
        cases h
        exact hf
  | error e s' => simp

theorem estate_map_eq_ok {x : EStateM ε σ α} {g : α → Unit} {s s' : σ} :
    (g <$> x) s = .ok () s' ↔ ∃ a, x s = .ok a s' := by
  change (EStateM.map g x s = _) ↔ _
  unfold EStateM.map
  cases hx : x s with
  | ok a s₁ => simp
  | error e s₁ => simp

theorem orFault_eq_ok {fault : Option ε} {x : EStateM ε σ α} {s s' : σ} {a : α} :
    orFault fault x s = .ok a s' ↔ fault = none ∧ x s = .ok a s' := by
  cases fault <;> simp [orFault]

theorem transaction_eq_ok {openFault : Option ε} {commitFault : α → Option ε}
    {body : EStateM ε σ α} {s s' : σ} {a : α} :
    transaction openFault commitFault body s = .ok a s' ↔
      openFault = none ∧ commitFault a = none ∧ body s = .ok a s' := by
  cases openFault with
  | some e => simp [transaction]
  | none =>
      cases hb : body s with
      | error e s₁ => simp [transaction, hb]
      | ok b s₁ =>
          cases hc : commitFault b with
          | some e =>
              simp only [transaction, hb, hc, reduceCtorEq, true_and, false_iff, not_and]
              intro hnone heq
              cases heq
              simp [hc] at hnone
          | none =>
              simp only [transaction, hb, hc, true_and]
              constructor
              · intro h
                cases h
                exact ⟨hc, rfl⟩
              · exact And.right

/-! ## Atomicity -/

theorem atomic_transaction (openFault : Option ε) (commitFault : α → Option ε)
    (body : EStateM ε σ α) : Atomic (transaction openFault commitFault body) := by
  intro s e s' h
  unfold transaction at h
  cases openFault with
  | some e => cases h; rfl
  | none =>
      cases hb : body s with
      | error e s₁ =>
          simp only [hb] at h
          cases h
          rfl
      | ok a s₁ =>
          cases hc : commitFault a with
          | some e =>
              simp only [hb, hc] at h
              cases h
              rfl
          | none => simp [hb, hc] at h

/-- A single statement that cannot fail by itself is its own transaction. -/
theorem atomic_orFault {fault : Option ε} {x : EStateM ε σ α} (hx : Atomic x) :
    Atomic (orFault fault x) := by
  intro s e s' h
  cases fault with
  | some e => cases h; rfl
  | none => exact hx s e s' h

theorem atomic_modifyGet (f : σ → α × σ) : Atomic (modifyGet f : EStateM ε σ α) := by
  intro s e s' h
  cases h

/-- Dropping the answer of an atomic computation keeps it atomic. -/
theorem Atomic.map {x : EStateM ε σ α} (hx : Atomic x) (g : α → β) : Atomic (g <$> x) := by
  intro s e s' h
  change EStateM.map g x s = _ at h
  unfold EStateM.map at h
  cases hxs : x s with
  | ok a s₁ => simp [hxs] at h
  | error e₁ s₁ =>
      simp only [hxs] at h
      cases h
      exact hx s _ _ hxs

/-- Checks before an atomic step keep it atomic. -/
theorem Atomic.bind_left {x : EStateM ε σ α} {f : α → EStateM ε σ β}
    (hx : ∀ s a s', x s = .ok a s' → s' = s) (hxe : Atomic x) (hf : ∀ a, Atomic (f a)) :
    Atomic (x >>= f) := by
  intro s e s'' h
  change EStateM.bind x f s = _ at h
  unfold EStateM.bind at h
  cases hxs : x s with
  | error e₁ s₁ =>
      simp only [hxs] at h
      cases h
      exact hxe s _ _ hxs
  | ok a s₁ =>
      simp only [hxs] at h
      rw [hf a s₁ e s'' h, hx s a s₁ hxs]

end LTSearch.Foundation
