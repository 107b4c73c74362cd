/-
# LTSearch.Foundation.SideBySide -- two kinds of programs on one world

Programs of two kinds share a world.  Each kind has its own operations and its own view of the world: on
that view its operations do what its machine says, and the operations of the other kind do nothing that
its contract minds.  Then both contracts hold together of the shared world, and a program that is safe
on the machine of its kind is safe there, without another look at it.
-/
import LTSearch.Foundation.Interleaving

namespace LTSearch.Foundation

variable {S₁ S₂ : Signature} {World₁ World₂ World Choice Thread₁ Thread₂ α : Type}

/-- The operations of both kinds. -/
abbrev Signature.sum (S₁ S₂ : Signature) : Signature where
  Op := S₁.Op ⊕ S₂.Op
  Ans
    | .inl op => S₁.Ans op
    | .inr op => S₂.Ans op

namespace Prog

/-- A program of the first kind. -/
def inl : Prog S₁ α → Prog (S₁.sum S₂) α
  | done a => done a
  | call op next => call (S := S₁.sum S₂) (.inl op) fun answer => (next answer).inl

/-- A program of the second kind. -/
def inr : Prog S₂ α → Prog (S₁.sum S₂) α
  | done a => done a
  | call op next => call (S := S₁.sum S₂) (.inr op) fun answer => (next answer).inr

end Prog

variable {M₁ : Machine S₁ World₁ Choice Thread₁} {M₂ : Machine S₂ World₂ Choice Thread₂}

/-- From `w` to `w'` nothing has happened that a contract minds, whoever did it. -/
structure Contract.Unharmed (K₁ : Contract M₁) (w w' : World₁) : Prop where
  inv : K₁.inv w → K₁.inv w'
  change : K₁.change w w'
  frame : ∀ t, K₁.frame t w w'

/-- Each kind's operations are those of its machine on its view, and leave the other kind unharmed. -/
structure SideBySide (K₁ : Contract M₁) (K₂ : Contract M₂)
    (M : Machine (S₁.sum S₂) World Choice (Thread₁ ⊕ Thread₂)) (left : World → World₁)
    (right : World → World₂) : Prop where
  left_apply : ∀ t op c w, M₁.apply t op c (left w) =
    ((M.apply (.inl t) (.inl op) c w).1, left (M.apply (.inl t) (.inl op) c w).2)
  left_other : ∀ t op c w, K₂.Unharmed (right w) (right (M.apply (.inl t) (.inl op) c w).2)
  right_apply : ∀ t op c w, M₂.apply t op c (right w) =
    ((M.apply (.inr t) (.inr op) c w).1, right (M.apply (.inr t) (.inr op) c w).2)
  right_other : ∀ t op c w, K₁.Unharmed (left w) (left (M.apply (.inr t) (.inr op) c w).2)

namespace SideBySide

variable {K₁ : Contract M₁} {K₂ : Contract M₂} {M : Machine (S₁.sum S₂) World Choice (Thread₁ ⊕ Thread₂)}
  {left : World → World₁} {right : World → World₂}

/-- Both contracts, each on its view. -/
def contract (_ : SideBySide K₁ K₂ M left right) : Contract M where
  inv w := K₁.inv (left w) ∧ K₂.inv (right w)
  change w w' := K₁.change (left w) (left w') ∧ K₂.change (right w) (right w')
  frame
    | .inl t, w, w' => K₁.frame t (left w) (left w')
    | .inr t, w, w' => K₂.frame t (right w) (right w')
  allowed
    | .inl t, .inl op, c, w => K₁.allowed t op c (left w)
    | .inr t, .inr op, c, w => K₂.allowed t op c (right w)
    | _, _, _, _ => True
  change_refl w := ⟨K₁.change_refl _, K₂.change_refl _⟩
  change_trans h h' := ⟨K₁.change_trans h.1 h'.1, K₂.change_trans h.2 h'.2⟩
  frame_refl
    | .inl t, _ => K₁.frame_refl t _
    | .inr t, _ => K₂.frame_refl t _
  frame_trans {t _ _ _} h h' := by
    cases t with
    | inl t => exact K₁.frame_trans h h'
    | inr t => exact K₂.frame_trans h h'

variable (h : SideBySide K₁ K₂ M left right)

theorem safe_inl {t : Thread₁} {p : Prog S₁ α} {Q : α → World₁ → Prop} {w : World}
    (hp : K₁.Safe t p Q (left w)) : h.contract.Safe (.inl t) p.inl (fun a w' => Q a (left w')) w := by
  induction p generalizing w with
  | done a => exact fun w' hrely hinv => hp (left w') ⟨hrely.1.1, hrely.2⟩ hinv.1
  | call op next ih =>
      intro w' hrely hinv c hc
      obtain ⟨hkeeps, hnext⟩ := hp (left w') ⟨hrely.1.1, hrely.2⟩ hinv.1 c hc
      have hother := h.left_other t op c w'
      rw [h.left_apply] at hkeeps hnext
      refine ⟨⟨⟨hkeeps.inv, hother.inv hinv.2⟩, ⟨hkeeps.change, hother.change⟩, ?_⟩, ih _ hnext⟩
      rintro (t' | t') hne
      · exact hkeeps.frame t' fun heq => hne (congrArg Sum.inl heq)
      · exact hother.frame t'

theorem safe_inr {t : Thread₂} {p : Prog S₂ α} {Q : α → World₂ → Prop} {w : World}
    (hp : K₂.Safe t p Q (right w)) : h.contract.Safe (.inr t) p.inr (fun a w' => Q a (right w')) w := by
  induction p generalizing w with
  | done a => exact fun w' hrely hinv => hp (right w') ⟨hrely.1.2, hrely.2⟩ hinv.2
  | call op next ih =>
      intro w' hrely hinv c hc
      obtain ⟨hkeeps, hnext⟩ := hp (right w') ⟨hrely.1.2, hrely.2⟩ hinv.2 c hc
      have hother := h.right_other t op c w'
      rw [h.right_apply] at hkeeps hnext
      refine ⟨⟨⟨hother.inv hinv.1, hkeeps.inv⟩, ⟨hother.change, hkeeps.change⟩, ?_⟩, ih _ hnext⟩
      rintro (t' | t') hne
      · exact hother.frame t'
      · exact hkeeps.frame t' fun heq => hne (congrArg Sum.inr heq)

/-- If the programs of both kinds are safe on their machines, every run keeps both contracts and every
finished program meets its postcondition. -/
theorem run_safe [DecidableEq Thread₁] [DecidableEq Thread₂] {c : Config (S₁.sum S₂) World (Thread₁ ⊕ Thread₂) α}
    {Q₁ : Thread₁ → α → World₁ → Prop} {Q₂ : Thread₂ → α → World₂ → Prop} (p₁ : Thread₁ → Prog S₁ α)
    (p₂ : Thread₂ → Prog S₂ α) (hthreads : c.threads = Sum.elim (fun t => (p₁ t).inl) fun t => (p₂ t).inr)
    (hinv₁ : K₁.inv (left c.world)) (hinv₂ : K₂.inv (right c.world))
    (hsafe₁ : ∀ t, K₁.Safe t (p₁ t) (Q₁ t) (left c.world))
    (hsafe₂ : ∀ t, K₂.Safe t (p₂ t) (Q₂ t) (right c.world)) (turns : List ((Thread₁ ⊕ Thread₂) × Choice))
    (hallowed : h.contract.Allowed c turns) :
    K₁.inv (left (run M.step c turns).world) ∧ K₂.inv (right (run M.step c turns).world) ∧
      (∀ t a, (run M.step c turns).threads (.inl t) = .done a → Q₁ t a (left (run M.step c turns).world)) ∧
      ∀ t a, (run M.step c turns).threads (.inr t) = .done a → Q₂ t a (right (run M.step c turns).world) := by
  have hsafe : ∀ t, h.contract.Safe t (c.threads t)
      (Sum.elim (fun t a w => Q₁ t a (left w)) (fun t a w => Q₂ t a (right w)) t) c.world := by
    rw [hthreads]
    rintro (t | t)
    · exact h.safe_inl (hsafe₁ t)
    · exact h.safe_inr (hsafe₂ t)
  have hstart : h.contract.inv c.world := ⟨hinv₁, hinv₂⟩
  obtain ⟨hinv, -, hsafe'⟩ := Contract.run_safe hstart hsafe turns hallowed
  refine ⟨hinv.1, hinv.2, fun t a hdone => ?_, fun t a hdone => ?_⟩
  · have hpost := Contract.post_of_done (hsafe' (.inl t)) hdone hinv
    exact hpost
  · have hpost := Contract.post_of_done (hsafe' (.inr t)) hdone hinv
    exact hpost

end SideBySide

end LTSearch.Foundation
