/-
# LTSearch.Foundation.Interleaving -- programs taking turns, and rely-guarantee

A machine says what each operation does to the shared world.  All nondeterminism (what fails, what a
clock shows, what a generator draws) is in the choice given with a step, so a run is a fold over a
schedule: who moves, and with which choice.  A program that is not scheduled any more has crashed.

A contract fixes what the programs promise each other: an invariant of the world, a relation that
every step of every program respects, and for each program what the others leave alone.  `Safe` is
a program's proof against a contract, one operation at a time: wherever the others may have taken
the world, the operation keeps the contract and the rest is safe again.  If all programs are safe,
every run keeps the invariant and every finished program meets its postcondition (`Contract.run`).
-/
import LTSearch.Foundation.Prog
import LTSearch.Foundation.Run

namespace LTSearch.Foundation

/-- What the operations do: the answer and the next world, under a choice made outside. -/
structure Machine (S : Signature) (World Choice Thread : Type) where
  apply : Thread → (op : S.Op) → Choice → World → S.Ans op × World

/-- The world and what is left of every program. -/
structure Config (S : Signature) (World Thread α : Type) where
  world : World
  threads : Thread → Prog S α

variable {S : Signature} {World Choice Thread : Type} {α β ε : Type}

/-- One operation of one thread; a finished thread does nothing. -/
def Machine.step [DecidableEq Thread] (M : Machine S World Choice Thread)
    (c : Config S World Thread α) (turn : Thread × Choice) : Config S World Thread α :=
  match c.threads turn.1 with
  | .done _ => c
  | .call op next =>
      let result := M.apply turn.1 op turn.2 c.world
      { world := result.2, threads := Function.update c.threads turn.1 (next result.1) }

/-- One turn of a thread that may have to wait: where its operation is not ready, nothing happens. -/
def Machine.stepWaiting [DecidableEq Thread] (M : Machine S World Choice Thread)
    (ready : Thread → S.Op → World → Bool) (c : Config S World Thread α) (turn : Thread × Choice) :
    Config S World Thread α :=
  match c.threads turn.1 with
  | .done _ => c
  | .call op _ => if ready turn.1 op c.world then M.step c turn else c

/-! ## What a run does -/

section Runs

variable [DecidableEq Thread] (M : Machine S World Choice Thread)

/-- Every step of the run is one that `ok` allows where it is made. -/
def Machine.Allows (ok : Thread → S.Op → Choice → World → Prop) (c : Config S World Thread α) :
    List (Thread × Choice) → Prop
  | [] => True
  | turn :: rest =>
      (match c.threads turn.1 with
        | .done _ => True
        | .call op _ => ok turn.1 op turn.2 c.world) ∧ Machine.Allows ok (M.step c turn) rest

/-- The operations that the run asks for, in order. -/
def Machine.asked (c : Config S World Thread α) : List (Thread × Choice) → List S.Op
  | [] => []
  | turn :: rest =>
      match c.threads turn.1 with
      | .done _ => Machine.asked c rest
      | .call op _ => op :: Machine.asked (M.step c turn) rest

variable {M} {ok ok' : Thread → S.Op → Choice → World → Prop} {c : Config S World Thread α}
  {turns rest : List (Thread × Choice)}

theorem Machine.allows_append :
    M.Allows ok c (turns ++ rest) ↔ M.Allows ok c turns ∧ M.Allows ok (run M.step c turns) rest := by
  induction turns generalizing c with
  | nil => simp [Machine.Allows]
  | cons turn turns ih => simp only [List.cons_append, Machine.Allows, ih, run_cons, and_assoc]

theorem Machine.Allows.mono (h : M.Allows ok c turns)
    (himp : ∀ t op w, ∀ turn ∈ turns, ok t op turn.2 w → ok' t op turn.2 w) : M.Allows ok' c turns := by
  induction turns generalizing c with
  | nil => trivial
  | cons turn turns ih =>
      obtain ⟨hturn, hrest⟩ := h
      refine ⟨?_, ih hrest fun t op w turn' hmem => himp t op w turn' (List.mem_cons_of_mem _ hmem)⟩
      split
      · trivial
      · rename_i op next hcall
        rw [hcall] at hturn
        exact himp _ _ _ _ List.mem_cons_self hturn

/-- A condition on the operations alone may be read off those that the run asks for. -/
theorem Machine.allows_of_asked {good : S.Op → Prop} (hgood : ∀ t op choice w, good op → ok t op choice w)
    (h : ∀ op ∈ M.asked c turns, good op) : M.Allows ok c turns := by
  induction turns generalizing c with
  | nil => trivial
  | cons turn turns ih =>
      unfold Machine.asked at h
      unfold Machine.Allows
      split at h
      · rename_i a hdone
        have hstep : M.step c turn = c := by
          unfold Machine.step
          rw [hdone]
        rw [hstep]
        exact ⟨trivial, ih h⟩
      · exact ⟨hgood _ _ _ _ (h _ List.mem_cons_self), ih fun op' hop' => h op' (List.mem_cons_of_mem _ hop')⟩

end Runs

/-- What programs on one machine promise each other. -/
structure Contract (M : Machine S World Choice Thread) where
  inv : World → Prop
  change : World → World → Prop
  frame : Thread → World → World → Prop
  allowed : Thread → S.Op → Choice → World → Prop
  change_refl : ∀ w, change w w
  change_trans : ∀ {w₁ w₂ w₃}, change w₁ w₂ → change w₂ w₃ → change w₁ w₃
  frame_refl : ∀ t w, frame t w w
  frame_trans : ∀ {t w₁ w₂ w₃}, frame t w₁ w₂ → frame t w₂ w₃ → frame t w₁ w₃

namespace Contract

variable {M : Machine S World Choice Thread} (K : Contract M)

/-- What thread `t` may see happen between two of its operations. -/
def Rely (t : Thread) (w w' : World) : Prop := K.change w w' ∧ K.frame t w w'

/-- What an operation of thread `t` must keep. -/
structure Keeps (t : Thread) (w w' : World) : Prop where
  inv : K.inv w'
  change : K.change w w'
  frame : ∀ t', t' ≠ t → K.frame t' w w'

theorem rely_refl (t : Thread) (w : World) : K.Rely t w w :=
  ⟨K.change_refl w, K.frame_refl t w⟩

variable {K}

theorem Rely.trans {t : Thread} {w₁ w₂ w₃ : World} (h : K.Rely t w₁ w₂) (h' : K.Rely t w₂ w₃) :
    K.Rely t w₁ w₃ :=
  ⟨K.change_trans h.1 h'.1, K.frame_trans h.2 h'.2⟩

theorem Keeps.refl {t : Thread} {w : World} (h : K.inv w) : K.Keeps t w w :=
  ⟨h, K.change_refl w, fun t' _ => K.frame_refl t' w⟩

/-- An operation that left the world alone keeps every contract. -/
theorem Keeps.of_eq {t : Thread} {w w' : World} (h : K.inv w) (heq : w' = w) : K.Keeps t w w' := by
  subst heq
  exact .refl h

theorem Keeps.rely {t t' : Thread} {w w' : World} (h : K.Keeps t w w') (hne : t' ≠ t) :
    K.Rely t' w w' :=
  ⟨h.change, h.frame t' hne⟩

variable (K)

/-- From the world `w` on, the program keeps the contract and ends with `Q`. -/
def Safe (t : Thread) : Prog S α → (α → World → Prop) → World → Prop
  | .done a, Q, w => ∀ w', K.Rely t w w' → K.inv w' → Q a w'
  | .call op next, Q, w => ∀ w', K.Rely t w w' → K.inv w' → ∀ c, K.allowed t op c w' →
      K.Keeps t w' (M.apply t op c w').2 ∧
        Safe t (next (M.apply t op c w').1) Q (M.apply t op c w').2

/-- A property of worlds that the other threads leave true. -/
def Stable (t : Thread) (P : World → Prop) : Prop :=
  ∀ w w', K.Rely t w w' → K.inv w' → P w → P w'

end Contract

namespace Contract.Safe

variable {M : Machine S World Choice Thread} {K : Contract M} {t : Thread}

/-- Being safe is stable. -/
theorem weaken {p : Prog S α} {Q : α → World → Prop} {w w' : World} (h : K.Safe t p Q w)
    (hrely : K.Rely t w w') : K.Safe t p Q w' := by
  cases p with
  | done a => exact fun w'' h'' hinv => h w'' (hrely.trans h'') hinv
  | call op next => exact fun w'' h'' hinv => h w'' (hrely.trans h'') hinv

/-- It is enough to be safe from where the others may have taken the world. -/
theorem of_forall {p : Prog S α} {Q : α → World → Prop} {w : World}
    (h : ∀ w', K.Rely t w w' → K.inv w' → K.Safe t p Q w') : K.Safe t p Q w := by
  cases p with
  | done a => exact fun w' hrely hinv => h w' hrely hinv w' (K.rely_refl t w') hinv
  | call op next => exact fun w' hrely hinv => h w' hrely hinv w' (K.rely_refl t w') hinv

theorem done {a : α} {Q : α → World → Prop} {w : World}
    (h : ∀ w', K.Rely t w w' → K.inv w' → Q a w') : K.Safe t (.done a) Q w := h

theorem mono {p : Prog S α} {Q Q' : α → World → Prop} {w : World} (h : K.Safe t p Q w)
    (himp : ∀ a w', K.inv w' → Q a w' → Q' a w') : K.Safe t p Q' w := by
  induction p generalizing w with
  | done a => exact fun w' hrely hinv => himp a w' hinv (h w' hrely hinv)
  | call op next ih =>
      intro w' hrely hinv c hc
      exact ⟨(h w' hrely hinv c hc).1, ih _ (h w' hrely hinv c hc).2⟩

/-- A postcondition holds wherever the others take the world after the end. -/
theorem stable_post {p : Prog S α} {Q : α → World → Prop} {w : World} (h : K.Safe t p Q w) :
    K.Safe t p (fun a w' => ∀ w'', K.Rely t w' w'' → K.inv w'' → Q a w'') w := by
  induction p generalizing w with
  | done a => exact fun w' hrely _ w'' hrely' hinv => h w'' (hrely.trans hrely') hinv
  | call op next ih =>
      intro w' hrely hinv c hc
      exact ⟨(h w' hrely hinv c hc).1, ih _ (h w' hrely hinv c hc).2⟩

theorem bind {p : Prog S α} {f : α → Prog S β} {Q : β → World → Prop} {w : World}
    (h : K.Safe t p (fun a w' => K.Safe t (f a) Q w') w) : K.Safe t (p >>= f) Q w := by
  induction p generalizing w with
  | done a => exact of_forall fun w' hrely hinv => h w' hrely hinv
  | call op next ih =>
      intro w' hrely hinv c hc
      exact ⟨(h w' hrely hinv c hc).1, ih _ (h w' hrely hinv c hc).2⟩

/-- A result put into another form. -/
theorem map {p : Prog S α} {f : α → β} {Q : β → World → Prop} {w : World}
    (h : K.Safe t p (fun a => Q (f a)) w) : K.Safe t (f <$> p) Q w :=
  bind (h.stable_post.mono fun _ _ _ hQ => hQ)

/-- Two proofs about one program may be put together. -/
theorem and {p : Prog S α} {Q Q' : α → World → Prop} {w : World} (h : K.Safe t p Q w)
    (h' : K.Safe t p Q' w) : K.Safe t p (fun a w' => Q a w' ∧ Q' a w') w := by
  induction p generalizing w with
  | done a => exact fun w' hrely hinv => ⟨h w' hrely hinv, h' w' hrely hinv⟩
  | call op next ih =>
      intro w' hrely hinv c hc
      obtain ⟨hkeeps, hnext⟩ := h w' hrely hinv c hc
      exact ⟨hkeeps, ih _ hnext (h' w' hrely hinv c hc).2⟩

/-- What no step of the contract undoes may be carried past any safe program. -/
theorem carry {p : Prog S α} {Q : α → World → Prop} {P : World → Prop} {w : World}
    (hP : ∀ {w w'}, K.change w w' → P w → P w') (hw : P w) (h : K.Safe t p Q w) :
    K.Safe t p (fun a w' => P w' ∧ Q a w') w := by
  induction p generalizing w with
  | done a => exact fun w' hrely hinv => ⟨hP hrely.1 hw, h w' hrely hinv⟩
  | call op next ih =>
      intro w' hrely hinv c hc
      obtain ⟨hkeeps, hnext⟩ := h w' hrely hinv c hc
      exact ⟨hkeeps, ih _ (hP hkeeps.change (hP hrely.1 hw)) hnext⟩

/-- One operation, under an assertion that the others keep. -/
theorem ask {op : S.Op} {P : World → Prop} {Q : S.Ans op → World → Prop} {w : World}
    (hstable : K.Stable t P) (hw : P w)
    (h : ∀ w' c, K.inv w' → P w' → K.allowed t op c w' →
      K.Keeps t w' (M.apply t op c w').2 ∧
        ∀ w'', K.Rely t (M.apply t op c w').2 w'' → K.inv w'' → Q (M.apply t op c w').1 w'') :
    K.Safe t (Prog.ask op) Q w :=
  fun w' hrely hinv c hc => h w' c hinv (hstable w w' hrely hinv hw) hc

/-- One operation and what follows its answer, under an assertion that the others keep. -/
theorem call {op : S.Op} {next : S.Ans op → Prog S α} {P : World → Prop} {Q : α → World → Prop}
    {w : World} (hstable : K.Stable t P) (hw : P w)
    (h : ∀ w' c, K.inv w' → P w' → K.allowed t op c w' →
      K.Keeps t w' (M.apply t op c w').2 ∧
        K.Safe t (next (M.apply t op c w').1) Q (M.apply t op c w').2) :
    K.Safe t (.call op next) Q w :=
  fun w' hrely hinv c hc => h w' c hinv (hstable w w' hrely hinv hw) hc

/-- What neither the others nor any operation of the program undo holds at its end. -/
theorem within {ops : S.Op → Prop} {p : Prog S α} {P : World → Prop} {w : World}
    (hp : p.Within ops) (hstable : K.Stable t P) (hw : P w)
    (hstep : ∀ op c w', ops op → K.inv w' → P w' → K.allowed t op c w' →
      K.Keeps t w' (M.apply t op c w').2 ∧ P (M.apply t op c w').2) :
    K.Safe t p (fun _ => P) w := by
  induction p generalizing w with
  | done a => exact fun w' hrely hinv => hstable w w' hrely hinv hw
  | call op next ih =>
      apply call hstable hw
      intro w' c hinv hP hc
      obtain ⟨hkeeps, hafter⟩ := hstep op c w' hp.1 hinv hP hc
      exact ⟨hkeeps, ih _ (hp.2 _) hafter⟩

/-- The frame rule: what neither the others nor the operations of the program undo is still there at
its end. -/
theorem along {ops : S.Op → Prop} {p : Prog S α} {P : World → Prop} {Q : α → World → Prop} {w : World}
    (hp : p.Within ops) (hstable : K.Stable t P) (hw : P w)
    (hstep : ∀ op c w', ops op → K.Keeps t w' (M.apply t op c w').2 → P w' → P (M.apply t op c w').2)
    (h : K.Safe t p Q w) : K.Safe t p (fun a w' => P w' ∧ Q a w') w := by
  induction p generalizing w with
  | done a => exact fun w' hrely hinv => ⟨hstable w w' hrely hinv hw, h w' hrely hinv⟩
  | call op next ih =>
      intro w' hrely hinv c hc
      obtain ⟨hkeeps, hnext⟩ := h w' hrely hinv c hc
      exact ⟨hkeeps, ih _ (hp.2 _) (hstep op c w' hp.1 hkeeps (hstable w w' hrely hinv hw)) hnext⟩

/-! ## Programs that may fail -/

/-- `Q` after a success, `E` after a failure. -/
def Outcome (Q : α → World → Prop) (E : ε → World → Prop) : Except ε α → World → Prop
  | .ok a => Q a
  | .error e => E e

variable {Q : α → World → Prop} {E : ε → World → Prop} {w : World}

theorem bindExcept {p : ExceptT ε (Prog S) α} {f : α → ExceptT ε (Prog S) β}
    {Q : β → World → Prop}
    (h : K.Safe t p.run (Outcome (fun a w' => K.Safe t (f a).run (Outcome Q E) w') E) w) :
    K.Safe t (p >>= f).run (Outcome Q E) w := by
  refine bind (h.stable_post.mono fun r w' hinv hr => ?_)
  cases r with
  | ok a => exact hr w' (K.rely_refl t w') hinv
  | error e => exact hr

theorem pureExcept {a : α} (h : ∀ w', K.Rely t w w' → K.inv w' → Q a w') :
    K.Safe t (pure a : ExceptT ε (Prog S) α).run (Outcome Q E) w := h

theorem throwExcept {e : ε} (h : ∀ w', K.Rely t w w' → K.inv w' → E e w') :
    K.Safe t (throw e : ExceptT ε (Prog S) α).run (Outcome Q E) w := h

/-- Go on after a part whose results do not matter, as long as both ways out find `P`. -/
theorem bindAny {p : ExceptT ε (Prog S) α} {f : α → ExceptT ε (Prog S) β} {P : World → Prop}
    {Q : β → World → Prop} (hp : K.Safe t p.run (fun _ => P) w)
    (hok : ∀ a w', K.inv w' → P w' → K.Safe t (f a).run (Outcome Q E) w')
    (herror : ∀ e w', K.inv w' → P w' → E e w') :
    K.Safe t (p >>= f).run (Outcome Q E) w := by
  refine bindExcept (hp.mono fun r w' hinv hP => ?_)
  cases r with
  | ok a => exact hok a w' hinv hP
  | error e => exact herror e w' hinv hP

/-- A check that asks for no operation. -/
theorem checkExcept {x : Except ε α}
    (hok : ∀ a, x = .ok a → ∀ w', K.Rely t w w' → K.inv w' → Q a w')
    (herror : ∀ e, x = .error e → ∀ w', K.Rely t w w' → K.inv w' → E e w') :
    K.Safe t (liftM x : ExceptT ε (Prog S) α).run (Outcome Q E) w := by
  cases x with
  | ok a => exact hok a rfl
  | error e => exact herror e rfl

/-- Go on after a check. -/
theorem bindCheck {x : Except ε α} {f : α → ExceptT ε (Prog S) β} {Q : β → World → Prop}
    (hok : ∀ a, x = .ok a → ∀ w', K.Rely t w w' → K.inv w' →
      K.Safe t (f a).run (Outcome Q E) w')
    (herror : ∀ e, x = .error e → ∀ w', K.Rely t w w' → K.inv w' → E e w') :
    K.Safe t ((liftM x : ExceptT ε (Prog S) α) >>= f).run (Outcome Q E) w :=
  bindExcept (checkExcept hok herror)

/-- A program that cannot fail, inside one that can. -/
theorem liftExcept {x : Prog S α} (h : K.Safe t x Q w) :
    K.Safe t (liftM x : ExceptT ε (Prog S) α).run (Outcome Q E) w :=
  bind (h.stable_post.mono fun _ _ _ hQ => hQ)

/-- An error put into other words. -/
theorem mapErrorExcept {ε' : Type} {f : ε → ε'} {x : ExceptT ε (Prog S) α} {E : ε' → World → Prop}
    (h : K.Safe t x.run (Outcome Q fun e => E (f e)) w) :
    K.Safe t (Except.mapError f <$> x.run : Prog S (Except ε' α)) (Outcome Q E) w := by
  refine bind (h.stable_post.mono fun r w' hinv hr => ?_)
  cases r with
  | ok a => exact hr
  | error e => exact hr

end Contract.Safe

namespace Contract

variable {M : Machine S World Choice Thread} (K : Contract M) [DecidableEq Thread]

/-- Every step of the run is allowed where it is made. -/
abbrev Allowed (c : Config S World Thread α) (turns : List (Thread × Choice)) : Prop :=
  M.Allows K.allowed c turns

variable {K}

/-- One step of one thread leaves all threads safe and the contract kept. -/
theorem safe_step {c : Config S World Thread α} {Q : Thread → α → World → Prop}
    (hinv : K.inv c.world) (hsafe : ∀ t, K.Safe t (c.threads t) (Q t) c.world)
    (turn : Thread × Choice)
    (hallowed : match c.threads turn.1 with
      | .done _ => True
      | .call op _ => K.allowed turn.1 op turn.2 c.world) :
    K.Keeps turn.1 c.world (M.step c turn).world ∧
      ∀ t, K.Safe t ((M.step c turn).threads t) (Q t) (M.step c turn).world := by
  obtain ⟨t, choice⟩ := turn
  unfold Machine.step
  have hthis := hsafe t
  cases hp : c.threads t with
  | done a => exact ⟨.refl hinv, hsafe⟩
  | call op next =>
      rw [hp] at hthis
      simp only [hp] at hallowed
      obtain ⟨hkeeps, hnext⟩ := hthis c.world (K.rely_refl t _) hinv choice hallowed
      refine ⟨hkeeps, fun t' => ?_⟩
      by_cases ht : t' = t
      · subst ht
        simpa using hnext
      · simpa [Function.update_of_ne ht] using (hsafe t').weaken (hkeeps.rely ht)

/-- The soundness of the rules: if all threads are safe, every run keeps the contract, and every
thread that has finished meets its postcondition. -/
theorem run_safe {c : Config S World Thread α} {Q : Thread → α → World → Prop}
    (hinv : K.inv c.world) (hsafe : ∀ t, K.Safe t (c.threads t) (Q t) c.world)
    (turns : List (Thread × Choice)) (hallowed : K.Allowed c turns) :
    K.inv (run M.step c turns).world ∧ K.change c.world (run M.step c turns).world ∧
      ∀ t, K.Safe t ((run M.step c turns).threads t) (Q t) (run M.step c turns).world := by
  induction turns generalizing c with
  | nil => exact ⟨hinv, K.change_refl _, hsafe⟩
  | cons turn rest ih =>
      obtain ⟨hkeeps, hnext⟩ := safe_step hinv hsafe turn hallowed.1
      obtain ⟨hinv', hchange, hsafe'⟩ := ih hkeeps.inv hnext hallowed.2
      exact ⟨hinv', K.change_trans hkeeps.change hchange, hsafe'⟩

omit [DecidableEq Thread] in
theorem post_of_done {t : Thread} {p : Prog S α} {Q : α → World → Prop} {w : World} {a : α}
    (h : K.Safe t p Q w) (hdone : p = .done a) (hinv : K.inv w) : Q a w := by
  subst hdone
  exact h w (K.rely_refl t w) hinv

/-- A contract without a condition on steps allows every run. -/
theorem allowed_of_forall (h : ∀ t op choice w, K.allowed t op choice w)
    (c : Config S World Thread α) (turns : List (Thread × Choice)) : K.Allowed c turns := by
  induction turns generalizing c with
  | nil => trivial
  | cons turn rest ih =>
      refine ⟨?_, ih _⟩
      split
      · trivial
      · exact h _ _ _ _

/-- All threads are safe, the contract is kept, and nothing has happened that it does not allow. -/
structure Kept (c₀ : World) (Q : Thread → α → World → Prop) (c : Config S World Thread α) : Prop where
  inv : K.inv c.world
  change : K.change c₀ c.world
  safe : ∀ t, K.Safe t (c.threads t) (Q t) c.world

/-- The rules are sound where an operation may have to wait, if what a thread waits for is what the
contract demands of the step. -/
theorem run_safe_waiting {ready : Thread → S.Op → World → Bool}
    (hready : ∀ t op choice w, ready t op w = true → K.allowed t op choice w)
    {c : Config S World Thread α} {Q : Thread → α → World → Prop}
    (hinv : K.inv c.world) (hsafe : ∀ t, K.Safe t (c.threads t) (Q t) c.world)
    (turns : List (Thread × Choice)) : Kept (K := K) c.world Q (run (M.stepWaiting ready) c turns) := by
  refine run_invariant (Kept c.world Q) (fun c' turn h => ?_) ⟨hinv, K.change_refl _, hsafe⟩ turns
  unfold Machine.stepWaiting
  split
  · exact h
  · rename_i op next hcall
    split
    · rename_i hop
      have hallowed : match c'.threads turn.1 with
          | .done _ => True
          | .call op _ => K.allowed turn.1 op turn.2 c'.world := by
        rw [hcall]
        exact hready _ _ _ _ hop
      obtain ⟨hkeeps, hnext⟩ := safe_step h.inv h.safe turn hallowed
      exact ⟨hkeeps.inv, K.change_trans h.change hkeeps.change, hnext⟩
    · exact h

end Contract

/-! ## A machine that keeps a record -/

/-- A machine whose world holds more than another's, and does the same to that part, has the same runs. -/
theorem Machine.run_forget {World' : Type} [DecidableEq Thread] {M : Machine S World Choice Thread}
    {M' : Machine S World' Choice Thread} (forget : World' → World)
    (hsame : ∀ t op choice w, M.apply t op choice (forget w) =
      ((M'.apply t op choice w).1, forget (M'.apply t op choice w).2))
    (c : Config S World' Thread α) (turns : List (Thread × Choice)) :
    run M.step ⟨forget c.world, c.threads⟩ turns =
      ⟨forget (run M'.step c turns).world, (run M'.step c turns).threads⟩ := by
  induction turns generalizing c with
  | nil => rfl
  | cons turn rest ih =>
      have hstep : M.step ⟨forget c.world, c.threads⟩ turn =
          ⟨forget (M'.step c turn).world, (M'.step c turn).threads⟩ := by
        unfold Machine.step
        cases hp : c.threads turn.1 with
        | done a => rfl
        | call op next => simp only [hsame]
      rw [run_cons, run_cons, hstep]
      exact ih (M'.step c turn)

/-! ## A program that nothing disturbs -/

/-- The program to its end, no other thread moving and every operation under the same choice. -/
def Machine.alone (M : Machine S World Choice Thread) (t : Thread) (choice : Choice) :
    Prog S α → World → α × World
  | .done a, w => (a, w)
  | .call op next, w =>
      M.alone t choice (next (M.apply t op choice w).1) (M.apply t op choice w).2

section Alone

variable {M : Machine S World Choice Thread} {t : Thread} {choice : Choice} {w w' : World}

theorem Machine.alone_bind (p : Prog S α) (f : α → Prog S β) :
    M.alone t choice (p >>= f) w =
      M.alone t choice (f (M.alone t choice p w).1) (M.alone t choice p w).2 := by
  induction p generalizing w with
  | done a => rfl
  | call op next ih => exact ih _

theorem Machine.alone_bind_ok {p : ExceptT ε (Prog S) α} {f : α → ExceptT ε (Prog S) β} {a : α}
    (h : M.alone t choice p.run w = (.ok a, w')) :
    M.alone t choice (p >>= f).run w = M.alone t choice (f a).run w' := by
  refine (alone_bind p.run _).trans ?_
  rw [h]
  rfl

theorem Machine.alone_bind_error {p : ExceptT ε (Prog S) α} {f : α → ExceptT ε (Prog S) β} {e : ε}
    (h : M.alone t choice p.run w = (.error e, w')) :
    M.alone t choice (p >>= f).run w = (.error e, w') := by
  refine (alone_bind p.run _).trans ?_
  rw [h]
  rfl

theorem Machine.alone_ask (op : S.Op) : M.alone t choice (Prog.ask op) w = M.apply t op choice w := rfl

/-- A check that asks for no operation. -/
theorem Machine.alone_check {x : Except ε α} {f : α → ExceptT ε (Prog S) β} {a : α} (h : x = .ok a) :
    M.alone t choice ((liftM x : ExceptT ε (Prog S) α) >>= f).run w =
      M.alone t choice (f a).run w := by
  subst h
  rfl

/-- A program that ends with such a check. -/
theorem Machine.alone_ofExcept {x : Except ε α} {a : α} (h : x = .ok a) :
    M.alone t choice (liftM x : ExceptT ε (Prog S) α).run w = (.ok a, w) := by
  subst h
  rfl

/-- A program that cannot fail, inside one that can. -/
theorem Machine.alone_lift {p : Prog S α} {a : α} (h : M.alone t choice p w = (a, w')) :
    M.alone t choice (liftM p : ExceptT ε (Prog S) α).run w = (.ok a, w') := by
  refine (alone_bind p _).trans ?_
  rw [h]
  rfl

/-- An error put into other words. -/
theorem Machine.alone_mapError {ε' : Type} {f : ε → ε'} {p : ExceptT ε (Prog S) α} {a : α}
    (h : M.alone t choice p.run w = (.ok a, w')) :
    M.alone t choice (Except.mapError f <$> p.run : Prog S (Except ε' α)) w = (.ok a, w') := by
  refine (alone_bind p.run _).trans ?_
  rw [h]
  rfl

variable [DecidableEq Thread]

/-- A turn of a thread leaves what the rest of it comes to. -/
theorem Machine.alone_step (c : Config S World Thread α) :
    M.alone t choice ((M.step c (t, choice)).threads t) (M.step c (t, choice)).world =
      M.alone t choice (c.threads t) c.world := by
  unfold Machine.step
  cases hp : c.threads t with
  | done a => simp only [hp]
  | call op next => simp only [Function.update_self, alone]

/-- Turns of one thread only, however many, leave what the rest of it comes to. -/
theorem Machine.alone_run (c : Config S World Thread α) (n : Nat) :
    M.alone t choice ((run M.step c (List.replicate n (t, choice))).threads t)
        (run M.step c (List.replicate n (t, choice))).world =
      M.alone t choice (c.threads t) c.world := by
  induction n generalizing c with
  | zero => rfl
  | succ n ih => exact (ih _).trans (alone_step c)

/-- With enough turns the thread is done. -/
theorem Machine.exists_done (c : Config S World Thread α) : ∃ n a,
    (run M.step c (List.replicate n (t, choice))).threads t = .done a := by
  suffices h : ∀ (p : Prog S α) (c : Config S World Thread α), c.threads t = p →
      ∃ n a, (run M.step c (List.replicate n (t, choice))).threads t = .done a from h _ c rfl
  intro p
  induction p with
  | done a => exact fun c hp => ⟨0, a, hp⟩
  | call op next ih =>
      intro c hp
      have hstep : (M.step c (t, choice)).threads t = next (M.apply t op choice c.world).1 := by
        simp only [Machine.step, hp, Function.update_self]
      obtain ⟨n, a, hdone⟩ := ih _ _ hstep
      exact ⟨n + 1, a, hdone⟩

/-- A thread that nothing disturbs ends with what it comes to alone. -/
theorem Machine.done_iff_alone (c : Config S World Thread α) (a : α) (P : World → Prop) :
    (∃ n, (run M.step c (List.replicate n (t, choice))).threads t = .done a ∧
        P (run M.step c (List.replicate n (t, choice))).world) ↔
      (M.alone t choice (c.threads t) c.world).1 = a ∧
        P (M.alone t choice (c.threads t) c.world).2 := by
  constructor
  · rintro ⟨n, hdone, hP⟩
    rw [← alone_run c n, hdone]
    exact ⟨rfl, hP⟩
  · rintro ⟨ha, hP⟩
    obtain ⟨n, a', hdone⟩ : ∃ n a',
        (run M.step c (List.replicate n (t, choice))).threads t = .done a' := exists_done c
    rw [← alone_run c n, hdone] at ha hP
    obtain rfl : a' = a := ha
    exact ⟨n, hdone, hP⟩

/-- A thread without a turn is where it was. -/
theorem Machine.threads_run {c : Config S World Thread α} {turns : List (Thread × Choice)}
    (h : ∀ turn ∈ turns, turn.1 ≠ t) : (run M.step c turns).threads t = c.threads t := by
  induction turns generalizing c with
  | nil => rfl
  | cons turn rest ih =>
      obtain ⟨hturn, hrest⟩ := List.forall_mem_cons.mp h
      refine (ih hrest).trans ?_
      unfold Machine.step
      split
      · rfl
      · exact Function.update_of_ne hturn.symm _ _

end Alone

end LTSearch.Foundation
