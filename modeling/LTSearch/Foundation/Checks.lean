/-
# LTSearch.Foundation.Checks -- checks in sequence

Fallible code is mostly a list of checks, each of which stops the function with its own error.  A
check is `rejectIf`, a function is a `do` block over `Except`, and these lemmas turn "the block
returned `ok`" into the conjunction of what its lines established, so that a proof never splits a
nest of branches by hand.
-/
import Mathlib

namespace LTSearch.Foundation

variable {ε ε' α β : Type}

/-- Stop with `e` when `p` holds. -/
def rejectIf (p : Prop) [Decidable p] (e : ε) : Except ε Unit :=
  if p then .error e else .ok ()

@[simp]
theorem rejectIf_eq_ok {p : Prop} [Decidable p] {e : ε} {u : Unit} :
    rejectIf p e = .ok u ↔ ¬p := by
  by_cases hp : p <;> simp [rejectIf, hp]

/-- A sequence returned `ok` exactly when both halves did. -/
theorem bind_eq_ok {x : Except ε α} {f : α → Except ε β} {b : β} :
    (x >>= f) = .ok b ↔ ∃ a, x = .ok a ∧ f a = .ok b := by
  cases x with
  | error e => simp [bind, Except.bind]
  | ok a => simp [bind, Except.bind]

theorem map_eq_ok {x : Except ε α} {g : α → β} {b : β} :
    g <$> x = .ok b ↔ ∃ a, x = .ok a ∧ g a = b := by
  cases x with
  | error e => simp [Functor.map, Except.map]
  | ok a => simp [Functor.map, Except.map]

/-- A sequence stopped in its first half, or in its second after the first returned. -/
theorem bind_eq_error {x : Except ε α} {f : α → Except ε β} {e : ε} :
    (x >>= f) = .error e ↔ x = .error e ∨ ∃ a, x = .ok a ∧ f a = .error e := by
  cases x with
  | error e' => simp [bind, Except.bind]
  | ok a => simp [bind, Except.bind]

/-- The same for a check, whose value carries nothing. -/
theorem check_bind_eq_ok {x : Except ε Unit} {f : Unit → Except ε β} {b : β} :
    (x >>= f) = .ok b ↔ x = .ok () ∧ f () = .ok b := by
  rw [bind_eq_ok]
  exact ⟨fun ⟨_, hx, hf⟩ => ⟨hx, hf⟩, fun ⟨hx, hf⟩ => ⟨(), hx, hf⟩⟩

@[simp]
theorem mapError_eq_ok {x : Except ε α} {g : ε → ε'} {a : α} :
    x.mapError g = .ok a ↔ x = .ok a := by
  cases x <;> simp [Except.mapError]

@[simp]
theorem mapError_eq_error {x : Except ε α} {g : ε → ε'} {e : ε'} :
    x.mapError g = .error e ↔ ∃ e₀, x = .error e₀ ∧ g e₀ = e := by
  cases x <;> simp [Except.mapError]

/-- A loop of checks passes exactly when every check passes. -/
theorem forM_eq_ok {l : List α} {f : α → Except ε Unit} {u : Unit} :
    l.forM f = .ok u ↔ ∀ x ∈ l, f x = .ok () := by
  induction l with
  | nil => simp [pure, Except.pure]
  | cons x xs ih =>
      change (f x >>= fun _ => xs.forM f) = .ok () ↔ _
      rw [check_bind_eq_ok, ih, List.forall_mem_cons]

/-- A loop of checks stops at the error of one of its items. -/
theorem forM_eq_error {l : List α} {f : α → Except ε Unit} {e : ε} (h : l.forM f = .error e) :
    ∃ x ∈ l, f x = .error e := by
  induction l with
  | nil => simp [pure, Except.pure] at h
  | cons x xs ih =>
      change (f x >>= fun _ => xs.forM f) = .error e at h
      rw [bind_eq_error] at h
      rcases h with h | ⟨_, _, h⟩
      · exact ⟨x, List.mem_cons_self, h⟩
      · obtain ⟨y, hy, hfy⟩ := ih h
        exact ⟨y, List.mem_cons_of_mem x hy, hfy⟩

/-- Collecting the values of a fallible function over a list: every item has its value. -/
theorem mapM_eq_ok_iff {l : List α} {f : α → Except ε β} {bs : List β} :
    l.mapM f = .ok bs ↔ List.Forall₂ (fun a b => f a = .ok b) l bs := by
  induction l generalizing bs with
  | nil =>
      cases bs with
      | nil => simp [pure, Except.pure]
      | cons b bs =>
          simp only [List.mapM_nil, pure, Except.pure]
          exact ⟨fun h => (nomatch h), fun h => (nomatch h)⟩
  | cons a as ih =>
      rw [List.mapM_cons, bind_eq_ok]
      constructor
      · rintro ⟨b, hb, h⟩
        obtain ⟨rest, hrest, hcons⟩ := bind_eq_ok.mp h
        cases hcons
        exact .cons hb (ih.mp hrest)
      · intro h
        cases h with
        | cons hb hrest => exact ⟨_, hb, bind_eq_ok.mpr ⟨_, ih.mpr hrest, rfl⟩⟩

/-- When collecting returned, the function returned on every item. -/
theorem isOk_of_mapM_eq_ok {l : List α} {f : α → Except ε β} {bs : List β} (h : l.mapM f = .ok bs) :
    ∀ a ∈ l, ∃ b, f a = .ok b := by
  have hall := mapM_eq_ok_iff.mp h
  induction hall with
  | nil => exact fun a ha => absurd ha List.not_mem_nil
  | cons hab hrest ih =>
      intro x hx
      rcases List.mem_cons.mp hx with rfl | hx
      · exact ⟨_, hab⟩
      · exact ih (mapM_eq_ok_iff.mpr hrest) x hx

/-- What was collected comes from one of the items. -/
theorem exists_of_mapM {l : List α} {f : α → Except ε β} {bs : List β} (h : l.mapM f = .ok bs) {b : β}
    (hb : b ∈ bs) : ∃ a ∈ l, f a = .ok b := by
  have hall := mapM_eq_ok_iff.mp h
  induction hall with
  | nil => exact absurd hb List.not_mem_nil
  | cons hab hrest ih =>
      rcases List.mem_cons.mp hb with rfl | hb
      · exact ⟨_, List.mem_cons_self, hab⟩
      · obtain ⟨a, ha, hfa⟩ := ih (mapM_eq_ok_iff.mpr hrest) hb
        exact ⟨a, List.mem_cons_of_mem _ ha, hfa⟩

/-- Collecting stops at the error of one of the items. -/
theorem mapM_eq_error {l : List α} {f : α → Except ε β} {e : ε} (h : l.mapM f = .error e) :
    ∃ a ∈ l, f a = .error e := by
  induction l with
  | nil => simp [pure, Except.pure] at h
  | cons a as ih =>
      rw [List.mapM_cons, bind_eq_error] at h
      rcases h with h | ⟨b, -, h⟩
      · exact ⟨a, List.mem_cons_self, h⟩
      · rcases bind_eq_error.mp h with h | ⟨rest, -, h⟩
        · obtain ⟨x, hx, hfx⟩ := ih h
          exact ⟨x, List.mem_cons_of_mem a hx, hfx⟩
        · cases h

/-- A fallible function that succeeds on every item succeeds on the list. -/
theorem mapM_isOk {l : List α} {f : α → Except ε β} (h : ∀ a ∈ l, ∃ b, f a = .ok b) :
    ∃ bs, l.mapM f = .ok bs := by
  cases hm : l.mapM f with
  | ok bs => exact ⟨bs, rfl⟩
  | error e =>
      obtain ⟨a, ha, hfa⟩ := mapM_eq_error hm
      obtain ⟨b, hb⟩ := h a ha
      rw [hb] at hfa
      cases hfa

/-- Collecting list by list, each list from an item, is collecting over all of their elements. -/
theorem mapM_flatten_eq_ok {γ : Type} {l : List γ} {g : γ → Except ε (List α)} {f : α → Except ε β}
    {bs : List β} :
    (∃ parts, (l.mapM fun c => g c >>= fun as => as.mapM f) = .ok parts ∧ parts.flatten = bs) ↔
      ∃ parts, l.mapM g = .ok parts ∧ parts.flatten.mapM f = .ok bs := by
  induction l generalizing bs with
  | nil => simp [pure, Except.pure]
  | cons c cs ih =>
      simp only [List.mapM_cons, bind_eq_ok]
      constructor
      · rintro ⟨_, ⟨part, ⟨as, has, hpart⟩, rest, hrest, h⟩, rfl⟩
        cases h
        obtain ⟨parts, hparts, hflat⟩ := ih.mp ⟨rest, hrest, rfl⟩
        refine ⟨_, ⟨as, has, parts, hparts, rfl⟩, ?_⟩
        rw [List.flatten_cons, List.mapM_append]
        exact bind_eq_ok.mpr ⟨_, hpart, bind_eq_ok.mpr ⟨_, hflat, rfl⟩⟩
      · rintro ⟨_, ⟨as, has, parts, hparts, h⟩, hflat⟩
        cases h
        rw [List.flatten_cons, List.mapM_append] at hflat
        obtain ⟨part, hpart, hflat⟩ := bind_eq_ok.mp hflat
        obtain ⟨bs', hbs', h⟩ := bind_eq_ok.mp hflat
        cases h
        obtain ⟨rest, hrest, rfl⟩ := ih.mpr ⟨parts, hparts, hbs'⟩
        exact ⟨_, ⟨part, ⟨as, has, hpart⟩, rest, hrest, rfl⟩, rfl⟩

/-- Collecting over the items in another order collects the same values in another order. -/
theorem mapM_perm {l l' : List α} (hperm : l.Perm l') {f : α → Except ε β} {bs : List β}
    (h : l.mapM f = .ok bs) : ∃ bs', l'.mapM f = .ok bs' ∧ bs.Perm bs' := by
  obtain ⟨bs', hall, hbs⟩ := List.perm_comp_forall₂ hperm.symm (mapM_eq_ok_iff.mp h)
  exact ⟨bs', mapM_eq_ok_iff.mpr hall, hbs.symm⟩

/-- Functions that return related values on related items collect related values. -/
theorem mapM_forall₂ {α' β' : Type} {r : α → α' → Prop} {q : β → β' → Prop} {f : α → Except ε β}
    {f' : α' → Except ε β'} (hf : ∀ a a' b, r a a' → f a = .ok b → ∃ b', f' a' = .ok b' ∧ q b b')
    {l : List α} {l' : List α'} (hall : List.Forall₂ r l l') {bs : List β} (h : l.mapM f = .ok bs) :
    ∃ bs', l'.mapM f' = .ok bs' ∧ List.Forall₂ q bs bs' := by
  have hvalues := mapM_eq_ok_iff.mp h
  clear h
  induction hall generalizing bs with
  | nil =>
      cases hvalues
      exact ⟨[], rfl, .nil⟩
  | cons hr _ ih =>
      cases hvalues with
      | cons hb hrest =>
          obtain ⟨b', hb', hq⟩ := hf _ _ _ hr hb
          obtain ⟨bs', hbs', hqs⟩ := ih hrest
          exact ⟨b' :: bs', mapM_eq_ok_iff.mpr (.cons hb' (mapM_eq_ok_iff.mp hbs')), .cons hq hqs⟩

/-- A loop over images is a loop over the items. -/
theorem forM_map {γ : Type} (l : List γ) (g : γ → α) (f : α → Except ε Unit) :
    (l.map g).forM f = l.forM fun c => f (g c) := by
  induction l with
  | nil => rfl
  | cons c cs ih =>
      show (f (g c) >>= fun _ => (cs.map g).forM f) = (f (g c) >>= fun _ => cs.forM fun c => f (g c))
      rw [ih]

/-- Folds whose steps agree on the items agree. -/
theorem foldlM_congr_mem {m : Type → Type} [Monad m] {f g : β → α → m β} {l : List α}
    (h : ∀ a ∈ l, ∀ b, f b a = g b a) (b : β) : l.foldlM f b = l.foldlM g b := by
  induction l generalizing b with
  | nil => rfl
  | cons a as ih =>
      obtain ⟨ha, has⟩ := List.forall_mem_cons.mp h
      rw [List.foldlM_cons, List.foldlM_cons, ha b]
      exact congrArg _ (funext (ih has))

/-- A fallible fold keeps an invariant of the part it has processed. -/
theorem foldlM_invariant {f : β → α → Except ε β} {P : List α → β → Prop} {l : List α} {b b' : β}
    (start : P [] b)
    (step : ∀ done x rest b b', l = done ++ x :: rest → P done b → f b x = .ok b' →
      P (done ++ [x]) b')
    (h : l.foldlM f b = .ok b') : P l b' := by
  have hrun : ∀ rest done b, l = done ++ rest → P done b → rest.foldlM f b = .ok b' → P l b' := by
    intro rest
    induction rest with
    | nil =>
        intro done b hl hP h
        cases h
        rwa [hl, List.append_nil]
    | cons x rest ih =>
        intro done b hl hP h
        rw [List.foldlM_cons] at h
        obtain ⟨next, hx, h⟩ := bind_eq_ok.mp h
        refine ih (done ++ [x]) next ?_ (step done x rest b next hl hP hx) h
        rw [hl, List.append_assoc, List.singleton_append]
  exact hrun l [] b rfl start h

/-- A fallible fold whose steps all succeed succeeds. -/
theorem foldlM_isOk {f : β → α → Except ε β} {l : List α} (h : ∀ x ∈ l, ∀ b, ∃ b', f b x = .ok b')
    (b : β) : ∃ b', l.foldlM f b = .ok b' := by
  induction l generalizing b with
  | nil => exact ⟨b, rfl⟩
  | cons x rest ih =>
      obtain ⟨next, hx⟩ := h x List.mem_cons_self b
      obtain ⟨last, hrest⟩ := ih (fun y hy => h y (List.mem_cons_of_mem x hy)) next
      exact ⟨last, by rw [List.foldlM_cons]; exact bind_eq_ok.mpr ⟨next, hx, hrest⟩⟩

end LTSearch.Foundation
