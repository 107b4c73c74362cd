/-
# LTSearch.Foundation.SwapLog -- the history of a cell that is only swapped

A cell holds a value or nothing, and changes only by compare-and-swap.  The log has one entry for each
swap that went through: who made it, what it replaced and what it wrote.  A log is a history of the cell
if every entry replaces what the entry before it wrote.
-/
import Mathlib

namespace LTSearch.Foundation

/-- A swap that went through. -/
structure Swap (Caller V : Type) where
  caller : Caller
  replaced : Option V
  written : V
  deriving DecidableEq

variable {Caller V : Type}

/-- From `start` to `now`, each swap replaces what the one before it wrote. -/
def Chained : Option V → List (Swap Caller V) → Option V → Prop
  | start, [], now => now = start
  | start, s :: rest, now => s.replaced = start ∧ Chained (some s.written) rest now

variable {start now : Option V} {swaps before between after : List (Swap Caller V)} {s s' : Swap Caller V}

@[simp]
theorem chained_nil : Chained start ([] : List (Swap Caller V)) now ↔ now = start := Iff.rfl

@[simp]
theorem chained_cons : Chained start (s :: swaps) now ↔
    s.replaced = start ∧ Chained (some s.written) swaps now := Iff.rfl

theorem chained_append : Chained start (swaps ++ after) now ↔
    ∃ middle, Chained start swaps middle ∧ Chained middle after now := by
  induction swaps generalizing start with
  | nil => simp
  | cons s rest ih =>
      rw [List.cons_append, chained_cons, ih]
      constructor
      · rintro ⟨hreplaced, middle, hrest, hafter⟩
        exact ⟨middle, ⟨hreplaced, hrest⟩, hafter⟩
      · rintro ⟨middle, ⟨hreplaced, hrest⟩, hafter⟩
        exact ⟨hreplaced, middle, hrest, hafter⟩

/-- One more swap, of what is there now. -/
theorem Chained.concat (h : Chained start swaps now) (hreplaced : s.replaced = now) :
    Chained start (swaps ++ [s]) (some s.written) :=
  chained_append.mpr ⟨now, h, hreplaced, rfl⟩

/-- What is there now is fixed by the start and the swaps. -/
theorem chained_now {now' : Option V} (h : Chained start swaps now) (h' : Chained start swaps now') :
    now = now' := by
  induction swaps generalizing start with
  | nil => exact (chained_nil.mp h).trans (chained_nil.mp h').symm
  | cons s rest ih => exact ih h.2 h'.2

/-- What is there now was there at first or was written. -/
theorem Chained.now_eq (h : Chained start swaps now) :
    now = start ∨ ∃ s ∈ swaps, now = some s.written := by
  induction swaps generalizing start with
  | nil => exact .inl h
  | cons s rest ih =>
      right
      rcases ih h.2 with hnow | ⟨s', hs', hnow⟩
      · exact ⟨s, List.mem_cons_self .., hnow⟩
      · exact ⟨s', List.mem_cons_of_mem _ hs', hnow⟩

/-- What holds from one side of each swap to the other holds from the start to now. -/
theorem Chained.relates {R : Option V → Option V → Prop} (hrefl : ∀ a, R a a)
    (htrans : ∀ a b c, R a b → R b c → R a c) (h : Chained start swaps now)
    (hstep : ∀ s ∈ swaps, R s.replaced (some s.written)) : R start now := by
  induction swaps generalizing start with
  | nil =>
      obtain rfl := chained_nil.mp h
      exact hrefl _
  | cons s rest ih =>
      obtain ⟨rfl, hrest⟩ := chained_cons.mp h
      have hfirst := hstep s List.mem_cons_self
      exact htrans _ _ _ hfirst (ih hrest fun s' hs' => hstep s' (List.mem_cons_of_mem _ hs'))

/-- What a later swap replaces was written by the last one before it. -/
theorem Chained.replaced_eq (h : Chained start (before ++ s :: (between ++ s' :: after)) now) :
    ∃ last ∈ (s :: between).getLast?, s'.replaced = some last.written := by
  obtain ⟨middle, -, -, h⟩ := chained_append.mp h
  obtain ⟨current, hbetween, hreplaced, -⟩ := chained_append.mp h
  rw [hreplaced]
  rcases List.eq_nil_or_concat between with rfl | ⟨front, last, rfl⟩
  · exact ⟨s, rfl, hbetween⟩
  · rw [List.concat_eq_append] at hbetween ⊢
    obtain ⟨_, -, -, hlast⟩ := chained_append.mp hbetween
    have hend : (s :: (front ++ [last])).getLast? = some last := by
      rw [← List.cons_append]
      exact List.getLast?_concat
    exact ⟨last, hend, hlast⟩

section Tags

variable {K : Type} (tag : V → K)

/-- Under a tag that tells the values written apart, a cell that was only swapped holds a value that was
written before as soon as it holds its tag. -/
theorem Chained.eq_of_tag {seen : Option V} (h : Chained none swaps now)
    (htags : ∀ s ∈ swaps, ∀ s' ∈ swaps, tag s.written = tag s'.written → s.written = s'.written)
    (hseen : ∀ v, seen = some v → ∃ s ∈ swaps, s.written = v) (htag : now.map tag = seen.map tag) :
    now = seen := by
  cases seen with
  | none => exact Option.map_eq_none_iff.mp htag
  | some v =>
      obtain ⟨u, rfl, hsame⟩ := Option.map_eq_some_iff.mp htag
      obtain ⟨s, hs, rfl⟩ := hseen v rfl
      rcases h.now_eq with hnow | ⟨s', hs', hnow⟩
      · cases hnow
      · obtain rfl := Option.some.inj hnow
        rw [htags s' hs' s hs hsame]

/-- Two swaps of values with one tag replace one value, which the last swap between them has written. -/
theorem Chained.restored (h : Chained none (before ++ s :: (between ++ s' :: after)) now)
    (htags : ∀ s₁ ∈ before ++ s :: between, ∀ s₂ ∈ before ++ s :: between,
      tag s₁.written = tag s₂.written → s₁.written = s₂.written)
    (htag : s.replaced.map tag = s'.replaced.map tag) :
    ∃ last ∈ (s :: between).getLast?, s.replaced = some last.written := by
  obtain ⟨last, hlast, hreplaced⟩ := h.replaced_eq
  refine ⟨last, hlast, ?_⟩
  rw [hreplaced, Option.map_some, Option.map_eq_some_iff] at htag
  obtain ⟨v, hv, hsame⟩ := htag
  -- what `s` replaced was written too, so the tag tells it from what `last` wrote
  obtain ⟨middle, hbefore, hnext, -⟩ := chained_append.mp h
  rcases hbefore.now_eq with rfl | ⟨first, hfirst, rfl⟩
  · rw [hv] at hnext
    cases hnext
  · rw [hv] at hnext
    obtain rfl := Option.some.inj hnext
    rw [hv, htags first (List.mem_append_left _ hfirst) last
      (List.mem_append_right _ (List.mem_of_getLast? hlast)) hsame]

end Tags

/-- If every swap writes something greater than what it replaces, what is written increases. -/
theorem Chained.increases {K : Type} [Preorder K] (key : V → K) (h : Chained start swaps now)
    (hgreater : ∀ s ∈ swaps, ∀ old, s.replaced = some old → key old < key s.written) :
    (swaps.map fun s => key s.written).Pairwise (· < ·) := by
  induction swaps generalizing start with
  | nil => exact List.Pairwise.nil
  | cons s rest ih =>
      have hrest := ih h.2 fun s' hs' => hgreater s' (List.mem_cons_of_mem _ hs')
      rw [List.map_cons, List.pairwise_cons]
      refine ⟨?_, hrest⟩
      cases rest with
      | nil => simp
      | cons s' rest =>
          have hnext : key s.written < key s'.written := hgreater s' (by simp) _ h.2.1
          intro k hk
          rw [List.map_cons, List.mem_cons] at hk
          rcases hk with rfl | hk
          · exact hnext
          · exact hnext.trans ((List.pairwise_cons.mp hrest).1 k hk)

end LTSearch.Foundation
