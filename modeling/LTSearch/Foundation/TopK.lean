/-
# LTSearch.Foundation.TopK -- the best `k` of a list, scanned in pieces

A bounded heap keeps the best `k` candidates seen, ordered best first, and drops a greatest one for
each better candidate that comes.  A parallel scan splits the list somewhere, scans the parts into
heaps of their own and pushes the right heap into the left one; where it splits is up to the
scheduler, so the plan is an argument.  Which of several greatest elements is dropped is up to the
heap, and so is the order in which it gives out equal ones: both are parameters too.
-/
import Mathlib

namespace LTSearch.Foundation

variable {α : Type}

/-- How a heap takes out a greatest element, and all of them, the least first. -/
structure MaxPop (cmp : α → α → Ordering) where
  pop : List α → Option (α × List α)
  intoSortedVec : List α → List α
  pop_nil : pop [] = none
  pop_cons : ∀ heap, heap ≠ [] → ∃ greatest rest, pop heap = some (greatest, rest) ∧
    heap.Perm (greatest :: rest) ∧ ∀ other ∈ heap, cmp other greatest ≠ .gt
  intoSortedVec_perm : ∀ heap, (intoSortedVec heap).Perm heap
  intoSortedVec_sorted : ∀ heap, (intoSortedVec heap).Pairwise fun a b => cmp a b ≠ .gt

/-- Where a parallel scan splits. -/
inductive ScanPlan where
  | segment
  | split (at' : Nat) (left right : ScanPlan)

namespace MaxPop

variable {cmp : α → α → Ordering} (heapOf : MaxPop cmp) (k : Nat)

/-- Push a candidate into a heap of at most `k`. -/
def pushBounded (heap : List α) (candidate : α) : List α :=
  if heap.length < k then candidate :: heap
  else
    match heapOf.pop heap with
    | none => [candidate]
    | some (greatest, rest) => if cmp candidate greatest = .lt then candidate :: rest else heap

/-- Push the right heap, best first, into the left one. -/
def merge (left right : List α) : List α :=
  (heapOf.intoSortedVec right).foldl (heapOf.pushBounded k) left

/-- Scan the candidates of a list as the plan says.  Each part starts from an empty heap, which the
reduction begins with too. -/
def scan : ScanPlan → List α → List α
  | .segment, candidates => heapOf.merge k [] (candidates.foldl (heapOf.pushBounded k) [])
  | .split at' left right, candidates =>
      heapOf.merge k (scan left (candidates.take at')) (scan right (candidates.drop at'))

/-! ## What is kept -/

theorem mem_pushBounded {heap : List α} {candidate a : α}
    (h : a ∈ heapOf.pushBounded k heap candidate) : a = candidate ∨ a ∈ heap := by
  unfold pushBounded at h
  split at h
  · exact List.mem_cons.mp h
  split at h
  · exact .inl (List.mem_singleton.mp h)
  · rename_i greatest rest hpop
    split at h
    · rcases List.mem_cons.mp h with rfl | h
      · exact .inl rfl
      · have hne : heap ≠ [] := by
          rintro rfl
          rw [heapOf.pop_nil] at hpop
          cases hpop
        obtain ⟨_, _, hpop', hperm, -⟩ := heapOf.pop_cons heap hne
        rw [hpop] at hpop'
        cases hpop'
        exact .inr (hperm.mem_iff.mpr (List.mem_cons_of_mem _ h))
    · exact .inr h

theorem mem_foldl_pushBounded {candidates heap : List α} {a : α}
    (h : a ∈ candidates.foldl (heapOf.pushBounded k) heap) : a ∈ candidates ∨ a ∈ heap := by
  induction candidates generalizing heap with
  | nil => exact .inr h
  | cons candidate rest ih =>
      rcases ih h with h | h
      · exact .inl (List.mem_cons_of_mem _ h)
      · rcases heapOf.mem_pushBounded k h with rfl | h
        · exact .inl List.mem_cons_self
        · exact .inr h

theorem mem_merge {left right : List α} {a : α} (h : a ∈ heapOf.merge k left right) :
    a ∈ left ∨ a ∈ right := by
  rcases heapOf.mem_foldl_pushBounded k h with h | h
  · exact .inr ((heapOf.intoSortedVec_perm right).mem_iff.mp h)
  · exact .inl h

/-- Nothing but candidates is kept. -/
theorem mem_scan {plan : ScanPlan} {candidates : List α} {a : α}
    (h : a ∈ heapOf.scan k plan candidates) : a ∈ candidates := by
  induction plan generalizing candidates with
  | segment =>
      rcases heapOf.mem_merge k h with h | h
      · exact absurd h List.not_mem_nil
      · rcases heapOf.mem_foldl_pushBounded k h with h | h
        · exact h
        · exact absurd h List.not_mem_nil
  | split at' left right ihl ihr =>
      rcases heapOf.mem_merge k h with h | h
      · exact List.mem_of_mem_take (ihl h)
      · exact List.mem_of_mem_drop (ihr h)

/-! ## A best candidate is kept -/

section Best

variable {best : α} (horiented : ∀ a b, cmp b a = (cmp a b).swap)
  (hk : 0 < k)

include horiented hk

/-- Pushing anything keeps a candidate that is better than every other one. -/
theorem best_mem_pushBounded {heap : List α} {candidate : α}
    (hbest : ∀ other ∈ candidate :: heap, other ≠ best → cmp best other = .lt)
    (h : best = candidate ∨ best ∈ heap) : best ∈ heapOf.pushBounded k heap candidate := by
  unfold pushBounded
  split
  · exact List.mem_cons.mpr h
  · rename_i hfull
    have hne : heap ≠ [] := by
      rintro rfl
      exact hfull hk
    obtain ⟨greatest, rest, hpop, hperm, hgreatest⟩ := heapOf.pop_cons heap hne
    have hmem : greatest ∈ heap := hperm.mem_iff.mpr List.mem_cons_self
    rw [hpop]
    dsimp only
    by_cases hgb : greatest = best
    · -- the heap holds nothing but the best one, and the candidate is no better
      rw [if_neg]
      · exact hgb ▸ hmem
      · intro hlt
        by_cases hcb : candidate = best
        · have hself := horiented best best
          rw [hcb, hgb] at hlt
          rw [hlt] at hself
          cases hself
        · have hworse := hbest candidate List.mem_cons_self hcb
          rw [hgb, horiented best candidate, hworse] at hlt
          cases hlt
    · have hworse := hbest greatest (List.mem_cons_of_mem _ hmem) hgb
      split
      · rcases h with rfl | h
        · exact List.mem_cons_self
        · rcases List.mem_cons.mp (hperm.mem_iff.mp h) with h | h
          · exact absurd h.symm hgb
          · exact List.mem_cons_of_mem _ h
      · rename_i hge
        rcases h with rfl | h
        · exact absurd hworse hge
        · exact h

theorem best_mem_foldl {candidates heap : List α}
    (hbest : ∀ other ∈ candidates ++ heap, other ≠ best → cmp best other = .lt)
    (h : best ∈ candidates ∨ best ∈ heap) :
    best ∈ candidates.foldl (heapOf.pushBounded k) heap := by
  induction candidates generalizing heap with
  | nil => exact h.resolve_left List.not_mem_nil
  | cons candidate rest ih =>
      have hpush : best = candidate ∨ best ∈ heap → best ∈ heapOf.pushBounded k heap candidate :=
        heapOf.best_mem_pushBounded k horiented hk fun other hother =>
          hbest other (by simp only [List.cons_append, List.mem_cons, List.mem_append] at hother ⊢; tauto)
      refine ih (fun other hother => ?_) ?_
      · rcases List.mem_append.mp hother with hother | hother
        · exact hbest other (List.mem_cons_of_mem _ (List.mem_append_left _ hother))
        · rcases heapOf.mem_pushBounded k hother with rfl | hother
          · exact hbest other List.mem_cons_self
          · exact hbest other (List.mem_cons_of_mem _ (List.mem_append_right _ hother))
      · rcases h with h | h
        · rcases List.mem_cons.mp h with h | h
          · exact .inr (hpush (.inl h))
          · exact .inl h
        · exact .inr (hpush (.inr h))

theorem best_mem_merge {left right : List α}
    (hbest : ∀ other ∈ left ++ right, other ≠ best → cmp best other = .lt)
    (h : best ∈ left ∨ best ∈ right) : best ∈ heapOf.merge k left right := by
  refine heapOf.best_mem_foldl k horiented hk (fun other hother => ?_) ?_
  · rcases List.mem_append.mp hother with hother | hother
    · exact hbest other
        (List.mem_append_right _ ((heapOf.intoSortedVec_perm right).mem_iff.mp hother))
    · exact hbest other (List.mem_append_left _ hother)
  · exact h.symm.imp_left (heapOf.intoSortedVec_perm right).mem_iff.mpr

/-- A candidate that is better than every other one is kept, wherever the scan splits. -/
theorem best_mem_scan {plan : ScanPlan} {candidates : List α}
    (hbest : ∀ other ∈ candidates, other ≠ best → cmp best other = .lt) (h : best ∈ candidates) :
    best ∈ heapOf.scan k plan candidates := by
  induction plan generalizing candidates with
  | segment =>
      refine heapOf.best_mem_merge k horiented hk (fun other hother => ?_) (.inr ?_)
      · rcases heapOf.mem_foldl_pushBounded k (List.nil_append _ ▸ hother) with hother | hother
        · exact hbest other hother
        · exact absurd hother List.not_mem_nil
      · exact heapOf.best_mem_foldl k horiented hk
          (fun other hother => hbest other (List.append_nil candidates ▸ hother)) (.inl h)
  | split at' left right ihl ihr =>
      have htake := fun other (hother : other ∈ candidates.take at') =>
        hbest other (List.mem_of_mem_take hother)
      have hdrop := fun other (hother : other ∈ candidates.drop at') =>
        hbest other (List.mem_of_mem_drop hother)
      refine heapOf.best_mem_merge k horiented hk (fun other hother => ?_) ?_
      · rcases List.mem_append.mp hother with hother | hother
        · exact htake other (heapOf.mem_scan k hother)
        · exact hdrop other (heapOf.mem_scan k hother)
      · rw [← List.take_append_drop at' candidates] at h
        exact (List.mem_append.mp h).imp (ihl htake) (ihr hdrop)

end Best

end MaxPop

theorem MaxPop.pairwise_mergeSort {cmp : α → α → Ordering}
    (htrans : ∀ a b c, cmp a b ≠ .gt → cmp b c ≠ .gt → cmp a c ≠ .gt)
    (htotal : ∀ a b, cmp a b ≠ .gt ∨ cmp b a ≠ .gt) (l : List α) :
    (l.mergeSort fun a b => cmp a b ≠ .gt).Pairwise fun a b => cmp a b ≠ .gt := by
  have hsorted : (l.mergeSort fun a b => cmp a b ≠ .gt).Pairwise
      (fun a b => decide (cmp a b ≠ .gt)) := List.pairwise_mergeSort
    (fun a b c => by simpa using htrans a b c) (fun a b => by simpa using htotal a b) l
  exact hsorted.imp fun h => by simpa using h

/-- A heap that sorts, and leaves equal elements in their order. -/
def MaxPop.ofSort (cmp : α → α → Ordering)
    (htrans : ∀ a b c, cmp a b ≠ .gt → cmp b c ≠ .gt → cmp a c ≠ .gt)
    (htotal : ∀ a b, cmp a b ≠ .gt ∨ cmp b a ≠ .gt) : MaxPop cmp where
  pop heap :=
    match (heap.mergeSort fun a b => cmp a b ≠ .gt).reverse with
    | [] => none
    | greatest :: rest => some (greatest, rest)
  intoSortedVec heap := heap.mergeSort fun a b => cmp a b ≠ .gt
  pop_nil := by rw [List.mergeSort_nil, List.reverse_nil]
  pop_cons heap hne := by
    have hperm := List.mergeSort_perm heap fun a b => cmp a b ≠ .gt
    have hsorted := pairwise_mergeSort htrans htotal heap
    cases hrev : (heap.mergeSort fun a b => cmp a b ≠ .gt).reverse with
    | nil =>
        rw [List.reverse_eq_nil_iff] at hrev
        rw [hrev] at hperm
        exact absurd hperm.symm.eq_nil hne
    | cons greatest rest =>
        have hperm' : heap.Perm (greatest :: rest) :=
          hperm.symm.trans ((List.reverse_perm _).symm.trans (.of_eq hrev))
        have hdesc : (greatest :: rest).Pairwise fun a b => cmp b a ≠ .gt := by
          rw [← hrev, List.pairwise_reverse]
          exact hsorted
        refine ⟨greatest, rest, rfl, hperm', fun other hother => ?_⟩
        rcases List.mem_cons.mp (hperm'.mem_iff.mp hother) with rfl | hother
        · exact (htotal _ _).elim id id
        · exact (List.pairwise_cons.mp hdesc).1 other hother
  intoSortedVec_perm heap := List.mergeSort_perm heap _
  intoSortedVec_sorted heap := pairwise_mergeSort htrans htotal heap

end LTSearch.Foundation
