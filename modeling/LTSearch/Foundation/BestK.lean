/-
# LTSearch.Foundation.BestK -- the best `k` of a list, up to ties

A part of a list holds its best `k` if it has `k` elements, or all there are, and nothing outside
is before anything in it.  The best of two parts, put together, hold the best of the whole; a heap
that drops a greatest element for each better one keeps the best `k`; and sorting what was kept is
sorting everything and cutting, as far as the keys tell elements apart.
-/
import LTSearch.Foundation.TopK

namespace LTSearch.Foundation

variable {α κ : Type} [LinearOrder κ] (key : α → κ) {k : Nat}

/-- A list in the order of the keys; what has the same key stays in its order. -/
def sortBy (l : List α) : List α := l.mergeSort fun a b => key a ≤ key b

theorem sortBy_perm (l : List α) : (sortBy key l).Perm l := List.mergeSort_perm l _

theorem pairwise_sortBy (l : List α) : (sortBy key l).Pairwise fun a b => key a ≤ key b := by
  have hsorted := @List.pairwise_mergeSort α (fun a b => decide (key a ≤ key b))
    (fun a b c hab hbc => by
      rw [decide_eq_true_eq] at hab hbc ⊢
      exact hab.trans hbc)
    (fun a b => by
      rw [Bool.or_eq_true, decide_eq_true_eq, decide_eq_true_eq]
      exact le_total _ _) l
  exact hsorted.imp fun h => of_decide_eq_true h

theorem sortBy_pair (a b : α) : sortBy key [a, b] = if key a ≤ key b then [a, b] else [b, a] := by
  simp [sortBy, List.mergeSort, List.MergeSort.Internal.splitInTwo, List.merge]

/-- What is sorted does not matter where the keys tell everything apart. -/
theorem sortBy_congr {l l' : List α} (h : l.Perm l') (hkeys : (l.map key).Nodup) :
    sortBy key l = sortBy key l' := by
  have hl := sortBy_perm key l
  have hl' := (sortBy_perm key l').trans h.symm
  exact List.Perm.eq_of_pairwise (fun a b ha hb hab hba => List.inj_on_of_nodup_map hkeys
    (hl.mem_iff.mp ha) (hl'.mem_iff.mp hb) (le_antisymm hab hba)) (pairwise_sortBy key l)
    (pairwise_sortBy key l') (hl.trans hl'.symm)

theorem sortBy_map {β : Type} (f : β → α) (l : List β) :
    sortBy key (l.map f) = (sortBy (fun b => key (f b)) l).map f := by
  refine (List.map_mergeSort (f := f) fun a _ b _ => ?_).symm
  rfl

/-- The list holds the best `k` of another one. -/
structure BestOf (k : Nat) (all kept : List α) : Prop where
  /-- what was not kept, which is nothing while there is room -/
  exists_rest : ∃ rest, all.Perm (kept ++ rest) ∧ (∀ a ∈ kept, ∀ b ∈ rest, key a ≤ key b) ∧
    (kept.length < k → rest = [])
  length_le : kept.length ≤ k

namespace BestOf

variable {key} {all kept : List α}

theorem nil : BestOf key k [] [] where
  exists_rest := ⟨[], .refl _, nofun, fun _ => rfl⟩
  length_le := Nat.zero_le _

/-- The order in which either list is given does not matter. -/
theorem perm {all' kept' : List α} (h : BestOf key k all kept) (hall : all.Perm all')
    (hkept : kept.Perm kept') : BestOf key k all' kept' := by
  obtain ⟨rest, hperm, hle, hroom⟩ := h.exists_rest
  refine ⟨⟨rest, hall.symm.trans (hperm.trans (hkept.append_right rest)), fun a ha => ?_,
    fun hlt => hroom ?_⟩, ?_⟩
  · exact hle a (hkept.mem_iff.mpr ha)
  · rwa [hkept.length_eq]
  · rw [← hkept.length_eq]
    exact h.length_le

/-- What was kept of a part stands for the whole part. -/
theorem absorb {left all' kept' : List α} (h : BestOf key k (left ++ kept') kept)
    (h' : BestOf key k all' kept') : BestOf key k (left ++ all') kept := by
  obtain ⟨rest, hperm, hle, hroom⟩ := h.exists_rest
  obtain ⟨rest', hperm', hle', hroom'⟩ := h'.exists_rest
  have hlength := hperm.length_eq
  rw [List.length_append, List.length_append] at hlength
  refine ⟨⟨rest ++ rest', ?_, fun a ha b hb => ?_, fun hlt => ?_⟩, h.length_le⟩
  · rw [← List.append_assoc]
    refine (hperm'.append_left left).trans ?_
    rw [← List.append_assoc]
    exact hperm.append_right rest'
  · rcases List.mem_append.mp hb with hb | hb
    · exact hle a ha b hb
    · -- everything kept of the part is before `b`; if `b` were before `a`, all `k` of it would
      -- have to be kept besides `a`
      by_contra hlt
      rw [not_le] at hlt
      have hfull : k ≤ kept'.length := by
        by_contra hshort
        rw [hroom' (not_le.mp hshort)] at hb
        exact List.not_mem_nil hb
      have hcount := hperm.countP_eq fun c => decide (key c < key a)
      have hbefore : kept'.countP (fun c => decide (key c < key a)) = kept'.length :=
        List.countP_eq_length.mpr fun c hc => decide_eq_true ((hle' c hc b hb).trans_lt hlt)
      have hafter : rest.countP (fun c => decide (key c < key a)) = 0 :=
        List.countP_eq_zero.mpr fun c hc => by simpa using hle a ha c hc
      have hsome : kept.countP (fun c => decide (key c < key a)) < kept.length := by
        refine lt_of_le_of_ne List.countP_le_length fun heq => ?_
        have := List.countP_eq_length.mp heq a ha
        simp at this
      rw [List.countP_append, List.countP_append, hbefore, hafter] at hcount
      have := h.length_le
      omega
  · have hrest := hroom hlt
    subst hrest
    rw [List.length_nil] at hlength
    rw [hroom' (by omega), List.nil_append]

/-! ## Sorted -/

/-- What was kept comes first, in some way to put everything in order. -/
theorem exists_sorted (h : BestOf key k all kept) : ∃ sorted : List α, sorted.Perm all ∧
    sorted.Pairwise (fun a b => key a ≤ key b) ∧ sortBy key kept = sorted.take k := by
  obtain ⟨rest, hperm, hle, hroom⟩ := h.exists_rest
  have hkept := sortBy_perm key kept
  have hrest := sortBy_perm key rest
  refine ⟨sortBy key kept ++ sortBy key rest, (hkept.append hrest).trans hperm.symm,
    List.pairwise_append.mpr ⟨pairwise_sortBy key kept, pairwise_sortBy key rest,
      fun a ha b hb => hle a (hkept.mem_iff.mp ha) b (hrest.mem_iff.mp hb)⟩, ?_⟩
  rcases h.length_le.lt_or_eq with hlt | heq
  · rw [hroom hlt, sortBy, sortBy, List.mergeSort_nil, List.append_nil]
    refine (List.take_of_length_le ?_).symm
    rw [List.length_mergeSort]
    exact hlt.le
  · rw [← heq, ← hkept.length_eq, List.take_left]

/-- In order, what was kept has the first `k` keys. -/
theorem map_sortBy (h : BestOf key k all kept) :
    (sortBy key kept).map key = ((sortBy key all).take k).map key := by
  obtain ⟨sorted, hperm, hsorted, hkept⟩ := h.exists_sorted
  have hkeys : sorted.map key = (sortBy key all).map key :=
    List.Perm.eq_of_pairwise (fun a b _ _ (hab : a ≤ b) (hba : b ≤ a) => le_antisymm hab hba)
      (List.pairwise_map.mpr hsorted) (List.pairwise_map.mpr (pairwise_sortBy key all))
      ((hperm.trans (sortBy_perm key all).symm).map key)
  rw [hkept, List.map_take, List.map_take, hkeys]

/-- Where no two elements have the same key, it is the first `k` elements. -/
theorem sortBy_eq (h : BestOf key k all kept) (hkeys : (all.map key).Nodup) :
    sortBy key kept = (sortBy key all).take k := by
  obtain ⟨sorted, hperm, hsorted, hkept⟩ := h.exists_sorted
  rw [hkept, List.Perm.eq_of_pairwise (fun a b ha hb hab hba => ?_) hsorted (pairwise_sortBy key all)
    (hperm.trans (sortBy_perm key all).symm)]
  exact List.inj_on_of_nodup_map hkeys (hperm.mem_iff.mp ha) ((sortBy_perm key all).mem_iff.mp hb)
    (le_antisymm hab hba)

/-- To sort and cut is a way to keep the best. -/
theorem take_sortBy (l : List α) : BestOf key k l ((sortBy key l).take k) := by
  have hsorted := pairwise_sortBy key l
  rw [← List.take_append_drop k (sortBy key l)] at hsorted
  refine ⟨⟨(sortBy key l).drop k, ?_, (List.pairwise_append.mp hsorted).2.2, fun hlt => ?_⟩,
    List.length_take_le k _⟩
  · rw [List.take_append_drop]
    exact (sortBy_perm key l).symm
  · rw [List.length_take] at hlt
    exact List.drop_of_length_le (by omega)

/-- The best by one key are the best by another one that goes along with it. -/
theorem mono {κ' : Type} [LinearOrder κ'] {key' : α → κ'}
    (hkey : ∀ a ∈ all, ∀ b ∈ all, key a ≤ key b → key' a ≤ key' b) (h : BestOf key k all kept) :
    BestOf key' k all kept := by
  obtain ⟨rest, hperm, hle, hroom⟩ := h.exists_rest
  refine ⟨⟨rest, hperm, fun a ha b hb => hkey a ?_ b ?_ (hle a ha b hb), hroom⟩, h.length_le⟩
  · exact hperm.mem_iff.mpr (List.mem_append_left _ ha)
  · exact hperm.mem_iff.mpr (List.mem_append_right _ hb)

/-- The best by a key of the image. -/
theorem map {β : Type} {f : β → α} {all kept : List β} (h : BestOf (fun b => key (f b)) k all kept) :
    BestOf key k (all.map f) (kept.map f) := by
  obtain ⟨rest, hperm, hle, hroom⟩ := h.exists_rest
  refine ⟨⟨rest.map f, ?_, fun a ha b hb => ?_, fun hlt => ?_⟩, ?_⟩
  · rw [← List.map_append]
    exact hperm.map f
  · obtain ⟨c, hc, rfl⟩ := List.mem_map.mp ha
    obtain ⟨d, hd, rfl⟩ := List.mem_map.mp hb
    exact hle c hc d hd
  · rw [List.length_map] at hlt
    rw [hroom hlt, List.map_nil]
  · rw [List.length_map]
    exact h.length_le

/-- There is no need to ask for more than there is. -/
theorem of_min (h : BestOf key (min all.length k) all kept) : BestOf key k all kept := by
  obtain ⟨rest, hperm, hle, hroom⟩ := h.exists_rest
  have hlength := hperm.length_eq
  rw [List.length_append] at hlength
  have hkept := h.length_le
  refine ⟨⟨rest, hperm, hle, fun hlt => ?_⟩, by omega⟩
  by_cases hshort : kept.length < min all.length k
  · exact hroom hshort
  · exact List.length_eq_zero_iff.mp (by omega)

/-- What was kept of the parts is a part of the whole. -/
theorem subperm_flatten {parts : List (List α × List α)}
    (hparts : ∀ part ∈ parts, BestOf key k part.1 part.2) :
    (parts.map (·.2)).flatten.Subperm (parts.map (·.1)).flatten := by
  induction parts with
  | nil => exact .refl _
  | cons part rest ih =>
      obtain ⟨left, hperm, -⟩ := (hparts part (List.mem_cons_self ..)).exists_rest
      rw [List.map_cons, List.map_cons, List.flatten_cons, List.flatten_cons]
      refine List.Subperm.append ?_ (ih fun other hother => hparts other (List.mem_cons_of_mem _ hother))
      exact (List.sublist_append_left part.2 left).subperm.trans hperm.symm.subperm

/-- The best of the best of each part are the best of the whole. -/
theorem flatten {parts : List (List α × List α)} (hparts : ∀ part ∈ parts, BestOf key k part.1 part.2)
    (h : BestOf key k (parts.map (·.2)).flatten kept) : BestOf key k (parts.map (·.1)).flatten kept := by
  suffices hleft : ∀ left, BestOf key k (left ++ (parts.map (·.2)).flatten) kept →
      BestOf key k (left ++ (parts.map (·.1)).flatten) kept from hleft [] h
  clear h
  induction parts with
  | nil => exact fun left h => h
  | cons part rest ih =>
      intro left h
      rw [List.map_cons, List.flatten_cons] at h ⊢
      have hrest := ih (fun other hother => hparts other (List.mem_cons_of_mem _ hother))
        (left ++ part.2) (by rwa [List.append_assoc])
      -- the rest is put first, so that the part stands at the end
      have hswap : ∀ x : List α, (left ++ x ++ (rest.map (·.1)).flatten).Perm
          ((left ++ (rest.map (·.1)).flatten) ++ x) := by
        intro x
        rw [List.append_assoc, List.append_assoc]
        exact List.perm_append_comm.append_left left
      have hlast := (hrest.perm (hswap part.2) (.refl _)).absorb (hparts part (List.mem_cons_self ..))
      rw [← List.append_assoc]
      exact hlast.perm (hswap part.1).symm (.refl _)

end BestOf

/-! ## A heap that keeps the best -/

namespace MaxPop

variable {key} {cmp : α → α → Ordering} (heapOf : MaxPop cmp)
  (hcmp : ∀ a b, cmp a b = compare (key a) (key b))

include hcmp

theorem cmp_ne_gt (a b : α) : cmp a b ≠ .gt ↔ key a ≤ key b := by
  rw [hcmp, ne_eq, compare_gt_iff_gt, not_lt]

theorem mergeSort_eq (l : List α) : (l.mergeSort fun a b => cmp a b ≠ .gt) = sortBy key l := by
  have hle : (fun a b => decide (cmp a b ≠ .gt)) = fun a b => decide (key a ≤ key b) := by
    funext a b
    exact decide_eq_decide.mpr (cmp_ne_gt hcmp a b)
  rw [sortBy, hle]

theorem bestOf_pushBounded (hk : 0 < k) {all heap : List α} (h : BestOf key k all heap)
    (candidate : α) : BestOf key k (all ++ [candidate]) (heapOf.pushBounded k heap candidate) := by
  obtain ⟨rest, hperm, hle, hroom⟩ := h.exists_rest
  have hperm' : (all ++ [candidate]).Perm (candidate :: (heap ++ rest)) :=
    (List.perm_append_singleton _ _).trans (hperm.cons _)
  unfold pushBounded
  by_cases hlt : heap.length < k
  · rw [if_pos hlt]
    obtain rfl := hroom hlt
    exact ⟨⟨[], hperm', fun _ _ => nofun, fun _ => rfl⟩, hlt⟩
  · rw [if_neg hlt]
    have hne : heap ≠ [] := by
      rintro rfl
      exact hlt hk
    obtain ⟨greatest, others, hpop, hheap, hgreatest⟩ := heapOf.pop_cons heap hne
    have hmem : greatest ∈ heap := hheap.mem_iff.mpr (List.mem_cons_self ..)
    have hbelow : ∀ a ∈ heap, key a ≤ key greatest := fun a ha => (cmp_ne_gt hcmp _ _).mp (hgreatest a ha)
    rw [hpop]
    dsimp only
    by_cases hbetter : cmp candidate greatest = .lt
    · -- the candidate takes the place of a greatest one
      rw [if_pos hbetter]
      rw [hcmp, compare_lt_iff_lt] at hbetter
      have hlength := hheap.length_eq
      rw [List.length_cons] at hlength
      refine ⟨⟨greatest :: rest, ?_, fun a ha b hb => ?_, fun h' => ?_⟩, ?_⟩
      · refine hperm'.trans (List.Perm.cons _ ?_)
        exact (hheap.append_right rest).trans List.perm_middle.symm
      · have hab : key a ≤ key greatest := by
          rcases List.mem_cons.mp ha with rfl | ha
          · exact hbetter.le
          · exact hbelow a (hheap.mem_iff.mpr (List.mem_cons_of_mem _ ha))
        rcases List.mem_cons.mp hb with rfl | hb
        · exact hab
        · exact hab.trans (hle greatest hmem b hb)
      · rw [List.length_cons] at h'
        omega
      · have := h.length_le
        rw [List.length_cons]
        omega
    · -- the candidate is not better than any that was kept
      rw [if_neg hbetter]
      rw [hcmp, compare_lt_iff_lt, not_lt] at hbetter
      refine ⟨⟨candidate :: rest, hperm'.trans List.perm_middle.symm, fun a ha b hb => ?_,
        fun h' => absurd h' hlt⟩, h.length_le⟩
      rcases List.mem_cons.mp hb with rfl | hb
      · exact (hbelow a ha).trans hbetter
      · exact hle a ha b hb

theorem bestOf_foldl (hk : 0 < k) {all heap : List α} (h : BestOf key k all heap)
    (candidates : List α) :
    BestOf key k (all ++ candidates) (candidates.foldl (heapOf.pushBounded k) heap) := by
  induction candidates generalizing all heap with
  | nil =>
      rw [List.append_nil]
      exact h
  | cons candidate rest ih =>
      have hnext := ih (heapOf.bestOf_pushBounded hcmp hk h candidate)
      rwa [List.append_assoc] at hnext

theorem bestOf_merge (hk : 0 < k) {all heap all' heap' : List α} (h : BestOf key k all heap)
    (h' : BestOf key k all' heap') : BestOf key k (all ++ all') (heapOf.merge k heap heap') := by
  have hsort := heapOf.intoSortedVec_perm heap'
  exact (heapOf.bestOf_foldl hcmp hk h _).absorb (h'.perm (.refl _) hsort.symm)

/-- Wherever the scan splits, it keeps the best `k`. -/
theorem bestOf_scan (hk : 0 < k) (plan : ScanPlan) (candidates : List α) :
    BestOf key k candidates (heapOf.scan k plan candidates) := by
  induction plan generalizing candidates with
  | segment => exact heapOf.bestOf_merge hcmp hk .nil (heapOf.bestOf_foldl hcmp hk .nil candidates)
  | split at' left right ihl ihr =>
      have hboth := heapOf.bestOf_merge hcmp hk (ihl (candidates.take at')) (ihr (candidates.drop at'))
      rwa [List.take_append_drop] at hboth

end MaxPop

end LTSearch.Foundation
