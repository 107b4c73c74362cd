/-
# LTSearch.Foundation.SortedMap -- maps that list their entries in key order

A map over ordered keys is built by inserting entries one after the other; an entry replaces one of the
same key.  Inserting entries of distinct keys in another order builds the same map.
-/
import Mathlib.Data.List.Induction
import Mathlib.Data.List.Sort

namespace LTSearch.Foundation

universe u v

variable {κ : Type u} {α : Type v} [LinearOrder κ]

/-- The entries with this one in its place. -/
def insertEntry (entry : κ × α) : List (κ × α) → List (κ × α)
  | [] => [entry]
  | other :: rest =>
      if entry.1 < other.1 then entry :: other :: rest
      else if entry.1 = other.1 then entry :: rest
      else other :: insertEntry entry rest

/-- The map of the entries, inserted from the first to the last. -/
def ofEntries (entries : List (κ × α)) : List (κ × α) :=
  entries.foldl (fun map entry => insertEntry entry map) []

/-- Two entries of distinct keys go in in either order. -/
theorem insertEntry_comm {a b : κ × α} (h : a.1 < b.1) (map : List (κ × α)) :
    insertEntry b (insertEntry a map) = insertEntry a (insertEntry b map) := by
  induction map with
  | nil => simp [insertEntry, h, h.not_gt, h.ne']
  | cons head rest ih =>
      rcases lt_trichotomy a.1 head.1 with ha | ha | ha
      · -- `a` goes in front, wherever `b` goes
        rcases lt_trichotomy b.1 head.1 with hb | hb | hb
        · simp [insertEntry, ha, hb, h, h.not_gt, h.ne']
        · simp [insertEntry, hb, ha, ha.not_gt, ha.ne']
        · simp [insertEntry, ha, hb.not_gt, hb.ne', h.not_gt, h.ne']
      · have hb : head.1 < b.1 := ha ▸ h
        simp [insertEntry, ha, hb.not_gt, hb.ne']
      · have hb : head.1 < b.1 := ha.trans h
        simp [insertEntry, ha.not_gt, ha.ne', hb.not_gt, hb.ne', ih]

/-- The order of entries of distinct keys does not matter. -/
theorem ofEntries_perm {entries entries' : List (κ × α)} (hperm : entries.Perm entries')
    (hkeys : (entries.map Prod.fst).Nodup) : ofEntries entries = ofEntries entries' := by
  apply hperm.foldl_eq'
  intro a ha b hb map
  rcases lt_trichotomy a.1 b.1 with hlt | heq | hgt
  · exact insertEntry_comm hlt map
  · rw [List.inj_on_of_nodup_map hkeys ha hb heq]
  · exact (insertEntry_comm hgt map).symm

theorem mem_insertEntry {entry a : κ × α} {map : List (κ × α)} (h : a ∈ insertEntry entry map) :
    a = entry ∨ a ∈ map := by
  induction map with
  | nil => exact .inl (List.mem_singleton.mp h)
  | cons other rest ih =>
      unfold insertEntry at h
      split_ifs at h
      · exact List.mem_cons.mp h
      · exact (List.mem_cons.mp h).imp_right (List.mem_cons_of_mem _)
      · rcases List.mem_cons.mp h with rfl | h
        · exact .inr List.mem_cons_self
        · exact (ih h).imp_right (List.mem_cons_of_mem _)

/-- The map holds no other entries. -/
theorem mem_of_mem_ofEntries {entries : List (κ × α)} {a : κ × α} (h : a ∈ ofEntries entries) :
    a ∈ entries := by
  have hfold : ∀ map : List (κ × α),
      a ∈ entries.foldl (fun map entry => insertEntry entry map) map → a ∈ entries ∨ a ∈ map := by
    clear h
    induction entries with
    | nil => exact fun map h => .inr h
    | cons entry rest ih =>
        intro map h
        rcases ih _ h with h | h
        · exact .inl (List.mem_cons_of_mem _ h)
        · exact (mem_insertEntry h).imp_left fun (heq : a = entry) => heq ▸ List.mem_cons_self
  exact (hfold [] h).resolve_right List.not_mem_nil

/-- The entries stay in key order, each key once. -/
theorem pairwise_insertEntry {map : List (κ × α)} (entry : κ × α)
    (h : map.Pairwise fun a b => a.1 < b.1) :
    (insertEntry entry map).Pairwise fun a b => a.1 < b.1 := by
  induction map with
  | nil => exact List.pairwise_singleton _ _
  | cons other rest ih =>
      obtain ⟨hother, hrest⟩ := List.pairwise_cons.mp h
      unfold insertEntry
      split_ifs with hlt heq
      · refine List.pairwise_cons.mpr ⟨fun a ha => ?_, h⟩
        rcases List.mem_cons.mp ha with rfl | ha
        · exact hlt
        · exact hlt.trans (hother a ha)
      · exact List.pairwise_cons.mpr ⟨fun a ha => heq ▸ hother a ha, hrest⟩
      · refine List.pairwise_cons.mpr ⟨fun a ha => ?_, ih hrest⟩
        rcases mem_insertEntry ha with rfl | ha
        · exact lt_of_le_of_ne (not_lt.mp hlt) (Ne.symm heq)
        · exact hother a ha

theorem pairwise_ofEntries (entries : List (κ × α)) :
    (ofEntries entries).Pairwise fun a b => a.1 < b.1 := by
  have hfold : ∀ (entries map : List (κ × α)), (map.Pairwise fun a b => a.1 < b.1) →
      (entries.foldl (fun map entry => insertEntry entry map) map).Pairwise fun a b => a.1 < b.1 := by
    intro entries
    induction entries with
    | nil => exact fun map h => h
    | cons entry rest ih => exact fun map h => ih _ (pairwise_insertEntry entry h)
  exact hfold entries [] .nil

theorem nodup_keys_ofEntries (entries : List (κ × α)) : ((ofEntries entries).map Prod.fst).Nodup :=
  List.pairwise_map.mpr ((pairwise_ofEntries entries).imp ne_of_lt)

/-- An entry past the last goes to the end. -/
theorem insertEntry_of_lt {entry : κ × α} {map : List (κ × α)} (h : ∀ a ∈ map, a.1 < entry.1) :
    insertEntry entry map = map ++ [entry] := by
  induction map with
  | nil => rfl
  | cons other rest ih =>
      obtain ⟨hother, hrest⟩ := List.forall_mem_cons.mp h
      rw [insertEntry, if_neg hother.not_gt, if_neg hother.ne', ih hrest, List.cons_append]

/-- Entries in key order are the map they make. -/
theorem ofEntries_of_pairwise {entries : List (κ × α)} (h : entries.Pairwise fun a b => a.1 < b.1) :
    ofEntries entries = entries := by
  induction entries using List.reverseRecOn with
  | nil => rfl
  | append_singleton front entry ih =>
      obtain ⟨hfront, -, hlast⟩ := List.pairwise_append.mp h
      have hstep : ofEntries (front ++ [entry]) = insertEntry entry (ofEntries front) := by
        rw [ofEntries, List.foldl_append]
        rfl
      rw [hstep, ih hfront, insertEntry_of_lt fun a ha => hlast a ha entry List.mem_cons_self]

section Lookup

variable [BEq κ] [LawfulBEq κ]

theorem lookup_cons_eq (entry : κ × α) (rest : List (κ × α)) (key : κ) :
    (entry :: rest).lookup key = if key = entry.1 then some entry.2 else rest.lookup key := by
  show (match key == entry.1 with | true => _ | false => _) = _
  by_cases h : key = entry.1
  · rw [beq_iff_eq.mpr h, if_pos h]
  · rw [beq_eq_false_iff_ne.mpr h, if_neg h]

/-- The map answers the new entry for its key, and what it answered before for the others. -/
theorem lookup_insertEntry (entry : κ × α) (map : List (κ × α)) (key : κ) :
    (insertEntry entry map).lookup key = if key = entry.1 then some entry.2 else map.lookup key := by
  induction map with
  | nil => exact lookup_cons_eq entry [] key
  | cons other rest ih =>
      rcases lt_trichotomy entry.1 other.1 with hlt | heq | hgt
      · rw [insertEntry, if_pos hlt, lookup_cons_eq]
      · rw [insertEntry, if_neg heq.not_lt, if_pos heq, lookup_cons_eq, lookup_cons_eq, heq]
        split_ifs <;> rfl
      · rw [insertEntry, if_neg hgt.not_gt, if_neg hgt.ne', lookup_cons_eq, lookup_cons_eq, ih]
        split_ifs with h h'
        · exact absurd (h ▸ h') hgt.ne
        · rfl
        · rfl
        · rfl

/-- Sorting entries of distinct keys into a map changes no answer. -/
theorem lookup_ofEntries {entries : List (κ × α)} (hkeys : (entries.map Prod.fst).Nodup) (key : κ) :
    (ofEntries entries).lookup key = entries.lookup key := by
  have hfold : ∀ map : List (κ × α),
      (entries.foldl (fun map entry => insertEntry entry map) map).lookup key =
        (entries.lookup key).or (map.lookup key) := by
    induction entries with
    | nil => exact fun map => rfl
    | cons entry rest ih =>
        obtain ⟨hnew, hrest⟩ := List.nodup_cons.mp hkeys
        intro map
        rw [List.foldl_cons, ih hrest, lookup_insertEntry, lookup_cons_eq]
        split_ifs with h
        · -- no later entry has the key
          have hnone : rest.lookup key = none := by
            refine List.lookup_eq_none_iff.mpr fun later hlater => bne_iff_ne.mpr fun heq => hnew ?_
            rw [← h, heq]
            exact List.mem_map_of_mem hlater
          rw [hnone]
          rfl
        · rfl
  exact (hfold []).trans (Option.or_none)

end Lookup

end LTSearch.Foundation
