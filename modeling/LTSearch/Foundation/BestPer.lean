/-
# LTSearch.Foundation.BestPer -- one best element for each id, and the first `k` of them

Elements have an id and a key, and elements with the same key have the same id.  A list that is
given in parts is ranked part by part: the first `k` of what the parts rank first are the first `k`
of the whole, although an id may occur in several parts.
-/
import LTSearch.Foundation.BestK

namespace LTSearch.Foundation

variable {α ι κ : Type} [LinearOrder κ]

/-- How elements are told apart and ranked. -/
structure Ranking (α ι κ : Type) where
  id : α → ι
  key : α → κ
  id_eq : ∀ {a b}, key a = key b → id a = id b

namespace Ranking

variable (R : Ranking α ι κ) {k : Nat}

/-- One element for each id of a list, and no other one with the id is before it. -/
structure BestPer (all kept : List α) : Prop where
  mem : ∀ a ∈ kept, a ∈ all
  distinct : (kept.map R.id).Nodup
  covers : ∀ b ∈ all, ∃ a ∈ kept, R.id a = R.id b ∧ R.key a ≤ R.key b

/-- The first `k` of them, in order. -/
structure TopPer (k : Nat) (all out : List α) : Prop where
  mem : ∀ a ∈ out, a ∈ all
  distinct : (out.map R.id).Nodup
  best : ∀ a ∈ out, ∀ b ∈ all, R.id b = R.id a → R.key a ≤ R.key b
  sorted : out.Pairwise fun a b => R.key a < R.key b
  length_le : out.length ≤ k
  /-- an element is left out only for `k` better ones -/
  covers : ∀ b ∈ all, (∃ a ∈ out, R.id a = R.id b) ∨ out.length = k ∧ ∀ a ∈ out, R.key a < R.key b

variable {R} {all kept out : List α}

omit [LinearOrder κ] in
/-- The element of an id is the only one. -/
theorem eq_of_id (hdistinct : (kept.map R.id).Nodup) {a b : α} (ha : a ∈ kept) (hb : b ∈ kept)
    (h : R.id a = R.id b) : a = b := List.inj_on_of_nodup_map hdistinct ha hb h

/-- To sort them and cut gives the first `k`. -/
theorem BestPer.topPer (h : R.BestPer all kept) {kept' : List α} (hperm : kept'.Perm kept) :
    R.TopPer k all ((sortBy R.key kept').take k) := by
  have hall : ((sortBy R.key kept').take k ++ (sortBy R.key kept').drop k).Perm kept := by
    rw [List.take_append_drop]
    exact (sortBy_perm R.key kept').trans hperm
  have hdistinct : ((sortBy R.key kept').map R.id).Nodup :=
    (((sortBy_perm R.key kept').trans hperm).map R.id).nodup_iff.mpr h.distinct
  have hsorted : (sortBy R.key kept').Pairwise fun a b => R.key a < R.key b := by
    refine ((pairwise_sortBy R.key kept').and (List.pairwise_map.mp hdistinct)).imp ?_
    rintro a b ⟨hle, hne⟩
    exact lt_of_le_of_ne hle fun heq => hne (R.id_eq heq)
  have hmem : ∀ a ∈ (sortBy R.key kept').take k, a ∈ kept := fun a ha =>
    hall.mem_iff.mp (List.mem_append_left _ ha)
  refine {
    mem := fun a ha => h.mem a (hmem a ha)
    distinct := ((List.take_sublist k _).map R.id).nodup hdistinct
    best := fun a ha b hb hid => ?_
    sorted := hsorted.sublist (List.take_sublist k _)
    length_le := List.length_take_le k _
    covers := fun b hb => ?_ }
  · obtain ⟨a', ha', hid', hle⟩ := h.covers b hb
    rwa [← eq_of_id h.distinct ha' (hmem a ha) (hid'.trans hid)]
  · obtain ⟨a, ha, hid, hle⟩ := h.covers b hb
    rcases List.mem_append.mp (hall.mem_iff.mpr ha) with hkept | hcut
    · exact .inl ⟨a, hkept, hid⟩
    · refine .inr ⟨?_, fun c hc => ?_⟩
      · have := List.length_pos_of_mem hcut
        rw [List.length_drop] at this
        rw [List.length_take]
        omega
      · rw [← List.take_append_drop k (sortBy R.key kept')] at hsorted
        exact ((List.pairwise_append.mp hsorted).2.2 c hc a hcut).trans_le hle

/-! ## There is one way to rank -/

omit [LinearOrder κ] in
/-- A list of ids that all occur in another one, and one more that does, is shorter. -/
theorem length_lt_of_ids {l l' : List α} {a : α} (hl : (l.map R.id).Nodup)
    (hsub : ∀ b ∈ l, ∃ c ∈ l', R.id c = R.id b) (ha : a ∈ l') (hfresh : ∀ b ∈ l, R.id b ≠ R.id a) :
    l.length < l'.length := by
  have hnodup : (R.id a :: l.map R.id).Nodup := by
    refine List.nodup_cons.mpr ⟨fun hmem => ?_, hl⟩
    obtain ⟨b, hb, hid⟩ := List.mem_map.mp hmem
    exact hfresh b hb hid
  have hlength : _ ≤ (l'.map R.id).length := hnodup.length_le_of_subset fun x hx => by
    rcases List.mem_cons.mp hx with rfl | hx
    · exact List.mem_map_of_mem ha
    · obtain ⟨b, hb, rfl⟩ := List.mem_map.mp hx
      obtain ⟨c, hc, hid⟩ := hsub b hb
      exact hid ▸ List.mem_map_of_mem hc
  rw [List.length_cons, List.length_map, List.length_map] at hlength
  exact hlength

/-- What one ranking of a list contains, each other one does. -/
theorem TopPer.key_mem {out' : List α} (h : R.TopPer k all out) (h' : R.TopPer k all out') {a : α}
    (ha : a ∈ out) : R.key a ∈ out'.map R.key := by
  rcases h'.covers a (h.mem a ha) with ⟨a', ha', hid⟩ | ⟨hfull, hbefore⟩
  · have heq : R.key a = R.key a' :=
      le_antisymm (h.best a ha a' (h'.mem a' ha') hid) (h'.best a' ha' a (h.mem a ha) hid.symm)
    exact heq ▸ List.mem_map_of_mem ha'
  · -- `k` others would be before `a`, and so they would be in `out` besides `a`
    exfalso
    have hlength := length_lt_of_ids (l := out') h'.distinct (fun b hb => ?_) ha fun b hb hid => ?_
    · have := h.length_le
      omega
    · rcases h.covers b (h'.mem b hb) with hin | ⟨-, hlast⟩
      · exact hin
      · exact absurd (hlast a ha) (hbefore b hb).not_gt
    · exact (h.best a ha b (h'.mem b hb) hid).not_gt (hbefore b hb)

theorem TopPer.unique {out' : List α} (h : R.TopPer k all out) (h' : R.TopPer k all out') :
    out.map R.key = out'.map R.key := by
  have hkeys := List.pairwise_map.mpr h.sorted
  have hkeys' := List.pairwise_map.mpr h'.sorted
  have hnodup := hkeys.imp fun hlt => ne_of_lt hlt
  have hnodup' := hkeys'.imp fun hlt => ne_of_lt hlt
  refine List.Perm.eq_of_pairwise (fun a b _ _ hab hba => absurd hab hba.not_gt) hkeys hkeys'
    ((List.perm_ext_iff_of_nodup hnodup hnodup').mpr fun x => ⟨fun hx => ?_, fun hx => ?_⟩)
  · obtain ⟨a, ha, rfl⟩ := List.mem_map.mp hx
    exact h.key_mem h' ha
  · obtain ⟨a, ha, rfl⟩ := List.mem_map.mp hx
    exact h'.key_mem h ha

/-! ## Part by part -/

/-- Some of a list that the whole may be ranked by: what is left out has the same id as a better
one, or is behind `k` others. -/
structure Enough (k : Nat) (all some : List α) : Prop where
  mem : ∀ a ∈ some, a ∈ all
  covers : ∀ b ∈ all, (∃ a ∈ some, R.id a = R.id b ∧ R.key a ≤ R.key b) ∨
    ∃ before : List α, (∀ a ∈ before, a ∈ some) ∧ (before.map R.id).Nodup ∧ before.length = k ∧
      ∀ a ∈ before, R.key a < R.key b

/-- The first `k` of each part are enough. -/
theorem enough_flatten {parts : List (List α × List α)} {some : List α}
    (hparts : ∀ part ∈ parts, R.TopPer k part.1 part.2)
    (hsome : ∀ a, a ∈ some ↔ a ∈ (parts.map (·.2)).flatten) :
    R.Enough k (parts.map (·.1)).flatten some := by
  constructor
  · intro a ha
    obtain ⟨l, hl, ha⟩ := List.mem_flatten.mp ((hsome a).mp ha)
    obtain ⟨part, hpart, rfl⟩ := List.mem_map.mp hl
    exact List.mem_flatten.mpr ⟨part.1, List.mem_map_of_mem hpart, (hparts part hpart).mem a ha⟩
  · intro b hb
    obtain ⟨l, hl, hb⟩ := List.mem_flatten.mp hb
    obtain ⟨part, hpart, rfl⟩ := List.mem_map.mp hl
    have hin : ∀ a ∈ part.2, a ∈ some := fun a ha =>
      (hsome a).mpr (List.mem_flatten.mpr ⟨part.2, List.mem_map_of_mem hpart, ha⟩)
    have htop := hparts part hpart
    rcases htop.covers b hb with ⟨a, ha, hid⟩ | ⟨hfull, hbefore⟩
    · exact .inl ⟨a, hin a ha, hid, htop.best a ha b hb hid.symm⟩
    · exact .inr ⟨part.2, hin, htop.distinct, hfull, hbefore⟩

/-- If all of `k` elements have an id in the ranking, nothing else has. -/
theorem TopPer.exists_before {some before : List α} (h : R.TopPer k some out)
    (hdistinct : (before.map R.id).Nodup) (hlength : before.length = k)
    (hin : ∀ c ∈ before, ∃ a ∈ out, R.id a = R.id c) {a : α} (ha : a ∈ out) :
    ∃ c ∈ before, R.id c = R.id a := by
  by_contra hnone
  simp only [not_exists, not_and] at hnone
  have := length_lt_of_ids hdistinct hin ha hnone
  have := h.length_le
  omega

/-- What ranks enough of a list ranks the list. -/
theorem TopPer.of_enough {some : List α} (h : R.TopPer k some out) (henough : R.Enough k all some) :
    R.TopPer k all out where
  mem a ha := henough.mem a (h.mem a ha)
  distinct := h.distinct
  best := by
    intro a ha b hb hid
    rcases henough.covers b hb with ⟨a', ha', hid', hle⟩ | ⟨before, hin, hdistinct, hlength, hbefore⟩
    · exact (h.best a ha a' ha' (hid'.trans hid)).trans hle
    · -- one of the `k` elements before `b` has the id of `a`, or is behind `a`
      by_cases hall : ∀ c ∈ before, ∃ a ∈ out, R.id a = R.id c
      · obtain ⟨c, hc, hid⟩ := h.exists_before hdistinct hlength hall ha
        exact (h.best a ha c (hin c hc) hid).trans (hbefore c hc).le
      · simp only [not_forall] at hall
        obtain ⟨c, hc, hnone⟩ := hall
        obtain ⟨-, hlast⟩ := (h.covers c (hin c hc)).resolve_left hnone
        exact ((hlast a ha).trans (hbefore c hc)).le
  sorted := h.sorted
  length_le := h.length_le
  covers := by
    intro b hb
    rcases henough.covers b hb with ⟨a', ha', hid', hle⟩ | ⟨before, hin, hdistinct, hlength, hbefore⟩
    · exact (h.covers a' ha').imp (fun ⟨a, ha, hid⟩ => ⟨a, ha, hid.trans hid'⟩)
        fun ⟨hfull, hlast⟩ => ⟨hfull, fun a ha => (hlast a ha).trans_le hle⟩
    · by_cases hall : ∀ c ∈ before, ∃ a ∈ out, R.id a = R.id c
      · refine .inr ⟨le_antisymm h.length_le ?_, fun a ha => ?_⟩
        · have hsub : before.map R.id ⊆ out.map R.id := fun x hx => by
            obtain ⟨c, hc, rfl⟩ := List.mem_map.mp hx
            obtain ⟨a, ha, hid⟩ := hall c hc
            exact hid ▸ List.mem_map_of_mem ha
          have := hdistinct.length_le_of_subset hsub
          rwa [List.length_map, List.length_map, hlength] at this
        · obtain ⟨c, hc, hid⟩ := h.exists_before hdistinct hlength hall ha
          exact (h.best a ha c (hin c hc) hid).trans_lt (hbefore c hc)
      · simp only [not_forall] at hall
        obtain ⟨c, hc, hnone⟩ := hall
        obtain ⟨hfull, hlast⟩ := (h.covers c (hin c hc)).resolve_left hnone
        exact .inr ⟨hfull, fun a ha => (hlast a ha).trans (hbefore c hc)⟩

end Ranking

end LTSearch.Foundation
