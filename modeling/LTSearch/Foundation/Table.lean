/-
# LTSearch.Foundation.Table -- finite tables with a primary key

A `Table key` is a list of rows in which no two rows share a key; the uniqueness is a field, so a
table that violates its primary key cannot be built.  The four statements a relational store runs
against such a table (`SELECT` by key, `INSERT .. ON CONFLICT DO UPDATE`, `UPDATE .. WHERE`,
`DELETE .. WHERE`) are operations on it, and so is the insertion of a map; each one has one
equation that says what a later `SELECT` by key answers.  Everything proved about a program over
tables goes through those equations: the order of the rows is never observed.

The module names nothing of any program: rows, keys and conditions are arbitrary.
-/
import Mathlib

namespace LTSearch.Foundation

universe u v

/-- A finite table of rows `ρ` whose primary key is read by `key`. -/
structure Table {ρ : Type u} {κ : Type v} (key : ρ → κ) where
  rows : List ρ
  nodup : (rows.map key).Nodup

namespace Table

variable {ρ : Type u} {κ : Type v} {key : ρ → κ}

@[ext]
theorem ext {t u : Table key} (h : t.rows = u.rows) : t = u := by
  cases t
  cases u
  cases h
  rfl

instance [DecidableEq ρ] : DecidableEq (Table key) := fun t u =>
  decidable_of_iff (t.rows = u.rows) ⟨ext, congrArg rows⟩

/-- The table with no rows. -/
def empty : Table key where
  rows := []
  nodup := by simp

instance : EmptyCollection (Table key) := ⟨empty⟩

instance : Inhabited (Table key) := ⟨empty⟩

@[simp]
theorem rows_empty : (∅ : Table key).rows = [] := rfl

variable [DecidableEq κ]

/-- `SELECT .. WHERE key = k`: at most one row answers. -/
def get (t : Table key) (k : κ) : Option ρ :=
  t.rows.find? (fun r => key r = k)

/-- `UPDATE .. SET f WHERE p`, for an update that leaves the key alone. -/
def updateWhere (t : Table key) (p : ρ → Bool) (f : ρ → ρ) (hf : ∀ r, key (f r) = key r) :
    Table key where
  rows := t.rows.map (fun r => if p r then f r else r)
  nodup := by
    have hkeys : (t.rows.map (fun r => if p r then f r else r)).map key = t.rows.map key := by
      rw [List.map_map]
      apply List.map_congr_left
      intro r _
      by_cases hp : p r = true <;> simp [hp, hf]
    rw [hkeys]
    exact t.nodup

/-- `DELETE .. WHERE p`. -/
def deleteWhere (t : Table key) (p : ρ → Bool) : Table key where
  rows := t.rows.filter (fun r => !p r)
  nodup := (List.filter_sublist.map key).nodup t.nodup

/-- `INSERT r ON CONFLICT (key) DO UPDATE SET f`: the row already stored under the key of `r` is
updated by `f`, and `r` itself is stored only when there is none. -/
def upsert (t : Table key) (r : ρ) (f : ρ → ρ) (hf : ∀ r, key (f r) = key r) : Table key :=
  if h : (t.get (key r)).isSome then
    t.updateWhere (fun e => key e = key r) f hf
  else
    { rows := t.rows ++ [r]
      nodup := by
        rw [List.map_append, List.map_singleton]
        refine List.Nodup.append t.nodup (List.nodup_singleton _) ?_
        intro k hk hr
        rw [List.mem_singleton] at hr
        subst hr
        obtain ⟨e, he, hke⟩ := List.mem_map.mp hk
        apply h
        exact List.find?_isSome.mpr ⟨e, he, by simp [hke]⟩ }

/-- Store `r` under its key, in place of whatever row was there: `HashMap::insert`. -/
def put (t : Table key) (r : ρ) : Table key where
  rows := t.rows.filter (fun e => key e ≠ key r) ++ [r]
  nodup := by
    rw [List.map_append, List.map_singleton]
    refine List.Nodup.append ((List.filter_sublist.map key).nodup t.nodup)
      (List.nodup_singleton _) ?_
    intro k hk hr
    rw [List.mem_singleton] at hr
    subst hr
    obtain ⟨e, he, hke⟩ := List.mem_map.mp hk
    exact of_decide_eq_true (List.mem_filter.mp he).2 hke

/-! ## Reading a row back -/

theorem get_eq_some_iff {t : Table key} {k : κ} {r : ρ} :
    t.get k = some r ↔ r ∈ t.rows ∧ key r = k := by
  constructor
  · intro h
    exact ⟨List.mem_of_find?_eq_some h, by simpa using List.find?_some h⟩
  · rintro ⟨hr, rfl⟩
    have hsome : (t.get (key r)).isSome := List.find?_isSome.mpr ⟨r, hr, by simp⟩
    obtain ⟨e, he⟩ := Option.isSome_iff_exists.mp hsome
    have hmem : e ∈ t.rows := List.mem_of_find?_eq_some he
    have hkey : key e = key r := by simpa using List.find?_some he
    rw [he, List.inj_on_of_nodup_map t.nodup hmem hr hkey]

theorem get_eq_none_iff {t : Table key} {k : κ} :
    t.get k = none ↔ ∀ r ∈ t.rows, key r ≠ k := by
  simp [get]

theorem key_of_get {t : Table key} {k : κ} {r : ρ} (h : t.get k = some r) : key r = k :=
  (get_eq_some_iff.mp h).2

theorem mem_iff_get {t : Table key} {r : ρ} : r ∈ t.rows ↔ t.get (key r) = some r := by
  rw [get_eq_some_iff]
  simp

/-- Selecting by key finds the one row there is. -/
theorem filter_key (t : Table key) (k : κ) :
    t.rows.filter (fun r => key r = k) = (t.get k).toList := by
  have hnodup : (t.rows.filter (fun r => key r = k)).Nodup :=
    (List.Nodup.of_map key t.nodup).filter _
  cases hk : t.get k with
  | none => exact List.filter_eq_nil_iff.mpr fun r hr => by simpa using get_eq_none_iff.mp hk r hr
  | some e =>
      apply List.perm_singleton.mp
      rw [List.perm_ext_iff_of_nodup hnodup (List.nodup_singleton e)]
      intro r
      rw [List.mem_filter, decide_eq_true_iff, ← get_eq_some_iff, hk, List.mem_singleton]
      exact ⟨fun h => (Option.some.inj h).symm, fun h => congrArg some h.symm⟩

@[simp]
theorem get_empty (k : κ) : (∅ : Table key).get k = none := rfl

/-! ## The equations of the operations -/

/-- An update is seen through the row it rewrites. -/
theorem get_updateWhere (t : Table key) (p : ρ → Bool) (f : ρ → ρ) (hf : ∀ r, key (f r) = key r)
    (k : κ) :
    (t.updateWhere p f hf).get k = (t.get k).map (fun r => if p r then f r else r) := by
  have hkey : ∀ r, key (if p r then f r else r) = key r := by
    intro r
    by_cases hp : p r = true <;> simp [hp, hf]
  unfold get updateWhere
  rw [List.find?_map]
  congr 1
  apply congrArg (fun q => List.find? q t.rows)
  funext r
  simp [Function.comp, hkey]

/-- A deletion removes exactly the rows that meet the condition. -/
theorem get_deleteWhere (t : Table key) (p : ρ → Bool) (k : κ) :
    (t.deleteWhere p).get k = (t.get k).filter (fun r => !p r) := by
  cases hk : t.get k with
  | none =>
      rw [get_eq_none_iff] at hk
      rw [Option.filter_none, get_eq_none_iff]
      intro r hr
      exact hk r (List.mem_of_mem_filter hr)
  | some r =>
      obtain ⟨hr, hkr⟩ := get_eq_some_iff.mp hk
      by_cases hp : p r = true
      · rw [Option.filter_some_neg (by simp [hp]), get_eq_none_iff]
        intro e he hke
        have hmem : e ∈ t.rows := List.mem_of_mem_filter he
        have heq : e = r := List.inj_on_of_nodup_map t.nodup hmem hr (hke.trans hkr.symm)
        subst heq
        have hkept := (List.mem_filter.mp he).2
        simp [hp] at hkept
      · rw [Option.filter_some_pos (by simp [hp]), get_eq_some_iff]
        exact ⟨List.mem_filter.mpr ⟨hr, by simp [hp]⟩, hkr⟩

/-- An upsert writes the row under its own key and no other. -/
theorem get_upsert (t : Table key) (r : ρ) (f : ρ → ρ) (hf : ∀ r, key (f r) = key r) (k : κ) :
    (t.upsert r f hf).get k =
      if key r = k then some (((t.get k).map f).getD r) else t.get k := by
  by_cases hs : (t.get (key r)).isSome = true
  · rw [upsert, dif_pos hs, get_updateWhere]
    by_cases hk : key r = k
    · subst hk
      obtain ⟨e, he⟩ := Option.isSome_iff_exists.mp hs
      simp [he, key_of_get he]
    · rw [if_neg hk]
      cases he : t.get k with
      | none => rfl
      | some e =>
          have hne : key e ≠ key r := fun h => hk (h.symm.trans (key_of_get he))
          simp [hne]
  · rw [upsert, dif_neg hs]
    have hnone : t.get (key r) = none := by simpa using hs
    by_cases hk : key r = k
    · subst hk
      rw [if_pos rfl, hnone]
      simp only [get, List.find?_append]
      have : t.rows.find? (fun e => key e = key r) = none := hnone
      rw [this]
      simp
    · rw [if_neg hk]
      simp [get, List.find?_append, hk]

/-- A row put into the table is found under its key, and the other keys answer as before. -/
theorem get_put (t : Table key) (r : ρ) (k : κ) :
    (t.put r).get k = if key r = k then some r else t.get k := by
  by_cases hk : key r = k
  · rw [if_pos hk, get_eq_some_iff]
    exact ⟨List.mem_append_right _ (List.mem_singleton_self r), hk⟩
  · rw [if_neg hk]
    cases hget : t.get k with
    | none =>
        rw [get_eq_none_iff] at hget ⊢
        intro e he
        rcases List.mem_append.mp he with he | he
        · exact hget e (List.mem_of_mem_filter he)
        · rw [List.mem_singleton.mp he]
          exact hk
    | some e =>
        obtain ⟨he, hke⟩ := get_eq_some_iff.mp hget
        rw [get_eq_some_iff]
        refine ⟨List.mem_append_left _ (List.mem_filter.mpr ⟨he, decide_eq_true ?_⟩), hke⟩
        rw [hke]
        exact Ne.symm hk

omit [DecidableEq κ] in
/-- A deletion whose condition no row meets changes nothing at all. -/
theorem deleteWhere_of_none {t : Table key} {p : ρ → Bool} (h : ∀ r ∈ t.rows, p r = false) :
    t.deleteWhere p = t := by
  apply ext
  exact List.filter_eq_self.mpr (fun r hr => by simp [h r hr])

end Table

end LTSearch.Foundation
