/-
# LTSearch.Foundation.Grouping -- a table that is filled item by item

Each item is put under its key where there is nothing yet, and updates what is there otherwise.  What
a key has in the end is what its own items make of it, in their order.
-/
import LTSearch.Foundation.Table

namespace LTSearch.Foundation

universe u v

namespace Table

variable {ι : Type} {ρ : Type u} {κ : Type v} {key : ρ → κ} [DecidableEq κ]

/-- What is there after one more item. -/
def entered (row : ι → ρ) (update : ι → ρ → ρ) (found : Option ρ) (item : ι) : Option ρ :=
  some ((found.map (update item)).getD (row item))

theorem get_foldl_upsert (row : ι → ρ) (update : ι → ρ → ρ)
    (hupdate : ∀ item r, key (update item r) = key r) (items : List ι) (t : Table key) (k : κ) :
    (items.foldl (fun t item => t.upsert (row item) (update item) (hupdate item)) t).get k =
      (items.filter fun item => key (row item) = k).foldl (entered row update) (t.get k) := by
  induction items generalizing t with
  | nil => rfl
  | cons item rest ih =>
      rw [List.foldl_cons, ih, get_upsert]
      by_cases hkey : key (row item) = k
      · rw [if_pos hkey, List.filter_cons_of_pos (by simpa using hkey), List.foldl_cons]
        rfl
      · rw [if_neg hkey, List.filter_cons_of_neg (by simpa using hkey)]

variable {row : ι → ρ} {update : ι → ρ → ρ}

/-- From the first item on something is there. -/
theorem foldl_entered_some (items : List ι) (r : ρ) :
    items.foldl (entered row update) (some r) =
      some (items.foldl (fun r item => update item r) r) := by
  induction items generalizing r with
  | nil => rfl
  | cons item rest ih => exact ih (update item r)

theorem foldl_entered_none (items : List ι) :
    items.foldl (entered row update) none = items.head?.map fun item =>
      items.tail.foldl (fun r item => update item r) (row item) := by
  cases items with
  | nil => rfl
  | cons item rest => exact foldl_entered_some rest (row item)

/-- Where an update leaves what is there, the first item stays. -/
theorem foldl_entered_id (items : List ι) (found : Option ρ) :
    items.foldl (entered row fun _ r => r) found = found.or (items.head?.map row) := by
  have hfold : ∀ (items : List ι) (r : ρ), items.foldl (fun r _ => r) r = r := by
    intro items r
    induction items with
    | nil => rfl
    | cons item rest ih => exact ih
  cases found with
  | some r => rw [foldl_entered_some, hfold, Option.some_or]
  | none =>
      rw [foldl_entered_none, Option.none_or]
      exact congrArg (fun f => items.head?.map f) (funext fun item => hfold _ _)

end Table

end LTSearch.Foundation
