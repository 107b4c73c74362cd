/-
# LTSearch.Foundation.FileTree -- directories as trees, and paths into them

A directory is a list of named entries; a path is a list of names.  `get` follows a path, `set` puts a
node at the end of a path whose parent is a directory, or takes it away.  Every change to a tree is
described by what it does to the paths it is made at, above it, and apart from it.
-/
import Mathlib

namespace LTSearch.Foundation

inductive FileTree where
  | file (bytes : List UInt8)
  | dir (entries : List (String × FileTree))

namespace FileTree

abbrev Path := List String

/-! ## Entries of one directory -/

/-- The entry under a name is replaced, added or taken away. -/
def put (entries : List (String × FileTree)) (name : String) (x : Option FileTree) :
    List (String × FileTree) :=
  x.toList.map (fun node => (name, node)) ++ entries.filter fun entry => entry.1 ≠ name

theorem lookup_filter_ne {entries : List (String × FileTree)} {name other : String} :
    (entries.filter fun entry => entry.1 ≠ name).lookup other =
      if other = name then none else entries.lookup other := by
  induction entries with
  | nil => simp
  | cons entry rest ih =>
      by_cases hentry : entry.1 = name
      · have hkept : (entry :: rest).filter (fun entry => entry.1 ≠ name) =
            rest.filter fun entry => entry.1 ≠ name := by simp [hentry]
        rw [hkept, ih, List.lookup_cons]
        by_cases hother : other = name
        · rw [if_pos hother, if_pos hother]
        · have hne : (other == entry.1) = false := beq_eq_false_iff_ne.mpr (hentry ▸ hother)
          rw [if_neg hother, if_neg hother, hne]
      · have hkept : (entry :: rest).filter (fun entry => entry.1 ≠ name) =
            entry :: rest.filter fun entry => entry.1 ≠ name := by simp [hentry]
        rw [hkept, List.lookup_cons, List.lookup_cons, ih]
        by_cases hother : other = name
        · have hne : (other == entry.1) = false :=
            beq_eq_false_iff_ne.mpr fun h => hentry (h.symm.trans hother)
          rw [if_pos hother, if_pos hother, hne]
        · rw [if_neg hother, if_neg hother]

theorem lookup_put (entries : List (String × FileTree)) (name other : String) (x : Option FileTree) :
    (put entries name x).lookup other = if other = name then x else entries.lookup other := by
  unfold put
  rw [List.lookup_append, lookup_filter_ne]
  by_cases hother : other = name
  · subst hother
    cases x <;> simp
  · cases x with
    | none => simp [hother]
    | some node => simp [hother, List.lookup_cons, beq_eq_false_iff_ne.mpr hother]

/-! ## Paths -/

/-- Follow a path. -/
def get : Path → FileTree → Option FileTree
  | [], tree => some tree
  | _ :: _, .file _ => none
  | name :: rest, .dir entries => (entries.lookup name).bind (get rest)

/-- Change what is at the end of a path.  Where the parent is no directory, nothing changes. -/
def set : Path → Option FileTree → FileTree → FileTree
  | [], x, tree => x.getD tree
  | _ :: _, _, .file bytes => .file bytes
  | [name], x, .dir entries => .dir (put entries name x)
  | name :: next :: rest, x, .dir entries =>
      match entries.lookup name with
      | some child => .dir (put entries name (some (set (next :: rest) x child)))
      | none => .dir entries

/-- Neither path leads through the other. -/
def Apart (p q : Path) : Prop := ¬p <+: q ∧ ¬q <+: p

instance (p q : Path) : Decidable (Apart p q) := inferInstanceAs (Decidable (_ ∧ _))

theorem Apart.symm {p q : Path} (h : Apart p q) : Apart q p := ⟨h.2, h.1⟩

theorem Apart.ne_nil {p q : Path} (h : Apart p q) : p ≠ [] := by
  rintro rfl
  exact h.1 List.nil_prefix

/-- Paths apart stay apart further down. -/
theorem Apart.append {p q : Path} (h : Apart p q) (r : Path) : Apart p (q ++ r) := by
  refine ⟨fun hp => ?_, fun hq => h.2 ((List.prefix_append q r).trans hq)⟩
  rcases List.prefix_or_prefix_of_prefix hp (List.prefix_append q r) with h' | h'
  · exact h.1 h'
  · exact h.2 h'

theorem apart_cons {name : String} {p q : Path} : Apart (name :: p) (name :: q) ↔ Apart p q := by
  simp only [Apart, List.cons_prefix_cons, true_and]

theorem get_append (p q : Path) (tree : FileTree) : get (p ++ q) tree = (get p tree).bind (get q) := by
  induction p generalizing tree with
  | nil => rfl
  | cons name rest ih =>
      cases tree with
      | file bytes => rfl
      | dir entries =>
          show (entries.lookup name).bind (get (rest ++ q)) = _
          rw [show get (name :: rest) (.dir entries) = (entries.lookup name).bind (get rest) from rfl,
            Option.bind_assoc]
          exact Option.bind_congr fun child _ => ih child

@[simp]
theorem get_nil (tree : FileTree) : get [] tree = some tree := rfl

theorem get_file (name : String) (rest : Path) (bytes : List UInt8) :
    get (name :: rest) (.file bytes) = none := rfl

theorem get_dir (name : String) (rest : Path) (entries : List (String × FileTree)) :
    get (name :: rest) (.dir entries) = (entries.lookup name).bind (get rest) := rfl

/-- Above the end of the path a change is made inside. -/
theorem get_set_above (p : Path) {r : Path} (hr : r ≠ []) (x : Option FileTree) (tree : FileTree) :
    get p (set (p ++ r) x tree) = (get p tree).map (set r x) := by
  induction p generalizing tree with
  | nil => rfl
  | cons name rest ih =>
      obtain ⟨next, below, hbelow⟩ : ∃ next below, rest ++ r = next :: below := by
        cases rest with
        | nil => exact List.exists_cons_of_ne_nil hr
        | cons next below => exact ⟨next, below ++ r, rfl⟩
      cases tree with
      | file bytes =>
          show get (name :: rest) (set (name :: (rest ++ r)) x (.file bytes)) = _
          rfl
      | dir entries =>
          show get (name :: rest) (set (name :: (rest ++ r)) x (.dir entries)) = _
          rw [hbelow, get_dir]
          simp only [set]
          cases hchild : entries.lookup name with
          | none => rw [get_dir, hchild]; rfl
          | some child =>
              rw [get_dir, lookup_put, if_pos rfl]
              show get rest (set (next :: below) x child) = (get rest child).map _
              rw [← hbelow, ih]

/-- At the end of the path, in a directory, there is afterwards what was put there. -/
theorem get_set_self {p : Path} {name : String} {entries : List (String × FileTree)}
    {tree : FileTree} (h : get p tree = some (.dir entries)) (x : Option FileTree) :
    get (p ++ [name]) (set (p ++ [name]) x tree) = x := by
  rw [get_append, get_set_above p (List.cons_ne_nil _ _), h]
  show get [name] (set [name] x (.dir entries)) = x
  simp only [set, get_dir, lookup_put, if_true]
  cases x <;> rfl

/-- Apart from the path nothing changes. -/
theorem get_set_apart {p q : Path} (h : Apart p q) (x : Option FileTree) (tree : FileTree) :
    get q (set p x tree) = get q tree := by
  induction p generalizing q tree with
  | nil => exact absurd rfl h.ne_nil
  | cons name rest ih =>
      obtain ⟨other, below, rfl⟩ := List.exists_cons_of_ne_nil h.symm.ne_nil
      cases tree with
      | file bytes => rfl
      | dir entries =>
          by_cases hname : other = name
          · subst hname
            have hrest := apart_cons.mp h
            obtain ⟨next, deeper, rfl⟩ := List.exists_cons_of_ne_nil hrest.ne_nil
            simp only [set]
            cases hchild : entries.lookup other with
            | none => rfl
            | some child =>
                rw [get_dir, get_dir, lookup_put, if_pos rfl, hchild]
                exact ih hrest child
          · cases rest with
            | nil => simp only [set, get_dir, lookup_put, if_neg hname]
            | cons next deeper =>
                simp only [set]
                cases hchild : entries.lookup name with
                | none => rfl
                | some child => simp only [get_dir, lookup_put, if_neg hname]

end FileTree

end LTSearch.Foundation
