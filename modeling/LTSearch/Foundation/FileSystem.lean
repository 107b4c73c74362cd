/-
# LTSearch.Foundation.FileSystem -- the operations of a file system

Each operation is one step that may fail; a write that fails may leave a part of the bytes, and the
creation of a directory may stop on its way.  A rename moves a whole tree, and onto a directory only
if that is empty.
-/
import LTSearch.Foundation.FileTree
import LTSearch.Foundation.Interleaving

namespace LTSearch.Foundation

namespace FileTree

/-! ## Trees with new directories -/

/-- `create_dir_all`: nothing on the way may be a file. -/
def mkdirs : Path → FileTree → Option FileTree
  | _, .file _ => none
  | [], .dir entries => some (.dir entries)
  | name :: rest, .dir entries =>
      (mkdirs rest ((entries.lookup name).getD (.dir []))).map fun child =>
        .dir (put entries name (some child))

def isDir : FileTree → Bool
  | .dir _ => true
  | .file _ => false

/-- What kind of thing is at the end of the path, if anything: a directory or a file. -/
def kindAt (p : Path) (tree : FileTree) : Option Bool := (get p tree).map isDir

/-- Whether there is a directory at the end of the path. -/
def isDirAt (p : Path) (tree : FileTree) : Bool := kindAt p tree = some true

theorem isDirAt_iff {p : Path} {tree : FileTree} :
    isDirAt p tree = true ↔ ∃ entries, get p tree = some (.dir entries) := by
  rw [isDirAt, decide_eq_true_eq, kindAt, Option.map_eq_some_iff]
  constructor
  · rintro ⟨node, hnode, hkind⟩
    cases node with
    | file bytes => cases hkind
    | dir entries => exact ⟨entries, hnode⟩
  · rintro ⟨entries, hentries⟩
    exact ⟨_, hentries, rfl⟩

theorem mkdirs_dir (name : String) (rest : Path) (entries : List (String × FileTree)) :
    mkdirs (name :: rest) (.dir entries) =
      (mkdirs rest ((entries.lookup name).getD (.dir []))).map fun child =>
        .dir (put entries name (some child)) := by
  rw [mkdirs]

/-- Nothing but the path itself is touched. -/
theorem get_mkdirs {p q : Path} {tree tree' : FileTree} (h : mkdirs p tree = some tree')
    (hq : ¬q <+: p) : get q tree' = get q tree := by
  induction p generalizing q tree tree' with
  | nil =>
      cases tree with
      | file bytes => cases h
      | dir entries => rw [Option.some.inj h]
  | cons name rest ih =>
      cases tree with
      | file bytes => cases h
      | dir entries =>
          rw [mkdirs_dir, Option.map_eq_some_iff] at h
          obtain ⟨child, hchild, rfl⟩ := h
          obtain ⟨other, below, rfl⟩ : ∃ other below, q = other :: below :=
            List.exists_cons_of_ne_nil fun hnil => hq (hnil ▸ List.nil_prefix)
          rw [get_dir, get_dir, lookup_put]
          by_cases hname : other = name
          · subst hname
            have hbelow : ¬below <+: rest := fun hp => hq (List.cons_prefix_cons.mpr ⟨rfl, hp⟩)
            rw [if_pos rfl, Option.bind_some, ih hchild hbelow]
            cases hold : entries.lookup other with
            | some old => rfl
            | none =>
                -- below a new directory there is nothing
                obtain ⟨next, deeper, rfl⟩ : ∃ next deeper, below = next :: deeper :=
                  List.exists_cons_of_ne_nil fun hnil => hbelow (hnil ▸ List.nil_prefix)
                rfl
          · rw [if_neg hname]

/-! ## A tree that moves -/

/-- `rename`, where it is possible. -/
def rename (source dest : Path) (tree : FileTree) : Option FileTree :=
  match get source tree with
  | none => none
  | some node =>
      if source = dest then some tree
      else if source <+: dest ∨ isDirAt dest.dropLast tree = false then none
      else match node, get dest tree with
        | .dir _, some (.file _) => none
        | .file _, some (.dir _) => none
        | .dir _, some (.dir (_ :: _)) => none
        | _, _ => some (set dest (some node) (set source none tree))

/-- Away from a path and from what is below it, everything stays what it is. -/
theorem kindAt_set {p q : Path} (h : ¬p <+: q) (x : Option FileTree) (tree : FileTree) :
    kindAt q (set p x tree) = kindAt q tree := by
  by_cases habove : q <+: p
  · obtain ⟨r, rfl⟩ := habove
    have hr : r ≠ [] := by
      rintro rfl
      exact h (by rw [List.append_nil])
    rw [kindAt, kindAt, get_set_above q hr, Option.map_map]
    congr 1
    funext node
    obtain ⟨name, rest, rfl⟩ := List.exists_cons_of_ne_nil hr
    cases node with
    | file bytes => rfl
    | dir entries =>
        cases rest with
        | nil => rfl
        | cons next deeper =>
            simp only [Function.comp_apply, set]
            cases entries.lookup name <;> rfl
  · rw [kindAt, kindAt, get_set_apart ⟨h, habove⟩]

theorem isDirAt_set {p q : Path} (h : ¬p <+: q) (x : Option FileTree) (tree : FileTree) :
    isDirAt q (set p x tree) = isDirAt q tree := by
  rw [isDirAt, isDirAt, kindAt_set h]

/-- What is at the end of a path is in a directory. -/
theorem isDirAt_dropLast {p : Path} {tree node : FileTree} (h : get p tree = some node)
    (hp : p ≠ []) : isDirAt p.dropLast tree = true := by
  rw [← List.dropLast_append_getLast hp, get_append] at h
  obtain ⟨parent, hparent, hchild⟩ := Option.bind_eq_some_iff.mp h
  cases parent with
  | file bytes => cases hchild
  | dir entries => exact isDirAt_iff.mpr ⟨entries, hparent⟩

theorem get_set_end {p : Path} {tree : FileTree} (h : isDirAt p.dropLast tree = true)
    (hp : p ≠ []) (x : Option FileTree) : get p (set p x tree) = x := by
  obtain ⟨entries, hentries⟩ := isDirAt_iff.mp h
  have hself : get (p.dropLast ++ [p.getLast hp]) (set (p.dropLast ++ [p.getLast hp]) x tree) = x :=
    get_set_self hentries x
  rwa [List.dropLast_append_getLast hp] at hself

/-- What a rename does, between paths apart. -/
structure Renamed (source dest : Path) (node tree tree' : FileTree) : Prop where
  source_before : get source tree = some node
  source_after : get source tree' = none
  dest_after : get dest tree' = some node
  apart : ∀ q, Apart source q → Apart dest q → get q tree' = get q tree
  kindAt : ∀ q, ¬source <+: q → ¬dest <+: q → kindAt q tree' = kindAt q tree

theorem rename_eq_set {source dest : Path} {tree tree' : FileTree} (hne : source ≠ dest)
    (h : rename source dest tree = some tree') :
    ∃ node, get source tree = some node ∧ ¬source <+: dest ∧ isDirAt dest.dropLast tree = true ∧
      tree' = set dest (some node) (set source none tree) := by
  unfold rename at h
  cases hnode : get source tree with
  | none =>
      rw [hnode] at h
      cases h
  | some node =>
      rw [hnode] at h
      simp only [if_neg hne] at h
      split at h
      · cases h
      · rename_i hallowed
        rw [not_or, Bool.not_eq_false] at hallowed
        refine ⟨node, rfl, hallowed.1, hallowed.2, ?_⟩
        split at h
        · cases h
        · cases h
        · cases h
        · exact (Option.some.inj h).symm

theorem rename_eq_some {source dest : Path} {tree tree' : FileTree} (hapart : Apart source dest)
    (h : rename source dest tree = some tree') : ∃ node, Renamed source dest node tree tree' := by
  have hne : source ≠ dest := fun heq => hapart.1 (heq ▸ List.prefix_refl _)
  obtain ⟨node, hnode, hbelow, hdir, rfl⟩ := rename_eq_set hne h
  have hparent : isDirAt dest.dropLast (set source none tree) = true := by
    rw [isDirAt_set (fun hp => hbelow (hp.trans dest.dropLast_prefix))]
    exact hdir
  refine ⟨node, hnode, ?_, get_set_end hparent hapart.symm.ne_nil _, fun q hs hd => ?_,
    fun q hs hd => ?_⟩
  · rw [get_set_apart hapart.symm]
    exact get_set_end (isDirAt_dropLast hnode hapart.ne_nil) hapart.ne_nil none
  · rw [get_set_apart hd, get_set_apart hs]
  · rw [kindAt_set hd, kindAt_set hs]

/-- A rename to a free place in a directory goes through. -/
theorem rename_isSome {source dest : Path} {tree node : FileTree} (hapart : Apart source dest)
    (hsource : get source tree = some node) (hdest : get dest tree = none)
    (hparent : isDirAt dest.dropLast tree = true) : (rename source dest tree).isSome := by
  have hne : source ≠ dest := fun heq => hapart.1 (heq ▸ List.prefix_refl _)
  have hallowed : ¬(source <+: dest ∨ isDirAt dest.dropLast tree = false) := by
    rw [not_or, Bool.not_eq_false]
    exact ⟨hapart.1, hparent⟩
  simp only [rename, hsource, if_neg hne, if_neg hallowed, hdest]
  cases node <;> rfl

/-- A rename onto a directory that is not empty does not. -/
theorem rename_eq_none {source dest : Path} {tree : FileTree} {entry : String × FileTree}
    {rest entries : List (String × FileTree)} (hapart : Apart source dest)
    (hsource : get source tree = some (.dir entries))
    (hdest : get dest tree = some (.dir (entry :: rest))) : rename source dest tree = none := by
  have hne : source ≠ dest := fun heq => hapart.1 (heq ▸ List.prefix_refl _)
  simp only [rename, hsource, if_neg hne, hdest]
  split <;> rfl

end FileTree

/-! ## The operations -/

open FileTree in
inductive FsOp where
  | exists (p : Path)
  | isDir (p : Path)
  | createDirAll (p : Path)
  | rename (source dest : Path)
  /-- the names in a directory, each once -/
  | readDir (p : Path)
  /-- a file, or the whole of a directory that is no longer looked at -/
  | remove (p : Path)
  /-- an empty directory -/
  | removeDir (p : Path)
  | removeFile (p : Path)
  /-- a file with these bytes, in place of whatever file is there -/
  | write (p : Path) (bytes : List UInt8)

/-- The answers.  A text is what the system says. -/
abbrev FsOp.Ans : FsOp → Type
  | .exists _ => Bool
  | .isDir _ => Bool
  | .createDirAll _ => Except String Unit
  | .rename _ _ => Except String Unit
  | .readDir _ => Except String (List String)
  | .remove _ => Except String Unit
  | .removeDir _ => Except String Unit
  | .removeFile _ => Except String Unit
  | .write _ _ => Except String Unit

abbrev fsSignature : Signature where
  Op := FsOp
  Ans := FsOp.Ans

/-- What is decided outside at one step. -/
structure FsChoice where
  fails : Bool
  detail : String
  /-- how much a write that fails has written; nothing if the file is not even created -/
  written : Option Nat
  /-- how far a creation of directories that fails has come -/
  made : Nat

namespace FileTree

/-- The change, or the tree as it is and an error. -/
def changed (tree : FileTree) (detail : String) : Option FileTree → Except String Unit × FileTree
  | some tree' => (.ok (), tree')
  | none => (.error detail, tree)

/-- A file is written where a file is or where a directory has room for one. -/
def writeFile (p : Path) (bytes : List UInt8) (tree : FileTree) : Option FileTree :=
  if p = [] ∨ isDirAt p tree = true ∨ isDirAt p.dropLast tree = false then none
  else some (set p (some (.file bytes)) tree)

/-- What each operation does. -/
def perform (op : FsOp) (c : FsChoice) (tree : FileTree) : op.Ans × FileTree :=
  match op with
  | .exists p => (!c.fails && (get p tree).isSome, tree)
  | .isDir p => (!c.fails && isDirAt p tree, tree)
  | .createDirAll p =>
      if c.fails then (.error c.detail, (mkdirs (p.take c.made) tree).getD tree)
      else changed tree c.detail (mkdirs p tree)
  | .rename source dest =>
      if c.fails then (.error c.detail, tree) else changed tree c.detail (rename source dest tree)
  | .readDir p =>
      match c.fails, get p tree with
      | false, some (.dir entries) => (.ok (entries.map (·.1)).dedup, tree)
      | _, _ => (.error c.detail, tree)
  | .remove p =>
      if c.fails ∨ p = [] ∨ (get p tree).isNone then (.error c.detail, tree)
      else (.ok (), set p none tree)
  | .removeDir p =>
      match c.fails, p, get p tree with
      | false, _ :: _, some (.dir []) => (.ok (), set p none tree)
      | _, _, _ => (.error c.detail, tree)
  | .removeFile p =>
      match c.fails, get p tree with
      | false, some (.file _) => (.ok (), set p none tree)
      | _, _ => (.error c.detail, tree)
  | .write p bytes =>
      if c.fails then
        (.error c.detail,
          (c.written.bind fun n => writeFile p (bytes.take n) tree).getD tree)
      else changed tree c.detail (writeFile p bytes tree)

/-- The file system as a machine: it does the same whoever asks. -/
def disk (Thread : Type) : Machine fsSignature FileTree FsChoice Thread where
  apply _ op c tree := perform op c tree

/-! ## What an operation leaves alone -/

/-- The creation of directories touches only what is on the way. -/
theorem get_createDirAll {p q : Path} (hq : ¬q <+: p) (c : FsChoice) (tree : FileTree) :
    get q (perform (.createDirAll p) c tree).2 = get q tree := by
  simp only [perform]
  by_cases hfails : c.fails = true
  · rw [if_pos hfails]
    cases hmade : mkdirs (p.take c.made) tree with
    | none => rfl
    | some tree' => exact get_mkdirs hmade fun h => hq (h.trans (List.take_prefix _ _))
  · rw [if_neg hfails]
    cases hmade : mkdirs p tree with
    | none => rfl
    | some tree' => exact get_mkdirs hmade hq

theorem perform_rename_ok {source dest : Path} {c : FsChoice} {tree : FileTree}
    (hapart : Apart source dest) (h : (perform (.rename source dest) c tree).1 = .ok ()) :
    ∃ node, Renamed source dest node tree (perform (.rename source dest) c tree).2 := by
  revert h
  simp only [perform]
  split
  · exact nofun
  · cases hrename : FileTree.rename source dest tree with
    | none => exact nofun
    | some tree' => exact fun _ => rename_eq_some hapart hrename

theorem perform_rename_error {source dest : Path} {c : FsChoice} {tree : FileTree} {detail : String}
    (h : (perform (.rename source dest) c tree).1 = .error detail) :
    (perform (.rename source dest) c tree).2 = tree := by
  revert h
  simp only [perform]
  split
  · exact fun _ => rfl
  · cases FileTree.rename source dest tree with
    | none => exact fun _ => rfl
    | some tree' => exact nofun

end FileTree

/-- The operation changes nothing but what is at the end of the path or below it. -/
def FsOp.Inside (p : FileTree.Path) : FsOp → Prop
  | .exists _ => True
  | .isDir _ => True
  | .createDirAll _ => False
  | .rename source dest => p <+: source ∧ p <+: dest ∧ FileTree.Apart source dest
  | .readDir _ => True
  | .remove q => p <+: q
  | .removeDir q => p <+: q
  | .removeFile q => p <+: q
  | .write q _ => p <+: q

namespace FileTree

theorem Apart.of_below {p q r : Path} (h : Apart p q) (hr : p <+: r) : Apart r q := by
  obtain ⟨below, rfl⟩ := hr
  exact (h.symm.append below).symm

theorem get_perform_inside {p q : Path} {op : FsOp} (h : op.Inside p) (hq : Apart p q)
    (c : FsChoice) (tree : FileTree) : get q (perform op c tree).2 = get q tree := by
  cases op with
  | «exists» r => rfl
  | isDir r => rfl
  | createDirAll r => exact h.elim
  | rename source dest =>
      cases hanswer : (perform (.rename source dest) c tree).1 with
      | error detail => rw [perform_rename_error hanswer]
      | ok _ =>
          obtain ⟨node, hrenamed⟩ := perform_rename_ok h.2.2 hanswer
          exact hrenamed.apart q (hq.of_below h.1) (hq.of_below h.2.1)
  | readDir r =>
      simp only [perform]
      split <;> rfl
  | remove r =>
      simp only [perform]
      split
      · rfl
      · exact get_set_apart (hq.of_below h) none tree
  | removeDir r =>
      simp only [perform]
      split
      · exact get_set_apart (hq.of_below h) none tree
      · rfl
  | removeFile r =>
      simp only [perform]
      split
      · exact get_set_apart (hq.of_below h) none tree
      · rfl
  | write r bytes =>
      have hwrite : ∀ text tree', writeFile r text tree = some tree' → get q tree' = get q tree := by
        intro text tree' hwritten
        unfold writeFile at hwritten
        split at hwritten
        · cases hwritten
        · rw [← Option.some.inj hwritten, get_set_apart (hq.of_below h)]
      simp only [perform]
      split
      · cases hpart : c.written.bind fun n => writeFile r (bytes.take n) tree with
        | none => rfl
        | some tree' =>
            obtain ⟨n, _, hwritten⟩ := Option.bind_eq_some_iff.mp hpart
            exact hwrite _ _ hwritten
      · cases hwritten : writeFile r bytes tree with
        | none => rfl
        | some tree' => exact hwrite _ _ hwritten

/-! ## The entries of a directory -/

/-- The names in a directory. -/
def children (p : Path) (tree : FileTree) : Finset String :=
  match get p tree with
  | some (.dir entries) => (entries.map (·.1)).toFinset
  | _ => ∅

theorem lookup_isSome_iff {entries : List (String × FileTree)} {name : String} :
    (entries.lookup name).isSome ↔ name ∈ entries.map (·.1) := by
  rw [Option.isSome_iff_ne_none, Ne, List.lookup_eq_none_iff]
  simp only [List.mem_map, not_forall]
  constructor
  · rintro ⟨entry, hentry, hname⟩
    exact ⟨entry, hentry, (by simpa using hname : name = entry.1).symm⟩
  · rintro ⟨entry, hentry, rfl⟩
    exact ⟨entry, hentry, by simp⟩

theorem mem_children {p : Path} {name : String} {tree : FileTree} :
    name ∈ children p tree ↔ (get (p ++ [name]) tree).isSome := by
  rw [children, get_append]
  cases hnode : get p tree with
  | none => simp
  | some node =>
      cases node with
      | file bytes => simp [get_file]
      | dir entries =>
          rw [Option.bind_some, get_dir, List.mem_toFinset, ← lookup_isSome_iff]
          cases entries.lookup name <;> simp

/-- A directory is emptied entry by entry. -/
theorem children_set {p : Path} {name : String} {tree : FileTree} (h : isDirAt p tree = true) :
    children p (set (p ++ [name]) none tree) = (children p tree).erase name := by
  ext other
  rw [Finset.mem_erase, mem_children, mem_children]
  obtain ⟨entries, hentries⟩ := isDirAt_iff.mp h
  by_cases hother : other = name
  · subst hother
    simp [get_set_self hentries]
  · have hapart : Apart (p ++ [name]) (p ++ [other]) := by
      refine ⟨fun hpre => hother ?_, fun hpre => hother ?_⟩
      · exact (List.cons_prefix_cons.mp ((List.prefix_append_right_inj p).mp hpre)).1.symm
      · exact (List.cons_prefix_cons.mp ((List.prefix_append_right_inj p).mp hpre)).1
    rw [get_set_apart hapart]
    exact ⟨fun h => ⟨hother, h⟩, And.right⟩

/-- A directory without a name in it is an empty one. -/
theorem children_eq_empty {p : Path} {tree : FileTree} (hdir : isDirAt p tree = true)
    (h : children p tree = ∅) : get p tree = some (.dir []) := by
  obtain ⟨entries, hentries⟩ := isDirAt_iff.mp hdir
  cases entries with
  | nil => exact hentries
  | cons entry rest =>
      rw [children, hentries] at h
      exact absurd h (Finset.ne_empty_of_mem (List.mem_toFinset.mpr (List.mem_cons_self ..)))

end FileTree

end LTSearch.Foundation
