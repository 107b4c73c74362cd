/-
# LTSearch.Indexing.UploadInside -- what a checked directory says about its upload

Where the check accepts a directory, every link in it leads into the artifact root.  Whether the
upload ends, and reads nothing from elsewhere, is then up to what is below the linked directories.
-/
import LTSearch.Indexing.UploadTree

namespace LTSearch

open LTSearch.Foundation
open LTSearch.Foundation.FileTree (Path)

namespace FsGraph

variable {fs : FsGraph} {c d : Path}

/-! ## Paths and what they lead to -/

theorem lookup_of_mem {entries : List (String × DirEntry)} (hnodup : (entries.map (·.1)).Nodup)
    {e : String × DirEntry} (he : e ∈ entries) : entries.lookup e.1 = some e.2 := by
  induction entries with
  | nil => cases he
  | cons first rest ih =>
      obtain ⟨hfirst, hrest⟩ := List.nodup_cons.mp hnodup
      rw [List.lookup_cons]
      cases he with
      | head => rw [beq_self_eq_true]
      | tail _ he =>
          have hne : (e.1 == first.1) = false := by
            refine beq_eq_false_iff_ne.mpr fun heq => hfirst ?_
            show first.1 ∈ rest.map (·.1)
            rw [← heq]
            exact List.mem_map_of_mem he
          rw [hne]
          exact ih hrest he

theorem lookup_entry (hc : c ∈ fs.directories) {e : String × DirEntry} (he : e ∈ fs.entries c) :
    (fs.entries c).lookup e.1 = some e.2 :=
  lookup_of_mem (fs.names_nodup c hc) he

theorem follow_entry (hc : c ∈ fs.directories) {e : String × DirEntry} (he : e ∈ fs.entries c) :
    fs.follow c e.1 = e.2.node c e.1 := by
  rw [follow, lookup_entry hc he, Option.bind_some]

/-- Every name that leads somewhere is an entry. -/
theorem exists_entry {name : String} {node : FsNode} (h : fs.follow c name = some node) :
    ∃ entry, (name, entry) ∈ fs.entries c ∧ entry.node c name = some node := by
  obtain ⟨entry, hlookup, hnode⟩ := Option.bind_eq_some_iff.mp h
  obtain ⟨before, after, heq, -⟩ := List.lookup_eq_some_iff.mp hlookup
  exact ⟨entry, heq ▸ List.mem_append_right before List.mem_cons_self, hnode⟩

theorem resolveFrom_append (node : FsNode) (p q : Path) :
    fs.resolveFrom node (p ++ q) = (fs.resolveFrom node p).bind fun node => fs.resolveFrom node q := by
  induction p generalizing node with
  | nil => simp only [List.nil_append, resolveFrom, Option.bind_some]
  | cons name rest ih =>
      cases node with
      | file f => simp only [List.cons_append, resolveFrom, Option.bind_none]
      | dir c =>
          simp only [List.cons_append, resolveFrom, Option.bind_assoc]
          exact Option.bind_congr fun node _ => ih node

/-- A path into a directory. -/
theorem resolve_snoc {p : Path} (h : fs.resolve p = some (.dir c)) (name : String) :
    fs.resolve (p ++ [name]) = fs.follow c name := by
  have hp : fs.resolveFrom (.dir []) p = some (.dir c) := h
  rw [resolve, resolveFrom_append, hp, Option.bind_some]
  show (fs.follow c name).bind (fun node => fs.resolveFrom node []) = _
  cases fs.follow c name <;> rfl

/-- What the upload takes for a subdirectory. -/
def Step (fs : FsGraph) (c d : Path) : Prop := ∃ name, fs.follow c name = some (.dir d)

/-- A subdirectory that is no link. -/
def Subdir (fs : FsGraph) (c d : Path) : Prop :=
  ∃ e ∈ fs.entries c, e.2 = .dir ∧ d = c ++ [e.1]

/-- A link to a directory. -/
def LinkStep (fs : FsGraph) (c d : Path) : Prop := ∃ e ∈ fs.entries c, e.2.linked = some d

theorem linked_eq_some {entry : DirEntry} : entry.linked = some d ↔ entry = .link (some (.dir d)) := by
  unfold DirEntry.linked
  split
  · next t =>
    constructor
    · intro h
      rw [Option.some.inj h]
    · intro h
      cases h
      rfl
  · next hother =>
    refine iff_of_false (fun h => by cases h) fun h => hother d h

theorem step_cases (h : fs.Step c d) : fs.Subdir c d ∨ fs.LinkStep c d := by
  obtain ⟨name, hfollow⟩ := h
  obtain ⟨entry, hentry, hnode⟩ := exists_entry hfollow
  cases entry with
  | file => cases hnode
  | dir =>
      cases hnode
      exact .inl ⟨_, hentry, rfl, rfl⟩
  | link target => exact .inr ⟨_, hentry, linked_eq_some.mpr (congrArg DirEntry.link hnode)⟩

theorem LinkStep.step (h : fs.LinkStep c d) (hc : c ∈ fs.directories) : fs.Step c d := by
  obtain ⟨e, he, hlinked⟩ := h
  refine ⟨e.1, ?_⟩
  rw [follow_entry hc he, linked_eq_some.mp hlinked]
  rfl

theorem mem_of_step (hc : c ∈ fs.directories) (h : fs.Step c d) : d ∈ fs.directories := by
  rcases step_cases h with ⟨e, he, hdir, rfl⟩ | ⟨e, he, hlinked⟩
  · exact fs.child_mem c hc e he hdir
  · exact fs.linked_mem c hc e he d hlinked

/-- A directory the upload comes to. -/
def Reached (fs : FsGraph) (c d : Path) : Prop := Relation.ReflTransGen fs.Step c d

theorem Reached.mem (h : fs.Reached c d) (hc : c ∈ fs.directories) : d ∈ fs.directories := by
  induction h with
  | refl => exact hc
  | tail _ hstep ih => exact mem_of_step ih hstep

variable {listing : fs.Listing} {root : Path}

variable {P ε : Type} {place : P → Path}

/-- A descent that nothing on the other side stops. -/
structure Unhindered (listing : fs.Listing) (place : P → Path) (look : P → Sight P Path ε) : Prop where
  dir : ∀ {p : P} {c : Path}, fs.resolve (place p) = some (.dir c) →
    ∃ below, look p = .branch below ∧
      below.map place = (listing.list c).map fun e => place p ++ [e.1]
  file : ∀ {p : P} {f : Path}, fs.resolve (place p) = some (.file f) →
    ∃ outcome, look p = .leaf outcome ∧ f ∈ outcome.1

variable {look : P → Sight P Path ε}

/-- An artifact directory on its way to the upload: `artifact_source_path` has found the place of its
key, and `validate_directory_tree_within_root` has accepted what is there. -/
structure Checked (fs : FsGraph) (artifactRoot key root source : Path) : Prop where
  root_eq : fs.canonicalize artifactRoot = .ok root
  source_eq : fs.artifactSourcePath artifactRoot key = .ok source
  accepted : ∃ (listing : fs.Listing) (fuel : Nat),
    validateDirectoryTreeWithinRoot listing fuel artifactRoot source = some (.ok ())

/-- The first place below a directory. -/
theorem Unhindered.first {look : P → Sight P Path ε} (hopen : Unhindered listing place look) {p : P}
    (hp : fs.resolve (place p) = some (.dir c)) (hc : c ∈ fs.directories) {e : String × DirEntry}
    {rest : List (String × DirEntry)} (hlist : listing.list c = e :: rest) (he : e ∈ fs.entries c) :
    ∃ q others, look p = .branch (q :: others) ∧ fs.resolve (place q) = e.2.node c e.1 := by
  obtain ⟨below, hlook, hplaces⟩ := hopen.dir hp
  rw [hlist, List.map_cons] at hplaces
  cases below with
  | nil => cases hplaces
  | cons q others =>
      rw [List.map_cons, List.cons.injEq] at hplaces
      refine ⟨q, others, hlook, ?_⟩
      rw [hplaces.1, resolve_snoc hp, follow_entry hc he]

variable {put : String → Except PublishError Unit} {createDirAll copy : Path → Except String Unit}

end FsGraph

end LTSearch
