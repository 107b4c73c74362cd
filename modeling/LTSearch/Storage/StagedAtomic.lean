/-
# LTSearch.Storage.StagedAtomic -- what a commit leaves behind

A failed move is undone: whatever was moved is removed again, and an old directory goes back to its
place.  The one step after the last move, the removal of what is no longer needed, is reported like a
failed move although nothing is undone any more.

A commit runs alone here, against a pattern that says of each of its operations whether it fails; others
at work in the same places are the matter of `ConcurrentBuilds`.  The run is cut at the move that fails
(`Stopped`): what comes before is described by the moves made so far, what comes after is the roll-back,
which is assumed to work.  The replacement of a directory is cut the same way, at the rename that puts
the old one aside and the rename that puts the new one in its place.
-/
import LTSearch.Storage.StagedRemoval

namespace LTSearch

open LTSearch.Foundation FileTree

namespace StagedDir

variable {pattern : Pattern} {p q root s d : Path} {tree tree' : FileTree} {n : Nat}
  {w : FileTree × Nat}

/-! ## The removal of what may be there -/

/-- The check that something is there, the reading of its names, a step for each, and the last one. -/
def RemovalWorks (pattern : Pattern) (p : Path) (tree : FileTree) (n : Nat) : Prop :=
  ∀ i < (children p tree).card + 3, works (pattern (n + i))

theorem removalWorks_iff (hdir : isDirAt p tree = true) :
    RemovalWorks pattern p tree n ↔
      works (pattern n) ∧ Undisturbed pattern (removeDirAll p).run (tree, n + 1) := by
  rw [undisturbed_removeDirAll hdir]
  exact forall_works_succ

theorem perform_exists {c : FsChoice} (hworks : works c) :
    perform (.exists p) c tree = ((get p tree).isSome, tree) := by
  simp only [perform, show c.fails = false from hworks, Bool.not_false, Bool.true_and]

theorem perform_exists_fails {c : FsChoice} (hfails : ¬works c) :
    perform (.exists p) c tree = (false, tree) := by
  simp only [perform, Bool.not_eq_false _ ▸ hfails, Bool.not_true, Bool.false_and]

theorem isSome_of_isDirAt (hdir : isDirAt p tree = true) : (get p tree).isSome = true := by
  obtain ⟨entries, hentries⟩ := isDirAt_iff.mp hdir
  rw [hentries, Option.isSome_some]

theorem play_removeDirAllIfExists_present (hworks : works (pattern n)) (hdir : isDirAt p tree = true) :
    play pattern (removeDirAllIfExists p).run (tree, n) =
      play pattern ((removeDirAll p).run >>= fun result => .done (Except.mapError (fun source =>
        IndexError.operation s!"failed to remove directory {displayPath p}: {source}") result))
        (tree, n + 1) := by
  rw [removeDirAllIfExists_run, play_after, perform_exists hworks, isSome_of_isDirAt hdir]
  rfl

/-- A directory that is not seen to be there stays, and nothing is reported. -/
theorem play_removeDirAllIfExists_unseen (hfails : ¬works (pattern n)) :
    play pattern (removeDirAllIfExists p).run (tree, n) = (.ok (), (tree, n + 1)) := by
  rw [removeDirAllIfExists_run, play_after, perform_exists_fails hfails]
  rfl

theorem removeDirAllIfExists_ok (hp : p ≠ []) (hdir : isDirAt p tree = true)
    (h : RemovalWorks pattern p tree n) :
    (play pattern (removeDirAllIfExists p).run (tree, n)).1 = .ok () ∧
      get p (play pattern (removeDirAllIfExists p).run (tree, n)).2.1 = none := by
  obtain ⟨hworks, hremoval⟩ := (removalWorks_iff hdir).mp h
  obtain ⟨hanswer, hgone⟩ := removeDirAll_ok hp hdir hremoval
  rw [play_removeDirAllIfExists_present hworks hdir, play_bind, hanswer]
  exact ⟨rfl, hgone⟩

theorem removeDirAllIfExists_error (hworks : works (pattern n)) (hdir : isDirAt p tree = true)
    (h : ¬RemovalWorks pattern p tree n) :
    ∃ error, (play pattern (removeDirAllIfExists p).run (tree, n)).1 = .error error := by
  rw [removalWorks_iff hdir, not_and] at h
  obtain ⟨detail, hdetail⟩ := removeDirAll_error (h hworks)
  rw [play_removeDirAllIfExists_present hworks hdir, play_bind, hdetail]
  exact ⟨_, rfl⟩

/-- A removal none of whose steps fails leaves nothing. -/
theorem get_removePathIfExists (hp : p ≠ [])
    (h : Undisturbed pattern (removePathIfExists p).run (tree, n)) :
    get p (play pattern (removePathIfExists p).run (tree, n)).2.1 = none := by
  rw [removePathIfExists_run, undisturbed_after] at h
  obtain ⟨hworks, h⟩ := h
  rw [removePathIfExists_run, play_after]
  rw [perform_exists hworks] at h ⊢
  -- a directory is removed with what is in it, a file by one step, and nothing needs no step
  cases hnode : get p tree with
  | none => exact hnode
  | some node =>
      rw [hnode] at h
      simp only [Option.isSome_some, if_true] at h ⊢
      obtain ⟨hdirWorks, h⟩ := undisturbed_after.mp h
      have hkind : perform (.isDir p) (pattern (n + 1)) tree = (isDirAt p tree, tree) := by
        simp only [perform, show (pattern (n + 1)).fails = false from hdirWorks, Bool.not_false,
          Bool.true_and]
      rw [play_after, hkind]
      rw [hkind] at h
      cases node with
      | dir entries =>
          have hdir : isDirAt p tree = true := isDirAt_iff.mpr ⟨entries, hnode⟩
          rw [hdir] at h ⊢
          simp only [if_true] at h ⊢
          rw [play_bind]
          exact (removeDirAll_ok hp hdir (Machine.undisturbed_bind.mp h).1).2
      | file bytes =>
          have hfile : isDirAt p tree = false := by
            rw [isDirAt, kindAt, hnode]
            rfl
          rw [hfile] at h ⊢
          simp only [Bool.false_eq_true, if_false] at h ⊢
          obtain ⟨hremove, -⟩ := undisturbed_after.mp h
          have hremoved : perform (.removeFile p) (pattern (n + 1 + 1)) tree =
              (.ok (), set p none tree) := by
            simp only [perform, show (pattern (n + 1 + 1)).fails = false from hremove, hnode]
          rw [play_after, hremoved]
          exact get_set_end (isDirAt_dropLast hnode hp) hp none

/-! ## A roll-back that works -/

/-- A part of the roll-back, with what the rest of it makes of its result. -/
theorem undisturbed_then {α β : Type} {x : FsM α} {f : α → FsM β}
    (h : Undisturbed pattern (x >>= f) w) :
    Undisturbed pattern x w ∧ Undisturbed pattern (f (play pattern x w).1) (play pattern x w).2 :=
  Machine.undisturbed_bind.mp h

theorem removeMoved_cons (rest : List Path) :
    removeMoved (d :: rest) = (removePathIfExists d).run >>= fun result =>
      removeMoved rest >>= fun results => .done (result :: results) := rfl

theorem get_removeMoved_apart {moved : List Path} (h : ∀ m ∈ moved, Apart m q) :
    get q (play pattern (removeMoved moved) w).2.1 = get q w.1 := by
  induction moved generalizing w with
  | nil => rfl
  | cons d rest ih =>
      rw [removeMoved_cons, play_bind, play_bind]
      show get q (play pattern (removeMoved rest) _).2.1 = _
      rw [ih fun m hm => h m (List.mem_cons_of_mem _ hm)]
      exact get_play removePathIfExists_within (h d (List.mem_cons_self ..))

/-- Everything that was moved is gone. -/
theorem get_removeMoved {moved : List Path} (hne : ∀ m ∈ moved, m ≠ []) (hapart : moved.Pairwise Apart)
    (h : Undisturbed pattern (removeMoved moved) w) (hd : d ∈ moved) :
    get d (play pattern (removeMoved moved) w).2.1 = none := by
  induction moved generalizing w with
  | nil => cases hd
  | cons other rest ih =>
      obtain ⟨hother, hrest⟩ := List.pairwise_cons.mp hapart
      rw [removeMoved_cons] at h ⊢
      obtain ⟨hfirst, hlater⟩ := undisturbed_then h
      obtain ⟨hlater, -⟩ := undisturbed_then hlater
      rw [play_bind, play_bind]
      show get d (play pattern (removeMoved rest) _).2.1 = none
      -- later removals do not touch what is apart
      cases hd with
      | head =>
          rw [get_removeMoved_apart fun m hm => (hother m hm).symm]
          exact get_removePathIfExists (hne d (List.mem_cons_self ..)) hfirst
      | tail _ hd => exact ih (fun m hm => hne m (List.mem_cons_of_mem _ hm)) hrest hlater hd

theorem rollBack_eq (moved : List Path) (error : IndexError) :
    rollBack root moved error = removeMoved moved >>= fun cleanups =>
      (removeDirAllIfExists root).run >>= fun last =>
        .done (.error (appendCleanupFailure error (combineCleanupResults (cleanups ++ [last])))) := rfl

theorem rollBack_error (pattern : Pattern) (root : Path) (moved : List Path) (error : IndexError)
    (w : FileTree × Nat) :
    ∃ reported, (play pattern (rollBack root moved error) w).1 = .error reported := by
  rw [rollBack_eq, play_bind, play_bind]
  exact ⟨_, rfl⟩

/-- What was moved is gone again, and the rest is as it was. -/
theorem get_rollBack {moved : List Path} {error : IndexError} (hne : ∀ m ∈ moved, m ≠ [])
    (hapart : moved.Pairwise Apart) (hroot : Apart root q)
    (h : Undisturbed pattern (rollBack root moved error) w)
    (hq : q ∈ moved ∨ ((∀ m ∈ moved, Apart m q) ∧ get q w.1 = none)) :
    get q (play pattern (rollBack root moved error) w).2.1 = none := by
  rw [rollBack_eq] at h ⊢
  obtain ⟨hmoved, -⟩ := undisturbed_then h
  rw [play_bind, play_bind]
  show get q (play pattern (removeDirAllIfExists root).run _).2.1 = none
  rw [get_play removeDirAllIfExists_within hroot]
  rcases hq with hq | ⟨hq, hnone⟩
  · exact get_removeMoved hne hapart hmoved hq
  · rw [get_removeMoved_apart hq, hnone]

/-! ## The moves, where nothing fails -/

/-- One move of a source to its destination. -/
def move (m : Path × Path) (tree : FileTree) : Option FileTree :=
  (mkdirs m.2.dropLast tree).bind (rename m.1 m.2)

/-- One move after the other. -/
def moveAll : List (Path × Path) → FileTree → Option FileTree
  | [], tree => some tree
  | m :: rest, tree => (move m tree).bind (moveAll rest)

/-- The moves a commit is given: out of the staging directory, to places that are free and none of
which is inside another. -/
structure Staged (root : Path) (moves : List (Path × Path)) (tree : FileTree) : Prop where
  root_ne_nil : root ≠ []
  dir : isDirAt root tree = true
  below : ∀ m ∈ moves, ∃ u, u ≠ [] ∧ m.1 = root ++ u
  apart_root : ∀ m ∈ moves, Apart root m.2
  apart : (moves.map (·.2)).Pairwise Apart
  free : ∀ m ∈ moves, get m.2 tree = none

/-- Each destination holds what its source held when its turn came; what is moved takes with it
what is below it. -/
def Delivered (tree' : FileTree) : List (Path × Path) → FileTree → Prop
  | [], _ => True
  | m :: rest, tree =>
      (get m.1 tree).isSome ∧ get m.2 tree' = get m.1 tree ∧ Delivered tree' rest (set m.1 none tree)

theorem get_below (hroot : get root tree = get root tree') (u : Path) :
    get (root ++ u) tree = get (root ++ u) tree' := by
  rw [get_append, get_append, hroot]

/-- Only what is in the staging directory matters. -/
theorem delivered_congr {moves : List (Path × Path)} {final : FileTree}
    (hbelow : ∀ m ∈ moves, ∃ u, u ≠ [] ∧ m.1 = root ++ u) (hroot : get root tree = get root tree') :
    Delivered final moves tree ↔ Delivered final moves tree' := by
  induction moves generalizing tree tree' with
  | nil => exact Iff.rfl
  | cons m rest ih =>
      obtain ⟨u, hu, hm⟩ := hbelow m (List.mem_cons_self ..)
      have hsame : get m.1 tree = get m.1 tree' := hm ▸ get_below hroot u
      -- a move takes its source out of both trees
      have hafter : get root (set m.1 none tree) = get root (set m.1 none tree') := by
        rw [hm, get_set_above root hu, get_set_above root hu, hroot]
      show _ ∧ _ ∧ _ ↔ _ ∧ _ ∧ _
      rw [hsame, ih (fun m hm => hbelow m (List.mem_cons_of_mem _ hm)) hafter]

/-- Where no source is inside another, each destination holds what its source held at first. -/
theorem delivered_iff {moves : List (Path × Path)} {final : FileTree}
    (hapart : (moves.map (·.1)).Pairwise Apart) :
    Delivered final moves tree ↔
      ∀ m ∈ moves, (get m.1 tree).isSome ∧ get m.2 final = get m.1 tree := by
  induction moves generalizing tree with
  | nil => exact iff_of_true trivial fun m hm => absurd hm List.not_mem_nil
  | cons m rest ih =>
      obtain ⟨hm, hrest⟩ := List.pairwise_cons.mp hapart
      have hsame : ∀ m' ∈ rest, get m'.1 (set m.1 none tree) = get m'.1 tree :=
        fun m' hm' => get_set_apart (hm m'.1 (List.mem_map_of_mem hm')) none tree
      rw [List.forall_mem_cons, and_assoc]
      refine and_congr_right fun _ => and_congr_right fun _ => (ih hrest).trans ?_
      refine forall₂_congr fun m' hm' => ?_
      rw [hsame m' hm']

/-! ## What a move changes -/

/-- A move takes a node from the staging directory to its place. -/
structure Moved (root s d : Path) (tree tree' : FileTree) : Prop where
  present : (get s tree).isSome
  arrived : get d tree' = get s tree
  staged : get root tree' = get root (set s none tree)
  apart : ∀ q, Apart root q → Apart d q → get q tree' = get q tree

theorem not_prefix_dropLast (hq : Apart d q) : ¬q <+: d.dropLast :=
  fun hpre => hq.2 (hpre.trans d.dropLast_prefix)

theorem not_prefix_dropLast_self (hd : d ≠ []) : ¬d <+: d.dropLast := fun hpre => by
  have hlength := hpre.length_le
  rw [List.length_dropLast] at hlength
  have hpos := List.length_pos_of_ne_nil hd
  omega

theorem moved_of_move {m : Path × Path} (hbelow : ∃ u, u ≠ [] ∧ m.1 = root ++ u)
    (hroot : Apart root m.2) (h : move m tree = some tree') : Moved root m.1 m.2 tree tree' := by
  obtain ⟨u, hu, hm⟩ := hbelow
  obtain ⟨made, hmade, hrename⟩ := Option.bind_eq_some_iff.mp h
  have hpre : root <+: m.1 := hm ▸ List.prefix_append root u
  have hapart : Apart m.1 m.2 := hroot.of_below hpre
  have hne : m.1 ≠ m.2 := fun heq => hapart.1 (heq ▸ List.prefix_refl m.1)
  obtain ⟨node, hnode, -, -, rfl⟩ := rename_eq_set hne hrename
  obtain ⟨node', hrenamed⟩ := rename_eq_some hapart hrename
  have hroot' : get root made = get root tree := get_mkdirs hmade (not_prefix_dropLast hroot.symm)
  have hsource : get m.1 made = get m.1 tree := hm ▸ get_below hroot' u
  refine ⟨?_, ?_, ?_, fun q hq hd => ?_⟩
  · rw [← hsource, hnode, Option.isSome_some]
  · rw [hrenamed.dest_after, ← hsource, hrenamed.source_before]
  · rw [get_set_apart hroot.symm, hm, get_set_above root hu, get_set_above root hu, hroot']
  · -- neither the new parent directories nor the rename come near `q`
    rw [hrenamed.apart q (hq.of_below hpre) hd, get_mkdirs hmade (not_prefix_dropLast hd)]

theorem Staged.dest_ne_nil {moves : List (Path × Path)} (h : Staged root moves tree) :
    ∀ m ∈ moves, m.2 ≠ [] :=
  fun m hm => (h.apart_root m hm).symm.ne_nil

/-- What is left to do is still a list of moves out of the staging directory. -/
theorem Staged.moved {m : Path × Path} {rest : List (Path × Path)} (h : Staged root (m :: rest) tree)
    (hmove : move m tree = some tree') : Staged root rest tree' := by
  have hbelow := h.below m (List.mem_cons_self ..)
  have hmoved := moved_of_move hbelow (h.apart_root m (List.mem_cons_self ..)) hmove
  obtain ⟨hapart, hrest⟩ := List.pairwise_cons.mp h.apart
  refine ⟨h.root_ne_nil, ?_, fun m' hm' => h.below m' (List.mem_cons_of_mem _ hm'),
    fun m' hm' => h.apart_root m' (List.mem_cons_of_mem _ hm'), hrest, fun m' hm' => ?_⟩
  · obtain ⟨u, hu, hm⟩ := hbelow
    -- what is moved is inside the staging directory, which therefore stays a directory
    have habove : ¬m.1 <+: root := fun hpre => by
      rw [hm] at hpre
      exact hu (List.append_right_eq_self.mp (hpre.eq_of_length_le (by simp)))
    have hdir : isDirAt root (set m.1 none tree) = true := by rw [isDirAt_set habove, h.dir]
    rwa [isDirAt, kindAt, hmoved.staged, ← kindAt, ← isDirAt]
  · rw [hmoved.apart m'.2 (h.apart_root m' (List.mem_cons_of_mem _ hm'))
      (hapart m'.2 (List.mem_map_of_mem hm'))]
    exact h.free m' (List.mem_cons_of_mem _ hm')

/-- The moves one after the other: each has put its source in its place, and nothing apart from the
staging directory and the destinations has changed. -/
theorem Staged.moveAll {moves : List (Path × Path)} (h : Staged root moves tree)
    (hmoves : moveAll moves tree = some tree') :
    Delivered tree' moves tree ∧ isDirAt root tree' = true ∧
      ∀ q, Apart root q → (∀ m ∈ moves, Apart m.2 q) → get q tree' = get q tree := by
  induction moves generalizing tree with
  | nil =>
      obtain rfl := Option.some.inj hmoves
      exact ⟨trivial, h.dir, fun _ _ _ => rfl⟩
  | cons m rest ih =>
      obtain ⟨tree₁, hmove, hrest⟩ := Option.bind_eq_some_iff.mp hmoves
      obtain ⟨hdelivered, hdir, hapart⟩ := ih (h.moved hmove) hrest
      have hroot := h.apart_root m (List.mem_cons_self ..)
      have hmoved := moved_of_move (h.below m (List.mem_cons_self ..)) hroot hmove
      have hothers := (List.pairwise_cons.mp h.apart).1
      refine ⟨⟨hmoved.present, ?_, ?_⟩, hdir, fun q hq hm => ?_⟩
      · rw [hapart m.2 hroot fun m' hm' => (hothers m'.2 (List.mem_map_of_mem hm')).symm]
        exact hmoved.arrived
      · exact (delivered_congr (fun m' hm' => h.below m' (List.mem_cons_of_mem _ hm'))
          hmoved.staged).mp hdelivered
      · rw [hapart q hq fun m' hm' => hm m' (List.mem_cons_of_mem _ hm')]
        exact hmoved.apart q hq (hm m (List.mem_cons_self ..))

/-! ## The loop of a commit -/

theorem perform_createDirAll_cases (p : Path) (tree : FileTree) (c : FsChoice) :
    (works c ∧ ∃ made, mkdirs p tree = some made ∧ perform (.createDirAll p) c tree = (.ok (), made)) ∨
      (¬(works c ∧ (mkdirs p tree).isSome) ∧ ∃ made,
        perform (.createDirAll p) c tree = (.error c.detail, made) ∧
          ∀ q, ¬q <+: p → get q made = get q tree) := by
  by_cases hworks : works c
  · have hfails : ¬c.fails = true := by rw [show c.fails = false from hworks]; exact Bool.false_ne_true
    cases hmade : mkdirs p tree with
    | some made =>
        exact .inl ⟨hworks, made, rfl, by simp only [perform, if_neg hfails, hmade, changed]⟩
    | none =>
        refine .inr ⟨fun h => by simp at h, tree, ?_, fun _ _ => rfl⟩
        simp only [perform, if_neg hfails, hmade, changed]
  · refine .inr ⟨fun h => hworks h.1, _, ?_, fun q hq => get_createDirAll hq c tree⟩
    simp only [perform, if_pos (Bool.not_eq_false _ ▸ hworks : c.fails = true)]

theorem perform_rename_cases (s d : Path) (tree : FileTree) (c : FsChoice) :
    (works c ∧ ∃ tree', rename s d tree = some tree' ∧ perform (.rename s d) c tree = (.ok (), tree')) ∨
      (¬(works c ∧ (rename s d tree).isSome) ∧ perform (.rename s d) c tree = (.error c.detail, tree)) := by
  by_cases hworks : works c
  · have hfails : ¬c.fails = true := by rw [show c.fails = false from hworks]; exact Bool.false_ne_true
    cases hrename : rename s d tree with
    | some tree' =>
        exact .inl ⟨hworks, tree', rfl, by simp only [perform, if_neg hfails, hrename, changed]⟩
    | none =>
        refine .inr ⟨fun h => by simp at h, ?_⟩
        simp only [perform, if_neg hfails, hrename, changed]
  · refine .inr ⟨fun h => hworks h.1, ?_⟩
    simp only [perform, if_pos (Bool.not_eq_false _ ▸ hworks : c.fails = true)]

/-- Every move can be made, and neither of its two steps fails. -/
def MovesWork (pattern : Pattern) (moves : List (Path × Path)) (tree : FileTree) (n : Nat) : Prop :=
  (moveAll moves tree).isSome ∧ ∀ i < 2 * moves.length, works (pattern (n + i))

theorem movesWork_cons {m : Path × Path} {rest : List (Path × Path)} :
    MovesWork pattern (m :: rest) tree n ↔
      works (pattern n) ∧ works (pattern (n + 1)) ∧
        ∃ tree', move m tree = some tree' ∧ MovesWork pattern rest tree' (n + 2) := by
  have hmoves : (moveAll (m :: rest) tree).isSome ↔
      ∃ tree', move m tree = some tree' ∧ (moveAll rest tree').isSome := by
    show ((move m tree).bind (moveAll rest)).isSome ↔ _
    cases move m tree <;> simp
  rw [MovesWork, hmoves, show 2 * (m :: rest).length = 2 * rest.length + 1 + 1 from rfl,
    forall_works_succ, forall_works_succ]
  constructor
  · rintro ⟨⟨tree', hmove, hrest⟩, hfirst, hsecond, hlater⟩
    exact ⟨hfirst, hsecond, tree', hmove, hrest, hlater⟩
  · rintro ⟨hfirst, hsecond, tree', hmove, hrest, hlater⟩
    exact ⟨⟨tree', hmove, hrest⟩, hfirst, hsecond, hlater⟩

/-- A step of a move has reported an error. -/
def Reported : (op : FsOp) → op.Ans → Prop
  | .createDirAll _, answer => ∃ detail, answer = Except.error detail
  | .rename _ _, answer => ∃ detail, answer = Except.error detail
  | _, _ => False

/-- After a failed move, or a failed step of one, everything that is done to clean up works. -/
abbrev RollBackWorks {α : Type} (pattern : Pattern) (x : FsM α) (w : FileTree × Nat) : Prop :=
  (disk Unit).QuietAfter () works pattern Reported x w

theorem commitMoves_cons {m : Path × Path} (hd : m.2 ≠ []) (moved : List Path)
    (rest : List (Path × Path)) :
    commitMoves root moved (m :: rest) =
      after (.createDirAll m.2.dropLast) fun made => match made with
        | .error detail => rollBack root moved
            (.operation s!"failed to create directory {displayPath m.2.dropLast}: {detail}")
        | .ok _ => after (.rename m.1 m.2) fun renamed => match renamed with
            | .error detail => rollBack root moved
                (.operation s!"failed to publish staged artifact from {displayPath m.1} to {displayPath m.2}: {detail}")
            | .ok _ => commitMoves root (moved ++ [m.2]) rest := by
  have hparent : parentOf m.2 = .ok m.2.dropLast := if_neg hd
  show (moveIntoPlace m.1 m.2).run >>= _ = _
  unfold moveIntoPlace
  rw [hparent]
  refine congrArg (after (.createDirAll m.2.dropLast)) (funext fun made => ?_)
  cases made with
  | error detail => rfl
  | ok _ =>
      refine congrArg (after (.rename m.1 m.2)) (funext fun renamed => ?_)
      cases renamed <;> rfl

theorem quiet_after {α : Type} {op : FsOp} {next : op.Ans → FsM α} :
    RollBackWorks pattern (after op next) w ↔
      (Reported op (perform op (pattern w.2) w.1).1 →
        Undisturbed pattern (next (perform op (pattern w.2) w.1).1)
          ((perform op (pattern w.2) w.1).2, w.2 + 1)) ∧
      RollBackWorks pattern (next (perform op (pattern w.2) w.1).1)
        ((perform op (pattern w.2) w.1).2, w.2 + 1) := Iff.rfl

/-- The run of the loop that stops at a move: those before it are done, and it is rolled back. -/
structure Stopped (pattern : Pattern) (root : Path) (moved : List Path) (rest : List (Path × Path))
    (tree : FileTree) (result : Except IndexError Unit × (FileTree × Nat)) : Prop where
  intro ::
  split : ∃ (done : List (Path × Path)) (m : Path × Path) (later : List (Path × Path))
    (tree' made : FileTree) (n : Nat) (error : IndexError),
    rest = done ++ m :: later ∧ moveAll done tree = some tree' ∧
      (∀ q, ¬q <+: m.2.dropLast → get q made = get q tree') ∧
      Undisturbed pattern (rollBack root (moved ++ done.map (·.2)) error) (made, n) ∧
      result = play pattern (rollBack root (moved ++ done.map (·.2)) error) (made, n)

theorem Stopped.here {moved : List Path} {m : Path × Path} {rest : List (Path × Path)}
    {made : FileTree} {error : IndexError} (hmade : ∀ q, ¬q <+: m.2.dropLast → get q made = get q tree)
    (h : Undisturbed pattern (rollBack root moved error) (made, n)) :
    Stopped pattern root moved (m :: rest) tree (play pattern (rollBack root moved error) (made, n)) := by
  refine ⟨[], m, rest, tree, made, n, error, rfl, rfl, hmade, ?_, ?_⟩
  · rwa [List.map_nil, List.append_nil]
  · rw [List.map_nil, List.append_nil]

theorem Stopped.later {moved : List Path} {m : Path × Path} {rest : List (Path × Path)}
    {result : Except IndexError Unit × (FileTree × Nat)} (hmove : move m tree = some tree')
    (h : Stopped pattern root (moved ++ [m.2]) rest tree' result) :
    Stopped pattern root moved (m :: rest) tree result := by
  obtain ⟨done, other, later, last, made, n, error, rfl, hdone, hmade, hundisturbed, hresult⟩ := h
  rw [List.append_assoc] at hundisturbed hresult
  refine ⟨m :: done, other, later, last, made, n, error, rfl, ?_, hmade, hundisturbed, hresult⟩
  rw [show moveAll (m :: done) tree = (move m tree).bind (moveAll done) from rfl, hmove]
  exact hdone

/-- Either all moves are made, and the staging directory is removed, or one of them is not. -/
theorem commitMoves_cases {moved : List Path} {rest : List (Path × Path)}
    (hne : ∀ m ∈ rest, m.2 ≠ []) (hquiet : RollBackWorks pattern (commitMoves root moved rest) (tree, n)) :
    (MovesWork pattern rest tree n ∧ ∃ tree', moveAll rest tree = some tree' ∧
        play pattern (commitMoves root moved rest) (tree, n) =
          play pattern (removeDirAllIfExists root).run (tree', n + 2 * rest.length)) ∨
      (¬MovesWork pattern rest tree n ∧
        Stopped pattern root moved rest tree (play pattern (commitMoves root moved rest) (tree, n))) := by
  induction rest generalizing moved tree n with
  | nil => exact .inl ⟨⟨rfl, fun i hi => absurd hi (Nat.not_lt_zero i)⟩, tree, rfl, rfl⟩
  | cons m rest ih =>
      rw [commitMoves_cons (hne m (List.mem_cons_self ..)), quiet_after] at hquiet
      rw [commitMoves_cons (hne m (List.mem_cons_self ..)), play_after, movesWork_cons]
      rcases perform_createDirAll_cases m.2.dropLast tree (pattern n) with
        ⟨hfirst, made, hmkdirs, hperform⟩ | ⟨hfirst, made, hperform, hmade⟩
      · simp only [hperform] at hquiet ⊢
        have hquiet := quiet_after.mp hquiet.2
        rw [play_after]
        rcases perform_rename_cases m.1 m.2 made (pattern (n + 1)) with
          ⟨hsecond, tree', hrename, hperform⟩ | ⟨hsecond, hperform⟩
        · -- the move is made, and the others follow
          simp only [hperform] at hquiet ⊢
          have hmove : move m tree = some tree' := Option.bind_eq_some_iff.mpr ⟨made, hmkdirs, hrename⟩
          rcases ih (fun m' hm' => hne m' (List.mem_cons_of_mem _ hm')) hquiet.2 with
            ⟨hwork, final, hfinal, hplay⟩ | ⟨hwork, hstopped⟩
          · refine .inl ⟨⟨hfirst, hsecond, tree', hmove, hwork⟩, final, ?_, ?_⟩
            · exact Option.bind_eq_some_iff.mpr ⟨tree', hmove, hfinal⟩
            · rw [List.length_cons, Nat.mul_succ, Nat.add_comm (2 * rest.length), ← Nat.add_assoc]
              exact hplay
          · refine .inr ⟨?_, hstopped.later hmove⟩
            rintro ⟨-, -, other, hother, hwork'⟩
            obtain rfl := Option.some.inj (hmove.symm.trans hother)
            exact hwork hwork'
        · -- the rename fails: the parent directories are made already
          simp only [hperform] at hquiet ⊢
          refine .inr ⟨?_, .here (fun q hq => get_mkdirs hmkdirs hq) (hquiet.1 ⟨_, rfl⟩)⟩
          rintro ⟨-, hworks, tree', hmove, -⟩
          obtain ⟨made', hmade', hrename⟩ := Option.bind_eq_some_iff.mp hmove
          obtain rfl := Option.some.inj (hmkdirs.symm.trans hmade')
          exact hsecond ⟨hworks, by rw [hrename, Option.isSome_some]⟩
      · -- the parent directories are not made, or not all of them
        simp only [hperform] at hquiet ⊢
        refine .inr ⟨?_, .here hmade (hquiet.1 ⟨_, rfl⟩)⟩
        rintro ⟨hworks, -, tree', hmove, -⟩
        obtain ⟨made', hmade', -⟩ := Option.bind_eq_some_iff.mp hmove
        exact hfirst ⟨hworks, by rw [hmade', Option.isSome_some]⟩

/-! ## All or nothing -/

/-- What a commit promises about its destinations and the staging directory. -/
def AllOrNothing (root : Path) (moves : List (Path × Path)) (tree : FileTree)
    (result : Except IndexError Unit × (FileTree × Nat)) : Prop :=
  match result.1 with
  | .error _ => ∀ m ∈ moves, get m.2 result.2.1 = get m.2 tree
  | .ok _ => Delivered result.2.1 moves tree ∧ get root result.2.1 = none

/-- The removal of the staging directory does not fail.  Where nothing was moved, a failure that is
reported does no harm. -/
def CommitEndWorks (pattern : Pattern) (root : Path) (moves : List (Path × Path)) (tree : FileTree) :
    Prop :=
  ∀ tree', moveAll moves tree = some tree' →
    works (pattern (2 * moves.length)) ∧
      (moves = [] ∨ RemovalWorks pattern root tree' (2 * moves.length))

theorem AllOrNothing.of_error {moves : List (Path × Path)}
    {result : Except IndexError Unit × (FileTree × Nat)} {error : IndexError}
    (herror : result.1 = .error error) (h : ∀ m ∈ moves, get m.2 result.2.1 = get m.2 tree) :
    AllOrNothing root moves tree result := by
  unfold AllOrNothing
  rw [herror]
  exact h

theorem Staged.allOrNothing_of_stopped {moves : List (Path × Path)} (h : Staged root moves tree)
    {result : Except IndexError Unit × (FileTree × Nat)}
    (hstopped : Stopped pattern root [] moves tree result) : AllOrNothing root moves tree result := by
  obtain ⟨done, m, later, tree', made, n, error, rfl, hdone, hmade, hundisturbed, rfl⟩ := hstopped
  rw [List.nil_append] at hundisturbed ⊢
  have hapart : (done.map (·.2) ++ m.2 :: later.map (·.2)).Pairwise Apart := by
    have hmap : (done ++ m :: later).map (·.2) = done.map (·.2) ++ m.2 :: later.map (·.2) := by
      rw [List.map_append, List.map_cons]
    exact hmap ▸ h.apart
  obtain ⟨hmoved, -, hcross⟩ := List.pairwise_append.mp hapart
  have hstaged : Staged root done tree :=
    ⟨h.root_ne_nil, h.dir, fun m' hm' => h.below m' (List.mem_append_left _ hm'),
      fun m' hm' => h.apart_root m' (List.mem_append_left _ hm'), hmoved,
      fun m' hm' => h.free m' (List.mem_append_left _ hm')⟩
  obtain ⟨-, -, hsame⟩ := hstaged.moveAll hdone
  obtain ⟨reported, hreported⟩ := rollBack_error pattern root (done.map (·.2)) error (made, n)
  refine .of_error hreported fun q hq => ?_
  rw [h.free q hq]
  refine get_rollBack (fun d hd => ?_) hmoved (h.apart_root q hq) hundisturbed ?_
  · obtain ⟨m', hm', rfl⟩ := List.mem_map.mp hd
    exact hstaged.dest_ne_nil m' hm'
  · -- a destination that was reached is removed, and one that was not was free from the start
    rcases List.mem_append.mp hq with hq' | hq'
    · exact .inl (List.mem_map_of_mem hq')
    · have hothers : ∀ d ∈ done.map (·.2), Apart d q.2 :=
        fun d hd => hcross d hd q.2 (List.mem_map_of_mem (f := fun m : Path × Path => m.2) hq')
      refine .inr ⟨hothers, ?_⟩
      -- the directories on the way to the move that failed hold no destination
      have hway : ¬q.2 <+: m.2.dropLast := by
        cases hq' with
        | head => exact not_prefix_dropLast_self (h.dest_ne_nil m hq)
        | tail _ hq' =>
            have hlater := (List.pairwise_cons.mp (List.pairwise_append.mp hapart).2.1).1
            exact not_prefix_dropLast (hlater q.2 (List.mem_map_of_mem hq'))
      show get q.2 made = none
      rw [hmade q.2 hway, hsame q.2 (h.apart_root q hq)
        fun m' hm' => hothers m'.2 (List.mem_map_of_mem hm')]
      exact h.free q hq

theorem Delivered.isSome {moves : List (Path × Path)} (h : Delivered tree' moves tree) :
    ∀ m ∈ moves, (get m.2 tree').isSome := by
  induction moves generalizing tree with
  | nil => exact fun m hm => absurd hm List.not_mem_nil
  | cons m rest ih =>
      obtain ⟨hpresent, harrived, hrest⟩ := h
      refine List.forall_mem_cons.mpr ⟨?_, ih hrest⟩
      rw [harrived, hpresent]

theorem Delivered.of_same {moves : List (Path × Path)} {final : FileTree}
    (h : Delivered tree' moves tree) (hsame : ∀ m ∈ moves, get m.2 final = get m.2 tree') :
    Delivered final moves tree := by
  induction moves generalizing tree with
  | nil => trivial
  | cons m rest ih =>
      obtain ⟨hpresent, harrived, hrest⟩ := h
      refine ⟨hpresent, ?_, ih hrest fun m' hm' => hsame m' (List.mem_cons_of_mem _ hm')⟩
      rw [hsame m (List.mem_cons_self ..), harrived]

/-- A commit whose moves all go through is right exactly if its last part does not fail. -/
theorem Staged.allOrNothing_of_moved {moves : List (Path × Path)} (h : Staged root moves tree)
    (hmoves : StagedDir.moveAll moves tree = some tree') :
    AllOrNothing root moves tree (play pattern (removeDirAllIfExists root).run (tree', n)) ↔
      works (pattern n) ∧ (moves = [] ∨ RemovalWorks pattern root tree' n) := by
  obtain ⟨hdelivered, hdir, -⟩ := h.moveAll hmoves
  have hsame : ∀ m ∈ moves, get m.2 (play pattern (removeDirAllIfExists root).run (tree', n)).2.1 =
      get m.2 tree' :=
    fun m hm => get_play removeDirAllIfExists_within (h.apart_root m hm)
  by_cases hseen : works (pattern n)
  · by_cases hremoval : RemovalWorks pattern root tree' n
    · refine iff_of_true ?_ ⟨hseen, .inr hremoval⟩
      obtain ⟨hanswer, hgone⟩ := removeDirAllIfExists_ok h.root_ne_nil hdir hremoval
      unfold AllOrNothing
      rw [hanswer]
      exact ⟨hdelivered.of_same hsame, hgone⟩
    · -- the error comes after the last move: nothing is undone
      obtain ⟨error, herror⟩ := removeDirAllIfExists_error hseen hdir hremoval
      rw [and_iff_right hseen, or_iff_left hremoval]
      constructor
      · intro hall
        unfold AllOrNothing at hall
        rw [herror] at hall
        refine List.eq_nil_iff_forall_not_mem.mpr fun m hm => ?_
        have hthere := hdelivered.isSome m hm
        rw [← hsame m hm, hall m hm, h.free m hm] at hthere
        cases hthere
      · rintro rfl
        exact .of_error herror fun m hm => absurd hm List.not_mem_nil
  · -- the probe misses the staging directory, which stays although success is reported
    refine iff_of_false ?_ fun hworks => hseen hworks.1
    rw [play_removeDirAllIfExists_unseen hseen]
    rintro ⟨-, hgone⟩
    have hthere := isSome_of_isDirAt hdir
    rw [show get root tree' = none from hgone] at hthere
    cases hthere

/-- A commit is all or nothing exactly if, once every move is made, the removal of the staging
directory does not fail. -/
theorem Staged.allOrNothing_iff {moves : List (Path × Path)} (h : Staged root moves tree)
    (hquiet : RollBackWorks pattern (commit root moves) (tree, 0)) :
    AllOrNothing root moves tree (play pattern (commit root moves) (tree, 0)) ↔
      (MovesWork pattern moves tree 0 → CommitEndWorks pattern root moves tree) := by
  rcases commitMoves_cases h.dest_ne_nil hquiet with ⟨hwork, tree', hmoves, hplay⟩ | ⟨hwork, hstopped⟩
  · rw [forall_prop_of_true hwork]
    unfold commit CommitEndWorks
    rw [hplay, Nat.zero_add, h.allOrNothing_of_moved hmoves, hmoves]
    simp only [Option.some.injEq, forall_eq']
  · exact iff_of_true (h.allOrNothing_of_stopped hstopped) fun hmoved => absurd hmoved hwork

/-! ## The replacement of a directory -/

variable {backup : Path} {nonce : Except String String}

/-- The name the old directory has while the new one takes its place. -/
def IsBackup (d : Path) (nonce : Except String String) (backup : Path) : Prop :=
  ∃ name text, d.getLast? = some name ∧ nonce = .ok text ∧ backup = backupOf d name text

/-- The staged directory is there, apart from its destination, where there is a directory or
nothing, and the backup's name is a new one. -/
structure Replaceable (root d : Path) (nonce : Except String String) (tree : FileTree) : Prop where
  dir : isDirAt root tree = true
  apart : Apart root d
  kind : kindAt d tree ≠ some false
  fresh : ∀ backup, IsBackup d nonce backup → get backup tree = none

/-- What the replacement of a directory promises. -/
def ReplacedOrKept (root d : Path) (nonce : Except String String) (tree : FileTree)
    (result : Except IndexError Unit × (FileTree × Nat)) : Prop :=
  match result.1 with
  | .error _ => get d result.2.1 = get d tree
  | .ok _ => get d result.2.1 = get root tree ∧ get root result.2.1 = none ∧
      ∀ backup, IsBackup d nonce backup → get backup result.2.1 = none

/-- The removal of the old directory does not fail.  Where it is no other than the new one, a
failure that is reported does no harm. -/
def ReplaceEndWorks (pattern : Pattern) (root d : Path) (tree : FileTree) : Prop :=
  works (pattern 3) ∧ (get root tree = get d tree ∨ RemovalWorks pattern d tree 3)

theorem backupOf_ne (name nonce : String) : s!".{name}-backup-{nonce}" ≠ name := fun heq => by
  have hlength := congrArg String.length heq
  have hbackup : "-backup-".length = 8 := rfl
  simp [toString] at hlength
  omega

theorem dropLast_append_of_getLast? {name : String} (h : d.getLast? = some name) :
    d.dropLast ++ [name] = d :=
  List.dropLast_append_getLast? name h

theorem apart_siblings {parent : Path} {name other : String} (hne : name ≠ other) :
    Apart (parent ++ [name]) (parent ++ [other]) := by
  constructor
  · intro hpre
    exact hne (List.cons_prefix_cons.mp ((List.prefix_append_right_inj parent).mp hpre)).1
  · intro hpre
    exact hne (List.cons_prefix_cons.mp ((List.prefix_append_right_inj parent).mp hpre)).1.symm

/-- The backup is next to the destination, under another name. -/
theorem apart_backupOf {name text : String} (h : d.getLast? = some name) :
    Apart d (backupOf d name text) := by
  have hapart : Apart (d.dropLast ++ [name]) (backupOf d name text) :=
    apart_siblings (backupOf_ne name text).symm
  rwa [dropLast_append_of_getLast? h] at hapart

theorem apart_root_backupOf {name text : String} (hdir : isDirAt root tree = true)
    (hapart : Apart root d) (hfree : get (backupOf d name text) tree = none) :
    Apart root (backupOf d name text) := by
  constructor
  · intro hpre
    -- the backup is next to the destination, so the root would be the backup or above the destination
    rcases List.prefix_concat_iff.mp hpre with heq | hparent
    · rw [backupOf, ← heq] at hfree
      rw [isDirAt, kindAt, hfree] at hdir
      cases hdir
    · exact hapart.1 (hparent.trans d.dropLast_prefix)
  · rintro ⟨below, hbelow⟩
    rw [isDirAt, kindAt, ← hbelow, get_append, hfree] at hdir
    cases hdir

theorem publish_eq (hadPrevious : Bool) :
    publish root d backup hadPrevious = after (.rename root d) fun renamed => match renamed with
      | .error error => restore root d backup hadPrevious error
      | .ok _ => if hadPrevious then (removeDirAllIfExists backup).run else .done (.ok ()) := by
  refine congrArg (after (.rename root d)) (funext fun renamed => ?_)
  cases renamed <;> rfl

/-- What is left of the staging directory is removed, and an error is reported. -/
def cleanUp (root : Path) (report : Except IndexError Unit → IndexError) :
    FsM (Except IndexError Unit) :=
  (removeDirAllIfExists root).run >>= fun cleanup => .done (.error (report cleanup))

/-- What is reported when the staged directory could not be moved. -/
def notPublished (root d : Path) (error : String) (restored cleanup : Except IndexError Unit) :
    IndexError :=
  appendCleanupFailure
    (.operation s!"failed to publish staged artifact from {displayPath root} to {displayPath d}: {error}")
    (combineCleanupResults [restored, cleanup])

theorem restore_false (error : String) :
    restore root d backup false error = cleanUp root (notPublished root d error (.ok ())) := rfl

theorem restore_true (error : String) :
    restore root d backup true error = after (.rename backup d) fun restored =>
      cleanUp root (notPublished root d error (Except.mapError (fun restoreError => IndexError.operation
        s!"failed to restore previous directory {displayPath d}: {restoreError}") restored)) := rfl

theorem notAside_eq (root d : Path) (error : String) :
    ∃ report : Except IndexError Unit → IndexError, notAside root d error = cleanUp root report :=
  ⟨_, rfl⟩

theorem replaceDir_eq :
    replaceDir root d backup = after (.exists d) fun found =>
      if found then after (.rename d backup) fun renamed => match renamed with
        | .error error => notAside root d error
        | .ok _ => publish root d backup true
      else publish root d backup false := by
  refine congrArg (after (.exists d)) (funext fun found => ?_)
  cases found with
  | false => rfl
  | true =>
      refine congrArg (after (.rename d backup)) (funext fun renamed => ?_)
      cases renamed <;> rfl

/-- Cleaning up stays in the staging directory. -/
theorem play_cleanUp (pattern : Pattern) (report : Except IndexError Unit → IndexError)
    (w : FileTree × Nat) (hq : Apart root q) :
    (∃ error, (play pattern (cleanUp root report) w).1 = .error error) ∧
      get q (play pattern (cleanUp root report) w).2.1 = get q w.1 := by
  rw [cleanUp, play_bind]
  exact ⟨⟨_, rfl⟩, get_play removeDirAllIfExists_within hq⟩

/-! ## The replacement, step by step -/

/-- What a run of the replacement promises, once the backup has its name. -/
def Replaced (root d backup : Path) (tree : FileTree)
    (result : Except IndexError Unit × (FileTree × Nat)) : Prop :=
  match result.1 with
  | .error _ => get d result.2.1 = get d tree
  | .ok _ => get d result.2.1 = get root tree ∧ get root result.2.1 = none ∧
      get backup result.2.1 = none

/-- The three places, apart from each other. -/
structure Places (root d backup : Path) : Prop where
  root_d : Apart root d
  root_backup : Apart root backup
  d_backup : Apart d backup
  siblings : backup.dropLast = d.dropLast

theorem Replaced.of_cleanUp {report : Except IndexError Unit → IndexError} (hroot : Apart root d)
    (hsame : get d w.1 = get d tree) :
    Replaced root d backup tree (play pattern (cleanUp root report) w) := by
  obtain ⟨⟨error, herror⟩, hkept⟩ := play_cleanUp pattern report w hroot
  unfold Replaced
  rw [herror]
  exact hkept.trans hsame

/-- Without an old directory nothing has to be put back. -/
theorem replaced_publish_false (hplaces : Places root d backup) (hfree : get backup tree = none) :
    Replaced root d backup tree (play pattern (publish root d backup false) (tree, n)) := by
  rw [publish_eq, play_after]
  rcases perform_rename_cases root d tree (pattern n) with
    ⟨-, tree', hrename, hperform⟩ | ⟨-, hperform⟩
  · obtain ⟨node, hrenamed⟩ := rename_eq_some hplaces.root_d hrename
    simp only [hperform, Bool.false_eq_true, if_false]
    refine ⟨?_, hrenamed.source_after, ?_⟩
    · exact hrenamed.dest_after.trans hrenamed.source_before.symm
    · exact (hrenamed.apart backup hplaces.root_backup hplaces.d_backup).trans hfree
  · simp only [hperform, restore_false]
    exact .of_cleanUp hplaces.root_d rfl

/-- The old directory is aside, under the backup's name. -/
structure Aside (root d backup : Path) (tree aside : FileTree) : Prop where
  free : get d aside = none
  backup : get backup aside = get d tree
  staged : get root aside = get root tree
  parent : isDirAt d.dropLast aside = true

theorem aside_of_rename (hplaces : Places root d backup) {aside : FileTree}
    (h : rename d backup tree = some aside) : Aside root d backup tree aside := by
  obtain ⟨node, hrenamed⟩ := rename_eq_some hplaces.d_backup h
  refine ⟨hrenamed.source_after, ?_, hrenamed.apart root hplaces.root_d.symm hplaces.root_backup.symm, ?_⟩
  · exact hrenamed.dest_after.trans hrenamed.source_before.symm
  · rw [← hplaces.siblings]
    exact isDirAt_dropLast hrenamed.dest_after hplaces.d_backup.symm.ne_nil

theorem children_congr (h : get p tree = get q tree') : children p tree = children q tree' := by
  rw [children, children, h]

/-- Once the new directory is in its place, all depends on the removal of the old one. -/
theorem replaced_of_published (hplaces : Places root d backup) {aside : FileTree}
    (haside : Aside root d backup tree aside) (hdir : isDirAt d tree = true)
    (hrename : rename root d aside = some tree') :
    Replaced root d backup tree (play pattern (removeDirAllIfExists backup).run (tree', 3)) ↔
      ReplaceEndWorks pattern root d tree := by
  obtain ⟨node, hrenamed⟩ := rename_eq_some hplaces.root_d hrename
  have hnew : get d tree' = get root tree := by
    rw [hrenamed.dest_after, ← haside.staged, hrenamed.source_before]
  have hold : get backup tree' = get d tree := by
    rw [hrenamed.apart backup hplaces.root_backup hplaces.d_backup, haside.backup]
  have hbackup : isDirAt backup tree' = true := by
    rwa [isDirAt, kindAt, hold, ← kindAt, ← isDirAt]
  have hremovals : RemovalWorks pattern d tree 3 ↔ RemovalWorks pattern backup tree' 3 := by
    rw [RemovalWorks, RemovalWorks, children_congr hold]
  have hkept : ∀ r, Apart backup r →
      get r (play pattern (removeDirAllIfExists backup).run (tree', 3)).2.1 = get r tree' :=
    fun r hr => get_play removeDirAllIfExists_within hr
  rw [ReplaceEndWorks, hremovals]
  by_cases hseen : works (pattern 3)
  · rw [and_iff_right hseen]
    by_cases hremoval : RemovalWorks pattern backup tree' 3
    · obtain ⟨hanswer, hgone⟩ := removeDirAllIfExists_ok hplaces.d_backup.symm.ne_nil hbackup hremoval
      refine iff_of_true ?_ (.inr hremoval)
      unfold Replaced
      rw [hanswer]
      refine ⟨(hkept d hplaces.d_backup.symm).trans hnew, ?_, hgone⟩
      exact (hkept root hplaces.root_backup.symm).trans hrenamed.source_after
    · obtain ⟨error, herror⟩ := removeDirAllIfExists_error hseen hbackup hremoval
      unfold Replaced
      rw [herror, or_iff_left hremoval]
      show get d _ = get d tree ↔ _
      rw [hkept d hplaces.d_backup.symm, hnew]
  · refine iff_of_false ?_ fun hworks => hseen hworks.1
    rw [play_removeDirAllIfExists_unseen hseen]
    rintro ⟨-, -, hgone⟩
    have hthere := isSome_of_isDirAt hbackup
    rw [show get backup tree' = none from hgone] at hthere
    cases hthere

/-- The new directory is put in the place of the old one, which is aside. -/
theorem replaced_publish_true (hplaces : Places root d backup) {aside : FileTree}
    (haside : Aside root d backup tree aside) (hdir : isDirAt d tree = true)
    (hroot : isDirAt root tree = true)
    (hquiet : RollBackWorks pattern (publish root d backup true) (aside, 2)) :
    Replaced root d backup tree (play pattern (publish root d backup true) (aside, 2)) ↔
      (works (pattern 2) → ReplaceEndWorks pattern root d tree) := by
  rw [publish_eq, quiet_after] at hquiet
  rw [publish_eq, play_after]
  rcases perform_rename_cases root d aside (pattern 2) with
    ⟨hworks, tree', hrename, hperform⟩ | ⟨hfails, hperform⟩
  · rw [forall_prop_of_true hworks]
    simp only [hperform, if_true]
    exact replaced_of_published hplaces haside hdir hrename
  · -- the rename fails, and the old directory is put back
    obtain ⟨entries, hentries⟩ := isDirAt_iff.mp hroot
    have hpossible : (rename root d aside).isSome :=
      rename_isSome hplaces.root_d (haside.staged.trans hentries) haside.free haside.parent
    refine iff_of_true ?_ fun hworks => absurd ⟨hworks, hpossible⟩ hfails
    simp only [hperform] at hquiet ⊢
    rw [restore_true] at hquiet ⊢
    obtain ⟨hback, -⟩ := undisturbed_after.mp (hquiet.1 ⟨_, rfl⟩)
    obtain ⟨old, hold⟩ := isDirAt_iff.mp hdir
    have hreturns : (rename backup d aside).isSome :=
      rename_isSome hplaces.d_backup.symm (haside.backup.trans hold) haside.free haside.parent
    rw [play_after]
    rcases perform_rename_cases backup d aside (pattern 3) with
      ⟨-, tree', hrestored, hperform⟩ | ⟨hnot, -⟩
    · -- the old directory is back
      obtain ⟨node, hrenamed⟩ := rename_eq_some hplaces.d_backup.symm hrestored
      simp only [hperform]
      refine .of_cleanUp hplaces.root_d ?_
      show get d tree' = get d tree
      rw [hrenamed.dest_after, ← hrenamed.source_before, haside.backup]
    · exact absurd ⟨hback, hreturns⟩ hnot

theorem forall_lt_three {P : Nat → Prop} : (∀ i < 3, P i) ↔ P 0 ∧ P 1 ∧ P 2 := by
  constructor
  · intro h
    exact ⟨h 0 (by decide), h 1 (by decide), h 2 (by decide)⟩
  · rintro ⟨hzero, hone, htwo⟩ i hi
    interval_cases i
    · exact hzero
    · exact hone
    · exact htwo

theorem replaced_replaceDir (hplaces : Places root d backup) (hroot : isDirAt root tree = true)
    (hkind : kindAt d tree ≠ some false) (hfree : get backup tree = none)
    (hquiet : RollBackWorks pattern (replaceDir root d backup) (tree, 0)) :
    Replaced root d backup tree (play pattern (replaceDir root d backup) (tree, 0)) ↔
      (isDirAt d tree = true → (∀ i < 3, works (pattern i)) → ReplaceEndWorks pattern root d tree) := by
  rw [forall_lt_three]
  rw [replaceDir_eq, quiet_after] at hquiet
  rw [replaceDir_eq, play_after]
  by_cases hseen : works (pattern 0)
  · rw [perform_exists hseen] at hquiet ⊢
    cases hnode : get d tree with
    -- no old directory: there is nothing to lose
    | none =>
        refine iff_of_true (replaced_publish_false hplaces hfree) fun hdir => ?_
        rw [isDirAt, kindAt, hnode] at hdir
        cases hdir
    | some node =>
        rw [hnode] at hquiet
        simp only [Option.isSome_some, if_true] at hquiet ⊢
        obtain ⟨-, hquiet⟩ := hquiet
        rw [quiet_after] at hquiet
        have hdir : isDirAt d tree = true := by
          rw [kindAt, hnode] at hkind
          cases node with
          | file bytes => exact absurd rfl hkind
          | dir entries => exact isDirAt_iff.mpr ⟨entries, hnode⟩
        have hparent : isDirAt backup.dropLast tree = true := by
          rw [hplaces.siblings]
          exact isDirAt_dropLast hnode hplaces.root_d.symm.ne_nil
        rw [forall_prop_of_true hdir, play_after]
        rcases perform_rename_cases d backup tree (pattern 1) with
          ⟨hworks, aside, hrename, hperform⟩ | ⟨hfails, hperform⟩
        · simp only [hperform] at hquiet ⊢
          have haside := aside_of_rename hplaces hrename
          rw [replaced_publish_true hplaces haside hdir hroot hquiet.2]
          exact ⟨fun hrest hall => hrest hall.2.2, fun hrest htwo => hrest ⟨hseen, hworks, htwo⟩⟩
        · -- the old directory could not be put aside, and stays
          refine iff_of_true ?_ fun h => absurd ⟨h.2.1, rename_isSome hplaces.d_backup hnode hfree hparent⟩ hfails
          simp only [hperform]
          obtain ⟨report, hreport⟩ := notAside_eq root d (pattern 1).detail
          rw [hreport]
          exact .of_cleanUp hplaces.root_d rfl
  · rw [perform_exists_fails hseen]
    exact iff_of_true (replaced_publish_false hplaces hfree) fun _ h => absurd h.1 hseen

/-- A replacement is all or nothing exactly if, where an old directory was moved aside and the new one
has its place, the removal of the old one does not fail. -/
theorem Replaceable.replacedOrKept_iff (h : Replaceable root d nonce tree)
    (hquiet : RollBackWorks pattern (commitReplaceDir root d nonce) (tree, 0)) :
    ReplacedOrKept root d nonce tree (play pattern (commitReplaceDir root d nonce) (tree, 0)) ↔
      ((∃ text, nonce = .ok text) → isDirAt d tree = true → (∀ i < 3, works (pattern i)) →
        ReplaceEndWorks pattern root d tree) := by
  obtain ⟨name, hname⟩ : ∃ name, d.getLast? = some name :=
    Option.isSome_iff_exists.mp (List.getLast?_isSome.mpr h.apart.symm.ne_nil)
  cases nonce with
  | error source =>
      refine iff_of_true ?_ fun ⟨text, htext⟩ => by cases htext
      unfold commitReplaceDir
      rw [hname]
      exact rfl
  | ok text =>
      have hbackup : IsBackup d (.ok text) (backupOf d name text) := ⟨name, text, hname, rfl, rfl⟩
      have hfree := h.fresh _ hbackup
      have hplaces : Places root d (backupOf d name text) :=
        ⟨h.apart, apart_root_backupOf h.dir h.apart hfree, apart_backupOf hname,
          List.dropLast_concat⟩
      have hprogram : commitReplaceDir root d (.ok text) = replaceDir root d (backupOf d name text) := by
        unfold commitReplaceDir
        rw [hname]
      have honly : ∀ backup, IsBackup d (.ok text) backup ↔ backup = backupOf d name text := by
        refine fun backup => ⟨?_, fun heq => heq ▸ hbackup⟩
        rintro ⟨name', text', hname', htext, rfl⟩
        rw [Option.some.inj (hname.symm.trans hname'), Except.ok.inj htext]
      rw [hprogram] at hquiet ⊢
      rw [forall_prop_of_true ⟨text, rfl⟩, ← replaced_replaceDir hplaces h.dir h.kind hfree hquiet]
      unfold ReplacedOrKept Replaced
      simp only [honly, forall_eq]

/-- One staged file, to be moved next to the staging directory. -/
def oneStaged : FileTree := .dir [(".staging", .dir [("manifest.json", .file [])])]

def oneMove : List (Path × Path) := [([".staging", "manifest.json"], ["manifest.json"])]

theorem staged_oneMove : Staged [".staging"] oneMove oneStaged where
  root_ne_nil := by simp
  dir := rfl
  below := fun m hm => ⟨["manifest.json"], List.cons_ne_nil _ _, by rw [List.mem_singleton.mp hm]; rfl⟩
  apart_root := fun m hm => by rw [List.mem_singleton.mp hm]; decide
  apart := List.pairwise_singleton _ _
  free := fun m hm => by rw [List.mem_singleton.mp hm]; rfl

/-- One operation fails. -/
def failsAt (n : Nat) : Pattern := fun i => ⟨i == n, "permission denied", none, 0⟩

/-- The fifth operation fails: the last one of the removal of the staging directory. -/
def lastRemoval : Pattern := failsAt 4

theorem commit_lastRemoval :
    Staged [".staging"] oneMove oneStaged ∧
      RollBackWorks lastRemoval (commit [".staging"] oneMove) (oneStaged, 0) ∧
      ¬AllOrNothing [".staging"] oneMove oneStaged
        (play lastRemoval (commit [".staging"] oneMove) (oneStaged, 0)) := by
  refine ⟨staged_oneMove, ?_, ?_⟩
  · -- neither step of the move reports an error, and the others are no moves
    refine And.intro ?_ (And.intro ?_ ?_)
    · rintro ⟨detail, hdetail⟩
      cases hdetail
    · rintro ⟨detail, hdetail⟩
      cases hdetail
    · exact ⟨False.elim, False.elim, False.elim, trivial⟩
  · intro hall
    have hkept : get ["manifest.json"] (play lastRemoval (commit [".staging"] oneMove) (oneStaged, 0)).2.1 =
        get ["manifest.json"] oneStaged := hall _ (List.mem_singleton_self _)
    cases hkept

/-- Staged commits, under every pattern of failures with a roll-back that works: they are all or
nothing exactly if the removal of what is no longer needed does not fail. -/
theorem stagedCommits_allOrNothing_iff (pattern : Pattern) (tree : FileTree) (root : Path) :
    (∀ moves : List (Path × Path), Staged root moves tree →
      RollBackWorks pattern (commit root moves) (tree, 0) →
      (AllOrNothing root moves tree (play pattern (commit root moves) (tree, 0)) ↔
        (MovesWork pattern moves tree 0 → CommitEndWorks pattern root moves tree))) ∧
    ∀ (destination : Path) (nonce : Except String String), Replaceable root destination nonce tree →
      RollBackWorks pattern (commitReplaceDir root destination nonce) (tree, 0) →
      (ReplacedOrKept root destination nonce tree
          (play pattern (commitReplaceDir root destination nonce) (tree, 0)) ↔
        ((∃ text, nonce = .ok text) → isDirAt destination tree = true →
          (∀ i < 3, works (pattern i)) → ReplaceEndWorks pattern root destination tree)) :=
  ⟨fun _ h hquiet => h.allOrNothing_iff hquiet, fun _ _ h hquiet => h.replacedOrKept_iff hquiet⟩

/-- Two staged files next to a directory that is there already. -/
def twoStaged : FileTree :=
  .dir [(".staging", .dir [("index.bin", .file [1]), ("manifest.json", .file [2])]),
    ("releases", .dir [("old.bin", .file [3])])]

/-- Both are moved into that directory. -/
def twoMoves : List (Path × Path) :=
  [([".staging", "index.bin"], ["releases", "index.bin"]),
    ([".staging", "manifest.json"], ["releases", "manifest.json"])]

theorem staged_twoMoves : Staged [".staging"] twoMoves twoStaged where
  root_ne_nil := by simp
  dir := rfl
  below := by
    intro m hm
    simp only [twoMoves, List.mem_cons, List.not_mem_nil, or_false] at hm
    rcases hm with rfl | rfl
    · exact ⟨["index.bin"], List.cons_ne_nil _ _, rfl⟩
    · exact ⟨["manifest.json"], List.cons_ne_nil _ _, rfl⟩
  apart_root := by decide
  apart := by decide
  free := by
    intro m hm
    simp only [twoMoves, List.mem_cons, List.not_mem_nil, or_false] at hm
    rcases hm with rfl | rfl <;> rfl

theorem works_failsAt {n i : Nat} (h : n < i) : works (failsAt n i) :=
  beq_eq_false_iff_ne.mpr (Nat.ne_of_gt h)

/-- The second rename fails, and what comes after it does not. -/
theorem rollBackWorks_twoMoves :
    RollBackWorks (failsAt 3) (commit [".staging"] twoMoves) (twoStaged, 0) := by
  refine And.intro ?_ (And.intro ?_ (And.intro ?_ (And.intro ?_ ?_)))
  · rintro ⟨detail, hdetail⟩
    cases hdetail
  · rintro ⟨detail, hdetail⟩
    cases hdetail
  · rintro ⟨detail, hdetail⟩
    cases hdetail
  · exact fun _ => Machine.undisturbed_of_good fun n hn => works_failsAt hn
  · exact Machine.quietAfter_of_good fun n hn => works_failsAt hn

theorem replaceable_releases : Replaceable [".staging"] ["releases"] (.ok "1") twoStaged where
  dir := rfl
  apart := by decide
  kind := fun h => by cases h
  fresh := by
    rintro backup ⟨name, text, hname, htext, rfl⟩
    obtain rfl : "releases" = name := Option.some.inj hname
    obtain rfl : "1" = text := Except.ok.inj htext
    rfl

/-- The staged directory does not get its place, and the old one goes back. -/
theorem rollBackWorks_releases :
    RollBackWorks (failsAt 2) (commitReplaceDir [".staging"] ["releases"] (.ok "1")) (twoStaged, 0) := by
  refine And.intro ?_ (And.intro ?_ (And.intro ?_ ?_))
  · exact False.elim
  · rintro ⟨detail, hdetail⟩
    cases hdetail
  · exact fun _ => Machine.undisturbed_of_good fun n hn => works_failsAt hn
  · exact Machine.quietAfter_of_good fun n hn => works_failsAt hn

/-- A commit of two files whose second rename fails, and a replacement that is undone. -/
theorem stagedCommits_undone :
    (AllOrNothing [".staging"] twoMoves twoStaged
        (play (failsAt 3) (commit [".staging"] twoMoves) (twoStaged, 0)) ∧
      (play (failsAt 3) (commit [".staging"] twoMoves) (twoStaged, 0)).2.1 =
        .dir [("releases", .dir [("old.bin", .file [3])])]) ∧
      ReplacedOrKept [".staging"] ["releases"] (.ok "1") twoStaged
        (play (failsAt 2) (commitReplaceDir [".staging"] ["releases"] (.ok "1")) (twoStaged, 0)) := by
  refine ⟨⟨?_, rfl⟩, ?_⟩
  · apply ((stagedCommits_allOrNothing_iff (failsAt 3) twoStaged [".staging"]).1 twoMoves
      staged_twoMoves rollBackWorks_twoMoves).mpr
    -- the moves do not all work, so nothing is asked of the removal
    intro hwork
    exact absurd (hwork.2 3 (by decide)) (by decide)
  · apply ((stagedCommits_allOrNothing_iff (failsAt 2) twoStaged [".staging"]).2 ["releases"]
      (.ok "1") replaceable_releases rollBackWorks_releases).mpr
    intro _ _ hwork
    exact absurd (hwork 2 (by decide)) (by decide)

end StagedDir

end LTSearch
