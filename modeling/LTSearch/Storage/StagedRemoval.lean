/-
# LTSearch.Storage.StagedRemoval -- what the removal of a directory comes to

Under a pattern of failing operations the removal of a directory either does all of its steps, and
then the directory is gone, or stops at the first one that fails, and says so.  Nothing apart from
the directory is touched.
-/
import LTSearch.Foundation.FaultPattern
import LTSearch.Storage.StagedPublish

namespace LTSearch

open LTSearch.Foundation FileTree

namespace StagedDir

/-! ## One program, with its failures -/

/-- Which operation fails, and how. -/
abbrev Pattern := Nat → FsChoice

variable {α : Type} {pattern : Pattern} {p q : Path} {tree : FileTree} {n : Nat}
  {w : FileTree × Nat}

/-- The program to its end.  The number is that of the next operation. -/
abbrev play (pattern : Pattern) (x : FsM α) (w : FileTree × Nat) : α × (FileTree × Nat) :=
  (disk Unit).timed.alone () pattern x w

abbrev works (c : FsChoice) : Prop := c.fails = false

/-- No operation of the program fails. -/
abbrev Undisturbed (pattern : Pattern) (x : FsM α) (w : FileTree × Nat) : Prop :=
  (disk Unit).Undisturbed () works pattern x w

theorem play_bind {β : Type} (x : FsM α) (f : α → FsM β) :
    play pattern (x >>= f) w = play pattern (f (play pattern x w).1) (play pattern x w).2 :=
  Machine.alone_bind x f

theorem get_play {x : FsM α} (h : x.Within (FsOp.Inside p)) (hq : Apart p q) :
    get q (play pattern x w).2.1 = get q w.1 := by
  have hstep : ∀ (op : FsOp) (w' : FileTree × Nat), op.Inside p → get q w'.1 = get q w.1 →
      get q ((disk Unit).timed.apply () op pattern w').2.1 = get q w.1 :=
    fun op w' hop hw => (get_perform_inside hop hq _ _).trans hw
  exact Machine.alone_within (M := (disk Unit).timed) (P := fun w' => get q w'.1 = get q w.1) h hstep rfl

/-! ## The steps -/

/-- One operation and what follows its answer. -/
abbrev after (op : FsOp) (next : op.Ans → FsM α) : FsM α := Prog.call (S := fsSignature) op next


theorem removeEntries_cons (name : String) (rest : List String) :
    (removeEntries p (name :: rest)).run =
      after (.remove (p ++ [name])) fun answer => match answer with
        | .ok _ => (removeEntries p rest).run
        | .error detail => .done (.error detail) := by
  show Prog.call _ _ = Prog.call _ _
  congr 1
  funext answer
  cases answer <;> rfl

theorem removeDirAll_run :
    (removeDirAll p).run =
      after (.readDir p) fun answer => match answer with
        | .ok names => (removeEntries p names).run >>= fun result => match result with
            | .ok _ => after (.removeDir p) .done
            | .error detail => .done (.error detail)
        | .error detail => .done (.error detail) := by
  show Prog.call _ _ = Prog.call _ _
  congr 1
  funext answer
  cases answer with
  | error detail => rfl
  | ok names =>
      show (removeEntries p names).run >>= _ = (removeEntries p names).run >>= _
      congr 1
      funext result
      cases result <;> rfl

theorem removeDirAllIfExists_run :
    (removeDirAllIfExists p).run =
      after (.exists p) fun found =>
        if found then (removeDirAll p).run >>= fun result => .done (Except.mapError (fun source =>
            IndexError.operation s!"failed to remove directory {displayPath p}: {source}") result)
        else .done (.ok ()) := by
  refine congrArg (after (.exists p)) (funext fun found => ?_)
  cases found <;> rfl

theorem removePathIfExists_run :
    (removePathIfExists p).run =
      after (.exists p) fun found =>
        if found then after (.isDir p) fun directory =>
          if directory then (removeDirAll p).run >>= fun result => .done (Except.mapError (fun source =>
              IndexError.operation s!"failed to remove directory {displayPath p}: {source}") result)
          else after (.removeFile p) fun result => .done (Except.mapError (fun source =>
              IndexError.operation s!"failed to remove file {displayPath p}: {source}") result)
        else .done (.ok ()) := by
  refine congrArg (after (.exists p)) (funext fun found => ?_)
  cases found with
  | false => rfl
  | true =>
      refine congrArg (after (.isDir p)) (funext fun directory => ?_)
      cases directory <;> rfl

variable {op : FsOp} {next : op.Ans → FsM α}

theorem play_after :
    play pattern (after op next) w =
      play pattern (next (perform op (pattern w.2) w.1).1)
        ((perform op (pattern w.2) w.1).2, w.2 + 1) := rfl

theorem undisturbed_after :
    Undisturbed pattern (after op next) w ↔
      works (pattern w.2) ∧ Undisturbed pattern (next (perform op (pattern w.2) w.1).1)
        ((perform op (pattern w.2) w.1).2, w.2 + 1) := Iff.rfl

/-! ## What is touched -/

theorem removeEntries_within (names : List String) :
    (removeEntries p names).run.Within (FsOp.Inside p) := by
  induction names with
  | nil => trivial
  | cons name rest ih =>
      rw [removeEntries_cons]
      refine ⟨List.prefix_append p _, fun answer => ?_⟩
      cases answer with
      | ok _ => exact ih
      | error detail => trivial

theorem removeDirAll_within : (removeDirAll p).run.Within (FsOp.Inside p) := by
  rw [removeDirAll_run]
  refine ⟨trivial, fun answer => ?_⟩
  cases answer with
  | error detail => trivial
  | ok names =>
      refine (removeEntries_within names).bind fun result => ?_
      cases result with
      | ok _ => exact ⟨List.prefix_refl p, fun _ => trivial⟩
      | error detail => trivial

theorem removeDirAllIfExists_within : (removeDirAllIfExists p).run.Within (FsOp.Inside p) := by
  rw [removeDirAllIfExists_run]
  refine ⟨trivial, fun found => ?_⟩
  cases found with
  | false => trivial
  | true => exact removeDirAll_within.bind fun _ => trivial

theorem removePathIfExists_within : (removePathIfExists p).run.Within (FsOp.Inside p) := by
  rw [removePathIfExists_run]
  refine ⟨trivial, fun found => ?_⟩
  cases found with
  | false => trivial
  | true =>
      refine ⟨trivial, fun directory => ?_⟩
      cases directory with
      | false => exact ⟨List.prefix_refl p, fun _ => trivial⟩
      | true => exact removeDirAll_within.bind fun _ => trivial

/-! ## The removal of a directory -/

theorem perform_remove {name : String} {c : FsChoice} (hname : name ∈ children p tree)
    (hworks : works c) :
    perform (.remove (p ++ [name])) c tree = (.ok (), set (p ++ [name]) none tree) := by
  have hsome := mem_children.mp hname
  have hallowed : ¬(c.fails = true ∨ p ++ [name] = [] ∨ (get (p ++ [name]) tree).isNone = true) := by
    rw [show c.fails = false from hworks]
    simp [Option.isSome_iff_ne_none.mp hsome]
  simp only [perform, if_neg hallowed]

/-- The names are read, each once. -/
theorem perform_readDir {c : FsChoice} (hdir : isDirAt p tree = true) (hworks : works c) :
    ∃ names : List String, names.Nodup ∧ names.toFinset = children p tree ∧
      perform (.readDir p) c tree = (.ok names, tree) := by
  obtain ⟨entries, hentries⟩ := isDirAt_iff.mp hdir
  refine ⟨(entries.map (·.1)).dedup, List.nodup_dedup _, ?_, ?_⟩
  · ext name
    simp [children, hentries]
  · simp only [perform, show c.fails = false from hworks, hentries]

/-- The first step works, and those that follow. -/
theorem forall_works_succ {count : Nat} :
    (∀ i < count + 1, works (pattern (n + i))) ↔
      works (pattern n) ∧ ∀ i < count, works (pattern (n + 1 + i)) := by
  constructor
  · refine fun h => ⟨h 0 (Nat.succ_pos _), fun i hi => ?_⟩
    rw [Nat.add_assoc, Nat.add_comm 1 i]
    exact h (i + 1) (Nat.succ_lt_succ hi)
  · rintro ⟨hfirst, hlater⟩ i hi
    cases i with
    | zero => exact hfirst
    | succ i =>
        rw [Nat.add_comm i 1, ← Nat.add_assoc]
        exact hlater i (Nat.lt_of_succ_lt_succ hi)

/-- The entries that are listed are there, in a directory. -/
structure Listed (p : Path) (names : List String) (tree : FileTree) : Prop where
  dir : isDirAt p tree = true
  nodup : names.Nodup
  present : ∀ name ∈ names, name ∈ children p tree

theorem Listed.tail {name : String} {rest : List String} (h : Listed p (name :: rest) tree) :
    Listed p rest (set (p ++ [name]) none tree) := by
  obtain ⟨hfresh, hrest⟩ := List.nodup_cons.mp h.nodup
  refine ⟨?_, hrest, fun other hother => ?_⟩
  · rw [isDirAt_set fun hpre => by simpa using hpre.length_le]
    exact h.dir
  · rw [children_set h.dir]
    exact Finset.mem_erase.mpr
      ⟨fun heq => hfresh (heq ▸ hother), h.present other (List.mem_cons_of_mem _ hother)⟩

/-- There is a step for each entry. -/
theorem undisturbed_removeEntries {names : List String} (h : Listed p names tree) :
    Undisturbed pattern (removeEntries p names).run (tree, n) ↔
      ∀ i < names.length, works (pattern (n + i)) := by
  induction names generalizing tree n with
  | nil => exact ⟨fun _ _ hi => absurd hi (Nat.not_lt_zero _), fun _ => trivial⟩
  | cons name rest ih =>
      rw [List.length_cons, forall_works_succ, removeEntries_cons, undisturbed_after]
      refine and_congr_right fun hworks => ?_
      rw [perform_remove (h.present name (List.mem_cons_self ..)) hworks]
      exact ih h.tail

/-- If all of them work, the entries are gone. -/
theorem removeEntries_ok {names : List String} (h : Listed p names tree)
    (hworks : ∀ i < names.length, works (pattern (n + i))) :
    ∃ tree', play pattern (removeEntries p names).run (tree, n) = (.ok (), (tree', n + names.length)) ∧
      isDirAt p tree' = true ∧ children p tree' = children p tree \ names.toFinset := by
  induction names generalizing tree n with
  | nil => exact ⟨tree, rfl, h.dir, by simp⟩
  | cons name rest ih =>
      obtain ⟨hfirst, hlater⟩ := forall_works_succ.mp hworks
      obtain ⟨tree', hplay, hdir, hleft⟩ := ih h.tail hlater
      refine ⟨tree', ?_, hdir, ?_⟩
      · rw [removeEntries_cons, play_after,
          perform_remove (h.present name (List.mem_cons_self ..)) hfirst]
        refine hplay.trans ?_
        rw [List.length_cons, Nat.add_assoc, Nat.add_comm 1]
      · rw [hleft, children_set h.dir, List.toFinset_cons, Finset.sdiff_insert,
          Finset.erase_sdiff_comm]

/-- The removal of a directory: the names are read, the entries go, and the directory goes. -/
theorem undisturbed_removeDirAll (hdir : isDirAt p tree = true) :
    Undisturbed pattern (removeDirAll p).run (tree, n) ↔
      ∀ i < (children p tree).card + 2, works (pattern (n + i)) := by
  rw [forall_works_succ, removeDirAll_run, undisturbed_after]
  refine and_congr_right fun hworks => ?_
  obtain ⟨names, hnodup, hnames, hread⟩ := perform_readDir hdir hworks
  have hlisted : Listed p names tree :=
    ⟨hdir, hnodup, fun name hname => hnames ▸ List.mem_toFinset.mpr hname⟩
  have hsplit : (∀ i < (children p tree).card + 1, works (pattern (n + 1 + i))) ↔
      (∀ i < names.length, works (pattern (n + 1 + i))) ∧ works (pattern (n + 1 + names.length)) := by
    rw [← hnames, List.toFinset_card_of_nodup hnodup]
    exact Nat.forall_lt_succ_right
  rw [hread, hsplit, ← undisturbed_removeEntries hlisted]
  refine Machine.undisturbed_bind.trans (and_congr_right fun hentries => ?_)
  obtain ⟨tree', hplay, -⟩ := removeEntries_ok hlisted ((undisturbed_removeEntries hlisted).mp hentries)
  rw [show (disk Unit).timed.alone () pattern (removeEntries p names).run (tree, n + 1) = _ from hplay]
  exact and_iff_left trivial

/-- If every step works, the directory is gone. -/
theorem removeDirAll_ok (hp : p ≠ []) (hdir : isDirAt p tree = true)
    (h : Undisturbed pattern (removeDirAll p).run (tree, n)) :
    (play pattern (removeDirAll p).run (tree, n)).1 = .ok () ∧
      get p (play pattern (removeDirAll p).run (tree, n)).2.1 = none := by
  obtain ⟨hfirst, hlater⟩ := forall_works_succ.mp ((undisturbed_removeDirAll hdir).mp h)
  obtain ⟨names, hnodup, hnames, hread⟩ := perform_readDir hdir hfirst
  rw [← hnames, List.toFinset_card_of_nodup hnodup, Nat.forall_lt_succ_right] at hlater
  obtain ⟨tree', hplay, hdir', hleft⟩ := removeEntries_ok
    ⟨hdir, hnodup, fun name hname => hnames ▸ List.mem_toFinset.mpr hname⟩ hlater.1
  have hempty : get p tree' = some (.dir []) :=
    children_eq_empty hdir' (by rw [hleft, hnames, Finset.sdiff_self])
  have hremoved : perform (.removeDir p) (pattern (n + 1 + names.length)) tree' =
      (.ok (), set p none tree') := by
    obtain ⟨name, below, rfl⟩ := List.exists_cons_of_ne_nil hp
    simp only [perform, show (pattern (n + 1 + names.length)).fails = false from hlater.2, hempty]
  have hrun : play pattern (removeDirAll p).run (tree, n) =
      (.ok (), (set p none tree', n + 1 + names.length + 1)) := by
    rw [removeDirAll_run, play_after, hread]
    refine (play_bind _ _).trans ?_
    rw [hplay]
    refine play_after.trans ?_
    rw [hremoved]
    rfl
  rw [hrun]
  exact ⟨rfl, get_set_end (isDirAt_dropLast hempty hp) hp none⟩

/-! ## A removal that fails says so -/

theorem removeEntries_error {names : List String}
    (h : ¬Undisturbed pattern (removeEntries p names).run w) :
    ∃ detail, (play pattern (removeEntries p names).run w).1 = .error detail := by
  induction names generalizing w with
  | nil => exact absurd trivial h
  | cons name rest ih =>
      rw [removeEntries_cons, undisturbed_after] at h
      rw [removeEntries_cons, play_after]
      cases hanswer : (perform (.remove (p ++ [name])) (pattern w.2) w.1).1 with
      | error detail => exact ⟨detail, rfl⟩
      | ok _ =>
          rw [hanswer] at h
          refine ih fun hrest => h ⟨?_, hrest⟩
          by_contra hfails
          simp [perform, Bool.not_eq_false _ ▸ hfails] at hanswer

theorem perform_removeDir_fails {c : FsChoice} (h : c.fails = true) :
    (perform (.removeDir p) c tree).1 = .error c.detail := by
  simp only [perform, h]

theorem removeDirAll_error (h : ¬Undisturbed pattern (removeDirAll p).run w) :
    ∃ detail, (play pattern (removeDirAll p).run w).1 = .error detail := by
  rw [removeDirAll_run, undisturbed_after] at h
  rw [removeDirAll_run, play_after]
  cases hanswer : (perform (.readDir p) (pattern w.2) w.1).1 with
  | error detail => exact ⟨detail, rfl⟩
  | ok names =>
      have hworks : works (pattern w.2) := by
        by_contra hfails
        simp [perform, Bool.not_eq_false _ ▸ hfails] at hanswer
      rw [hanswer] at h
      have hrest := not_and.mp (fun hboth => h ⟨hworks, Machine.undisturbed_bind.mpr hboth⟩)
      simp only [play_bind]
      by_cases hentries : Undisturbed pattern (removeEntries p names).run
          ((perform (.readDir p) (pattern w.2) w.1).2, w.2 + 1)
      · have hlast := hrest hentries
        cases hresult : (play pattern (removeEntries p names).run
            ((perform (.readDir p) (pattern w.2) w.1).2, w.2 + 1)).1 with
        | error detail => exact ⟨detail, rfl⟩
        | ok _ =>
            have hfails : ¬works (pattern (play pattern (removeEntries p names).run
                ((perform (.readDir p) (pattern w.2) w.1).2, w.2 + 1)).2.2) := by
              intro hworks
              refine hlast ?_
              simp only [hresult]
              exact ⟨hworks, trivial⟩
            rw [Bool.not_eq_false] at hfails
            exact ⟨_, perform_removeDir_fails hfails⟩
      · obtain ⟨detail, hdetail⟩ := removeEntries_error hentries
        rw [hdetail]
        exact ⟨detail, rfl⟩

end StagedDir

end LTSearch
