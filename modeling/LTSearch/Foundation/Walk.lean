/-
# LTSearch.Foundation.Walk -- walking a graph with a stack and the branches met so far

A walk takes a place off a stack and looks at it: it may be a place to stop at, a leaf with a size, or
a branch, which may or may not tell what is below it.  A branch that is met again ends the walk.  There are finitely many
branches, so every walk ends.  A walk that comes to its end has added up the leaves, path by path; and
what ends another one is the first place in the order of the walk that stops it or is met again.
-/
import Mathlib

namespace LTSearch.Foundation

universe u

/-- What is seen at a place. -/
inductive Visit (P ι ε : Type u) where
  | stop (e : ε)
  | leaf (size : Nat)
  | branch (id : ι) (below : Except ε (List P))

/-- A graph with finitely many branches. -/
structure Walk (P ι ε : Type u) where
  look : P → Visit P ι ε
  /-- the error of a branch that is met again -/
  again : ι → ε
  branches : Finset ι
  branch_mem {p : P} {id : ι} {below : Except ε (List P)} :
    look p = .branch id below → id ∈ branches

namespace Walk

variable {P ι ε T : Type u} (W : Walk P ι ε) (add : T → Nat → T)

section

variable [DecidableEq ι]

/-- The walk.  What is below a branch is put on top of the stack. -/
def walk (pending : List P) (visited : Finset ι) (total : T) : Except ε T :=
  match pending with
  | [] => .ok total
  | p :: pending =>
      match _hlook : W.look p with
      | .stop e => .error e
      | .leaf size => walk pending visited (add total size)
      | .branch id below =>
          if _hvisited : id ∈ visited then .error (W.again id)
          else
            match below with
            | .error e => .error e
            | .ok below => walk (below ++ pending) (insert id visited) total
termination_by ((W.branches \ visited).card, pending.length)
decreasing_by
  · apply Prod.Lex.right
    exact Nat.lt_succ_self _
  · -- one branch fewer is left to be met, however long the stack has become
    apply Prod.Lex.left
    apply Finset.card_lt_card
    refine ⟨Finset.sdiff_subset_sdiff le_rfl (Finset.subset_insert _ _), fun hsub => ?_⟩
    have hmem := hsub (Finset.mem_sdiff.mpr ⟨W.branch_mem _hlook, _hvisited⟩)
    exact (Finset.mem_sdiff.mp hmem).2 (Finset.mem_insert_self _ _)

variable {W add}

/-! ## One step of a walk -/

theorem walk_nil (visited : Finset ι) (total : T) : W.walk add [] visited total = .ok total := by
  rw [walk]

theorem walk_stop {p : P} {e : ε} (h : W.look p = .stop e) (pending : List P) (visited : Finset ι)
    (total : T) : W.walk add (p :: pending) visited total = .error e := by
  rw [walk]
  split <;> simp_all

theorem walk_leaf {p : P} {size : Nat} (h : W.look p = .leaf size) (pending : List P)
    (visited : Finset ι) (total : T) :
    W.walk add (p :: pending) visited total = W.walk add pending visited (add total size) := by
  rw [walk]
  split <;> simp_all

theorem walk_again {p : P} {id : ι} {below : Except ε (List P)} (h : W.look p = .branch id below)
    (pending : List P) {visited : Finset ι} (hvisited : id ∈ visited) (total : T) :
    W.walk add (p :: pending) visited total = .error (W.again id) := by
  rw [walk]
  split <;> simp_all

theorem walk_unread {p : P} {id : ι} {e : ε} (h : W.look p = .branch id (.error e))
    (pending : List P) {visited : Finset ι} (hvisited : id ∉ visited) (total : T) :
    W.walk add (p :: pending) visited total = .error e := by
  rw [walk]
  split <;> rename_i hlook <;> rw [h] at hlook <;> cases hlook
  rw [dif_neg hvisited]

theorem walk_branch {p : P} {id : ι} {below : List P} (h : W.look p = .branch id (.ok below))
    (pending : List P) {visited : Finset ι} (hvisited : id ∉ visited) (total : T) :
    W.walk add (p :: pending) visited total =
      W.walk add (below ++ pending) (insert id visited) total := by
  rw [walk]
  split <;> rename_i hlook <;> rw [h] at hlook <;> cases hlook
  rw [dif_neg hvisited]

/-- An induction along a walk: a property of what is pending and met holds at the end, where a walk
stops, where a branch is met again and where it does not tell what is below it, and is carried over a leaf and a new branch. -/
theorem walk_induction {motive : List P → Finset ι → Prop}
    (nil : ∀ visited, motive [] visited)
    (stop : ∀ p e pending visited, W.look p = .stop e → motive (p :: pending) visited)
    (leaf : ∀ p size pending visited, W.look p = .leaf size → motive pending visited →
      motive (p :: pending) visited)
    (again : ∀ p id below pending visited, W.look p = .branch id below → id ∈ visited →
      motive (p :: pending) visited)
    (unread : ∀ p id e pending visited, W.look p = .branch id (.error e) → id ∉ visited →
      motive (p :: pending) visited)
    (branch : ∀ p id below pending visited, W.look p = .branch id (.ok below) → id ∉ visited →
      motive (below ++ pending) (insert id visited) → motive (p :: pending) visited)
    (pending : List P) (visited : Finset ι) : motive pending visited := by
  have hwalk : ∀ total : PUnit, motive pending visited := fun total => by
    induction pending, visited, total using walk.induct W (fun _ _ => PUnit.unit) with
    | case1 visited total => exact nil visited
    | case2 visited total p pending e hlook => exact stop p e pending visited hlook
    | case3 visited total p pending size hlook ih => exact leaf p size pending visited hlook ih
    | case4 visited total p pending id below hlook hvisited =>
        exact again p id below pending visited hlook hvisited
    | case5 visited total p pending id hvisited e hlook =>
        exact unread p id e pending visited hlook hvisited
    | case6 visited total p pending id hvisited below hlook _ ih =>
        exact branch p id below pending visited hlook hvisited ih
  exact hwalk PUnit.unit

end

variable {W add}

/-! ## The leaves of a walk that comes to its end -/

/-- A place right below another one. -/
def Below (W : Walk P ι ε) (p q : P) : Prop := ∃ id below, W.look p = .branch id (.ok below) ∧ q ∈ below

/-- The sizes of the leaves under some places, one for every path to a leaf. -/
inductive Leaves (W : Walk P ι ε) : List P → List Nat → Prop
  | nil : Leaves W [] []
  | leaf {p : P} {size : Nat} {pending : List P} {sizes : List Nat} :
      W.look p = .leaf size → Leaves W pending sizes → Leaves W (p :: pending) (size :: sizes)
  | branch {p : P} {id : ι} {below pending : List P} {sizes sizes' : List Nat} :
      W.look p = .branch id (.ok below) → Leaves W below sizes → Leaves W pending sizes' →
      Leaves W (p :: pending) (sizes ++ sizes')

/-- The leaves under two lists of places. -/
theorem Leaves.of_append {ps qs : List P} {sizes : List Nat} (h : Leaves W (ps ++ qs) sizes) :
    ∃ sizes₁ sizes₂, Leaves W ps sizes₁ ∧ Leaves W qs sizes₂ ∧ sizes = sizes₁ ++ sizes₂ := by
  induction ps generalizing sizes with
  | nil => exact ⟨[], sizes, .nil, h, rfl⟩
  | cons p ps ih =>
      cases h with
      | leaf hlook hrest =>
          obtain ⟨sizes₁, sizes₂, h₁, h₂, rfl⟩ := ih hrest
          exact ⟨_, _, .leaf hlook h₁, h₂, rfl⟩
      | branch hlook hbelow hrest =>
          obtain ⟨sizes₁, sizes₂, h₁, h₂, rfl⟩ := ih hrest
          exact ⟨_, _, .branch hlook hbelow h₁, h₂, (List.append_assoc _ _ _).symm⟩

theorem Leaves.append {ps qs : List P} {sizes₁ sizes₂ : List Nat} (h₁ : Leaves W ps sizes₁)
    (h₂ : Leaves W qs sizes₂) : Leaves W (ps ++ qs) (sizes₁ ++ sizes₂) := by
  induction h₁ with
  | nil => exact h₂
  | leaf hlook _ ih => exact .leaf hlook ih
  | branch hlook hbelow _ _ ih =>
      rw [List.append_assoc]
      exact .branch hlook hbelow ih

/-- A walk that comes to its end has added up the leaves of all paths. -/
theorem leaves_of_walk [DecidableEq ι] (pending : List P) (visited : Finset ι) {total result : T}
    (h : W.walk add pending visited total = .ok result) :
    ∃ sizes, Leaves W pending sizes ∧ result = sizes.foldl add total := by
  induction pending, visited using walk_induction (W := W) generalizing total with
  | nil visited =>
      rw [walk_nil, Except.ok.injEq] at h
      exact ⟨[], .nil, h.symm⟩
  | stop p e pending visited hlook =>
      rw [walk_stop hlook] at h
      cases h
  | leaf p size pending visited hlook ih =>
      rw [walk_leaf hlook] at h
      obtain ⟨sizes, hsizes, rfl⟩ := ih h
      exact ⟨size :: sizes, .leaf hlook hsizes, rfl⟩
  | again p id below pending visited hlook hvisited =>
      rw [walk_again hlook pending hvisited] at h
      cases h
  | unread p id e' pending visited hlook hvisited =>
      rw [walk_unread hlook pending hvisited] at h
      cases h
  | branch p id below pending visited hlook hvisited ih =>
      rw [walk_branch hlook pending hvisited] at h
      obtain ⟨sizes, hsizes, rfl⟩ := ih h
      obtain ⟨sizes₁, sizes₂, h₁, h₂, rfl⟩ := hsizes.of_append
      exact ⟨_, .branch hlook h₁ h₂, rfl⟩

/-! ## The order of a walk -/

/-- What is pending after the first place has been looked at, whatever has been met. -/
def expand (W : Walk P ι ε) : List P → List P
  | [] => []
  | p :: pending =>
      match W.look p with
      | .branch _ (.ok below) => below ++ pending
      | _ => pending

/-- The place that is looked at after `n` others. -/
def nthPlace (W : Walk P ι ε) (pending : List P) (n : Nat) : Option P := (W.expand^[n] pending).head?

/-- A place that stops a walk is met after `n` places. -/
def Stops (W : Walk P ι ε) (pending : List P) (n : Nat) (e : ε) : Prop :=
  ∃ p, W.nthPlace pending n = some p ∧
    (W.look p = .stop e ∨ ∃ id, W.look p = .branch id (.error e))

/-- A branch is met after `n` places. -/
def Meets (W : Walk P ι ε) (pending : List P) (n : Nat) (id : ι) : Prop :=
  ∃ p below, W.nthPlace pending n = some p ∧ W.look p = .branch id below

/-- What ends a walk: a stop, or a branch that has been met. -/
def Ends (W : Walk P ι ε) (pending : List P) (visited : Finset ι) (n : Nat) (e : ε) : Prop :=
  W.Stops pending n e ∨
    ∃ id, W.Meets pending n id ∧ (id ∈ visited ∨ ∃ i < n, W.Meets pending i id) ∧ e = W.again id

theorem expand_leaf {p : P} {size : Nat} (h : W.look p = .leaf size) (pending : List P) :
    W.expand (p :: pending) = pending := by
  simp only [expand, h]

theorem expand_branch {p : P} {id : ι} {below : List P} (h : W.look p = .branch id (.ok below))
    (pending : List P) : W.expand (p :: pending) = below ++ pending := by
  simp only [expand, h]

theorem nthPlace_zero (p : P) (pending : List P) : W.nthPlace (p :: pending) 0 = some p := rfl

theorem nthPlace_nil (n : Nat) : W.nthPlace [] n = none := by
  have hnil : W.expand^[n] [] = [] := Function.iterate_fixed rfl n
  rw [nthPlace, hnil, List.head?_nil]

theorem stops_succ (pending : List P) (n : Nat) (e : ε) :
    W.Stops pending (n + 1) e ↔ W.Stops (W.expand pending) n e := Iff.rfl

theorem meets_succ (pending : List P) (n : Nat) (id : ι) :
    W.Meets pending (n + 1) id ↔ W.Meets (W.expand pending) n id := Iff.rfl

/-- Only a branch is met, and only that one. -/
theorem meets_zero {p : P} {pending : List P} {id : ι} :
    W.Meets (p :: pending) 0 id ↔ ∃ below, W.look p = .branch id below := by
  constructor
  · rintro ⟨q, below, hplace, hlook⟩
    rw [nthPlace_zero, Option.some.injEq] at hplace
    exact ⟨below, hplace ▸ hlook⟩
  · rintro ⟨below, hlook⟩
    exact ⟨p, below, rfl, hlook⟩

theorem not_ends_nil (visited : Finset ι) (n : Nat) (e : ε) : ¬W.Ends [] visited n e := by
  rintro (⟨p, hplace, -⟩ | ⟨id, ⟨p, below, hplace, -⟩, -⟩)
  all_goals
    rw [nthPlace_nil] at hplace
    cases hplace

/-- Where all leaves are known, nothing stops a walk. -/
theorem Leaves.not_stops {pending : List P} {sizes : List Nat} (h : Leaves W pending sizes) (n : Nat)
    (e : ε) : ¬W.Stops pending n e := by
  induction n generalizing pending sizes with
  | zero =>
      rintro ⟨p, hplace, hstop⟩
      cases h with
      | nil => cases hplace
      | leaf hlook _ =>
          cases hplace
          rcases hstop with hstop | ⟨id, hstop⟩ <;> cases hlook.symm.trans hstop
      | branch hlook _ _ =>
          cases hplace
          rcases hstop with hstop | ⟨id, hstop⟩ <;> cases hlook.symm.trans hstop
  | succ n ih =>
      rw [stops_succ]
      cases h with
      | nil => exact ih .nil
      | leaf hlook hrest =>
          rw [expand_leaf hlook]
          exact ih hrest
      | branch hlook hbelow hrest =>
          rw [expand_branch hlook]
          exact ih (hbelow.append hrest)

/-- What has been met at a place counts as met before. -/
theorem exists_meets_lt_succ {pending : List P} {n : Nat} {id : ι} :
    (∃ i < n + 1, W.Meets pending i id) ↔
      W.Meets pending 0 id ∨ ∃ i < n, W.Meets (W.expand pending) i id := by
  constructor
  · rintro ⟨i, hi, hmeets⟩
    cases i with
    | zero => exact .inl hmeets
    | succ i => exact .inr ⟨i, by omega, hmeets⟩
  · rintro (hmeets | ⟨i, hi, hmeets⟩)
    · exact ⟨0, by omega, hmeets⟩
    · exact ⟨i + 1, by omega, hmeets⟩

/-- A leaf ends nothing. -/
theorem ends_leaf_succ {p : P} {size : Nat} (h : W.look p = .leaf size) {pending : List P}
    {visited : Finset ι} {n : Nat} {e : ε} :
    W.Ends (p :: pending) visited (n + 1) e ↔ W.Ends pending visited n e := by
  have hzero : ∀ id, ¬W.Meets (p :: pending) 0 id := by
    intro id hmeets
    obtain ⟨below, hlook⟩ := meets_zero.mp hmeets
    rw [h] at hlook
    cases hlook
  simp only [Ends, stops_succ, meets_succ, exists_meets_lt_succ, expand_leaf h, hzero, false_or]

/-- After a new branch, it counts as one that has been met. -/
theorem ends_branch_succ [DecidableEq ι] {p : P} {id : ι} {below : List P}
    (h : W.look p = .branch id (.ok below)) {pending : List P} {visited : Finset ι} {n : Nat} {e : ε} :
    W.Ends (p :: pending) visited (n + 1) e ↔
      W.Ends (below ++ pending) (insert id visited) n e := by
  have hzero : ∀ id', W.Meets (p :: pending) 0 id' ↔ id' = id := by
    intro id'
    rw [meets_zero]
    constructor
    · rintro ⟨below', hlook⟩
      rw [h] at hlook
      cases hlook
      rfl
    · rintro rfl
      exact ⟨.ok below, h⟩
  have hmet : ∀ id' : ι, ∀ Q : Prop, (id' ∈ visited ∨ id' = id ∨ Q) ↔ id' ∈ insert id visited ∨ Q := by
    intro id' Q
    rw [Finset.mem_insert]
    tauto
  simp only [Ends, stops_succ, meets_succ, exists_meets_lt_succ, expand_branch h, hzero, hmet]

theorem ends_zero_leaf {p : P} {size : Nat} (h : W.look p = .leaf size) {pending : List P}
    {visited : Finset ι} {e : ε} : ¬W.Ends (p :: pending) visited 0 e := by
  rintro (⟨q, hplace, hlook | ⟨id, hlook⟩⟩ | ⟨id, hmeets, -⟩)
  · cases hplace
    rw [h] at hlook
    cases hlook
  · cases hplace
    rw [h] at hlook
    cases hlook
  · obtain ⟨below, hlook⟩ := meets_zero.mp hmeets
    rw [h] at hlook
    cases hlook

theorem ends_zero_branch {p : P} {id : ι} {below : List P}
    (h : W.look p = .branch id (.ok below)) {pending : List P} {visited : Finset ι} (hvisited : id ∉ visited) {e : ε} :
    ¬W.Ends (p :: pending) visited 0 e := by
  rintro (⟨q, hplace, hlook | ⟨id', hlook⟩⟩ | ⟨id', hmeets, hmet | ⟨i, hi, -⟩, -⟩)
  · cases hplace
    rw [h] at hlook
    cases hlook
  · cases hplace
    rw [h] at hlook
    cases hlook
  · obtain ⟨below', hlook⟩ := meets_zero.mp hmeets
    rw [h] at hlook
    cases hlook
    exact hvisited hmet
  · omega

/-! ## What ends a walk -/

/-- A walk that comes to its end meets no stop and no branch twice. -/
theorem not_ends_of_walk [DecidableEq ι] (pending : List P) (visited : Finset ι) {total result : T}
    (h : W.walk add pending visited total = .ok result) (n : Nat) (e : ε) :
    ¬W.Ends pending visited n e := by
  induction pending, visited using walk_induction (W := W) generalizing total n with
  | nil visited => exact not_ends_nil visited n e
  | stop p e' pending visited hlook =>
      rw [walk_stop hlook] at h
      cases h
  | leaf p size pending visited hlook ih =>
      rw [walk_leaf hlook] at h
      cases n with
      | zero => exact ends_zero_leaf hlook
      | succ n => exact fun hends => ih h n ((ends_leaf_succ hlook).mp hends)
  | again p id below pending visited hlook hvisited =>
      rw [walk_again hlook pending hvisited] at h
      cases h
  | unread p id e' pending visited hlook hvisited =>
      rw [walk_unread hlook pending hvisited] at h
      cases h
  | branch p id below pending visited hlook hvisited ih =>
      rw [walk_branch hlook pending hvisited] at h
      cases n with
      | zero => exact ends_zero_branch hlook hvisited
      | succ n => exact fun hends => ih h n ((ends_branch_succ hlook).mp hends)

/-- A walk that fails does so at the first place that ends it. -/
theorem ends_of_walk [DecidableEq ι] (pending : List P) (visited : Finset ι) {total : T} {e : ε}
    (h : W.walk add pending visited total = .error e) :
    ∃ n, W.Ends pending visited n e ∧ ∀ i < n, ∀ e', ¬W.Ends pending visited i e' := by
  induction pending, visited using walk_induction (W := W) generalizing total with
  | nil visited =>
      rw [walk_nil] at h
      cases h
  | stop p e' pending visited hlook =>
      rw [walk_stop hlook, Except.error.injEq] at h
      exact ⟨0, .inl ⟨p, rfl, .inl (h ▸ hlook)⟩, fun i hi => absurd hi (Nat.not_lt_zero i)⟩
  | leaf p size pending visited hlook ih =>
      rw [walk_leaf hlook] at h
      obtain ⟨n, hends, hfirst⟩ := ih h
      refine ⟨n + 1, (ends_leaf_succ hlook).mpr hends, fun i hi e' => ?_⟩
      cases i with
      | zero => exact ends_zero_leaf hlook
      | succ i => exact fun hi' => hfirst i (by omega) e' ((ends_leaf_succ hlook).mp hi')
  | again p id below pending visited hlook hvisited =>
      rw [walk_again hlook pending hvisited, Except.error.injEq] at h
      refine ⟨0, .inr ⟨id, meets_zero.mpr ⟨below, hlook⟩, .inl hvisited, h.symm⟩, fun i hi => ?_⟩
      exact absurd hi (Nat.not_lt_zero i)
  | unread p id e' pending visited hlook hvisited =>
      rw [walk_unread hlook pending hvisited, Except.error.injEq] at h
      refine ⟨0, .inl ⟨p, rfl, .inr ⟨id, h ▸ hlook⟩⟩, fun i hi => ?_⟩
      exact absurd hi (Nat.not_lt_zero i)
  | branch p id below pending visited hlook hvisited ih =>
      rw [walk_branch hlook pending hvisited] at h
      obtain ⟨n, hends, hfirst⟩ := ih h
      refine ⟨n + 1, (ends_branch_succ hlook).mpr hends, fun i hi e' => ?_⟩
      cases i with
      | zero => exact ends_zero_branch hlook hvisited
      | succ i => exact fun hi' => hfirst i (by omega) e' ((ends_branch_succ hlook).mp hi')

/-- Every place of a walk is reached from where it began. -/
theorem reached_of_nthPlace {pending : List P} {n : Nat} {p : P}
    (h : W.nthPlace pending n = some p) :
    ∃ q ∈ pending, Relation.ReflTransGen W.Below q p := by
  induction n generalizing pending with
  | zero =>
      obtain ⟨rest, rfl⟩ := List.head?_eq_some_iff.mp h
      exact ⟨p, List.mem_cons_self, .refl⟩
  | succ n ih =>
      have hnext : W.nthPlace (W.expand pending) n = some p := h
      obtain ⟨q, hq, hreach⟩ := ih hnext
      cases pending with
      | nil => cases hq
      | cons r rest =>
          simp only [expand] at hq
          split at hq
          · next id below hlook =>
            rcases List.mem_append.mp hq with hq | hq
            · exact ⟨r, List.mem_cons_self, .head ⟨id, below, hlook, hq⟩ hreach⟩
            · exact ⟨q, List.mem_cons_of_mem _ hq, hreach⟩
          · exact ⟨q, List.mem_cons_of_mem _ hq, hreach⟩

end Walk

end LTSearch.Foundation
