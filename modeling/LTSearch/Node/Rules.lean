/-
# LTSearch.Node.Rules -- rules for one operation of a node

What the bookkeeping of a step leaves alone, and the rules by which the proofs about node programs
go through a read, a check and a failing part.
-/
import LTSearch.Node.World
import LTSearch.Indexing.Publisher

namespace LTSearch

open LTSearch.Foundation

/-- The calls on the queue leave the heads alone. -/
theorem Watched.head_step (source : SqliteBuildJobSource) (q : Watched) (event : QueueCall × Faults)
    (table : HeadTable) : (q.step source event).db.head table = q.db.head table := by
  rcases Watched.step_cases source q event with heq | heq
  · rw [heq]
  rw [heq]
  obtain ⟨call, faults⟩ := event
  cases call with
  | nack now receipt error =>
      show (q.db.failDelivery source now receipt error).head table = _
      unfold LocalDb.failDelivery
      split
      · rfl
      · split <;> cases table <;> rfl
  | _ => cases table <;> rfl

namespace World

variable {setup : Setup} {t : Nat} {before w : World}

/-! ## The note on activations changes nothing else -/

@[simp]
theorem noteActivation_self : w.noteActivation setup t w = w := by
  simp [noteActivation]

@[simp]
theorem objects_noteActivation : (w.noteActivation setup t before).objects = w.objects := by
  unfold noteActivation
  split <;> rfl

@[simp]
theorem roots_noteActivation : (w.noteActivation setup t before).roots = w.roots := by
  unfold noteActivation
  split <;> rfl

@[simp]
theorem queue_noteActivation : (w.noteActivation setup t before).queue = w.queue := by
  unfold noteActivation
  split <;> rfl

/-- Where the head stands is not touched, nothing is written down. -/
theorem noteActivation_of_eq (h : w.headBytes setup = before.headBytes setup) :
    w.noteActivation setup t before = w := by
  unfold noteActivation
  rw [if_pos h]

/-- The activations after a step: those before, and at most one more, by the one who made the step. -/
theorem activated_noteActivation (setup : Setup) (t : Nat) (before w : World) :
    (w.noteActivation setup t before).history.activated = w.history.activated ∨
      (w.headBytes setup ≠ before.headBytes setup ∧
        (w.noteActivation setup t before).history.activated = w.history.activated ++
          [{ worker := t, version := w.headVersion setup, segments := w.activeSnapshot setup }]) := by
  unfold noteActivation
  split
  · exact .inl rfl
  · exact .inr ⟨‹_›, rfl⟩

theorem objects_putCell (key : String) (cell : Cell) (k : String) :
    (w.putCell key cell).objects k = if k = key then some cell else w.objects k := by
  unfold putCell
  by_cases hk : k = key
  · subst hk
    simp
  · simp [hk]

theorem objects_putCell_self (key : String) (cell : Cell) :
    (w.putCell key cell).objects key = some cell := by
  rw [objects_putCell, if_pos rfl]

theorem objects_putCell_of_ne {key k : String} (hk : k ≠ key) (cell : Cell) :
    (w.putCell key cell).objects k = w.objects k := by
  rw [objects_putCell, if_neg hk]

/-! ## What the writing operations do -/

variable {key : String} {content : Content} {c : Choice} {seen : Option VersionedObject}
  {newValue : ByteArray}

/-- A conditional put either leaves the objects alone and does not succeed, or writes where nothing
was. -/
theorem putObjectAt_cases (w : World) (t : Nat) (key : String) (content : Content) (c : Choice) :
    ((w.putObjectAt t key content c).1 ≠ .stored ∧
      ((w.putObjectAt t key content c).2 = w ∨ (w.putObjectAt t key content c).2 = w.block t)) ∨
    (w.objects key = none ∧
      (w.putObjectAt t key content c).2 = w.putCell key { content, writer := t }) := by
  unfold putObjectAt
  by_cases hrefused : c.refused = true
  · left
    simp [hrefused]
  · cases hcell : w.objects key with
    | some cell =>
        left
        by_cases hfails : c.fails = true <;> simp [hrefused, hfails]
    | none =>
        by_cases hfails : c.fails = true
        · by_cases happlied : c.applied = true <;> simp [hrefused, hfails, happlied]
        · right
          simp [hrefused, hfails]

/-- The conditional write of the head on S3: the head is replaced under an unchanged tag, or nothing
happens. -/
theorem swapHeadAt_aws (haws : setup.backend = .aws) (w : World) (t : Nat)
    (seen : Option VersionedObject) (newValue : ByteArray) (c : Choice) :
    ((w.swapHeadAt setup t seen newValue c).1 ≠ .ok true ∧
      (w.swapHeadAt setup t seen newValue c).2 = w) ∨
    ((w.headObject setup).map (·.etag) = seen.map (·.etag) ∧
      w.swapHeadAt setup t seen newValue c =
        (.ok true, (w.putHead t newValue).noteSwap t seen (w.headBytes setup))) := by
  unfold swapHeadAt
  simp only [haws]
  by_cases hfails : c.fails = true
  · left
    simp [hfails]
  · by_cases hrefused : c.refused ∨ (w.headObject setup).map (·.etag) ≠ seen.map (·.etag)
    · left
      rw [if_neg hfails, if_pos hrefused]
      simp
    · right
      rw [if_neg hfails, if_neg hrefused]
      push Not at hrefused
      exact ⟨hrefused.2, rfl⟩

@[simp]
theorem objects_noteSwap {before : Option ByteArray} :
    (w.noteSwap t seen before).objects = w.objects := by
  unfold noteSwap
  split <;> rfl

@[simp]
theorem roots_noteSwap {before : Option ByteArray} :
    (w.noteSwap t seen before).roots = w.roots := by
  unfold noteSwap
  split <;> rfl

@[simp]
theorem queue_noteSwap {before : Option ByteArray} :
    (w.noteSwap t seen before).queue = w.queue := by
  unfold noteSwap
  split <;> rfl

@[simp]
theorem activated_noteSwap {before : Option ByteArray} :
    (w.noteSwap t seen before).history.activated = w.history.activated := by
  unfold noteSwap
  split <;> rfl

/-! ## What the reads of an artifact root answer -/

theorem readTree_eq_ok {tree : Tree} {segments : List String}
    (h : (w.perform setup t (.readTree key) c).1 = .ok (tree, segments)) :
    ∃ mover, w.roots (setup.rootOf t) key =
      some { artifact := .directory tree, segments, mover } := by
  simp only [perform] at h
  split at h
  · rename_i found mover hitem
    split at h
    · cases h
    · cases h
      exact ⟨_, hitem⟩
  · cases h

theorem readFile_eq_ok (h : (w.perform setup t (.readFile key) c).1 = .ok content) :
    ∃ mover, w.roots (setup.rootOf t) key =
      some { artifact := .file content.bytes, segments := content.segments, mover } := by
  simp only [perform] at h
  split at h
  · rename_i found mover hitem
    split at h
    · cases h
    · cases h
      exact ⟨_, hitem⟩
  · cases h

end World

/-! ## Rules -/

section Rules

variable {setup : Setup} {K : Contract (node setup)} {t : Nat} {w : World} {α ε : Type}

/-- An operation that only reads. -/
theorem safe_read {op : Op} {P : World → Prop} {Q : op.Ans → World → Prop}
    (hread : ∀ c (w : World), (w.perform setup t op c).2 = w) (hstable : K.Stable t P) (hw : P w)
    (h : ∀ w' c, K.inv w' → P w' → K.allowed t op c w' →
      ∀ w'', K.Rely t w' w'' → K.inv w'' → Q (w'.perform setup t op c).1 w'') :
    K.Safe t (call op) Q w := by
  refine Contract.Safe.ask hstable hw fun w' c hinv hP hc => ?_
  have hsame : ((node setup).apply t op c w').2 = w' := by
    change (w'.perform setup t op c).2.noteActivation setup t w' = w'
    rw [hread, World.noteActivation_self]
  refine ⟨.of_eq hinv hsame, fun w'' hrely hinv'' => ?_⟩
  rw [hsame] at hrely
  exact h w' c hinv hP hc w'' hrely hinv''

/-- A read whose answer does not matter. -/
theorem safe_readAny {op : Op} {P : World → Prop}
    (hread : ∀ c (w : World), (w.perform setup t op c).2 = w) (hstable : K.Stable t P) (hw : P w) :
    K.Safe t (call op) (fun _ => P) w :=
  safe_read hread hstable hw fun w' _ _ hP _ w'' hrely hinv'' => hstable w' w'' hrely hinv'' hP

end Rules

end LTSearch
