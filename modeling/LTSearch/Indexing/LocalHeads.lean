/-
# LTSearch.Indexing.LocalHeads -- the two heads of a local deployment

Publishers, rollbacks and static activations on one `LocalPublishStorage`, their operations interleaved
in any order, failing anywhere.  The head of the index and the pointer to the static release are rows of
two tables of one database, and the activation of a release reads and swaps its row as a publish call
does.  So each row has a history of its own, and no operation on the one moves the other.

What `run_static_activate` does before it activates (it verifies a directory and installs it) does not
touch the database and is left out; that some release and some time come from it is what a call says.
-/
import LTSearch.Foundation.SideBySide
import LTSearch.Indexing.HeadChain
import LTSearch.Indexing.ResumedActivation

namespace LTSearch

open LTSearch.Foundation Contract.Safe

/-- `head_table`. -/
def headTable (key : String) : Option HeadTable :=
  if key = indexHeadKey then some .activeHead
  else if key = staticHeadKey then some .staticReleaseHead
  else none

/-! ## The store at the static pointer -/

/-- The database, and a ghost: the swaps of the static pointer that went through. -/
structure PointerLog where
  db : LocalDb
  swaps : List (Swap Nat ByteArray)

inductive PointerOp where
  | read
  | compareAndSwap (expectedEtag : Option String) (newValue : Bytes)

abbrev PointerOp.Ans : PointerOp → Type
  | read => Except PublishError (Option StoredObject)
  | compareAndSwap _ _ => Except PublishError Bool

abbrev pointerSignature : Signature where
  Op := PointerOp
  Ans := PointerOp.Ans

/-- A value as the row holds it. -/
def rowOf (bytes : Bytes) : ByteArray := ⟨bytes.toArray⟩

theorem rowOf_toList (row : ByteArray) : rowOf row.data.toList = row := by
  cases row
  simp [rowOf]

theorem toList_rowOf (bytes : Bytes) : (rowOf bytes).data.toList = bytes := by
  simp [rowOf]

namespace PointerLog

/-- `LocalPublishStorage::read`, of `static/_head`. -/
def read (faults : Faults) (w : PointerLog) : Except PublishError (Option StoredObject) × PointerLog :=
  ((resultOf (headRowRead faults .staticReleaseHead w.db)).map fun row =>
    row.map fun row => { bytes := row.data.toList, etag := etagOf row }, w)

/-- `LocalPublishStorage::compare_and_swap`, of `static/_head`. -/
def compareAndSwap (t : Nat) (faults : Faults) (expectedEtag : Option String) (newValue : Bytes)
    (w : PointerLog) : Except PublishError Bool × PointerLog :=
  match headRowCas faults .staticReleaseHead expectedEtag (rowOf newValue) w.db with
  | .ok true db => (.ok true, {
      db
      swaps := w.swaps ++
        [{ caller := t, replaced := w.db.staticReleaseHead, written := rowOf newValue }] })
  | .ok false db => (.ok false, { w with db })
  | .error e db => (.error e, { w with db })

end PointerLog

def pointerStore : Machine pointerSignature PointerLog Choice Nat where
  apply t
    | .read, c, w => w.read c.sql
    | .compareAndSwap expectedEtag newValue, c, w => w.compareAndSwap t c.sql expectedEtag newValue

/-- A call of `activate_static_pointer`. -/
structure PointerCall where
  releaseId : String
  updatedAt : Int

namespace PointerCall

def head (call : PointerCall) : StaticReleaseHead := .new call.releaseId call.updatedAt

/-- The row that the call writes. -/
def row (codec : StaticHeadCodec) (call : PointerCall) : ByteArray := rowOf (codec.toJsonPretty call.head)

def program (codec : StaticHeadCodec) (call : PointerCall) :
    Prog pointerSignature (Except StaticActivateError StaticActivationResult) :=
  (activateStaticPointer codec (Prog.ask (S := pointerSignature) .read)
    (fun expectedEtag newValue => Prog.ask (S := pointerSignature) (.compareAndSwap expectedEtag newValue))
    call.releaseId call.updatedAt).run

end PointerCall

/-- The release in a row. -/
def releaseOf (codec : StaticHeadCodec) (row : ByteArray) : Option String :=
  match StaticReleaseHead.fromJson codec row.data.toList with
  | .ok head => some head.releaseId
  | .error _ => none

/-! ## The contract of the activations -/

section Statement

variable (codec : StaticHeadCodec) (activations : Nat → PointerCall)

structure PointerInv (w : PointerLog) : Prop where
  chained : Chained none w.swaps w.db.staticReleaseHead
  callers : (w.swaps.map (·.caller)).Nodup
  written : ∀ s ∈ w.swaps, s.written = (activations s.caller).row codec ∧
    (activations s.caller).head.validate = .ok ()

/-- The log is a history, and nobody swaps for somebody else. -/
def pointerContract : Contract pointerStore where
  inv := PointerInv codec activations
  change w w' := w.swaps <+: w'.swaps
  frame t w w' := ∀ s ∈ w'.swaps, s.caller = t → s ∈ w.swaps
  allowed _ _ _ _ := True
  change_refl _ := List.prefix_refl _
  change_trans h h' := h.trans h'
  frame_refl _ _ _ hs _ := hs
  frame_trans h h' s hs ht := h s (h' s hs ht) ht

/-- Different rows of the activations have different tags. -/
def PointerTagsTell : Prop :=
  ∀ t t', etagOf ((activations t).row codec) = etagOf ((activations t').row codec) →
    (activations t).row codec = (activations t').row codec

/-- The pointers that the activations print parse back. -/
def PointersParse : Prop :=
  ∀ t, codec.fromSlice (codec.toJsonPretty (activations t).head) = .ok (activations t).head

end Statement

/-- An activation that has read the pointer and has not swapped it. -/
structure PointerReady (t : Nat) (current : Option StoredObject) (w : PointerLog) : Prop where
  noSwap : ∀ s ∈ w.swaps, s.caller ≠ t
  seen : ∀ o, current = some o → o.etag = etagOf (rowOf o.bytes) ∧ ∃ s ∈ w.swaps, s.written = rowOf o.bytes

/-- The swap behind a result. -/
def PointerAnswered (codec : StaticHeadCodec) (activations : Nat → PointerCall) (t : Nat)
    (result : StaticActivationResult) (w : PointerLog) : Prop :=
  ∃ s ∈ w.swaps, s.caller = t ∧ result.releaseId = (activations t).releaseId ∧
    s.replaced.bind (releaseOf codec) = result.previousReleaseId

variable {codec : StaticHeadCodec} {activations : Nat → PointerCall} {t : Nat} {w w' : PointerLog}
  {current : Option StoredObject}

theorem noPointerSwap_stable :
    (pointerContract codec activations).Stable t fun w => ∀ s ∈ w.swaps, s.caller ≠ t :=
  fun _ _ hrely _ h s hs ht => h s (hrely.2 s hs ht) ht

theorem PointerReady.stable : (pointerContract codec activations).Stable t (PointerReady t current) := by
  intro w w' hrely hinv h
  refine ⟨noPointerSwap_stable w w' hrely hinv h.noSwap, fun o ho => ?_⟩
  obtain ⟨htag, s, hs, hwritten⟩ := h.seen o ho
  exact ⟨htag, s, hrely.1.subset hs, hwritten⟩

theorem PointerAnswered.stable {result : StaticActivationResult} :
    (pointerContract codec activations).Stable t (PointerAnswered codec activations t result) := by
  rintro w w' hrely _ ⟨s, hs, h⟩
  exact ⟨s, hrely.1.subset hs, h⟩

theorem PointerInv.told (hinv : PointerInv codec activations w) (htags : PointerTagsTell codec activations) :
    ∀ s ∈ w.swaps, ∀ s' ∈ w.swaps, etagOf s.written = etagOf s'.written → s.written = s'.written := by
  intro s hs s' hs' htag
  rw [(hinv.written s hs).1, (hinv.written s' hs').1] at htag ⊢
  exact htags _ _ htag

/-- The row under the tag of what was read is what was read. -/
theorem PointerInv.row_eq_seen (hinv : PointerInv codec activations w)
    (htags : PointerTagsTell codec activations) (hready : PointerReady t current w)
    (htag : w.db.staticReleaseHead.map etagOf = current.map (·.etag)) :
    w.db.staticReleaseHead = current.map fun o => rowOf o.bytes := by
  apply hinv.chained.eq_of_tag etagOf (hinv.told htags)
  · intro row hrow
    obtain ⟨o, ho, rfl⟩ := Option.map_eq_some_iff.mp hrow
    exact (hready.seen o ho).2
  · rw [htag]
    cases current with
    | none => rfl
    | some o => exact congrArg some (hready.seen o rfl).1

/-- The release in a pointer that was accepted. -/
theorem releaseOf_seen {previous : Option String} (h : previousRelease codec current = .ok previous) :
    (current.map fun o => rowOf o.bytes).bind (releaseOf codec) = previous := by
  cases current with
  | none => exact Except.ok.inj h
  | some o =>
      obtain ⟨head, hhead, hok⟩ := bind_eq_ok.mp h
      obtain rfl := Except.ok.inj hok
      show releaseOf codec (rowOf o.bytes) = some head.releaseId
      simp only [releaseOf, toList_rowOf, mapError_eq_ok.mp hhead]

/-! ## One activation -/

theorem safe_readPointer (hw : ∀ s ∈ w.swaps, s.caller ≠ t) :
    (pointerContract codec activations).Safe t (Prog.ask (S := pointerSignature) .read)
      (Outcome (fun current => PointerReady t current) fun _ w' => ∀ s ∈ w'.swaps, s.caller ≠ t) w := by
  apply Contract.Safe.ask noPointerSwap_stable hw
  intro w₁ c hinv hw₁ _
  refine ⟨Contract.Keeps.refl hinv, fun w₂ hrely hinv₂ => ?_⟩
  have hw₂ := noPointerSwap_stable _ _ hrely hinv₂ hw₁
  show Outcome _ _ (w₁.read c.sql).1 w₂
  unfold PointerLog.read
  cases hread : headRowRead c.sql .staticReleaseHead w₁.db with
  | error e db => exact hw₂
  | ok found db =>
      obtain ⟨-, rfl, -⟩ := headRowRead_eq_ok.mp hread
      refine ⟨hw₂, fun o ho => ?_⟩
      obtain ⟨row, hrow, rfl⟩ := Option.map_eq_some_iff.mp ho
      refine ⟨congrArg etagOf (rowOf_toList row).symm, ?_⟩
      rcases hinv.chained.now_eq with hnow | ⟨s, hs, hnow⟩
      · cases hnow.symm.trans hrow
      · refine ⟨s, hrely.1.subset hs, ?_⟩
        rw [rowOf_toList]
        exact Option.some.inj (hnow.symm.trans hrow)

/-- What a swap does: the row was the one expected by its tag and is replaced, which is logged, or
nothing happens. -/
theorem compareAndSwap_cases (c : Choice) (expectedEtag : Option String) (newValue : Bytes) (w : PointerLog) :
    (∃ w', w.compareAndSwap t c.sql expectedEtag newValue = (.ok true, w') ∧
        w.db.staticReleaseHead.map etagOf = expectedEtag ∧
        w'.db = w.db.setHead (rowOf newValue) .staticReleaseHead ∧
        w'.swaps = w.swaps ++
          [{ caller := t, replaced := w.db.staticReleaseHead, written := rowOf newValue }]) ∨
    ∃ answer, w.compareAndSwap t c.sql expectedEtag newValue = (answer, w) ∧ answer ≠ .ok true := by
  unfold PointerLog.compareAndSwap
  cases hcas : headRowCas c.sql .staticReleaseHead expectedEtag (rowOf newValue) w.db with
  | error e db =>
      obtain rfl := atomic_headRowCas _ _ _ _ _ hcas
      exact .inr ⟨.error e, rfl, nofun⟩
  | ok swapped db =>
      cases swapped with
      | false =>
          obtain ⟨-, rfl⟩ := headRowCas_false hcas
          exact .inr ⟨.ok false, rfl, nofun⟩
      | true =>
          obtain ⟨htag, rfl⟩ := headRowCas_true hcas
          exact .inl ⟨_, rfl, htag, rfl, rfl⟩

/-- What a swap that goes through leaves. -/
theorem keeps_pointerSwapped (hinv : PointerInv codec activations w) (htags : PointerTagsTell codec activations)
    (hready : PointerReady t current w) {previous : Option String} (hprevious : previousRelease codec current = .ok previous)
    (hvalid : (activations t).head.validate = .ok ())
    (htag : w.db.staticReleaseHead.map etagOf = current.map (·.etag))
    (hafter : w'.db.staticReleaseHead = some ((activations t).row codec))
    (hswaps : w'.swaps = w.swaps ++
      [{ caller := t, replaced := w.db.staticReleaseHead, written := (activations t).row codec }]) :
    (pointerContract codec activations).Keeps t w w' ∧ PointerAnswered codec activations t
      { releaseId := (activations t).releaseId, previousReleaseId := previous } w' := by
  have hmem : ∀ s ∈ w'.swaps, s ∈ w.swaps ∨
      s = { caller := t, replaced := w.db.staticReleaseHead, written := (activations t).row codec } := by
    intro s hs
    rw [hswaps] at hs
    exact (List.mem_append.mp hs).imp_right List.mem_singleton.mp
  refine ⟨⟨⟨?_, ?_, fun s hs => ?_⟩, ?_, fun t' hne s hs ht => ?_⟩, ?_⟩
  · rw [hafter, hswaps]
    exact hinv.chained.concat rfl
  · rw [hswaps, List.map_append]
    refine List.nodup_append.mpr ⟨hinv.callers, List.nodup_singleton _, fun caller hcaller caller' hcaller' => ?_⟩
    obtain ⟨s, hs, rfl⟩ := List.mem_map.mp hcaller
    obtain rfl := List.mem_singleton.mp hcaller'
    exact hready.noSwap s hs
  · rcases hmem s hs with hs | rfl
    · exact hinv.written s hs
    · exact ⟨rfl, hvalid⟩
  · show w.swaps <+: w'.swaps
    rw [hswaps]
    exact List.prefix_append _ _
  · rcases hmem s hs with hs | rfl
    · exact hs
    · exact absurd ht.symm hne
  · refine ⟨_, hswaps ▸ List.mem_append_right _ (List.mem_singleton_self _), rfl, rfl, ?_⟩
    rw [hinv.row_eq_seen htags hready htag]
    exact releaseOf_seen hprevious

theorem safe_pointerCall (htags : PointerTagsTell codec activations) (hw : ∀ s ∈ w.swaps, s.caller ≠ t) :
    (pointerContract codec activations).Safe t ((activations t).program codec)
      (Outcome (fun result => PointerAnswered codec activations t result) fun _ w' => ∀ s ∈ w'.swaps, s.caller ≠ t)
      w := by
  have hstable : ∀ {current}, (pointerContract codec activations).Stable t (PointerReady t current) := PointerReady.stable
  unfold PointerCall.program activateStaticPointer
  refine bindExcept (mapErrorExcept (x := ExceptT.mk (Prog.ask (S := pointerSignature) .read))
    ((safe_readPointer hw).mono fun r w₁ _ hr => ?_))
  cases r with
  | error e => exact hr
  | ok current =>
      refine bindCheck (fun previous hprevious w₂ hrely₂ hinv₂ => ?_) fun _ _ w₂ hrely₂ hinv₂ =>
        (hstable w₁ w₂ hrely₂ hinv₂ hr).noSwap
      have hw₂ := hstable w₁ w₂ hrely₂ hinv₂ hr
      refine bindCheck (fun headBytes hbytes w₃ hrely₃ hinv₃ => ?_) fun _ _ w₃ hrely₃ hinv₃ =>
        (hstable w₂ w₃ hrely₃ hinv₃ hw₂).noSwap
      obtain ⟨hvalid, rfl⟩ := newHeadBytes_eq_ok.mp hbytes
      refine bindExcept (mapErrorExcept (x := ExceptT.mk (Prog.ask (S := pointerSignature) (.compareAndSwap _ _)))
        (Contract.Safe.ask PointerReady.stable (hstable w₂ w₃ hrely₃ hinv₃ hw₂) fun w₄ c hinv₄ hw₄ _ => ?_))
      let swapped := w₄.compareAndSwap t c.sql (current.map (·.etag)) (codec.toJsonPretty (activations t).head)
      show (pointerContract codec activations).Keeps t w₄ swapped.2 ∧ ∀ w₅,
        (pointerContract codec activations).Rely t swapped.2 w₅ → _ → Outcome _ _ swapped.1 w₅
      rcases compareAndSwap_cases (t := t) c (current.map (·.etag)) (codec.toJsonPretty (activations t).head)
        w₄ with
        ⟨w', heq, htag, hdb, hswaps⟩ | ⟨answer, heq, hanswer⟩
      · -- the pointer is the one that was read
        rw [show swapped = _ from heq]
        have hafter : w'.db.staticReleaseHead = some ((activations t).row codec) := by
          rw [hdb]
          rfl
        obtain ⟨hkeeps, hanswered⟩ := keeps_pointerSwapped hinv₄ htags hw₄ hprevious hvalid htag hafter hswaps
        refine ⟨hkeeps, fun w₅ hrely₅ hinv₅ => pureExcept fun w₆ hrely₆ hinv₆ => ?_⟩
        exact PointerAnswered.stable _ _ (hrely₅.trans hrely₆) hinv₆ hanswered
      · rw [show swapped = _ from heq]
        refine ⟨Contract.Keeps.refl hinv₄, fun w₅ hrely₅ hinv₅ => ?_⟩
        have hw₅ := hstable w₄ w₅ hrely₅ hinv₅ hw₄
        cases answer with
        | error e => exact hw₅.noSwap
        | ok swapped =>
            cases swapped with
            | true => exact absurd rfl hanswer
            | false => exact throwExcept fun w₆ hrely₆ hinv₆ => (hstable w₅ w₆ hrely₆ hinv₆ hw₅).noSwap

/-! ## Both heads -/

/-- The world of the index calls, with the log of the static pointer beside it. -/
structure LocalHeads where
  index : Chronicle
  staticSwaps : List (Swap Nat ByteArray)

namespace LocalHeads

/-- What the activations see. -/
def pointer (w : LocalHeads) : PointerLog where
  db := w.index.world.queue.db
  swaps := w.staticSwaps

def setPointer (w : LocalHeads) (pointer : PointerLog) : LocalHeads where
  index := { w.index with world := w.index.world.setDb pointer.db }
  staticSwaps := pointer.swaps

/-- The row of a head. -/
def row (w : LocalHeads) (table : HeadTable) : Option ByteArray := w.index.world.queue.db.head table

/-- One database under the publishers and rollbacks (`.inl`) and the activations (`.inr`). -/
def store (setup : Setup) : Machine (nodeSignature.sum pointerSignature) LocalHeads Choice (Nat ⊕ Nat) where
  apply t
    | .inl op, c, w =>
        let result := (chronicle setup).apply (t.elim id id) op c w.index
        (result.1, { w with index := result.2 })
    | .inr op, c, w =>
        let result := pointerStore.apply (t.elim id id) op c w.pointer
        (result.1, w.setPointer result.2)

end LocalHeads

variable {setup : Setup} {calls : Nat → PublisherCall}

/-- No operation of a node writes to the row of the static pointer. -/
theorem staticReleaseHead_perform (hlocal : setup.backend = .sqliteFs) (op : Op) (w : World) (t : Nat)
    (c : Choice) : (w.perform setup t op c).2.queue.db.staticReleaseHead = w.queue.db.staticReleaseHead := by
  cases op with
  | swapHead seen newValue =>
      show (w.swapHeadAt setup t seen newValue c).2.queue.db.staticReleaseHead = _
      unfold World.swapHeadAt
      simp only [hlocal]
      cases hcas : headRowCas c.sql .activeHead (seen.map (·.etag)) newValue w.queue.db with
      | error e db =>
          obtain rfl := atomic_headRowCas _ _ _ _ _ hcas
          rfl
      | ok swapped db =>
          cases swapped with
          | false =>
              obtain ⟨-, rfl⟩ := headRowCas_false hcas
              rfl
          | true =>
              obtain ⟨-, rfl⟩ := headRowCas_true hcas
              simp only [World.queue_noteSwap]
              rfl
  | appendAndEnqueue walKey walBytes batch => exact Watched.head_step _ _ _ .staticReleaseHead
  | receive => exact Watched.head_step _ _ _ .staticReleaseHead
  | ack receipt => exact Watched.head_step _ _ _ .staticReleaseHead
  | nack receipt error => exact Watched.head_step _ _ _ .staticReleaseHead
  | _ =>
      refine congrArg (fun q : Watched => q.db.staticReleaseHead) (queue_perform ?_ w t c)
      trivial

/-- No operation of an activation writes to the row of the active head. -/
theorem activeHead_pointerStore (op : PointerOp) (t : Nat) (c : Choice) (w : PointerLog) :
    (pointerStore.apply t op c w).2.db.activeHead = w.db.activeHead := by
  cases op with
  | read => rfl
  | compareAndSwap expectedEtag newValue =>
      show (w.compareAndSwap t c.sql expectedEtag newValue).2.db.activeHead = _
      rcases compareAndSwap_cases (t := t) c expectedEtag newValue w with
        ⟨w', heq, -, hdb, -⟩ | ⟨answer, heq, -⟩
      · rw [heq, hdb]
        rfl
      · rw [heq]

/-- The two kinds of calls, side by side. -/
theorem localHeads_sideBySide (hlocal : setup.backend = .sqliteFs) :
    SideBySide (chainContract setup calls) (pointerContract codec activations) (LocalHeads.store setup)
      LocalHeads.index LocalHeads.pointer where
  left_apply _ _ _ _ := rfl
  left_other t op c w := by
    have hrow : ((LocalHeads.store setup).apply (.inl t) (.inl op) c w).2.pointer.db.staticReleaseHead =
        w.pointer.db.staticReleaseHead := by
      show ((w.index.world.perform setup t op c).2.noteActivation setup t w.index.world).queue.db.staticReleaseHead
        = _
      rw [World.queue_noteActivation]
      exact staticReleaseHead_perform hlocal op w.index.world t c
    exact ⟨fun h => ⟨hrow ▸ h.chained, h.callers, h.written⟩, List.prefix_refl _, fun _ _ hs _ => hs⟩
  right_apply _ _ _ _ := rfl
  right_other t op c w := by
    have hhead : ((LocalHeads.store setup).apply (.inr t) (.inr op) c w).2.index.world.headBytes setup =
        w.index.world.headBytes setup := by
      simp only [World.headBytes, hlocal]
      exact activeHead_pointerStore op t c w.pointer
    exact ⟨fun h => ⟨hhead ▸ h.chained, h.callers, h.made⟩, List.prefix_refl _, fun _ _ hs _ => hs⟩

/-! ## Every run -/

/-- What a call ends with: a publisher or a rollback, or an activation. -/
abbrev HeadResult := Except PublishError PublishResult ⊕ Except StaticActivateError StaticActivationResult

/-- Calls of both kinds, none of which has started, on an empty database. -/
def localCallers (setup : Setup) (codec : StaticHeadCodec) (roots : Nat → String → Option RootItem)
    (calls : Nat → PublisherCall) (activations : Nat → PointerCall) :
    Config (nodeSignature.sum pointerSignature) LocalHeads (Nat ⊕ Nat) HeadResult where
  world := { index := { world := .init roots, swaps := [] }, staticSwaps := [] }
  threads := Sum.elim (fun t => (Sum.inl <$> (calls t).program setup t).inl)
    fun t => (Sum.inr <$> (activations t).program codec).inr

/-- The swaps of a row that went through are its history: each call makes at most one, a call that
succeeds makes one and is answered with the names of what it wrote and of what it replaced, a call that
fails makes none. -/
structure RowHistory {Name : Type} (nameOf : ByteArray → Option Name) (row : Option ByteArray)
    (swaps : List (Swap Nat ByteArray)) (succeeded : Nat → Name → Option Name → Prop) (failed : Nat → Prop) :
    Prop where
  chained : Chained none swaps row
  once : (swaps.map (·.caller)).Nodup
  answered : ∀ t name previous, succeeded t name previous → ∃ s ∈ swaps, s.caller = t ∧
    nameOf s.written = some name ∧ s.replaced.bind nameOf = previous
  failed : ∀ t, failed t → ∀ s ∈ swaps, s.caller ≠ t
  /-- two swaps under one tag: the row was set back to what the first one replaced -/
  restored : ∀ before s between s' after, swaps = before ++ s :: (between ++ s' :: after) →
    s.replaced.map etagOf = s'.replaced.map etagOf →
      ∃ last ∈ (s :: between).getLast?, s.replaced = some last.written

/-- The history of the active head. -/
def IndexHistory (setup : Setup)
    (c : Config (nodeSignature.sum pointerSignature) LocalHeads (Nat ⊕ Nat) HeadResult) : Prop :=
  RowHistory setup.versionOf (c.world.row .activeHead) c.world.index.swaps
    (fun t v previous => c.threads (.inl t) =
      .done (.inl (.ok { activatedVersionId := v, previousVersionId := previous })))
    fun t => ∃ error, c.threads (.inl t) = .done (.inl (.error error))

/-- The history of the static pointer. -/
def StaticHistory (codec : StaticHeadCodec)
    (c : Config (nodeSignature.sum pointerSignature) LocalHeads (Nat ⊕ Nat) HeadResult) : Prop :=
  RowHistory (releaseOf codec) (c.world.row .staticReleaseHead) c.world.staticSwaps
    (fun t releaseId previous => c.threads (.inr t) =
      .done (.inr (.ok { releaseId, previousReleaseId := previous })))
    fun t => ∃ error, c.threads (.inr t) = .done (.inr (.error error))

/-- An operation of a publisher or a rollback leaves every row alone but that of `index/_head`. -/
theorem row_indexOp (hlocal : setup.backend = .sqliteFs) (t : Nat) (op : Op) (choice : Choice) (w : LocalHeads)
    {table : HeadTable} (hne : headTable indexHeadKey ≠ some table) :
    ((LocalHeads.store setup).apply (.inl t) (.inl op) choice w).2.row table = w.row table := by
  cases table with
  | activeHead => exact absurd rfl hne
  | staticReleaseHead =>
      show ((w.index.world.perform setup t op choice).2.noteActivation setup t
        w.index.world).queue.db.staticReleaseHead = _
      rw [World.queue_noteActivation]
      exact staticReleaseHead_perform hlocal op w.index.world t choice

/-- An operation of an activation leaves every row alone but that of `static/_head`. -/
theorem row_pointerOp (t : Nat) (op : PointerOp) (choice : Choice) (w : LocalHeads) {table : HeadTable}
    (hne : headTable staticHeadKey ≠ some table) :
    ((LocalHeads.store setup).apply (.inr t) (.inr op) choice w).2.row table = w.row table := by
  cases table with
  | activeHead => exact activeHead_pointerStore op t choice w.pointer
  | staticReleaseHead => exact absurd rfl hne

theorem PointerInv.releaseOf_written (hinv : PointerInv codec activations w)
    (hparse : PointersParse codec activations) {s : Swap Nat ByteArray} (hs : s ∈ w.swaps) :
    releaseOf codec s.written = some (activations s.caller).releaseId := by
  obtain ⟨hwritten, hvalid⟩ := hinv.written s hs
  rw [hwritten]
  simp only [releaseOf, PointerCall.row, toList_rowOf,
    StaticReleaseHead.fromJson_eq_ok.mpr ⟨hparse s.caller, hvalid⟩]
  rfl

/-- Two swaps under one tag: the pointer was set back in between. -/
theorem PointerInv.restored (hinv : PointerInv codec activations w) (htags : PointerTagsTell codec activations)
    {before between after : List (Swap Nat ByteArray)} {s s' : Swap Nat ByteArray}
    (hswaps : w.swaps = before ++ s :: (between ++ s' :: after))
    (htag : s.replaced.map etagOf = s'.replaced.map etagOf) :
    ∃ last ∈ (s :: between).getLast?, s.replaced = some last.written := by
  have hmem : ∀ s₁ ∈ before ++ s :: between, s₁ ∈ w.swaps := by
    intro s₁ hs₁
    rw [hswaps, ← List.cons_append, ← List.append_assoc]
    exact List.mem_append_left _ hs₁
  have hchained := hinv.chained
  rw [hswaps] at hchained
  refine hchained.restored etagOf (fun s₁ hs₁ s₂ hs₂ => ?_) htag
  exact hinv.told htags s₁ (hmem s₁ hs₁) s₂ (hmem s₂ hs₂)

/-- After every run of publishers, rollbacks and static activations on one local store, each of the two
heads has a history; no operation on the one touches the row of the other; and where all index calls
publish, the active version only ever increases. -/
theorem local_heads_chain (hlocal : setup.backend = .sqliteFs) (hhead : ManifestHead.RoundTrips setup.head)
    (hparse : PointersParse codec activations) (htags : TagsTell setup calls)
    (hpointers : PointerTagsTell codec activations) (roots : Nat → String → Option RootItem)
    (turns : List ((Nat ⊕ Nat) × Choice)) :
    let c := run (LocalHeads.store setup).step (localCallers setup codec roots calls activations) turns
    IndexHistory setup c ∧ StaticHistory codec c ∧
      ((∀ t, ∃ request, calls t = .publish request) → (c.world.index.swaps.map fun s =>
        (setup.versionOf s.written).elim 0 UInt64.toNat).Pairwise (· < ·)) ∧
      (∀ t op choice w table, headTable indexHeadKey ≠ some table →
        ((LocalHeads.store setup).apply (.inl t) (.inl op) choice w).2.row table = w.row table) ∧
      ∀ t op choice w table, headTable staticHeadKey ≠ some table →
        ((LocalHeads.store setup).apply (.inr t) (.inr op) choice w).2.row table = w.row table := by
  intro c
  have hsides : SideBySide (chainContract setup calls) (pointerContract codec activations)
      (LocalHeads.store setup) LocalHeads.index LocalHeads.pointer := localHeads_sideBySide hlocal
  have hstart : PointerInv codec activations { db := LocalDb.init, swaps := [] } :=
    ⟨rfl, List.nodup_nil, fun s hs => absurd hs List.not_mem_nil⟩
  have hcalls : ∀ t, (chainContract setup calls).Safe t
      (Sum.inl <$> (calls t).program setup t : Prog nodeSignature HeadResult)
      (Sum.elim (Outcome (fun result => Answered setup calls t result) fun _ => NoSwap t) fun _ _ => True)
      { world := .init roots, swaps := [] } :=
    fun t => Contract.Safe.map (safe_chroniclers hlocal htags roots t)
  have hactivations : ∀ t, (pointerContract codec activations).Safe t
      (Sum.inr <$> (activations t).program codec : Prog pointerSignature HeadResult)
      (Sum.elim (fun _ _ => True) (Outcome (fun result => PointerAnswered codec activations t result)
        fun _ w => ∀ s ∈ w.swaps, s.caller ≠ t))
      { db := LocalDb.init, swaps := [] } :=
    fun t => Contract.Safe.map (safe_pointerCall hpointers fun s hs => absurd hs List.not_mem_nil)
  have hallowed : hsides.contract.Allowed (localCallers setup codec roots calls activations) turns := by
    refine Contract.allowed_of_forall (fun t op _ _ => ?_) _ turns
    rcases t with t | t <;> rcases op with op | op <;> trivial
  obtain ⟨hindex, hstatic, hends, hpointerEnds⟩ := hsides.run_safe
    (c := localCallers setup codec roots calls activations) _ _ rfl (chainInv_init hlocal roots) hstart hcalls
    hactivations turns hallowed
  have hrow : c.world.index.world.headBytes setup = c.world.row .activeHead := by
    simp only [World.headBytes, hlocal]
    rfl
  refine ⟨⟨hrow ▸ hindex.chained, hindex.callers, fun t v previous hdone => ?_, ?_, ?_⟩,
    ⟨hstatic.chained, hstatic.callers, fun t releaseId previous hdone => ?_, ?_, ?_⟩, hindex.increases hhead,
    fun t op choice w _ hne => row_indexOp hlocal t op choice w hne,
    fun t op choice w _ hne => row_pointerOp t op choice w hne⟩
  · have hanswered := hends t _ hdone
    exact Answered.versions hhead hindex hanswered
  · rintro t ⟨error, hdone⟩
    have hfailed := hends t _ hdone
    exact hfailed
  · exact fun before s between s' after hswaps htag => hindex.restored htags hswaps htag
  · obtain ⟨s, hs, rfl, hrelease, hprevious⟩ := hpointerEnds t _ hdone
    refine ⟨s, hs, rfl, ?_, hprevious⟩
    rw [hstatic.releaseOf_written hparse hs, ← hrelease]
  · rintro t ⟨error, hdone⟩
    have hfailed := hpointerEnds t _ hdone
    exact hfailed
  · exact fun before s between s' after hswaps htag => hstatic.restored hpointers hswaps htag

/-! ## Both heads set back -/

/-- The printer of pointers, with those of some activations looked up. -/
def pointerCodec (heads : List StaticReleaseHead) : StaticHeadCodec where
  toJsonPretty := (SampleRelease.headCodec "").toJsonPretty
  fromSlice bytes :=
    match heads.find? fun head => (SampleRelease.headCodec "").toJsonPretty head = bytes with
    | some head => .ok head
    | none => .error "expected value at line 1 column 1"

/-- A release id. -/
def sampleReleaseId (digit : Char) : String := String.ofList (List.replicate 64 digit)

/-- One release is activated, then another, then the first again, and last a third one. -/
def pointerSetBack : Nat → PointerCall
  | 0 | 2 => { releaseId := sampleReleaseId 'a', updatedAt := 1784000000000 }
  | 1 => { releaseId := sampleReleaseId 'b', updatedAt := 1784000000000 }
  | _ => { releaseId := sampleReleaseId 'c', updatedAt := 1784000000000 }

def pointerSetBackCodec : StaticHeadCodec :=
  pointerCodec [(pointerSetBack 0).head, (pointerSetBack 1).head, (pointerSetBack 3).head]

/-- The last activation reads the pointer before the second, and goes on after the third has set it
back; the calls on the index take their turns in between. -/
def bothSetBackTurns : List ((Nat ⊕ Nat) × Choice) :=
  let index : List ((Nat ⊕ Nat) × Choice) := setBackTurns.map fun turn => (.inl turn.1, turn.2)
  index.take 12 ++ [(.inr 0, .calm), (.inr 0, .calm), (.inr 3, .calm), (.inr 1, .calm)] ++
    (index.drop 12).take 30 ++ [(.inr 1, .calm), (.inr 2, .calm), (.inr 2, .calm)] ++ index.drop 42 ++
    [(.inr 3, .calm)]

/-- The activations are of three kinds. -/
theorem pointerSetBack_kinds (t : Nat) : ∃ u ∈ [0, 1, 3], pointerSetBack t = pointerSetBack u := by
  match t with
  | 0 | 2 => exact ⟨0, by decide, rfl⟩
  | 1 => exact ⟨1, by decide, rfl⟩
  | _ + 3 => exact ⟨3, by decide, rfl⟩

theorem pointersParse_setBack : PointersParse pointerSetBackCodec pointerSetBack := by
  intro t
  obtain ⟨u, hu, hcall⟩ := pointerSetBack_kinds t
  have hall : ∀ u ∈ [0, 1, 3], pointerSetBackCodec.fromSlice
      (pointerSetBackCodec.toJsonPretty (pointerSetBack u).head) = .ok (pointerSetBack u).head := by
    decide +kernel
  rw [hcall]
  exact hall u hu

/-- Three pointers, three tags. -/
theorem pointerTagsTell_setBack : PointerTagsTell pointerSetBackCodec pointerSetBack := by
  have htags : (([0, 1, 3] : List Nat).map fun u => etagOf ((pointerSetBack u).row pointerSetBackCodec)).Nodup := by
    decide +kernel
  intro t t' htag
  obtain ⟨u, hu, hcall⟩ := pointerSetBack_kinds t
  obtain ⟨u', hu', hcall'⟩ := pointerSetBack_kinds t'
  rw [hcall, hcall'] at htag ⊢
  rw [List.inj_on_of_nodup_map htags hu hu' htag]

theorem swaps_bothSetBack :
    let c := run (LocalHeads.store localSetup).step
      (localCallers localSetup pointerSetBackCodec (fun _ => builtRoot [1, 2, 3]) setBack pointerSetBack)
      bothSetBackTurns
    (c.world.index.swaps.map (·.caller), c.world.staticSwaps.map (·.caller)) =
      ([0, 1, 2, 3], [0, 1, 2, 3]) := by
  unfold localSetup
  rw [sampleSetup_lookingUp _ [(1, 1784000000000), (2, 1784000000000), (3, 1784000000000)]]
  decide +kernel

/-- Each head is replaced four times, by another call each time, and set back once. -/
theorem local_heads_chain_setBack :
    let c := run (LocalHeads.store localSetup).step
      (localCallers localSetup pointerSetBackCodec (fun _ => builtRoot [1, 2, 3]) setBack pointerSetBack)
      bothSetBackTurns
    (c.world.index.swaps.map (·.caller), c.world.staticSwaps.map (·.caller)) =
        ([0, 1, 2, 3], [0, 1, 2, 3]) ∧
      IndexHistory localSetup c ∧ StaticHistory pointerSetBackCodec c := by
  have hlocal : localSetup.backend = .sqliteFs := rfl
  have hhead : ManifestHead.RoundTrips localSetup.head := ManifestHead.serdeCodec_roundTrips
  have hchain := local_heads_chain hlocal hhead pointersParse_setBack tagsTell_setBack pointerTagsTell_setBack
    (fun _ => builtRoot [1, 2, 3]) bothSetBackTurns
  exact ⟨swaps_bothSetBack, hchain.1, hchain.2.1⟩

end LTSearch
