/-
# LTSearch.Indexing.HeadChain -- the history of the local head is a chain

Any number of publish and rollback calls on a `LocalPublishStorage`, their operations interleaved in
any order, failing anywhere.  A call reads the head, does its work and swaps the head on the tag it has
read; where different heads have different tags, what it replaces is what it has read and checked.  So
the swaps that went through are a history of the head, each answered with its predecessor, and a
publish call never replaces a version by an older one.
-/
import LTSearch.Foundation.SwapLog
import LTSearch.Indexing.FrozenHead

namespace LTSearch

open LTSearch.Foundation Contract.Safe

/-! ## The log -/

/-- The world, and a ghost: the swaps of the head that went through. -/
structure Chronicle where
  world : World
  swaps : List (Swap Nat ByteArray)

/-- Write down a swap that went through. -/
def noteSwapped (t : Nat) (before : Option ByteArray) :
    (op : Op) → op.Ans → List (Swap Nat ByteArray) → List (Swap Nat ByteArray)
  | .swapHead _ newValue, .ok true, swaps =>
      swaps ++ [{ caller := t, replaced := before, written := newValue }]
  | _, _, swaps => swaps

/-- The machine of a node, with the log. -/
def chronicle (setup : Setup) : Machine nodeSignature Chronicle Choice Nat where
  apply t op c w :=
    let result := (node setup).apply t op c w.world
    (result.1,
      { world := result.2, swaps := noteSwapped t (w.world.headBytes setup) op result.1 w.swaps })

namespace PublisherCall

/-- The version that the call makes the active one. -/
def versionId : PublisherCall → UInt64
  | publish request => request.manifest.versionId
  | rollback request => request.targetVersionId

def updatedAt : PublisherCall → Int
  | publish request => request.updatedAt
  | rollback request => request.updatedAt

/-- The head that the call writes. -/
def newHead (setup : Setup) (call : PublisherCall) : ByteArray :=
  setup.head.toVec (.new call.versionId call.updatedAt)

end PublisherCall

/-- The version in a head. -/
def Setup.versionOf (setup : Setup) (bytes : ByteArray) : Option UInt64 :=
  match ManifestHead.fromJson setup.head bytes with
  | .ok head => some head.versionId
  | .error _ => none

/-! ## The contract -/

section Statement

variable (setup : Setup) (calls : Nat → PublisherCall)

/-- What is behind a swap: the head of the call that made it, checked against what it replaced. -/
structure Made (s : Swap Nat ByteArray) : Prop where
  written : s.written = (calls s.caller).newHead setup
  positive : (calls s.caller).versionId ≠ 0
  epoch : minPlausibleEpochMillis ≤ (calls s.caller).updatedAt
  greater : ∀ request, calls s.caller = .publish request →
    ∀ v, s.replaced.bind setup.versionOf = some v → v < request.manifest.versionId

structure ChainInv (w : Chronicle) : Prop where
  chained : Chained none w.swaps (w.world.headBytes setup)
  callers : (w.swaps.map (·.caller)).Nodup
  made : ∀ s ∈ w.swaps, Made setup calls s

/-- What the calls promise each other: the log is a history, and nobody swaps for somebody else. -/
def chainContract : Contract (chronicle setup) where
  inv := ChainInv setup calls
  change w w' := w.swaps <+: w'.swaps
  frame t w w' := ∀ s ∈ w'.swaps, s.caller = t → s ∈ w.swaps
  allowed _ _ _ _ := True
  change_refl _ := List.prefix_refl _
  change_trans h h' := h.trans h'
  frame_refl _ _ _ hs _ := hs
  frame_trans h h' s hs ht := h s (h' s hs ht) ht

/-- Different heads of the calls have different tags. -/
def TagsTell : Prop :=
  ∀ t t', etagOf ((calls t).newHead setup) = etagOf ((calls t').newHead setup) →
    (calls t).newHead setup = (calls t').newHead setup

end Statement

/-- Call `t` has not swapped the head. -/
def NoSwap (t : Nat) (w : Chronicle) : Prop := ∀ s ∈ w.swaps, s.caller ≠ t

/-- An object as the call has read it: some head that was written, under its tag. -/
def Seen (object : Option VersionedObject) (w : Chronicle) : Prop :=
  ∀ o, object = some o → o.etag = etagOf o.bytes ∧ ∃ s ∈ w.swaps, s.written = o.bytes

/-- The swap behind a result. -/
def Answered (setup : Setup) (calls : Nat → PublisherCall) (t : Nat) (result : PublishResult)
    (w : Chronicle) : Prop :=
  ∃ s ∈ w.swaps, s.caller = t ∧ result.activatedVersionId = (calls t).versionId ∧
    s.replaced.bind setup.versionOf = result.previousVersionId

variable {setup : Setup} {calls : Nat → PublisherCall} {t : Nat} {w w' : Chronicle}

theorem NoSwap.stable : (chainContract setup calls).Stable t (NoSwap t) := by
  intro w w' hrely _ h s hs ht
  exact h s (hrely.2 s hs ht) ht

theorem NoSwap.congr (h : NoSwap t w) (hswaps : w'.swaps = w.swaps) : NoSwap t w' := by
  unfold NoSwap
  rw [hswaps]
  exact h

theorem Seen.mono {object : Option VersionedObject} (h : Seen object w) (hsub : w.swaps <+: w'.swaps) :
    Seen object w' := by
  intro o ho
  obtain ⟨htag, s, hs, hwritten⟩ := h o ho
  exact ⟨htag, s, hsub.subset hs, hwritten⟩

/-- A call that has read the head and has not swapped it. -/
structure Ready (t : Nat) (object : Option VersionedObject) (w : Chronicle) : Prop where
  noSwap : NoSwap t w
  seen : Seen object w

theorem Ready.stable {object : Option VersionedObject} :
    (chainContract setup calls).Stable t (Ready t object) :=
  fun w w' hrely hinv h => ⟨NoSwap.stable w w' hrely hinv h.noSwap, h.seen.mono hrely.1⟩

theorem Ready.congr {object : Option VersionedObject} (h : Ready t object w) (hswaps : w'.swaps = w.swaps) :
    Ready t object w' :=
  ⟨h.noSwap.congr hswaps, h.seen.mono (hswaps ▸ List.prefix_refl _)⟩

theorem Answered.stable {result : PublishResult} :
    (chainContract setup calls).Stable t (Answered setup calls t result) := by
  rintro w w' hrely _ ⟨s, hs, h⟩
  exact ⟨s, hrely.1.subset hs, h⟩

/-! ## Operations that leave the head alone -/

/-- The operations of a call that do not write to the database. -/
def LeavesHead : Op → Prop
  | .swapHead _ _ => False
  | .appendAndEnqueue _ _ _ => False
  | .receive => False
  | .ack _ => False
  | .nack _ _ => False
  | _ => True

theorem queue_putObjectAt (w : World) (t : Nat) (key : String) (content : Content) (c : Choice) :
    (w.putObjectAt t key content c).2.queue = w.queue := by
  rcases World.putObjectAt_cases w t key content c with ⟨-, heq | heq⟩ | ⟨-, heq⟩ <;> rw [heq] <;> rfl

theorem queue_perform {op : Op} (hop : LeavesHead op) (w : World) (t : Nat) (c : Choice) :
    (w.perform setup t op c).2.queue = w.queue := by
  cases op with
  | swapHead _ _ => exact hop.elim
  | appendAndEnqueue _ _ _ => exact hop.elim
  | receive => exact hop.elim
  | ack _ => exact hop.elim
  | nack _ _ => exact hop.elim
  | readHead reader =>
      show (w.readHeadAt setup t reader c).2.queue = _
      unfold World.readHeadAt
      dsimp only
      split <;> rfl
  | putObject _ key content => exact queue_putObjectAt w t key content c
  | storedExists key =>
      show (if _ then _ else _ : Bool × World).2.queue = _
      split <;> rfl
  | makeDirectory key =>
      show (if _ then _ else _ : Except String Unit × World).2.queue = _
      split <;> rfl
  | copyFile key content =>
      show (w.copyFileAt t key content c).2.queue = _
      unfold World.copyFileAt
      split
      · split <;> rfl
      · rfl
  | probeTarget key =>
      show (if _ then _ else _ : TargetProbe × World).2.queue = _
      split <;> rfl
  | moveIntoPlace key artifact segments =>
      show (w.moveAt setup t key artifact segments c).2.queue = _
      unfold World.moveAt
      dsimp only
      split
      · rfl
      · split <;> rfl
  | removePath key =>
      show (if _ then _ else _ : Except IndexError Unit × World).2.queue = _
      split <;> rfl
  | _ => rfl

theorem noteSwapped_of_leavesHead {op : Op} (hop : LeavesHead op) (before : Option ByteArray)
    (answer : op.Ans) (swaps : List (Swap Nat ByteArray)) : noteSwapped t before op answer swaps = swaps := by
  cases op with
  | swapHead _ _ => exact hop.elim
  | _ => rfl

theorem headBytes_of_queue (hlocal : setup.backend = .sqliteFs) {w w' : World} (h : w'.queue = w.queue) :
    w'.headBytes setup = w.headBytes setup := by
  simp only [World.headBytes, hlocal, h]

/-- A step that neither moves the head nor is logged. -/
theorem keeps_chain (hinv : ChainInv setup calls w) (hhead : w'.world.headBytes setup = w.world.headBytes setup)
    (hswaps : w'.swaps = w.swaps) : (chainContract setup calls).Keeps t w w' where
  inv := ⟨by rw [hhead, hswaps]; exact hinv.chained, by rw [hswaps]; exact hinv.callers,
    by rw [hswaps]; exact hinv.made⟩
  change := by
    show w.swaps <+: w'.swaps
    rw [hswaps]
  frame t' _ s hs _ := hswaps ▸ hs

theorem swaps_apply {op : Op} (hop : LeavesHead op) (c : Choice) :
    ((chronicle setup).apply t op c w).2.swaps = w.swaps :=
  noteSwapped_of_leavesHead hop _ _ _

theorem keeps_leavesHead (hlocal : setup.backend = .sqliteFs) {op : Op} (hop : LeavesHead op) (c : Choice)
    (hinv : ChainInv setup calls w) :
    (chainContract setup calls).Keeps t w ((chronicle setup).apply t op c w).2 := by
  apply keeps_chain hinv
  · apply headBytes_of_queue hlocal
    show ((w.world.perform setup t op c).2.noteActivation setup t w.world).queue = w.world.queue
    rw [World.queue_noteActivation]
    exact queue_perform hop w.world t c
  · exact swaps_apply hop c

/-- A part of a call that leaves the head alone. -/
theorem safe_leavesHead (hlocal : setup.backend = .sqliteFs) {α : Type} {p : NodeM α}
    {object : Option VersionedObject} (hp : p.Within LeavesHead) (hw : Ready t object w) :
    (chainContract setup calls).Safe t p (fun _ => Ready t object) w := by
  apply Contract.Safe.within hp Ready.stable hw
  intro op c w' hop hinv hw' _
  exact ⟨keeps_leavesHead hlocal hop c hinv, hw'.congr (swaps_apply hop c)⟩

/-! ## The checks and the uploads -/

theorem prepareShard_leavesHead (shard : ShardManifest) : (prepareShard shard).run.Within LeavesHead := by
  have hcheck : ∀ (path : String), ((liftM (s3Key path) : ExceptT PublishError NodeM String)).run.Within
      LeavesHead := by
    intro path
    cases s3Key path <;> trivial
  unfold prepareShard
  apply Prog.Within.bindExcept (hcheck _)
  intro lanceKey
  apply Prog.Within.bindExcept (hcheck _)
  intro tantivyKey
  apply Prog.Within.bindExcept (Prog.within_ask trivial)
  intro _
  apply Prog.Within.bindExcept (Prog.within_ask trivial)
  intro _
  apply Prog.Within.bindExcept (Prog.within_ask trivial)
  intro _
  apply Prog.Within.bindExcept (Prog.within_ask trivial)
  exact fun _ => trivial

theorem prepareShards_leavesHead (shards : List ShardManifest) :
    (prepareShards shards).run.Within LeavesHead := by
  induction shards with
  | nil => trivial
  | cons shard rest ih =>
      apply Prog.Within.bindExcept (prepareShard_leavesHead shard)
      intro keys
      apply Prog.Within.bindExcept ih
      exact fun _ => trivial

/-- A check that asks for nothing. -/
theorem within_check {ops : Op → Prop} {ε α : Type} (x : Except ε α) :
    (liftM x : ExceptT ε NodeM α).run.Within ops := by
  cases x <;> trivial

/-- An operation whose error is put into other words. -/
theorem within_mapError {ops : Op → Prop} {ε ε' α : Type} {f : ε → ε'} {x : NodeM (Except ε α)}
    (h : x.Within ops) : (Except.mapError f <$> x : NodeM (Except ε' α)).Within ops :=
  h.bind fun _ => trivial

theorem openArtifacts_leavesHead (t : Nat) (manifest : IndexManifest) :
    (openArtifacts setup t manifest).run.Within LeavesHead := by
  unfold openArtifacts
  apply Prog.Within.bindExcept (within_check _)
  intro _
  apply Prog.Within.bindExcept (Prog.within_ask trivial)
  intro _
  apply Prog.Within.bindExcept (within_mapError (Prog.within_ask trivial))
  intro content
  apply Prog.Within.bindExcept (within_check _)
  exact fun _ => prepareShards_leavesHead manifest.shards

theorem copyTree_leavesHead (key : String) (segments : List String) (files : List (String × ByteArray)) :
    (copyTree key segments files).run.Within LeavesHead := by
  induction files with
  | nil => trivial
  | cons file rest ih =>
      apply Prog.Within.bindExcept (Prog.within_ask trivial)
      exact fun _ => ih

theorem localCopyTree_leavesHead (key : String) : (localCopyTree key).run.Within LeavesHead := by
  unfold localCopyTree
  apply Prog.Within.bindExcept (Prog.within_ask trivial)
  rintro ⟨tree, segments⟩
  apply Prog.Within.bindExcept (Prog.within_ask trivial)
  exact fun _ => copyTree_leavesHead key segments tree.files

/-- The check whether something is there already. -/
theorem storedExists_leavesHead {α : Type} (key : String) {thrown : PublishError}
    {rest : ExceptT PublishError NodeM α} (hrest : rest.run.Within LeavesHead) :
    (do
      if ← (call (.storedExists key) : NodeM Bool) then throw thrown
      rest : ExceptT PublishError NodeM α).run.Within LeavesHead := by
  refine ⟨trivial, fun found => ?_⟩
  cases found with
  | true => trivial
  | false => exact hrest

theorem uploadDirectory_leavesHead (hlocal : setup.backend = .sqliteFs) (key : String) :
    (uploadDirectory setup key).run.Within LeavesHead := by
  unfold uploadDirectory
  simp only [hlocal]
  apply Prog.Within.bindExcept (within_check _)
  intro _
  exact storedExists_leavesHead key (within_mapError (localCopyTree_leavesHead key))

theorem uploadDirectories_leavesHead (hlocal : setup.backend = .sqliteFs) (keys : List String) :
    (uploadDirectories setup keys).run.Within LeavesHead := by
  induction keys with
  | nil => trivial
  | cons key rest ih =>
      apply Prog.Within.bindExcept (uploadDirectory_leavesHead hlocal key)
      exact fun _ => ih

theorem uploadFile_leavesHead (hlocal : setup.backend = .sqliteFs) (t : Nat) (key : String) :
    (uploadFile setup t key).run.Within LeavesHead := by
  unfold uploadFile
  simp only [hlocal]
  apply Prog.Within.bindExcept (within_check _)
  intro _
  apply storedExists_leavesHead key
  apply within_mapError
  apply Prog.Within.bindExcept (Prog.within_ask trivial)
  exact fun _ => Prog.within_ask trivial

/-! ## The head -/

/-- The head is what the last swap wrote. -/
theorem ChainInv.head_written (h : ChainInv setup calls w) {bytes : ByteArray}
    (hhead : w.world.headBytes setup = some bytes) : ∃ s ∈ w.swaps, s.written = bytes := by
  rcases h.chained.now_eq with hnow | ⟨s, hs, hnow⟩
  · rw [hhead] at hnow
    cases hnow
  · rw [hhead] at hnow
    exact ⟨s, hs, (Option.some.inj hnow).symm⟩

/-- A read of the head: some head that was written, or nothing. -/
theorem safe_readHead (hlocal : setup.backend = .sqliteFs) (hw : NoSwap t w) :
    (chainContract setup calls).Safe t (call (.readHead .publisher))
      (Outcome (fun object => Ready t object) fun _ => NoSwap t) w := by
  apply Contract.Safe.ask NoSwap.stable hw
  intro w₁ c hinv hw₁ _
  have hread : LeavesHead (.readHead .publisher) := trivial
  have hswaps : ((chronicle setup).apply t (.readHead .publisher) c w₁).2.swaps = w₁.swaps := swaps_apply hread c
  refine ⟨keeps_leavesHead hlocal hread c hinv, fun w₂ hrely hinv₂ => ?_⟩
  have hw₂ : NoSwap t w₂ := NoSwap.stable _ _ hrely hinv₂ (hw₁.congr hswaps)
  have hsub : w₁.swaps <+: w₂.swaps := hswaps ▸ hrely.1
  show Outcome _ _ (w₁.world.readHeadAt setup t .publisher c).1 w₂
  unfold World.readHeadAt
  simp only [hlocal]
  cases hread : headRowRead c.sql .activeHead w₁.world.queue.db with
  | error e db => exact hw₂
  | ok found db =>
      obtain ⟨-, rfl, -⟩ := headRowRead_eq_ok.mp hread
      refine ⟨hw₂, Seen.mono (w := w₁) ?_ hsub⟩
      intro o ho
      obtain ⟨bytes, hbytes, rfl⟩ := Option.map_eq_some_iff.mp ho
      refine ⟨by simp only [Setup.etag, hlocal], hinv.head_written ?_⟩
      simp only [World.headBytes, hlocal]
      exact hbytes

/-- What a swap does: the head was the one expected by its tag and is replaced, or nothing happens. -/
theorem swapHeadAt_local (hlocal : setup.backend = .sqliteFs) (w : World) (t : Nat)
    (seen : Option VersionedObject) (newValue : ByteArray) (c : Choice) :
    ((w.swapHeadAt setup t seen newValue c).1 = .ok true ∧
      (w.headBytes setup).map etagOf = seen.map (·.etag) ∧
      (w.swapHeadAt setup t seen newValue c).2.headBytes setup = some newValue) ∨
    ((w.swapHeadAt setup t seen newValue c).1 ≠ .ok true ∧
      (w.swapHeadAt setup t seen newValue c).2.headBytes setup = w.headBytes setup) := by
  unfold World.swapHeadAt
  simp only [hlocal]
  cases hcas : headRowCas c.sql .activeHead (seen.map (·.etag)) newValue w.queue.db with
  | error e db =>
      obtain rfl := atomic_headRowCas _ _ _ _ _ hcas
      exact .inr ⟨nofun, rfl⟩
  | ok swapped db =>
      cases swapped with
      | false =>
          obtain ⟨-, rfl⟩ := headRowCas_false hcas
          exact .inr ⟨nofun, rfl⟩
      | true =>
          obtain ⟨htag, rfl⟩ := headRowCas_true hcas
          refine .inl ⟨rfl, ?_, ?_⟩
          · simp only [World.headBytes, hlocal]
            exact htag
          · simp only [World.headBytes, hlocal, World.queue_noteSwap]
            rfl

/-- The same with the log: a swap that goes through is written down. -/
theorem apply_swapHead_cases (hlocal : setup.backend = .sqliteFs) (t : Nat) (seen : Option VersionedObject)
    (newValue : ByteArray) (c : Choice) (w : Chronicle) :
    (∃ w', (chronicle setup).apply t (.swapHead seen newValue) c w = (.ok true, w') ∧
        (w.world.headBytes setup).map etagOf = seen.map (·.etag) ∧
        w'.world.headBytes setup = some newValue ∧
        w'.swaps = w.swaps ++
          [{ caller := t, replaced := w.world.headBytes setup, written := newValue }]) ∨
      ∃ answer w', (chronicle setup).apply t (.swapHead seen newValue) c w = (answer, w') ∧
        answer ≠ .ok true ∧ w'.world.headBytes setup = w.world.headBytes setup ∧ w'.swaps = w.swaps := by
  have hworld : ((node setup).apply t (.swapHead seen newValue) c w.world).2.headBytes setup =
      (w.world.swapHeadAt setup t seen newValue c).2.headBytes setup :=
    headBytes_of_queue hlocal World.queue_noteActivation
  cases hanswer : ((node setup).apply t (.swapHead seen newValue) c w.world).1 with
  | error e =>
      right
      rcases swapHeadAt_local hlocal w.world t seen newValue c with ⟨htrue, -⟩ | ⟨-, hsame⟩
      · cases htrue.symm.trans hanswer
      · refine ⟨.error e, _, Prod.ext hanswer rfl, nofun, hworld.trans hsame, ?_⟩
        show noteSwapped t _ _ _ w.swaps = _
        rw [hanswer]
        rfl
  | ok swapped =>
      rcases swapHeadAt_local hlocal w.world t seen newValue c with ⟨htrue, htag, hafter⟩ | ⟨hfalse, hsame⟩
      · left
        obtain rfl : true = swapped := Except.ok.inj (htrue.symm.trans hanswer)
        refine ⟨_, Prod.ext hanswer rfl, htag, hworld.trans hafter, ?_⟩
        show noteSwapped t _ _ _ w.swaps = _
        rw [hanswer]
        rfl
      · right
        refine ⟨.ok swapped, _, Prod.ext hanswer rfl, hanswer ▸ hfalse, hworld.trans hsame, ?_⟩
        show noteSwapped t _ _ _ w.swaps = _
        rw [hanswer]
        cases swapped with
        | false => rfl
        | true => exact absurd hanswer hfalse

/-- The tags tell the heads in the log. -/
theorem ChainInv.told (hinv : ChainInv setup calls w) (htags : TagsTell setup calls) :
    ∀ s ∈ w.swaps, ∀ s' ∈ w.swaps, etagOf s.written = etagOf s'.written → s.written = s'.written := by
  intro s hs s' hs' htag
  rw [(hinv.made s hs).written, (hinv.made s' hs').written] at htag ⊢
  exact htags _ _ htag

/-- The head under the tag of what was read is what was read. -/
theorem ChainInv.head_eq_seen (hinv : ChainInv setup calls w) (htags : TagsTell setup calls)
    {object : Option VersionedObject} (hseen : Seen object w)
    (htag : (w.world.headBytes setup).map etagOf = object.map (·.etag)) :
    w.world.headBytes setup = object.map (·.bytes) := by
  apply hinv.chained.eq_of_tag etagOf (hinv.told htags)
  · intro bytes hbytes
    obtain ⟨o, ho, rfl⟩ := Option.map_eq_some_iff.mp hbytes
    exact (hseen o ho).2
  · rw [htag]
    cases object with
    | none => rfl
    | some o => exact congrArg some (hseen o rfl).1

/-- The version of an object that parses. -/
theorem versionOf_seen {object : Option VersionedObject} {head : Option ManifestHead}
    (hparse : parseHeadObject setup object = .ok head) :
    (object.map (·.bytes)).bind setup.versionOf = head.map (·.versionId) := by
  cases object with
  | none =>
      obtain rfl := Except.ok.inj hparse
      rfl
  | some o =>
      obtain ⟨found, hfound, rfl⟩ := map_eq_ok.mp hparse
      show setup.versionOf o.bytes = some found.versionId
      simp only [Setup.versionOf, parseHead_eq_ok_iff.mp hfound]

/-! ## The whole calls -/

theorem observedHeadVersion_leavesHead : (observedHeadVersion setup).run.Within LeavesHead := by
  unfold observedHeadVersion
  apply Prog.Within.bindExcept (Prog.within_ask trivial)
  intro object
  apply Prog.Within.bindExcept (within_check _)
  exact fun _ => trivial

/-- What a call knows of the head when it is about to swap it. -/
structure CallChecked (setup : Setup) (calls : Nat → PublisherCall) (t : Nat)
    (object : Option VersionedObject) (head : Option ManifestHead) : Prop where
  parses : parseHeadObject setup object = .ok head
  positive : (calls t).versionId ≠ 0
  epoch : minPlausibleEpochMillis ≤ (calls t).updatedAt
  greater : ∀ request, calls t = .publish request →
    ∀ v, head.map (·.versionId) = some v → v < request.manifest.versionId

/-- What a swap that goes through leaves. -/
theorem keeps_swapped (hinv : ChainInv setup calls w) (hw : NoSwap t w) {object : Option VersionedObject}
    {head : Option ManifestHead} (hchecked : CallChecked setup calls t object head)
    (hhead : w.world.headBytes setup = object.map (·.bytes))
    (hafter : w'.world.headBytes setup = some ((calls t).newHead setup))
    (hswaps : w'.swaps = w.swaps ++
      [{ caller := t, replaced := w.world.headBytes setup, written := (calls t).newHead setup }]) :
    (chainContract setup calls).Keeps t w w' ∧
      Answered setup calls t
        { activatedVersionId := (calls t).versionId, previousVersionId := head.map (·.versionId) } w' := by
  have hversion : (w.world.headBytes setup).bind setup.versionOf = head.map (·.versionId) := by
    rw [hhead]
    exact versionOf_seen hchecked.parses
  refine ⟨⟨⟨?_, ?_, ?_⟩, ?_, ?_⟩, ?_⟩
  · rw [hafter, hswaps]
    exact hinv.chained.concat rfl
  · rw [hswaps, List.map_append, List.nodup_append]
    refine ⟨hinv.callers, List.nodup_singleton _, ?_⟩
    intro caller hcaller caller' hcaller'
    obtain ⟨s, hs, rfl⟩ := List.mem_map.mp hcaller
    obtain rfl := List.mem_singleton.mp hcaller'
    exact hw s hs
  · intro s hs
    rw [hswaps] at hs
    rcases List.mem_append.mp hs with hs | hs
    · exact hinv.made s hs
    · obtain rfl := List.mem_singleton.mp hs
      refine ⟨rfl, hchecked.positive, hchecked.epoch, fun request hcall v hv => ?_⟩
      exact hchecked.greater request hcall v (hversion ▸ hv)
  · show w.swaps <+: w'.swaps
    rw [hswaps]
    exact List.prefix_append _ _
  · intro t' hne s hs ht
    rw [hswaps] at hs
    rcases List.mem_append.mp hs with hs | hs
    · exact hs
    · obtain rfl := List.mem_singleton.mp hs
      exact absurd ht.symm hne
  · refine ⟨_, hswaps ▸ List.mem_append_right _ (List.mem_singleton_self _), rfl, rfl, hversion⟩

/-- The end of a call: it swaps the head it has read, or fails and leaves the head alone. -/
theorem safe_activateChain (hlocal : setup.backend = .sqliteFs) (htags : TagsTell setup calls) (what : String)
    (expected : Option UInt64) {object : Option VersionedObject} {head : Option ManifestHead}
    (hchecked : CallChecked setup calls t object head) (hw : Ready t object w) :
    (chainContract setup calls).Safe t
      (activate setup what (calls t).versionId (calls t).updatedAt expected object head).run
      (Outcome (fun result => Answered setup calls t result) fun _ => NoSwap t) w := by
  unfold activate
  refine bindExcept (Contract.Safe.ask Ready.stable hw ?_)
  intro w₁ c hinv hw₁ _
  show (chainContract setup calls).Keeps t w₁ ((chronicle setup).apply t
    (.swapHead object ((calls t).newHead setup)) c w₁).2 ∧ ∀ w₂, (chainContract setup calls).Rely t
      ((chronicle setup).apply t (.swapHead object ((calls t).newHead setup)) c w₁).2 w₂ → _ →
        Outcome _ _ ((chronicle setup).apply t (.swapHead object ((calls t).newHead setup)) c w₁).1 w₂
  rcases apply_swapHead_cases hlocal t object ((calls t).newHead setup) c w₁ with
    ⟨w', happly, htag, hafter, hswaps⟩ | ⟨answer, w', happly, hanswer, hsame, hswaps⟩
  · -- the head is the one that was read and checked
    rw [happly]
    obtain ⟨hkeeps, hanswered⟩ :=
      keeps_swapped hinv hw₁.noSwap hchecked (hinv.head_eq_seen htags hw₁.seen htag) hafter hswaps
    refine ⟨hkeeps, fun w₂ hrely hinv₂ => pureExcept fun w₃ hrely' hinv₃ => ?_⟩
    exact Answered.stable _ _ (hrely.trans hrely') hinv₃ hanswered
  · rw [happly]
    refine ⟨keeps_chain hinv hsame hswaps, fun w₂ hrely hinv₂ => ?_⟩
    have hw₂ : Ready t object w₂ := Ready.stable _ _ hrely hinv₂ (hw₁.congr hswaps)
    cases answer with
    | error e => exact hw₂.noSwap
    | ok swapped =>
        cases swapped with
        | true => exact absurd rfl hanswer
        | false =>
            apply bindAny (safe_leavesHead hlocal observedHeadVersion_leavesHead hw₂)
            · intro observed w₃ _ hw₃
              exact throwExcept fun w₄ hrely₄ hinv₄ => NoSwap.stable w₃ w₄ hrely₄ hinv₄ hw₃.noSwap
            · exact fun _ _ _ h => h.noSwap

/-- A publish call does not go on where the head names as late a version. -/
theorem checkAgainstHead_lt {request : PublishRequest} {head : ManifestHead}
    (h : checkAgainstHead request (some head) = .ok ()) : head.versionId < request.manifest.versionId := by
  have hrest := (check_bind_eq_ok.mp h).2
  cases hexpected : request.expectedCurrentVersion with
  | none =>
      simp only [hexpected] at hrest
      exact UInt64.not_le.mp (rejectIf_eq_ok.mp hrest)
  | some expected =>
      simp only [hexpected] at hrest
      exact UInt64.not_le.mp (rejectIf_eq_ok.mp (check_bind_eq_ok.mp hrest).2)

/-- What `publish` has read and checked before it uploads anything. -/
theorem safe_openPublishChain (hlocal : setup.backend = .sqliteFs) {request : PublishRequest}
    (hcall : calls t = .publish request) (hw : NoSwap t w) :
    (chainContract setup calls).Safe t (openPublish setup request).run
      (Outcome (fun opened w' => Ready t opened.1 w' ∧ CallChecked setup calls t opened.1 opened.2)
        fun _ => NoSwap t) w := by
  have hstable : (chainContract setup calls).Stable t (NoSwap t) := NoSwap.stable
  unfold openPublish
  refine bindCheck (fun _ _ w₁ hrely₁ hinv₁ => ?_) fun e _ w₁ hrely₁ hinv₁ => hstable w w₁ hrely₁ hinv₁ hw
  have hw₁ := hstable w w₁ hrely₁ hinv₁ hw
  refine bindCheck (fun _ htime w₂ hrely₂ hinv₂ => ?_) fun e _ w₂ hrely₂ hinv₂ =>
    hstable w₁ w₂ hrely₂ hinv₂ hw₁
  refine bindExcept ((safe_readHead hlocal (hstable w₁ w₂ hrely₂ hinv₂ hw₁)).mono fun r w₃ _ hr => ?_)
  cases r with
  | error e => exact hr
  | ok object =>
      have hready : (chainContract setup calls).Stable t (Ready t object) := Ready.stable
      refine bindCheck (fun head hparse w₄ hrely₄ hinv₄ => ?_) fun e _ w₄ hrely₄ hinv₄ =>
        (hready w₃ w₄ hrely₄ hinv₄ hr).noSwap
      have hw₄ := hready w₃ w₄ hrely₄ hinv₄ hr
      refine bindCheck (fun _ hcheck w₅ hrely₅ hinv₅ => ?_) fun e _ w₅ hrely₅ hinv₅ =>
        (hready w₄ w₅ hrely₅ hinv₅ hw₄).noSwap
      refine pureExcept fun w₆ hrely₆ hinv₆ => ?_
      refine ⟨hready w₄ w₆ (hrely₅.trans hrely₆) hinv₆ hw₄, hparse, ?_, ?_, ?_⟩
      · rw [hcall]
        exact rejectIf_eq_ok.mp (check_bind_eq_ok.mp hcheck).1
      · rw [hcall]
        exact not_lt.mp (rejectIf_eq_ok.mp htime)
      · intro request' hcall' v hv
        obtain rfl : request = request' := PublisherCall.publish.inj (hcall.symm.trans hcall')
        obtain ⟨found, rfl, rfl⟩ := Option.map_eq_some_iff.mp hv
        exact checkAgainstHead_lt hcheck

theorem safe_publishChain (hlocal : setup.backend = .sqliteFs) (htags : TagsTell setup calls)
    {request : PublishRequest} (hcall : calls t = .publish request) (hw : NoSwap t w) :
    (chainContract setup calls).Safe t (publish setup t request).run
      (Outcome (fun result => Answered setup calls t result) fun _ => NoSwap t) w := by
  unfold publish
  refine bindExcept ((safe_openPublishChain hlocal hcall hw).mono fun r w₁ hinv₁ hr => ?_)
  cases r with
  | error e => exact hr
  | ok opened =>
      obtain ⟨hw₁, hchecked⟩ := hr
      -- what was read stays a head that was written, whatever is uploaded meanwhile
      refine bindAny (safe_leavesHead hlocal (openArtifacts_leavesHead t request.manifest) hw₁)
        (fun keys w₂ _ hw₂ => ?_) fun _ _ _ h => h.noSwap
      refine bindAny (safe_leavesHead hlocal (uploadDirectories_leavesHead hlocal keys) hw₂)
        (fun _ w₃ _ hw₃ => ?_) fun _ _ _ h => h.noSwap
      refine bindAny (safe_leavesHead hlocal (uploadFile_leavesHead hlocal t _) hw₃)
        (fun _ w₄ _ hw₄ => ?_) fun _ _ _ h => h.noSwap
      have hactivate :=
        safe_activateChain hlocal htags "publish" request.expectedCurrentVersion hchecked hw₄
      rwa [hcall] at hactivate

theorem safe_rollbackChain (hlocal : setup.backend = .sqliteFs) (htags : TagsTell setup calls)
    {request : RollbackRequest} (hcall : calls t = .rollback request) (hw : NoSwap t w) :
    (chainContract setup calls).Safe t (rollback setup request).run
      (Outcome (fun result => Answered setup calls t result) fun _ => NoSwap t) w := by
  have hstable : (chainContract setup calls).Stable t (NoSwap t) := NoSwap.stable
  unfold rollback
  refine bindCheck (fun _ hversion w₁ hrely₁ hinv₁ => ?_) fun _ _ w₁ hrely₁ hinv₁ =>
    hstable w w₁ hrely₁ hinv₁ hw
  have hw₁ := hstable w w₁ hrely₁ hinv₁ hw
  refine bindCheck (fun _ htime w₂ hrely₂ hinv₂ => ?_) fun _ _ w₂ hrely₂ hinv₂ =>
    hstable w₁ w₂ hrely₂ hinv₂ hw₁
  refine bindExcept ((safe_readHead hlocal (hstable w₁ w₂ hrely₂ hinv₂ hw₁)).mono fun r w₃ _ hr => ?_)
  cases r with
  | error e => exact hr
  | ok object =>
      have hready : (chainContract setup calls).Stable t (Ready t object) := Ready.stable
      refine bindCheck (fun head hparse w₄ hrely₄ hinv₄ => ?_) fun _ _ w₄ hrely₄ hinv₄ =>
        (hready w₃ w₄ hrely₄ hinv₄ hr).noSwap
      have hw₄ := hready w₃ w₄ hrely₄ hinv₄ hr
      refine bindCheck (fun _ _ w₅ hrely₅ hinv₅ => ?_) fun _ _ w₅ hrely₅ hinv₅ =>
        (hready w₄ w₅ hrely₅ hinv₅ hw₄).noSwap
      have hw₅ := hready w₄ w₅ hrely₅ hinv₅ hw₄
      have hchecked : CallChecked setup calls t object head := by
        refine ⟨hparse, ?_, ?_, fun request' hcall' => by cases hcall.symm.trans hcall'⟩
        · rw [hcall]
          exact rejectIf_eq_ok.mp hversion
        · rw [hcall]
          exact not_lt.mp (rejectIf_eq_ok.mp htime)
      have hread : LeavesHead (.readObject (versionManifestKey request.targetVersionId)) := trivial
      refine bindAny (safe_leavesHead hlocal (Prog.within_ask hread) hw₅) (fun found w₆ _ hw₆ => ?_)
        fun _ _ _ h => h.noSwap
      cases found with
      | none => exact throwExcept fun w₇ hrely₇ hinv₇ => (hready w₆ w₇ hrely₇ hinv₇ hw₆).noSwap
      | some stored =>
          refine bindCheck (fun _ _ w₇ hrely₇ hinv₇ => ?_) fun _ _ w₇ hrely₇ hinv₇ =>
            (hready w₆ w₇ hrely₇ hinv₇ hw₆).noSwap
          have hactivate := safe_activateChain hlocal htags "rollback" request.expectedCurrentVersion
            hchecked (hready w₆ w₇ hrely₇ hinv₇ hw₆)
          rwa [hcall] at hactivate

/-! ## Every run -/

/-- Calls `calls t`, none of which has started, with an empty log. -/
def chroniclers (setup : Setup) (roots : Nat → String → Option RootItem) (calls : Nat → PublisherCall) :
    Config nodeSignature Chronicle Nat (Except PublishError PublishResult) where
  world := { world := .init roots, swaps := [] }
  threads t := (calls t).program setup t

/-- The swaps that went through are a history of the head: each call makes at most one, a call that
succeeds makes one and is answered with the versions it wrote and replaced, a call that fails makes
none. -/
structure HeadHistory (setup : Setup) (calls : Nat → PublisherCall)
    (c : Config nodeSignature Chronicle Nat (Except PublishError PublishResult)) : Prop where
  chained : Chained none c.world.swaps (c.world.world.headBytes setup)
  once : (c.world.swaps.map (·.caller)).Nodup
  answered : ∀ t result, c.threads t = .done (.ok result) → ∃ s ∈ c.world.swaps, s.caller = t ∧
    setup.versionOf s.written = some result.activatedVersionId ∧
      s.replaced.bind setup.versionOf = result.previousVersionId
  failed : ∀ t error, c.threads t = .done (.error error) → ∀ s ∈ c.world.swaps, s.caller ≠ t
  /-- two swaps under one tag: the head was set back to what the first one replaced -/
  restored : ∀ before s between s' after, c.world.swaps = before ++ s :: (between ++ s' :: after) →
    s.replaced.map etagOf = s'.replaced.map etagOf →
      ∃ last ∈ (s :: between).getLast?, s.replaced = some last.written

theorem safe_chroniclers (hlocal : setup.backend = .sqliteFs) (htags : TagsTell setup calls)
    (roots : Nat → String → Option RootItem) (t : Nat) :
    (chainContract setup calls).Safe t ((chroniclers setup roots calls).threads t)
      (Outcome (fun result => Answered setup calls t result) fun _ => NoSwap t)
      (chroniclers setup roots calls).world := by
  have hnone : NoSwap t (chroniclers setup roots calls).world := fun s hs => absurd hs List.not_mem_nil
  show (chainContract setup calls).Safe t ((calls t).program setup t) _ _
  cases hcall : calls t with
  | publish request => exact safe_publishChain hlocal htags hcall hnone
  | rollback request => exact safe_rollbackChain hlocal htags hcall hnone

theorem Made.versionOf_written (hhead : ManifestHead.RoundTrips setup.head) {s : Swap Nat ByteArray}
    (h : Made setup calls s) : setup.versionOf s.written = some (calls s.caller).versionId := by
  rw [h.written]
  show setup.versionOf (setup.head.toVec _) = _
  simp only [Setup.versionOf, ManifestHead.fromJson_new hhead h.positive h.epoch]
  rfl

/-- A swap of a publish call writes a later version than it replaces. -/
theorem Made.increases (hhead : ManifestHead.RoundTrips setup.head) {s : Swap Nat ByteArray}
    (h : Made setup calls s) {request : PublishRequest} (hcall : calls s.caller = .publish request)
    {old : ByteArray} (hold : s.replaced = some old) :
    ((setup.versionOf old).elim 0 UInt64.toNat) < (setup.versionOf s.written).elim 0 UInt64.toNat := by
  rw [h.versionOf_written hhead, Option.elim_some]
  have hpositive : (calls s.caller).versionId ≠ 0 := h.positive
  cases hversion : setup.versionOf old with
  | none =>
      show 0 < _
      exact Nat.pos_of_ne_zero fun hzero => hpositive (UInt64.toNat_inj.mp hzero)
  | some v =>
      have hlt := h.greater request hcall v (by rw [hold]; exact hversion)
      rw [hcall]
      exact UInt64.lt_iff_toNat_lt.mp hlt

/-- Two swaps under one tag replace one head, which the last swap between them has written. -/
theorem ChainInv.restored (hinv : ChainInv setup calls w) (htags : TagsTell setup calls)
    {before between after : List (Swap Nat ByteArray)} {s s' : Swap Nat ByteArray}
    (hswaps : w.swaps = before ++ s :: (between ++ s' :: after))
    (htag : s.replaced.map etagOf = s'.replaced.map etagOf) :
    ∃ last ∈ (s :: between).getLast?, s.replaced = some last.written := by
  have hmem : ∀ s₁ ∈ before ++ s :: between, s₁ ∈ w.swaps := by
    intro s₁ hs₁
    rw [hswaps, ← List.cons_append, ← List.append_assoc]
    exact List.mem_append_left _ hs₁
  have hchained := hinv.chained
  rw [hswaps] at hchained
  refine hchained.restored etagOf (fun s₁ hs₁ s₂ hs₂ => ?_) htag
  exact hinv.told htags s₁ (hmem s₁ hs₁) s₂ (hmem s₂ hs₂)

/-- The swap behind an answer, by the versions in the heads. -/
theorem Answered.versions (hhead : ManifestHead.RoundTrips setup.head) (hinv : ChainInv setup calls w)
    {result : PublishResult} (h : Answered setup calls t result w) :
    ∃ s ∈ w.swaps, s.caller = t ∧ setup.versionOf s.written = some result.activatedVersionId ∧
      s.replaced.bind setup.versionOf = result.previousVersionId := by
  obtain ⟨s, hs, rfl, hactivated, hprevious⟩ := h
  exact ⟨s, hs, rfl, by rw [(hinv.made s hs).versionOf_written hhead, hactivated], hprevious⟩

/-- Where all calls publish, each swap writes a later version than all before it. -/
theorem ChainInv.increases (hinv : ChainInv setup calls w) (hhead : ManifestHead.RoundTrips setup.head)
    (hall : ∀ t, ∃ request, calls t = .publish request) :
    (w.swaps.map fun s => (setup.versionOf s.written).elim 0 UInt64.toNat).Pairwise (· < ·) := by
  apply hinv.chained.increases fun bytes => (setup.versionOf bytes).elim 0 UInt64.toNat
  intro s hs old hold
  obtain ⟨request, hcall⟩ := hall s.caller
  exact (hinv.made s hs).increases hhead hcall hold

/-- Before the first operation. -/
theorem chainInv_init (hlocal : setup.backend = .sqliteFs) (roots : Nat → String → Option RootItem) :
    ChainInv setup calls { world := .init roots, swaps := [] } := by
  refine ⟨?_, List.nodup_nil, fun s hs => absurd hs List.not_mem_nil⟩
  show World.headBytes setup (.init roots) = none
  simp only [World.headBytes, hlocal]
  rfl

/-- After every run of publish and rollback calls on the local store the swaps of the head are its
history; and where all calls publish, the active version only ever increases. -/
theorem head_chain (hlocal : setup.backend = .sqliteFs) (hhead : ManifestHead.RoundTrips setup.head)
    (htags : TagsTell setup calls) (roots : Nat → String → Option RootItem)
    (turns : List (Nat × Choice)) :
    HeadHistory setup calls (run (chronicle setup).step (chroniclers setup roots calls) turns) ∧
      ((∀ t, ∃ request, calls t = .publish request) →
        ((run (chronicle setup).step (chroniclers setup roots calls) turns).world.swaps.map fun s =>
          (setup.versionOf s.written).elim 0 UInt64.toNat).Pairwise (· < ·)) := by
  have hstart : ChainInv setup calls (chroniclers setup roots calls).world := chainInv_init hlocal roots
  obtain ⟨hinv, -, hsafe⟩ := Contract.run_safe (K := chainContract setup calls) hstart
    (safe_chroniclers hlocal htags roots) turns (Contract.allowed_of_forall (fun _ _ _ _ => trivial) _ turns)
  refine ⟨⟨hinv.chained, hinv.callers, fun t result hdone => ?_, fun t error hdone => ?_,
    fun before s between s' after hswaps htag => hinv.restored htags hswaps htag⟩, hinv.increases hhead⟩
  · have hanswered := Contract.post_of_done (hsafe t) hdone hinv
    exact Answered.versions hhead hinv hanswered
  · have hfailed := Contract.post_of_done (hsafe t) hdone hinv
    exact hfailed

/-! ## A head that is set back -/

/-- A local deployment. -/
noncomputable def localSetup : Setup :=
  { sampleSetup [builtManifest 1, builtManifest 2, builtManifest 3] with backend := .sqliteFs }

/-- Three versions are published, and the second is rolled back. -/
def setBack : Nat → PublisherCall
  | 0 => .publish (sampleRequest (builtManifest 1) none)
  | 1 => .publish (sampleRequest (builtManifest 2) (some 1))
  | 2 => .rollback {
      targetVersionId := 1
      expectedCurrentVersion := some 2
      updatedAt := 1784000000000 }
  | _ => .publish (sampleRequest (builtManifest 3) none)

/-- The last call has read the head of version 1 before version 2 is published, and goes on after the
rollback has written that head again. -/
def setBackTurns : List (Nat × Choice) :=
  List.replicate 19 (0, .calm) ++ List.replicate 8 (3, .calm) ++ List.replicate 19 (1, .calm) ++
    List.replicate 3 (2, .calm) ++ List.replicate 11 (3, .calm)

/-- The head of one of the versions. -/
def versionHead (v : UInt64) : ByteArray :=
  (ManifestHead.jsonPretty (.new v 1784000000000)).toUTF8

/-- Three heads, three tags. -/
theorem tagsTell_setBack : TagsTell localSetup setBack := by
  have hheads : ∀ t, ∃ v ∈ [1, 2, 3], (setBack t).newHead localSetup = versionHead v := by
    intro t
    match t with
    | 0 => exact ⟨1, by decide, rfl⟩
    | 1 => exact ⟨2, by decide, rfl⟩
    | 2 => exact ⟨1, by decide, rfl⟩
    | _ + 3 => exact ⟨3, by decide, rfl⟩
  have htags : (([1, 2, 3] : List UInt64).map fun v => etagOf (versionHead v)).Nodup := by
    decide +kernel
  intro t t' htag
  obtain ⟨v, hv, hhead⟩ := hheads t
  obtain ⟨v', hv', hhead'⟩ := hheads t'
  rw [hhead, hhead'] at htag ⊢
  rw [List.inj_on_of_nodup_map htags hv hv' htag]

theorem swaps_setBack :
    (run (chronicle localSetup).step (chroniclers localSetup (fun _ => builtRoot [1, 2, 3]) setBack)
      setBackTurns).world.swaps.map (fun s => (s.caller, localSetup.versionOf s.written)) =
      [(0, some 1), (1, some 2), (2, some 1), (3, some 3)] := by
  unfold localSetup
  rw [sampleSetup_lookingUp _ [(1, 1784000000000), (2, 1784000000000), (3, 1784000000000)]]
  decide +kernel

/-- The first head is replaced twice, and it was set back in between. -/
theorem head_chain_setBack :
    let c := run (chronicle localSetup).step (chroniclers localSetup (fun _ => builtRoot [1, 2, 3]) setBack)
      setBackTurns
    c.world.swaps.map (fun s => (s.caller, localSetup.versionOf s.written)) =
        [(0, some 1), (1, some 2), (2, some 1), (3, some 3)] ∧
      HeadHistory localSetup setBack c ∧
      ((∀ t, ∃ request, setBack t = .publish request) → (c.world.swaps.map fun s =>
        (localSetup.versionOf s.written).elim 0 UInt64.toNat).Pairwise (· < ·)) := by
  have hlocal : localSetup.backend = .sqliteFs := rfl
  have hhead : ManifestHead.RoundTrips localSetup.head := ManifestHead.serdeCodec_roundTrips
  exact ⟨swaps_setBack, head_chain hlocal hhead tagsTell_setBack (fun _ => builtRoot [1, 2, 3]) setBackTurns⟩

end LTSearch
