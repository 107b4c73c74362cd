/-
# LTSearch.Node.Bucket -- the bucket that static releases are activated in

What a `static_activate` run touches: its own release directory, which nobody changes, and the objects
of one bucket, through conditional puts and reads.  Objects are never deleted, and only the pointer
is ever replaced.  `headWriter` is a ghost: which run set the pointer, if any did.
-/
import LTSearch.Foundation.Interleaving
import LTSearch.Indexing.StaticVerify
import LTSearch.Node.World
import LTSearch.Storage.StaticHead

namespace LTSearch

open LTSearch.Foundation

/-- A `VersionedObject`. -/
structure StoredObject where
  bytes : Bytes
  etag : String
  deriving DecidableEq

structure Bucket where
  objects : String → Option Bytes
  headWriter : Option Nat

/-- What the runs share, and the code outside the repository that they use. -/
structure BucketSetup where
  sha : Sha256
  manifest : JsonCodec ReleaseManifest
  head : StaticHeadCodec
  /-- the tag S3 gives to an object -/
  etag : Bytes → String
  /-- the release directory of a run, and its path -/
  dirOf : Nat → ReleaseDir
  pathOf : Nat → String

inductive BucketOp where
  /-- `fs::read` of a file of the release directory -/
  | readLocal (name : String)
  /-- `put_object` with `If-None-Match: *` -/
  | put (key : String) (bytes : Bytes)
  /-- `get_object` -/
  | get (key : String)
  /-- `put_object` of the pointer, with `If-Match` or `If-None-Match: *` -/
  | swapHead (expectedEtag : Option String) (newValue : Bytes)
  | currentTimeMillis

/-- The answers.  A text in an error is what the system said. -/
abbrev BucketOp.Ans : BucketOp → Type
  | .readLocal _ => Except String Bytes
  | .put _ _ => PutResult
  | .get _ => Except PublishError (Option StoredObject)
  | .swapHead _ _ => Except PublishError Bool
  | .currentTimeMillis => Int

abbrev bucketSignature : Signature where
  Op := BucketOp
  Ans := BucketOp.Ans

/-- A program of a run. -/
abbrev BucketM := Prog bucketSignature

/-- What is decided outside the code at one step. -/
structure BucketChoice where
  /-- the operation fails, with this text -/
  fails : Bool
  detail : String
  /-- ... although it took effect -/
  applied : Bool
  /-- S3 refuses a conditional write that it could have made (a conflicting request in progress) -/
  refused : Bool
  clock : Int

/-- The choice of a step that nothing disturbs. -/
def BucketChoice.undisturbed (clock : Int) : BucketChoice where
  fails := false
  detail := ""
  applied := false
  refused := false
  clock

namespace Bucket

/-- An object is stored. -/
def store (bucket : Bucket) (key : String) (bytes : Bytes) : Bucket :=
  { bucket with objects := Function.update bucket.objects key (some bytes) }

/-- The pointer is set by run `t`. -/
def setHead (bucket : Bucket) (t : Nat) (bytes : Bytes) : Bucket :=
  { bucket.store staticHeadKey bytes with headWriter := some t }

@[simp]
theorem objects_store_self (bucket : Bucket) (key : String) (bytes : Bytes) :
    (bucket.store key bytes).objects key = some bytes :=
  Function.update_self _ _ _

theorem objects_store_of_ne (bucket : Bucket) {key key' : String} (bytes : Bytes) (h : key' ≠ key) :
    (bucket.store key bytes).objects key' = bucket.objects key' :=
  Function.update_of_ne h _ _

@[simp]
theorem objects_setHead (bucket : Bucket) (t : Nat) (bytes : Bytes) :
    (bucket.setHead t bytes).objects staticHeadKey = some bytes :=
  objects_store_self bucket staticHeadKey bytes

/-- The conditional put. -/
def putAt (key : String) (bytes : Bytes) (c : BucketChoice) (bucket : Bucket) :
    PutResult × Bucket :=
  if c.refused then (.preconditionFailed, bucket)
  else
    match bucket.objects key with
    | some _ => (if c.fails then .failed c.detail else .preconditionFailed, bucket)
    | none =>
        if c.fails then (.failed c.detail, if c.applied then bucket.store key bytes else bucket)
        else (.stored, bucket.store key bytes)

/-- The conditional put of the pointer. -/
def swapHeadAt (setup : BucketSetup) (t : Nat) (expectedEtag : Option String) (newValue : Bytes)
    (c : BucketChoice) (bucket : Bucket) : Except PublishError Bool × Bucket :=
  if c.refused ∨ (bucket.objects staticHeadKey).map setup.etag ≠ expectedEtag then
    (if c.fails then .error (.operation ("failed to update " ++ staticHeadKey ++ ": " ++ c.detail))
      else .ok false, bucket)
  else if c.fails then
    (.error (.operation ("failed to update " ++ staticHeadKey ++ ": " ++ c.detail)),
      if c.applied then bucket.setHead t newValue else bucket)
  else (.ok true, bucket.setHead t newValue)

/-- What each operation does. -/
def perform (setup : BucketSetup) (t : Nat) (op : BucketOp) (c : BucketChoice) (bucket : Bucket) :
    op.Ans × Bucket :=
  match op with
  | .readLocal name =>
      (if c.fails then .error c.detail
        else TurboQuantConfig.okOr "No such file or directory (os error 2)" (setup.dirOf t name),
        bucket)
  | .put key bytes => putAt key bytes c bucket
  | .get key =>
      (if c.fails then .error (.operation ("failed to load object " ++ key ++ ": " ++ c.detail))
        else .ok ((bucket.objects key).map fun bytes => { bytes, etag := setup.etag bytes }), bucket)
  | .swapHead expectedEtag newValue => swapHeadAt setup t expectedEtag newValue c bucket
  | .currentTimeMillis => (c.clock, bucket)

/-- The machine of the bucket. -/
def machine (setup : BucketSetup) : Machine bucketSignature Bucket BucketChoice Nat where
  apply := perform setup

/-! ## What one operation does to the objects -/

/-- Nothing is lost but the old pointer. -/
def Grows (b b' : Bucket) : Prop :=
  ∀ key, key ≠ staticHeadKey → ∀ bytes, b.objects key = some bytes → b'.objects key = some bytes

theorem Grows.refl (b : Bucket) : b.Grows b := fun _ _ _ h => h

theorem Grows.trans {b₁ b₂ b₃ : Bucket} (h : b₁.Grows b₂) (h' : b₂.Grows b₃) : b₁.Grows b₃ :=
  fun key hkey bytes hbytes => h' key hkey bytes (h key hkey bytes hbytes)

/-- A conditional put leaves everything as it was, or stores an object that was not there. -/
theorem putAt_cases (key : String) (bytes : Bytes) (c : BucketChoice) (b : Bucket) :
    (∃ result, putAt key bytes c b = (result, b) ∧ result ≠ .stored) ∨
      b.objects key = none ∧ ∃ result, putAt key bytes c b = (result, b.store key bytes) := by
  unfold putAt
  split
  · exact .inl ⟨_, rfl, nofun⟩
  split
  · refine .inl ⟨_, rfl, ?_⟩
    split <;> exact nofun
  · rename_i habsent
    split
    · split
      · exact .inr ⟨habsent, _, rfl⟩
      · exact .inl ⟨_, rfl, nofun⟩
    · exact .inr ⟨habsent, _, rfl⟩

/-- A swap leaves everything as it was, or sets the pointer. -/
theorem swapHeadAt_cases (setup : BucketSetup) (t : Nat) (expectedEtag : Option String)
    (newValue : Bytes) (c : BucketChoice) (b : Bucket) :
    (∃ result, swapHeadAt setup t expectedEtag newValue c b = (result, b) ∧ result ≠ .ok true) ∨
      ∃ result, swapHeadAt setup t expectedEtag newValue c b = (result, b.setHead t newValue) := by
  unfold swapHeadAt
  split
  · refine .inl ⟨_, rfl, ?_⟩
    split <;> exact nofun
  split
  · split
    · exact .inr ⟨_, rfl⟩
    · exact .inl ⟨_, rfl, nofun⟩
  · exact .inr ⟨_, rfl⟩

theorem grows_store {b : Bucket} {key : String} {bytes : Bytes} (h : b.objects key = none) :
    b.Grows (b.store key bytes) := by
  intro key' _ bytes' hbytes
  have hne : key' ≠ key := by
    rintro rfl
    rw [h] at hbytes
    cases hbytes
  exact (objects_store_of_ne b bytes hne).trans hbytes

theorem grows_setHead (b : Bucket) (t : Nat) (bytes : Bytes) : b.Grows (b.setHead t bytes) :=
  fun _ hkey _ hbytes => (objects_store_of_ne b bytes hkey).trans hbytes

end Bucket

end LTSearch
