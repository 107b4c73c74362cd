/-
# LTSearch.Storage.Paths -- the keys of the published index

The head, the manifest of a version and the two shard directories that the builder writes for it.
What the rest of the development needs to know of these texts is that a key tells its version and
its kind (`keyPart`), so that two versions, or a version and the head, never share a key.
-/
import LTSearch.Models.Index

namespace LTSearch

def indexHeadKey : String := "index/_head"

def staticHeadKey : String := "static/_head"

/-- `version_manifest_key`. -/
def versionManifestKey (versionId : UInt64) : String :=
  "index/versions/" ++ toString versionId ++ "/manifest.json"

/-- Where the builder puts the LanceDB shard of a version. -/
def lanceShardKey (versionId : UInt64) : String := "lance/v" ++ toString versionId ++ "/shard_0"

/-- Where it puts the keyword index. -/
def tantivyShardKey (versionId : UInt64) : String := "index/v" ++ toString versionId ++ "/shard_0"

/-- A path below a directory key. -/
def childKey (key name : String) : String := key ++ "/" ++ name

/-! ## Keys tell their version -/

/-- The three things that are stored for a version. -/
inductive Part where
  | lance
  | tantivy
  | manifest
  deriving DecidableEq

/-- The fixed text a key of this part starts with. -/
def Part.root : Part → List Char
  | .lance => ['l', 'a', 'n', 'c', 'e', '/', 'v']
  | .tantivy => ['i', 'n', 'd', 'e', 'x', '/', 'v']
  | .manifest => ['i', 'n', 'd', 'e', 'x', '/', 'v', 'e', 'r', 's', 'i', 'o', 'n', 's', '/']

/-- What a key is a part of: the kind, and the digits of the version. -/
def keyPart (key : List Char) : Option (Part × List Char) :=
  match stripPrefix Part.lance.root key with
  | some rest => some (.lance, rest.takeWhile (· ≠ '/'))
  | none =>
    match stripPrefix Part.manifest.root key with
    | some rest => some (.manifest, rest.takeWhile (· ≠ '/'))
    | none =>
      match stripPrefix Part.tantivy.root key with
      | some rest => some (.tantivy, rest.takeWhile (· ≠ '/'))
      | none => none

/-- The decimal digits of a version. -/
def digits (versionId : UInt64) : List Char := (toString versionId).toList

theorem digits_eq (versionId : UInt64) : digits versionId = Nat.toDigits 10 versionId.toNat := by
  change (Nat.repr versionId.toNat).toList = _
  rw [Nat.repr, String.toList_ofList]

theorem digits_injective {v v' : UInt64} (h : digits v = digits v') : v = v' := by
  rw [digits_eq, digits_eq] at h
  apply UInt64.toNat.inj
  calc v.toNat = Nat.ofDigitChars 10 (Nat.toDigits 10 v.toNat) 0 :=
        (Nat.ofDigitChars_ten_toDigits).symm
    _ = Nat.ofDigitChars 10 (Nat.toDigits 10 v'.toNat) 0 := by rw [h]
    _ = v'.toNat := Nat.ofDigitChars_ten_toDigits

theorem isDigit_of_mem_digits {v : UInt64} {c : Char} (h : c ∈ digits v) : c.isDigit = true := by
  rw [digits_eq] at h
  exact Nat.isDigit_of_mem_toDigits (by decide) (by decide) h

/-- The digits of a version end before a character that is no digit. -/
theorem takeWhile_digits {stop : Char} (hstop : stop.isDigit = false) (v : UInt64)
    (rest : List Char) : (digits v ++ stop :: rest).takeWhile (· ≠ stop) = digits v := by
  rw [List.takeWhile_append_of_pos]
  · simp
  · intro c hc
    have hdigit := isDigit_of_mem_digits hc
    simp only [ne_eq, decide_not, Bool.not_eq_eq_eq_not, Bool.not_true, decide_eq_false_iff_not]
    rintro rfl
    rw [hdigit] at hstop
    cases hstop

theorem digits_append_inj {stop : Char} (hstop : stop.isDigit = false) {v v' : UInt64}
    {rest rest' : List Char} (h : digits v ++ stop :: rest = digits v' ++ stop :: rest') :
    v = v' ∧ rest = rest' := by
  have htake := congrArg (List.takeWhile (· ≠ stop)) h
  rw [takeWhile_digits hstop, takeWhile_digits hstop] at htake
  obtain rfl := digits_injective htake
  exact ⟨rfl, (List.cons.inj (List.append_cancel_left h)).2⟩

theorem stripPrefix_append (p s : List Char) : stripPrefix p (p ++ s) = some s := by
  induction p with
  | nil => rfl
  | cons c cs ih => simp [stripPrefix, ih]

/-- The kind and the version of a key are read off its start. -/
theorem keyPart_of_root (part : Part) (v : UInt64) (rest : List Char) :
    keyPart (part.root ++ (digits v ++ '/' :: rest)) = some (part, digits v) := by
  have hslash : '/'.isDigit = false := by decide
  cases part with
  | lance =>
      unfold keyPart
      simp only [stripPrefix_append, takeWhile_digits hslash]
  | manifest =>
      unfold keyPart
      have hlance : stripPrefix Part.lance.root
          (Part.manifest.root ++ (digits v ++ '/' :: rest)) = none := rfl
      simp only [hlance, stripPrefix_append, takeWhile_digits hslash]
  | tantivy =>
      have hlance : stripPrefix Part.lance.root
          (Part.tantivy.root ++ (digits v ++ '/' :: rest)) = none := rfl
      -- a version starts with a digit, so it is not the start of `versions`
      have hmanifest : stripPrefix Part.manifest.root
          (Part.tantivy.root ++ (digits v ++ '/' :: rest)) = none := by
        cases hd : digits v with
        | nil => simp [stripPrefix, Part.root]
        | cons c cs =>
            have hc : c.isDigit = true := isDigit_of_mem_digits (v := v) (by simp [hd])
            have hne : 'e' ≠ c := by
              rintro rfl
              exact absurd hc (by decide)
            simp [stripPrefix, Part.root, hne]
      unfold keyPart
      simp only [hlance, hmanifest, stripPrefix_append, takeWhile_digits hslash]

/-- A key that belongs to a part of a version. -/
def KeyOf (part : Part) (v : UInt64) (key : String) : Prop :=
  keyPart key.toList = some (part, digits v)

theorem KeyOf.unique {part part' : Part} {v v' : UInt64} {key : String} (h : KeyOf part v key)
    (h' : KeyOf part' v' key) : part = part' ∧ v = v' := by
  unfold KeyOf at h h'
  rw [h] at h'
  obtain ⟨rfl, hd⟩ := Prod.mk.inj (Option.some.inj h')
  exact ⟨rfl, digits_injective hd⟩

theorem not_keyOf_head (part : Part) (v : UInt64) : ¬KeyOf part v indexHeadKey := by
  have h : keyPart indexHeadKey.toList = none := by decide +kernel
  unfold KeyOf
  rw [h]
  exact nofun

theorem keyOf_of_toList {part : Part} {v : UInt64} {key : String} (rest : List Char)
    (h : key.toList = part.root ++ (digits v ++ '/' :: rest)) : KeyOf part v key := by
  rw [KeyOf, h, keyPart_of_root]

theorem keyOf_manifest (v : UInt64) : KeyOf .manifest v (versionManifestKey v) := by
  apply keyOf_of_toList "manifest.json".toList
  unfold versionManifestKey digits
  simp only [String.toList_append, List.append_assoc]
  rfl

theorem keyOf_lance (v : UInt64) : KeyOf .lance v (lanceShardKey v) := by
  apply keyOf_of_toList "shard_0".toList
  unfold lanceShardKey digits
  simp only [String.toList_append, List.append_assoc]
  rfl

theorem keyOf_tantivy (v : UInt64) : KeyOf .tantivy v (tantivyShardKey v) := by
  apply keyOf_of_toList "shard_0".toList
  unfold tantivyShardKey digits
  simp only [String.toList_append, List.append_assoc]
  rfl

/-- Whatever is stored below a directory of a version belongs to that version. -/
theorem KeyOf.child {part : Part} {v : UInt64} {key : String}
    (h : ∃ rest, key.toList = part.root ++ (digits v ++ '/' :: rest)) (name : String) :
    KeyOf part v (childKey key name) := by
  obtain ⟨rest, hkey⟩ := h
  apply keyOf_of_toList (rest ++ '/' :: name.toList)
  unfold childKey
  simp only [String.toList_append, hkey, List.append_assoc, List.cons_append]
  rfl

theorem keyOf_lance_child (v : UInt64) (name : String) :
    KeyOf .lance v (childKey (lanceShardKey v) name) := by
  refine KeyOf.child ⟨"shard_0".toList, ?_⟩ name
  unfold lanceShardKey digits
  simp only [String.toList_append, List.append_assoc]
  rfl

theorem keyOf_tantivy_child (v : UInt64) (name : String) :
    KeyOf .tantivy v (childKey (tantivyShardKey v) name) := by
  refine KeyOf.child ⟨"shard_0".toList, ?_⟩ name
  unfold tantivyShardKey digits
  simp only [String.toList_append, List.append_assoc]
  rfl

theorem KeyOf.ne {part part' : Part} {v v' : UInt64} {key key' : String} (h : KeyOf part v key)
    (h' : KeyOf part' v' key') (hne : part ≠ part' ∨ v ≠ v') : key ≠ key' := by
  rintro rfl
  obtain ⟨hpart, hv⟩ := h.unique h'
  exact hne.elim (fun hp => hp hpart) (fun hv' => hv' hv)

theorem KeyOf.ne_head {part : Part} {v : UInt64} {key : String} (h : KeyOf part v key) :
    key ≠ indexHeadKey := by
  rintro rfl
  exact not_keyOf_head part v h

theorem versionManifestKey_inj {v v' : UInt64} :
    versionManifestKey v = versionManifestKey v' ↔ v = v' := by
  constructor
  · intro h
    exact ((keyOf_manifest v).unique (h ▸ keyOf_manifest v')).2
  · exact congrArg _

theorem versionManifestKey_ne_head (v : UInt64) : versionManifestKey v ≠ indexHeadKey :=
  (keyOf_manifest v).ne_head

end LTSearch
