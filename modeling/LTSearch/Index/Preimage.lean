/-
# LTSearch.Index.Preimage -- the bytes behind a release id, a content digest and a fingerprint

Each of the three digests is taken of a concatenation of fields.  Here the concatenations are read
back field by field: what is hashed determines the data it stands for, the outputs and asset files as
sequences in name order.  A Rust string is shorter than 2^64 bytes, which is what its length prefix
can hold.
-/
import LTSearch.Foundation.PrefixCode
import LTSearch.Index.Record
import LTSearch.Index.ReleaseManifest

namespace LTSearch

open LTSearch.Foundation
open TurboQuantConfig (AssetFile)

/-! ## Texts -/

theorem utf8_inj {s t : String} (h : utf8 s = utf8 t) : s = t := by
  have hparse := fromUtf8_utf8 s
  rw [h, fromUtf8_utf8] at hparse
  exact (Option.some.inj hparse).symm

theorem utf8_eq_flatMap (s : String) : utf8 s = s.toList.flatMap String.utf8EncodeChar := by
  have hencode : s.toByteArray = s.toList.utf8Encode := String.utf8Encode_toList.symm
  show s.toByteArray.data.toList = _
  rw [hencode, List.utf8Encode, List.data_toByteArray]

/-- A character says where its bytes end. -/
theorem selfDelimiting_utf8EncodeChar : SelfDelimiting Set.univ String.utf8EncodeChar := by
  intro c _ c' _ rest rest' heq
  have hdecode : ∀ (c : Char) (rest : Bytes),
      ((String.utf8EncodeChar c ++ rest).toByteArray.utf8DecodeChar? 0) = some c := by
    intro c rest
    rw [List.toByteArray_append', ← List.utf8Encode_singleton]
    exact List.utf8DecodeChar?_utf8Encode_singleton_append
  have hc := hdecode c rest
  rw [heq, hdecode c' rest'] at hc
  obtain rfl := Option.some.inj hc
  exact ⟨rfl, List.append_cancel_left heq⟩

/-! ## Hexadecimal -/

theorem hexByte_inj {b b' : UInt8} (h : hexByte b = hexByte b') : b = b' := by
  have hdigits : ∀ m n : Fin 16, Nat.digitChar m.val = Nat.digitChar n.val → m = n := by decide
  have hb := b.toNat_lt
  have hb' := b'.toNat_lt
  obtain ⟨hhigh, hlow, -⟩ := List.cons_eq_cons.mp h |>.imp_right List.cons_eq_cons.mp
  have hdiv := hdigits ⟨b.toNat / 16, by omega⟩ ⟨b'.toNat / 16, by omega⟩ hhigh
  have hmod := hdigits ⟨b.toNat % 16, by omega⟩ ⟨b'.toNat % 16, by omega⟩ hlow
  rw [Fin.mk.injEq] at hdiv hmod
  exact UInt8.toNat_inj.mp (by omega)

theorem hexEncode_inj {bytes bytes' : Bytes} (h : hexEncode bytes = hexEncode bytes') :
    bytes = bytes' := by
  have hlist := congrArg String.toList h
  rw [hexEncode, hexEncode, String.toList_ofList, String.toList_ofList] at hlist
  clear h
  induction bytes generalizing bytes' with
  | nil =>
      cases bytes' with
      | nil => rfl
      | cons b' rest' => cases hlist
  | cons b rest ih =>
      cases bytes' with
      | nil => cases hlist
      | cons b' rest' =>
          obtain ⟨hbyte, hrest⟩ := List.append_inj hlist rfl
          rw [hexByte_inj hbyte, ih hrest]

/-- A text that its length prefix can describe. -/
def FitsPrefix (s : String) : Prop := (utf8 s).length < 2 ^ 64

theorem selfDelimiting_text : SelfDelimiting {s | FitsPrefix s} fun s => lenPrefixed (utf8 s) :=
  selfDelimiting_lenPrefixed.comap (fun _ h => h) fun _ _ _ _ h => utf8_inj h

/-- Texts of one number of characters, whatever their bytes. -/
theorem selfDelimiting_ofLength (n : Nat) :
    SelfDelimiting {s : String | s.toList.length = n} utf8 := by
  have hchars : SelfDelimiting {s : String | s.toList.length = n}
      fun s => s.toList.flatMap String.utf8EncodeChar :=
    selfDelimiting_utf8EncodeChar.flatMap_of_length.comap (fun _ h => ⟨h, fun _ _ => trivial⟩)
      fun _ _ _ _ h => String.toList_injective h
  exact (funext utf8_eq_flatMap) ▸ hchars

/-! ## Release ids -/

/-- What `derive_release_id` is called with. -/
structure ReleaseIdArgs where
  turboVersion : UInt32
  profile : EmbeddingProfile
  codec : ManifestCodec
  contentDigest : String
  outputs : List OutputFile

namespace ReleaseIdArgs

/-- What is hashed. -/
def bytes (args : ReleaseIdArgs) : Bytes :=
  releaseIdBytes args.turboVersion args.profile args.codec args.contentDigest args.outputs

def releaseId (sha : Sha256) (args : ReleaseIdArgs) : String :=
  deriveReleaseId sha args.turboVersion args.profile args.codec args.contentDigest args.outputs

/-- The arguments with the outputs in name order. -/
def nameSorted (args : ReleaseIdArgs) : ReleaseIdArgs :=
  { args with outputs := args.outputs.insertionSort fun a b => a.name ≤ b.name }

end ReleaseIdArgs

/-- An output as manifests describe it: its digest has 64 characters. -/
def OutputFile.Described (output : OutputFile) : Prop :=
  FitsPrefix output.name ∧ output.sha256.toList.length = 64

/-- The names in a v4 section fit. -/
def ManifestCodec.Fits : ManifestCodec → Prop
  | .v3 _ => True
  | .v4 codec => FitsPrefix codec.codecId ∧ FitsPrefix codec.normPolicy

/-- Arguments as a manifest holds them: the codec section is of the turbo version. -/
structure ReleaseIdArgs.Coherent (args : ReleaseIdArgs) : Prop where
  codecVersion : args.codec.turboVersion = args.turboVersion
  codec : args.codec.Fits
  modelId : FitsPrefix args.profile.modelId
  contentDigest : FitsPrefix args.contentDigest
  outputs : ∀ output ∈ args.outputs, output.Described

theorem selfDelimiting_outputFile :
    SelfDelimiting {output | OutputFile.Described output} OutputFile.bytes := by
  rintro ⟨name, sha256, sizeBytes⟩ ⟨hname, hsha⟩ ⟨name', sha256', sizeBytes'⟩ ⟨hname', hsha'⟩
    rest rest' heq
  simp only [OutputFile.bytes, List.append_assoc] at heq
  obtain ⟨heq₁, heq⟩ := selfDelimiting_text hname hname' _ _ heq
  obtain ⟨heq₂, heq⟩ := selfDelimiting_ofLength 64 hsha hsha' _ _ heq
  obtain ⟨heq₃, hrest⟩ := selfDelimiting_u64le trivial trivial _ _ heq
  subst heq₁ heq₂ heq₃
  exact ⟨rfl, hrest⟩

/-- The codec sections of one version. -/
theorem selfDelimiting_manifestCodec (version : UInt32) :
    SelfDelimiting {codec : ManifestCodec | codec.turboVersion = version ∧ codec.Fits}
      ManifestCodec.bytes := by
  rintro codec ⟨rfl, hfits⟩ codec' ⟨hversion, hfits'⟩ rest rest' heq
  cases codec with
  | v3 c =>
      cases codec' with
      | v4 c' => cases hversion
      | v3 c' =>
          obtain ⟨dim, perDim, centroidsSeed, projectionSeed⟩ := c
          obtain ⟨dim', perDim', centroidsSeed', projectionSeed'⟩ := c'
          simp only [ManifestCodec.bytes, List.append_assoc] at heq
          obtain ⟨heq₁, heq⟩ := selfDelimiting_u32le trivial trivial _ _ heq
          obtain ⟨heq₂, heq⟩ := selfDelimiting_u32le trivial trivial _ _ heq
          obtain ⟨heq₃, heq⟩ := selfDelimiting_u64le trivial trivial _ _ heq
          obtain ⟨heq₄, hrest⟩ := selfDelimiting_u64le trivial trivial _ _ heq
          subst heq₁ heq₂ heq₃ heq₄
          exact ⟨rfl, hrest⟩
  | v4 c =>
      cases codec' with
      | v3 c' => cases hversion
      | v4 c' =>
          obtain ⟨codecId, dim, mseBits, qjlDim, rotationSeed, qjlSeed, generator, norm⟩ := c
          obtain ⟨codecId', dim', mseBits', qjlDim', rotationSeed', qjlSeed', generator', norm'⟩ := c'
          simp only [ManifestCodec.bytes, List.append_assoc] at heq
          obtain ⟨heq₁, heq⟩ := selfDelimiting_text hfits.1 hfits'.1 _ _ heq
          obtain ⟨heq₂, heq⟩ := selfDelimiting_u32le trivial trivial _ _ heq
          obtain ⟨heq₃, heq⟩ := selfDelimiting_byte trivial trivial _ _ heq
          obtain ⟨heq₄, heq⟩ := selfDelimiting_u32le trivial trivial _ _ heq
          obtain ⟨heq₅, heq⟩ := selfDelimiting_u64le trivial trivial _ _ heq
          obtain ⟨heq₆, heq⟩ := selfDelimiting_u64le trivial trivial _ _ heq
          obtain ⟨heq₇, heq⟩ := selfDelimiting_u32le trivial trivial _ _ heq
          obtain ⟨heq₈, hrest⟩ := selfDelimiting_text hfits.2 hfits'.2 _ _ heq
          subst heq₁ heq₂ heq₃ heq₄ heq₅ heq₆ heq₇ heq₈
          exact ⟨rfl, hrest⟩

theorem OutputFile.bytes_ne_nil (output : OutputFile) : output.bytes ≠ [] := by
  intro h
  have hlen := congrArg List.length h
  simp only [OutputFile.bytes, List.length_append, length_u64le, List.length_nil] at hlen
  omega

/-- The hashed bytes of a release id determine everything that enters it. -/
theorem ReleaseIdArgs.nameSorted_eq_of_bytes_eq {args args' : ReleaseIdArgs} (h : args.Coherent)
    (h' : args'.Coherent) (heq : args.bytes = args'.bytes) : args.nameSorted = args'.nameSorted := by
  obtain ⟨version, ⟨modelId, dim⟩, codec, digest, outputs⟩ := args
  obtain ⟨version', ⟨modelId', dim'⟩, codec', digest', outputs'⟩ := args'
  obtain ⟨hversion, hcodec, hmodel, hdigest, houtputs⟩ := h
  obtain ⟨hversion', hcodec', hmodel', hdigest', houtputs'⟩ := h'
  simp only [bytes, releaseIdBytes] at heq
  obtain ⟨heq₁, heq⟩ := selfDelimiting_u32le trivial trivial _ _ heq
  obtain ⟨heq₂, heq⟩ := selfDelimiting_text hmodel hmodel' _ _ heq
  obtain ⟨heq₃, heq⟩ := selfDelimiting_u32le trivial trivial _ _ heq
  obtain ⟨heq₄, heq⟩ := selfDelimiting_manifestCodec version ⟨hversion, hcodec⟩
    ⟨hversion'.trans heq₁.symm, hcodec'⟩ _ _ heq
  obtain ⟨heq₅, heq⟩ := selfDelimiting_text hdigest hdigest' _ _ heq
  have hsorted := selfDelimiting_outputFile.flatMap_injOn
    (fun output _ => output.bytes_ne_nil)
    (fun output hmem => houtputs output (List.mem_insertionSort _ |>.mp hmem))
    (fun output hmem => houtputs' output (List.mem_insertionSort _ |>.mp hmem)) heq
  subst heq₁ heq₂ heq₃ heq₄ heq₅
  simp only [nameSorted, hsorted]

/-! ## Content digests -/

/-- A row whose parts fit their prefixes. -/
structure CanonicalRow.Fits (row : CanonicalRow) : Prop where
  docId : FitsPrefix row.docId
  embedding : row.embedding.length < 2 ^ 64
  text : FitsPrefix row.text
  metaJson : row.canonicalMetaJson.length < 2 ^ 64

theorem selfDelimiting_f32le : SelfDelimiting Set.univ f32le :=
  .of_length 4 (fun x _ => length_f32le x) fun x _ y _ h => by
    rw [← f32OfBytes_f32le x, h, f32OfBytes_f32le]

/-- A vector behind its length. -/
theorem selfDelimiting_values :
    SelfDelimiting {values : List F32 | values.length < 2 ^ 64} fun values =>
      leBytes 8 values.length ++ writeValues values := by
  intro values (hlen : values.length < 2 ^ 64) values' (hlen' : values'.length < 2 ^ 64) rest rest' heq
  simp only [List.append_assoc] at heq
  obtain ⟨hwidth, heq⟩ := List.append_inj heq (by rw [length_leBytes, length_leBytes])
  have hcount : values.length = values'.length := leBytes_inj (by omega) (by omega) hwidth
  exact selfDelimiting_f32le.flatMap_of_length ⟨hcount, fun _ _ => trivial⟩
    ⟨rfl, fun _ _ => trivial⟩ _ _ heq

theorem selfDelimiting_canonicalRow :
    SelfDelimiting {row | CanonicalRow.Fits row} CanonicalRow.bytes := by
  rintro ⟨docId, embedding, text, metaJson⟩ ⟨hdocId, hembedding, htext, hmeta⟩
    ⟨docId', embedding', text', metaJson'⟩ ⟨hdocId', hembedding', htext', hmeta'⟩ rest rest' heq
  simp only [CanonicalRow.bytes, List.append_assoc] at heq
  obtain ⟨heq₁, heq⟩ := selfDelimiting_text hdocId hdocId' _ _ heq
  rw [← List.append_assoc, ← List.append_assoc (leBytes 8 embedding'.length)] at heq
  obtain ⟨heq₂, heq⟩ := selfDelimiting_values hembedding hembedding' _ _ heq
  obtain ⟨heq₃, heq⟩ := selfDelimiting_text htext htext' _ _ heq
  obtain ⟨heq₄, hrest⟩ := selfDelimiting_lenPrefixed hmeta hmeta' _ _ heq
  subst heq₁ heq₂ heq₃ heq₄
  exact ⟨rfl, hrest⟩

/-- The hashed bytes of a content digest determine the rows. -/
theorem rows_eq_of_bytes_eq {rows rows' : List CanonicalRow} (h : ∀ row ∈ rows, row.Fits)
    (h' : ∀ row ∈ rows', row.Fits)
    (heq : rows.flatMap CanonicalRow.bytes = rows'.flatMap CanonicalRow.bytes) : rows = rows' := by
  refine selfDelimiting_canonicalRow.flatMap_injOn (fun row _ hnil => ?_) h h' heq
  have hlen := congrArg List.length hnil
  simp only [CanonicalRow.bytes, lenPrefixed, List.length_append, length_leBytes,
    List.length_nil] at hlen
  omega

/-! ## Fingerprints -/

namespace TurboQuantConfig

/-- What `fingerprint` hashes. -/
def fingerprintBytes (sha : Sha256) (config : TurboQuantConfig) (files : List AssetFile) : Bytes :=
  utf8 "ltsearch/turbo-codec-fingerprint/v1" ++ config.canonicalBytes ++
    (files.insertionSort fun a b => a.1 ≤ b.1).flatMap (fingerprintEntry sha)

/-- The asset files in name order, each with its digest in place of its bytes. -/
def digestedFiles (sha : Sha256) (files : List AssetFile) : List (String × Bytes) :=
  (files.insertionSort fun a b => a.1 ≤ b.1).map fun file => (file.1, sha.digest file.2)

theorem selfDelimiting_canonicalBytes : SelfDelimiting Set.univ canonicalBytes := by
  rintro ⟨codecId, dim, mseBits, qjlDim, mseSeed, qjlSeed, generator, norm⟩ -
    ⟨codecId', dim', mseBits', qjlDim', mseSeed', qjlSeed', generator', norm'⟩ - rest rest' heq
  simp only [canonicalBytes, List.append_assoc] at heq
  obtain ⟨hcodec, heq⟩ := selfDelimiting_u32le trivial trivial _ _ heq
  obtain ⟨heq₁, heq⟩ := selfDelimiting_u32le trivial trivial _ _ heq
  obtain ⟨heq₂, heq⟩ := selfDelimiting_byte trivial trivial _ _ heq
  obtain ⟨heq₃, heq⟩ := selfDelimiting_u32le trivial trivial _ _ heq
  obtain ⟨heq₄, heq⟩ := selfDelimiting_u64le trivial trivial _ _ heq
  obtain ⟨heq₅, heq⟩ := selfDelimiting_u64le trivial trivial _ _ heq
  obtain ⟨heq₆, heq⟩ := selfDelimiting_u32le trivial trivial _ _ heq
  obtain ⟨hnorm, hrest⟩ := selfDelimiting_byte trivial trivial _ _ heq
  obtain rfl : codecId = codecId' := by
    cases codecId <;> cases codecId' <;> first | rfl | cases hcodec
  obtain rfl : norm = norm' := by
    cases norm <;> cases norm' <;> first | rfl | cases hnorm
  subst heq₁ heq₂ heq₃ heq₄ heq₅ heq₆
  exact ⟨rfl, hrest⟩

/-- One asset file, by its name and its digest. -/
theorem selfDelimiting_entry :
    SelfDelimiting {entry : String × Bytes | FitsPrefix entry.1 ∧ entry.2.length = 32}
      fun entry => leBytes 8 (utf8 entry.1).length ++ utf8 entry.1 ++ entry.2 := by
  rintro ⟨name, digest⟩ ⟨hname, hdigest⟩ ⟨name', digest'⟩ ⟨hname', hdigest'⟩ rest rest' heq
  simp only [List.append_assoc] at heq
  rw [← List.append_assoc, ← List.append_assoc (leBytes 8 (utf8 name').length)] at heq
  obtain ⟨heq₁, heq⟩ := selfDelimiting_text hname hname' _ _ heq
  obtain ⟨heq₂, hrest⟩ := List.append_inj heq (hdigest.trans hdigest'.symm)
  subst heq₁ heq₂
  exact ⟨rfl, hrest⟩

/-- The hashed bytes of a fingerprint determine the config and the digested files. -/
theorem eq_of_fingerprintBytes_eq {sha : Sha256} {config config' : TurboQuantConfig}
    {files files' : List AssetFile} (h : ∀ file ∈ files, FitsPrefix file.1)
    (h' : ∀ file ∈ files', FitsPrefix file.1)
    (heq : config.fingerprintBytes sha files = config'.fingerprintBytes sha files') :
    config = config' ∧ digestedFiles sha files = digestedFiles sha files' := by
  have hentries : ∀ files : List AssetFile, files.flatMap (fingerprintEntry sha) =
      (files.map fun file => (file.1, sha.digest file.2)).flatMap fun entry =>
        leBytes 8 (utf8 entry.1).length ++ utf8 entry.1 ++ entry.2 := by
    intro files
    rw [List.flatMap_map]
    rfl
  have hfits : ∀ {files : List AssetFile}, (∀ file ∈ files, FitsPrefix file.1) →
      ∀ entry ∈ digestedFiles sha files, FitsPrefix entry.1 ∧ entry.2.length = 32 := by
    intro files hfiles entry hentry
    obtain ⟨file, hfile, rfl⟩ := List.mem_map.mp hentry
    exact ⟨hfiles file ((List.mem_insertionSort _).mp hfile), sha.length_digest _⟩
  simp only [fingerprintBytes, List.append_assoc] at heq
  obtain ⟨heq₁, heq⟩ := selfDelimiting_canonicalBytes trivial trivial _ _
    (List.append_cancel_left heq)
  rw [hentries, hentries] at heq
  refine ⟨heq₁, selfDelimiting_entry.flatMap_injOn (fun entry hentry hnil => ?_) (hfits h) (hfits h')
    heq⟩
  have hlen := congrArg List.length hnil
  simp only [List.length_append, hentry.2, List.length_nil] at hlen
  omega

end TurboQuantConfig

/-! ## All three -/

theorem ReleaseIdArgs.releaseId_inj {sha : Sha256} {args args' : ReleaseIdArgs}
    (hsha : sha.digest args.bytes = sha.digest args'.bytes → args.bytes = args'.bytes)
    (heq : args.releaseId sha = args'.releaseId sha) : args.bytes = args'.bytes :=
  hsha (hexEncode_inj heq)

/-- The preimages are unambiguous: what is hashed for a release id, a content digest and a fingerprint
determines what it stands for, and so does a release id whose preimage does not collide. -/
theorem preimages_unambiguous :
    (∀ args args' : ReleaseIdArgs, args.Coherent → args'.Coherent → args.bytes = args'.bytes →
      args.nameSorted = args'.nameSorted) ∧
    (∀ rows rows' : List CanonicalRow, (∀ row ∈ rows, row.Fits) → (∀ row ∈ rows', row.Fits) →
      rows.flatMap CanonicalRow.bytes = rows'.flatMap CanonicalRow.bytes → rows = rows') ∧
    (∀ (sha : Sha256) (config config' : TurboQuantConfig) (files files' : List AssetFile),
      (∀ file ∈ files, FitsPrefix file.1) → (∀ file ∈ files', FitsPrefix file.1) →
      config.fingerprintBytes sha files = config'.fingerprintBytes sha files' →
      config = config' ∧ TurboQuantConfig.digestedFiles sha files =
        TurboQuantConfig.digestedFiles sha files') ∧
    ∀ (sha : Sha256) (args args' : ReleaseIdArgs), args.Coherent → args'.Coherent →
      (sha.digest args.bytes = sha.digest args'.bytes → args.bytes = args'.bytes) →
      args.releaseId sha = args'.releaseId sha → args.nameSorted = args'.nameSorted :=
  ⟨fun _ _ => ReleaseIdArgs.nameSorted_eq_of_bytes_eq, fun _ _ => rows_eq_of_bytes_eq,
    fun _ _ _ _ _ => TurboQuantConfig.eq_of_fingerprintBytes_eq,
    fun _ _ _ h h' hsha heq =>
      ReleaseIdArgs.nameSorted_eq_of_bytes_eq h h' (ReleaseIdArgs.releaseId_inj hsha heq)⟩

end LTSearch
