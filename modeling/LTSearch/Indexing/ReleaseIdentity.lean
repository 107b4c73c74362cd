/-
# LTSearch.Indexing.ReleaseIdentity -- what two verified releases of one id have in common

A release id is the digest of the version, the profile, the codec, the content digest and the outputs,
but not of the source.  Verified releases whose hashed bytes are the same describe the same files:
the output lists have the same names and so the same length, and stand at the end of the stream.
-/
import LTSearch.Index.Preimage
import LTSearch.Indexing.StaticVerify
import LTSearch.Storage.StaticHead

namespace LTSearch

open LTSearch.Foundation

/-- The bytes whose digest is the release id of a manifest. -/
def ReleaseManifest.idBytes (manifest : ReleaseManifest) : Bytes :=
  releaseIdBytes manifest.turboVersion manifest.embeddingProfile manifest.codec
    manifest.inputFingerprint.contentDigest manifest.outputs

/-- Every output file list is in name order, and its names are short. -/
theorem releaseOutputFiles_facts {turboVersion : UInt32} {names : List String}
    (h : releaseOutputFiles turboVersion = some names) :
    names.Pairwise (· ≤ ·) ∧ names.Nodup ∧ releaseManifestFile ∉ names ∧
      ∀ name ∈ names, FitsPrefix name := by
  unfold releaseOutputFiles at h
  unfold FitsPrefix
  split at h
  · cases h
    decide
  split at h
  · cases h
    decide
  · cases h

/-- A digest in hexadecimal takes one byte for each digit. -/
theorem length_utf8_sha256Hex (sha : Sha256) (bytes : Bytes) :
    (utf8 (sha256Hex sha bytes)).length = 64 := by
  have hdigit : ∀ n : Fin 16, (String.utf8EncodeChar (Nat.digitChar n.val)).length = 1 := by decide
  have hlen : ∀ digest : Bytes, (utf8 (hexEncode digest)).length = 2 * digest.length := by
    intro digest
    rw [utf8_eq_flatMap, hexEncode, String.toList_ofList]
    induction digest with
    | nil => rfl
    | cons b rest ih =>
        have hb := b.toNat_lt
        have hhigh := hdigit ⟨b.toNat / 16, by omega⟩
        have hlow := hdigit ⟨b.toNat % 16, by omega⟩
        simp only [List.flatMap_cons, List.flatMap_append, List.length_append, ih, hexByte,
          List.flatMap_nil, List.length_nil, List.length_cons] at hhigh hlow ⊢
        omega
  rw [sha256Hex, hlen, sha.length_digest]

section SameId

variable {sha : Sha256} {json : JsonCodec ReleaseManifest} {dir dir' : ReleaseDir}
  {manifest manifest' : ReleaseManifest}

theorem Verified.nameSorted (h : Verified sha json dir manifest) :
    (manifest.outputs.insertionSort fun a b => a.name ≤ b.name) = manifest.outputs := by
  have hnames := (releaseOutputFiles_facts h.names).1
  exact List.Pairwise.insertionSort_eq (List.pairwise_map.mp hnames)

/-- The outputs of a verified release are told apart by their names. -/
theorem Verified.output_unique (h : Verified sha json dir manifest) {output output' : OutputFile}
    (hmem : output ∈ manifest.outputs) (hmem' : output' ∈ manifest.outputs)
    (hname : output.name = output'.name) : output = output' := by
  obtain ⟨bytes, hfile, hdescribed⟩ := h.outputs output hmem
  obtain ⟨bytes', hfile', hdescribed'⟩ := h.outputs output' hmem'
  rw [hname, hfile'] at hfile
  rw [hdescribed, hdescribed', hname, Option.some.inj hfile]

theorem Verified.described (h : Verified sha json dir manifest) :
    ∀ output ∈ manifest.outputs, output.Described := by
  intro output houtput
  obtain ⟨bytes, -, hdescribed⟩ := h.outputs output houtput
  refine ⟨(releaseOutputFiles_facts h.names).2.2.2 _ (List.mem_map_of_mem houtput), ?_⟩
  rw [hdescribed]
  show (hexEncode (sha.digest bytes)).toList.length = 64
  rw [length_hexEncode, sha.length_digest]

/-- How long the hashed part of the outputs is depends on the names only. -/
theorem Verified.length_outputs (h : Verified sha json dir manifest) :
    (manifest.outputs.flatMap OutputFile.bytes).length =
      ((manifest.outputs.map (·.name)).map fun name => 8 + (utf8 name).length + 64 + 8).sum := by
  rw [List.length_flatMap, List.map_map]
  refine congrArg List.sum (List.map_congr_left fun output houtput => ?_)
  obtain ⟨bytes, -, hdescribed⟩ := h.outputs output houtput
  have hsha : (utf8 output.sha256).length = 64 := by
    rw [hdescribed]
    exact length_utf8_sha256Hex sha bytes
  simp only [OutputFile.bytes, lenPrefixed, List.length_append, length_leBytes, length_u64le, hsha,
    Function.comp_apply]

/-- Verified releases with the same hashed bytes describe the same outputs. -/
theorem outputs_eq_of_idBytes_eq (h : Verified sha json dir manifest)
    (h' : Verified sha json dir' manifest') (heq : manifest.idBytes = manifest'.idBytes) :
    manifest.outputs = manifest'.outputs := by
  simp only [ReleaseManifest.idBytes, releaseIdBytes, h.nameSorted, h'.nameSorted] at heq
  obtain ⟨hversion, heq⟩ := selfDelimiting_u32le trivial trivial _ _ heq
  have hnames : manifest.outputs.map (·.name) = manifest'.outputs.map (·.name) := by
    have hnames := h.names
    rw [hversion, h'.names] at hnames
    exact (Option.some.inj hnames).symm
  have hlen : (manifest.outputs.flatMap OutputFile.bytes).length =
      (manifest'.outputs.flatMap OutputFile.bytes).length := by
    rw [h.length_outputs, h'.length_outputs, hnames]
  simp only [← List.append_assoc] at heq
  have htail := (List.append_inj' heq hlen).2
  exact selfDelimiting_outputFile.flatMap_injOn (fun output _ => output.bytes_ne_nil) h.described
    h'.described htail

end SameId

end LTSearch
