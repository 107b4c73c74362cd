/-
# LTSearch.Query.SearchTotal -- searching a loaded index cannot panic

The loader ties the layout to the codec and the codec to the lengths of the record fields, so a query
of the index's dimension is prepared, every record is scored, and every hit names a record of the
index, whose entries are in bounds.
-/
import LTSearch.Query.TurboSearcher

namespace LTSearch

open LTSearch.Foundation

theorem validateQueryEmbedding_eq_ok {query : List F32} : validateQueryEmbedding query = .ok () ↔
    query ≠ [] ∧ ∀ value ∈ query, value.isFinite = true := by
  simp only [validateQueryEmbedding, check_bind_eq_ok, rejectIf_eq_ok, not_exists, not_and,
    Bool.not_eq_false, ne_eq]

/-- A scan of records that can all be scored: every candidate is a record with its score. -/
theorem scanTopK_isOk {ε R : Type} (scanner : Scanner) {records : List R} (topK : Nat)
    (scoreRecord : R → Checked ε (UInt64 × F32))
    (h : ∀ record ∈ records, ∃ scored, scoreRecord record = .ok scored) :
    ∃ heap, scanTopK scanner records topK scoreRecord = .ok heap := by
  have hall : ∀ entry ∈ records.zipIdx, ∃ candidate : RankedResult,
      (do let scored ← scoreRecord entry.1
          return { score := scored.2, docId := scored.1, recordIndex := entry.2 : RankedResult } :
          Checked ε _) =
        .ok candidate := by
    rintro ⟨record, i⟩ hentry
    obtain ⟨scored, hscored⟩ := h record (List.fst_mem_of_mem_zipIdx hentry)
    exact ⟨_, bind_eq_ok.mpr ⟨scored, hscored, rfl⟩⟩
  obtain ⟨candidates, hcandidates⟩ := mapM_isOk hall
  exact ⟨_, bind_eq_ok.mpr ⟨candidates, hcandidates, rfl⟩⟩

/-- What the scan was given, when it returned. -/
theorem scanTopK_eq_ok {ε R : Type} {scanner : Scanner} {records : List R} {topK : Nat}
    {scoreRecord : R → Checked ε (UInt64 × F32)} {heap : List RankedResult} :
    scanTopK scanner records topK scoreRecord = .ok heap ↔
      ∃ candidates : List RankedResult, candidates.length = records.length ∧
        (∀ i (hi : i < records.length) (hi' : i < candidates.length),
          scoreRecord records[i] = .ok (candidates[i].docId, candidates[i].score) ∧
            candidates[i].recordIndex = i) ∧
        scanner.heap.scan topK scanner.plan candidates = heap := by
  simp only [scanTopK, bind_eq_ok, mapM_eq_ok_iff, List.forall₂_iff_get, List.length_zipIdx]
  constructor
  · rintro ⟨candidates, ⟨hlen, hget⟩, h⟩
    cases h
    refine ⟨candidates, hlen.symm, fun i hi hi' => ?_, rfl⟩
    obtain ⟨⟨docId, score⟩, hscore, hcandidate⟩ := hget i hi hi'
    simp only [List.get_eq_getElem, List.getElem_zipIdx, Nat.zero_add] at hscore hcandidate
    have heq : candidates[i] = { score, docId, recordIndex := i } :=
      (Except.ok.inj hcandidate).symm
    rw [heq]
    exact ⟨hscore, rfl⟩
  · rintro ⟨candidates, hlen, hget, rfl⟩
    refine ⟨candidates, ⟨hlen.symm, fun i hi hi' => ?_⟩, rfl⟩
    obtain ⟨hscore, hindex⟩ := hget i hi hi'
    simp only [List.get_eq_getElem, List.getElem_zipIdx, Nat.zero_add]
    refine ⟨_, hscore, congrArg Except.ok ?_⟩
    generalize candidates[i] = candidate at hindex
    subst hindex
    rfl

namespace TurboQuantSearcher

variable {searcher : TurboQuantSearcher} {env : SearchEnv} {query : List F32}

/-- What the scan ran on: the records of the index's layout, each with its score by the codec. -/
theorem scanned {topK : Nat} {heap : List RankedResult} {slice : MmapIndex.TurboRecordSlice}
    {codec : IndexCodec} (h : scanSlice env query topK slice codec = .ok heap) :
    (∃ records centroids projection prepared, slice = .v2Dim512 records ∧
        codec = .legacy centroids projection ∧
        PreparedTurboQuery.prepare env.arith query centroids projection = .ok prepared ∧
        (scanTopK env.scanner records topK fun record =>
          .ok (record.docId, prepared.score env.arith record) :
            Checked SearchError _) = .ok heap) ∨
      ∃ records prod prepared, slice = .v4Dim512 records ∧ codec = .prod prod ∧
        prod.prepareQuery env.arith query = .ok prepared ∧
        (scanTopK env.scanner records topK fun record => do
          let score ← prepared.score env.arith record
          return (record.docId, score) : Checked SearchError _) = .ok heap := by
  cases slice with
  | v2Dim512 records =>
      cases codec with
      | legacy centroids projection =>
          obtain ⟨prepared, hprepared, h⟩ := bind_eq_ok.mp h
          exact .inl ⟨records, centroids, projection, prepared, rfl, rfl,
            mapErr_eq_ok.mp hprepared, h⟩
      | prod _ => cases h
  | v4Dim512 records =>
      cases codec with
      | legacy _ _ => cases h
      | prod prod =>
          obtain ⟨prepared, hprepared, h⟩ := bind_eq_ok.mp h
          exact .inr ⟨records, prod, prepared, rfl, rfl, mapErr_eq_ok.mp hprepared, h⟩

/-- A hit is a record of the index. -/
theorem recordIndex_lt {topK : Nat} {heap : List RankedResult} (loaded : searcher.index.Loaded)
    (h : searcher.candidates env query topK = .ok heap) :
    ∀ candidate ∈ heap, candidate.recordIndex < searcher.index.recordCount := by
  have hscan : ∀ {R : Type} {records : List R} {score : R → Checked SearchError (UInt64 × F32)},
      records.length = searcher.index.recordCount →
      scanTopK env.scanner records topK score = .ok heap →
      ∀ candidate ∈ heap, candidate.recordIndex < searcher.index.recordCount := by
    intro R records score hcount hscan candidate hmem
    obtain ⟨candidates, hlen, hget, rfl⟩ := scanTopK_eq_ok.mp hscan
    obtain ⟨i, hi, rfl⟩ := List.mem_iff_getElem.mp (env.scanner.heap.mem_scan topK hmem)
    rw [(hget i (by omega) hi).2]
    omega
  obtain ⟨slice, hslice, h⟩ := bind_eq_ok.mp h
  rcases MmapIndex.records_isOk loaded (ε := SearchError) with
    ⟨records, hrecords, hcount, -⟩ | ⟨records, hrecords, hcount, -⟩ <;>
    rw [hrecords] at hslice <;> cases hslice
  · rcases scanned h with ⟨_, _, _, _, heq, -, -, h⟩ | ⟨_, _, _, heq, -⟩ <;> cases heq
    exact hscan hcount h
  · rcases scanned h with ⟨_, _, _, _, heq, -⟩ | ⟨_, _, _, heq, -, -, h⟩ <;> cases heq
    exact hscan hcount h

/-- A query of the index's dimension is prepared and scored against every record: the scorers'
assertions hold and the records are of the codec's version. -/
theorem candidates_isOk (env : SearchEnv) (loaded : searcher.index.Loaded) (hquery : query.length = 512)
    (topK : Nat) : ∃ heap, searcher.candidates env query topK = .ok heap := by
  have hcodec := loaded.codec
  rcases MmapIndex.records_isOk loaded (ε := SearchError) with
    ⟨records, hrecords, -, hlayout⟩ | ⟨records, hrecords, -, hlayout⟩
  · obtain ⟨centroids, projection, hkind, hdim, hper, hin, hout⟩ := hcodec.exists_legacy hlayout
    obtain ⟨prepared, hprepared⟩ := PreparedTurboQuery.prepare_isOk env.arith hquery hdim hper hin
      hout
    obtain ⟨heap, hheap⟩ := scanTopK_isOk env.scanner topK
      (fun record => (.ok (record.docId, prepared.score env.arith record) : Checked SearchError _))
      fun (record : TurboRecord512) (_ : record ∈ records) => ⟨_, rfl⟩
    refine ⟨heap, bind_eq_ok.mpr ⟨_, hrecords, ?_⟩⟩
    rw [hkind]
    exact bind_eq_ok.mpr ⟨prepared, mapErr_eq_ok.mpr hprepared, hheap⟩
  · rw [hlayout] at hcodec
    obtain ⟨codec, hkind, hcodes⟩ := hcodec.exists_prod
    obtain ⟨prepared, hprepared⟩ := codec.prepareQuery_isOk env.arith hquery
    have hlengths := TurboQuantProdV1.prepared_of_prepareQuery hprepared
    have hscored : ∀ record ∈ records, ∃ scored, (do
        let score ← prepared.score env.arith record
        return (record.docId, score) : Checked SearchError _) = .ok scored := by
      intro record _
      obtain ⟨score, hscore⟩ := TurboQuantProdV1.score_isOk (ε := SearchError) env.arith hlengths
        hcodes record
      exact ⟨_, bind_eq_ok.mpr ⟨score, hscore, rfl⟩⟩
    obtain ⟨heap, hheap⟩ := scanTopK_isOk env.scanner topK _ hscored
    refine ⟨heap, bind_eq_ok.mpr ⟨_, hrecords, ?_⟩⟩
    rw [hkind]
    exact bind_eq_ok.mpr ⟨prepared, mapErr_eq_ok.mpr hprepared, hheap⟩

theorem total_materialize (loaded : searcher.index.Loaded) {candidate : RankedResult}
    (h : candidate.recordIndex < searcher.index.recordCount) :
    Total (materialize env searcher.index candidate) := by
  refine (MmapIndex.total_metaAt loaded h).bind fun entry _ => ?_
  refine (MmapIndex.total_textAt loaded h).mapErr.bind fun text _ => ?_
  refine Total.bind ?_ fun identity _ => ?_
  · refine Total.ite (fun _ => ?_) fun _ => .ok _
    refine (MmapIndex.total_originalDocId loaded _).mapErr.bind fun _ _ => ?_
    exact (MmapIndex.total_metadataJson loaded _).attempt.bind fun _ _ => .ok _
  · refine Total.bind ?_ fun _ _ => .ok _
    unfold citationOf
    split
    · exact .ok _
    · exact (MmapIndex.total_titleAt loaded h).attempt.bind fun _ _ => .ok _

/-- A search of a loaded index does not panic. -/
theorem total_search (loaded : searcher.index.Loaded) (query : List F32) (topK : Nat) :
    Total (searcher.search env query topK) := by
  refine (Total.lifted _).bind fun _ _ => ?_
  refine (Total.lifted _).bind fun _ hdim => ?_
  have hquery : query.length = 512 := by
    have hlen : query.length = searcher.index.dim.toNat :=
      not_not.mp (rejectIf_eq_ok.mp (lifted_eq_ok.mp hdim))
    rw [hlen, MmapIndex.dim_eq loaded]
    rfl
  refine (Total.lifted _).bind fun _ _ => ?_
  obtain ⟨heap, hheap⟩ := candidates_isOk env loaded hquery topK
  rw [hheap]
  refine Total.bind (.ok heap) fun found hfound => ?_
  cases hfound
  refine Total.mapM fun candidate hcandidate => ?_
  exact total_materialize loaded
    (recordIndex_lt loaded hheap candidate (List.mem_mergeSort.mp hcandidate))

end TurboQuantSearcher

/-! ## The loader is total and sound -/

namespace MmapIndex

/-- Every accessor of an index is in bounds for record `i`. -/
structure InBounds (index : MmapIndex) (i : Nat) : Prop where
  record : ∃ record, (index.record i : Checked MmapIndexError _) = .ok record ∧
    Total (record.docId : Checked MmapIndexError _) ∧ Total (record.idx : Checked MmapIndexError _) ∧
    Total (record.qjl : Checked MmapIndexError _) ∧
    Total (record.gamma : Checked MmapIndexError _) ∧
    Total (record.norm : Checked MmapIndexError _)
  metaAt : Total (index.metaAt i : Checked MmapIndexError _)
  textAt : Total (index.textAt i)
  titleAt : Total (index.titleAt i)
  originalDocId : Total (index.originalDocId i)
  metadataJson : Total (index.metadataJson i)

/-- Whatever the files hold, the loader returns or fails; and an index that it returned can be read
and searched without a panic and without a mismatch of records and codec. -/
theorem load_total_and_sound (sha : Sha256) (dir : ReleaseDir) :
    Total (load sha dir) ∧ ∀ index, load sha dir = .ok index →
      (∀ i, i < index.recordCount → InBounds index i) ∧
      Total (index.records : Checked MmapIndexError _) ∧ Total index.checkUtf8 ∧
      ∀ (env : SearchEnv) (query : List F32) (topK : Nat), query.length = index.dim.toNat →
        (∀ value ∈ query, value.isFinite = true) →
        (∃ heap, TurboQuantSearcher.candidates env ⟨index⟩ query topK = .ok heap) ∧
        Total (TurboQuantSearcher.search env ⟨index⟩ query topK) := by
  refine ⟨total_load sha dir, fun index h => ?_⟩
  have loaded := loaded_of_load h
  refine ⟨fun i hi => ?_, total_records loaded, total_checkUtf8 loaded,
    fun env query topK hlen _ => ?_⟩
  · obtain ⟨record, hrecord, hlen, -⟩ := record_isOk loaded (ε := MmapIndexError) hi
    exact ⟨⟨record, hrecord, TurboRecordRef.total_fields hlen⟩, total_metaAt loaded hi,
      total_textAt loaded hi, total_titleAt loaded hi, total_originalDocId loaded i,
      total_metadataJson loaded i⟩
  · have hquery : query.length = 512 := by
      rw [hlen, dim_eq loaded]
      rfl
    have hloaded : (TurboQuantSearcher.mk index).index.Loaded := loaded
    exact ⟨TurboQuantSearcher.candidates_isOk env hloaded hquery topK,
      TurboQuantSearcher.total_search hloaded query topK⟩

end MmapIndex

end LTSearch
