/-
# LTSearch.Query.Servable -- which verified releases every search can be answered from

A hit is valid when its doc id is nonempty and its score is finite.  Scores are extended values that
are finite wherever the floats stored with the record are; `searchScored` is the search over given
scores, and the search of a loaded index is the search over the scores its codec computes.
-/
import LTSearch.Indexing.StaticVerify
import LTSearch.Indexing.VerifyBuilt
import LTSearch.Query.SearchTotal

namespace LTSearch

open LTSearch.Foundation

/-! ## Records -/

namespace MmapIndex

/-- The floats stored with record `i` are finite. -/
def StoredFinite (index : MmapIndex) (i : Nat) : Prop :=
  ∃ record gamma norm, (index.record i : Checked MmapIndexError TurboRecordRef) = .ok record ∧
    (record.gamma : Checked MmapIndexError F32) = .ok gamma ∧ gamma.isFinite = true ∧
    (record.norm : Checked MmapIndexError (Option F32)) = .ok norm ∧
    ∀ value ∈ norm, value.isFinite = true

/-- Record `i` can be a valid hit: it has a nonempty doc id and finite floats. -/
structure Fit (index : MmapIndex) (i : Nat) : Prop where
  docId : ∃ docId, index.originalDocId i = .ok (some docId) ∧ docId ≠ ""
  floats : index.StoredFinite i

/-- The hash id stored with record `i`. -/
def hashId (index : MmapIndex) (i : Nat) : UInt64 :=
  readU64 0 (window (i * 208) 208 (index.bin.drop 32))

variable {index : MmapIndex} (loaded : index.Loaded)

include loaded

/-- Record `i` is a window of the record region. -/
theorem record_eq_ok {ε : Type} {i : Nat} (hi : i < index.recordCount) :
    (index.record i : Checked ε TurboRecordRef) =
      .ok ⟨window (i * 208) 208 (index.bin.drop 32), index.layout⟩ := by
  have hregion := length_recordData loaded
  have hbound := FixedLayout.record_in_bounds hi hregion.ge
  have hword : i * 208 + 208 < Checked.usizeSize := by
    have hsmall := loaded.binSmall
    rw [List.length_drop] at hbound
    show _ < 2 ^ 64
    omega
  have hlen := length_window hbound
  have hslice : (Checked.slice (i * 208) (i * 208 + 208) (index.bin.drop 32) : Checked ε Bytes) =
      .ok (window (i * 208) 208 (index.bin.drop 32)) := by
    refine slice_eq_ok.mpr ⟨⟨Nat.le_add_right _ _, hbound⟩, ?_⟩
    rw [Nat.add_sub_cancel_left]
    rfl
  simp only [record, bind_eq_ok, assertThat_eq_ok, usizeMul_eq_ok, usizeAdd_eq_ok]
  exact ⟨(), hi, _, ⟨lt_of_le_of_lt (Nat.le_add_right _ _) hword, rfl⟩, _, ⟨hword, rfl⟩, _,
    recordData_eq_ok loaded, _, hslice, (), hlen.ge, rfl⟩

theorem docId_window {ε : Type} {i : Nat} (hi : i < index.recordCount) :
    (TurboRecordRef.docId ⟨window (i * 208) 208 (index.bin.drop 32), index.layout⟩ :
      Checked ε UInt64) = .ok (index.hashId i) := by
  have hregion := length_recordData loaded
  have hlen := length_window (FixedLayout.record_in_bounds hi hregion.ge)
  refine u64At_eq_ok.mpr ⟨?_, rfl⟩
  show 0 + 8 ≤ (window (i * 208) 208 (index.bin.drop 32)).length
  omega

/-- The hash ids of the typed records of a legacy image. -/
theorem docIds_legacy {records : List TurboRecord512}
    (h : (index.records : Checked SearchError TurboRecordSlice) = .ok (.v2Dim512 records)) :
    ∀ i (hi : i < records.length), index.hashId i = records[i].docId := by
  have hcast : (TurboRecord512.layout.castAll index.recordCount (index.bin.drop 32) :
      Checked SearchError _) = .ok records := by
    simp only [MmapIndex.records, recordData_eq_ok loaded] at h
    obtain ⟨_, hdata, h⟩ := bind_eq_ok.mp h
    cases hdata
    split at h
    · obtain ⟨_, hcast, h⟩ := bind_eq_ok.mp h
      cases h
      exact hcast
    · obtain ⟨_, hcast, h⟩ := bind_eq_ok.mp h
      cases h
      exact hcast
    · obtain ⟨_, -, h⟩ := bind_eq_ok.mp h
      cases h
  intro i hi
  obtain ⟨_, hdecode⟩ := (TurboRecord512.layout.castAll_eq_ok.mp hcast).2 i hi
  exact congrArg TurboRecord512.docId hdecode

/-- The hash ids of the typed records of a v4 image. -/
theorem docIds_prod {records : List TurboProdRecord512}
    (h : (index.records : Checked SearchError TurboRecordSlice) = .ok (.v4Dim512 records)) :
    ∀ i (hi : i < records.length), index.hashId i = records[i].docId := by
  have hcast : (TurboProdRecord512.layout.castAll index.recordCount (index.bin.drop 32) :
      Checked SearchError _) = .ok records := by
    simp only [MmapIndex.records, recordData_eq_ok loaded] at h
    obtain ⟨_, hdata, h⟩ := bind_eq_ok.mp h
    cases hdata
    split at h
    · obtain ⟨_, -, h⟩ := bind_eq_ok.mp h
      cases h
    · obtain ⟨_, -, h⟩ := bind_eq_ok.mp h
      cases h
    · obtain ⟨_, hcast, h⟩ := bind_eq_ok.mp h
      cases h
      exact hcast
  intro i hi
  obtain ⟨_, hdecode⟩ := (TurboProdRecord512.layout.castAll_eq_ok.mp hcast).2 i hi
  exact congrArg TurboProdRecord512.docId hdecode

end MmapIndex

/-! ## The search over given scores -/

/-- Record `i` as a candidate with the score it is given. -/
def rankedRecord (index : MmapIndex) (scores : Nat → F32) (i : Nat) :
    Checked SearchError RankedResult := do
  let record ← index.record i
  let docId ← record.docId
  return { score := scores i, docId, recordIndex := i }

/-- `search` over given scores. -/
def searchScored (env : SearchEnv) (index : MmapIndex) (scores : Nat → F32)
    (queryEmbedding : List F32) (topK : Nat) : Checked SearchError (List SearchResult) := do
  Checked.lifted (validateQueryEmbedding queryEmbedding)
  Checked.lifted (validateEmbeddingDim queryEmbedding index.dim.toNat)
  Checked.lifted (validateTopK topK)
  let candidates ← (List.range index.recordCount).mapM (rankedRecord index scores)
  let heap := env.scanner.heap.scan topK env.scanner.plan candidates
  let ranked := heap.mergeSort fun a b => compareRankedResults a b ≠ .gt
  ranked.mapM fun candidate => TurboQuantSearcher.materialize env index candidate

/-- The scores that the codec computes for the records of a slice. -/
def CodecScores (env : SearchEnv) (query : List F32) (scores : Nat → F32) :
    MmapIndex.TurboRecordSlice → IndexCodec → Prop
  | .v2Dim512 records, .legacy centroids projection => ∃ prepared,
      PreparedTurboQuery.prepare env.arith query centroids projection = .ok prepared ∧
        ∀ i (hi : i < records.length), scores i = prepared.score env.arith records[i]
  | .v4Dim512 records, .prod codec => ∃ prepared, codec.prepareQuery env.arith query = .ok prepared ∧
      ∀ i (hi : i < records.length),
        (prepared.score env.arith records[i] : Checked SearchError F32) = .ok (scores i)
  | _, _ => False

/-- Scores are finite wherever the stored floats are. -/
def FiniteWhereStored (index : MmapIndex) (scores : Nat → F32) : Prop :=
  ∀ i, i < index.recordCount → index.StoredFinite i → (scores i).isFinite = true

/-- The candidates of an index, record by record. -/
def candidatesOf (index : MmapIndex) (scores : Nat → F32) : List RankedResult :=
  (List.range index.recordCount).map fun i =>
    { score := scores i, docId := index.hashId i, recordIndex := i }

section Scores

variable {index : MmapIndex} {scores : Nat → F32}

theorem mem_candidatesOf {candidate : RankedResult} : candidate ∈ candidatesOf index scores ↔
    candidate.recordIndex < index.recordCount ∧ candidate = {
      score := scores candidate.recordIndex
      docId := index.hashId candidate.recordIndex
      recordIndex := candidate.recordIndex } := by
  simp only [candidatesOf, List.mem_map, List.mem_range]
  constructor
  · rintro ⟨i, hi, rfl⟩
    exact ⟨hi, rfl⟩
  · rintro ⟨hi, hcandidate⟩
    exact ⟨_, hi, hcandidate.symm⟩

theorem mapM_rankedRecord (loaded : index.Loaded) :
    (List.range index.recordCount).mapM (rankedRecord index scores) =
      .ok (candidatesOf index scores) := by
  refine mapM_eq_ok_iff.mpr (List.forall₂_map_right_iff.mpr (List.forall₂_same.mpr fun i hi => ?_))
  have hi := List.mem_range.mp hi
  exact bind_eq_ok.mpr ⟨_, MmapIndex.record_eq_ok loaded hi, bind_eq_ok.mpr ⟨_,
    MmapIndex.docId_window loaded hi, rfl⟩⟩

theorem scanTopK_candidatesOf {R : Type} {records : List R} {scanner : Scanner} {topK : Nat}
    {scoreRecord : R → Checked SearchError (UInt64 × F32)}
    (hcount : records.length = index.recordCount)
    (h : ∀ i (hi : i < records.length), scoreRecord records[i] = .ok (index.hashId i, scores i)) :
    scanTopK scanner records topK scoreRecord =
      .ok (scanner.heap.scan topK scanner.plan (candidatesOf index scores)) := by
  refine scanTopK_eq_ok.mpr ⟨_, by simp [candidatesOf, hcount], fun i hi hi' => ?_, rfl⟩
  simp only [candidatesOf, List.getElem_map, List.getElem_range, and_true]
  exact h i hi

/-- Both searches go on from the same candidates. -/
theorem search_eq_of_candidates {env : SearchEnv} {query : List F32} (loaded : index.Loaded)
    (hscan : ∀ topK, TurboQuantSearcher.candidates env ⟨index⟩ query topK =
      .ok (env.scanner.heap.scan topK env.scanner.plan (candidatesOf index scores)))
    (topK : Nat) : TurboQuantSearcher.search env ⟨index⟩ query topK =
      searchScored env index scores query topK := by
  unfold TurboQuantSearcher.search searchScored
  rw [hscan topK, mapM_rankedRecord loaded]
  rfl

/-- The search of a loaded index is the search over the scores of its codec. -/
theorem search_eq_searchScored (env : SearchEnv) (loaded : index.Loaded) {query : List F32}
    (hquery : query.length = 512) : ∃ scores slice,
      (index.records : Checked SearchError _) = .ok slice ∧
      CodecScores env query scores slice index.codec ∧
      ∀ topK, TurboQuantSearcher.search env ⟨index⟩ query topK =
        searchScored env index scores query topK := by
  have hcodec := loaded.codec
  rcases MmapIndex.records_isOk loaded (ε := SearchError) with
    ⟨records, hrecords, hcount, hlayout⟩ | ⟨records, hrecords, hcount, hlayout⟩
  · obtain ⟨centroids, projection, hkind, hdim, hper, hin, hout⟩ := hcodec.exists_legacy hlayout
    obtain ⟨prepared, hprepared⟩ := PreparedTurboQuery.prepare_isOk env.arith hquery hdim hper hin
      hout
    let scores : Nat → F32 := fun i =>
      if hi : i < records.length then prepared.score env.arith records[i] else .zero
    have hscores : ∀ i (hi : i < records.length), scores i = prepared.score env.arith records[i] :=
      fun i hi => dif_pos hi
    refine ⟨scores, _, hrecords, ?_, search_eq_of_candidates loaded fun topK => ?_⟩
    · rw [hkind]
      exact ⟨prepared, hprepared, hscores⟩
    · refine bind_eq_ok.mpr ⟨_, hrecords, ?_⟩
      rw [hkind]
      exact bind_eq_ok.mpr ⟨prepared, mapErr_eq_ok.mpr hprepared,
        scanTopK_candidatesOf hcount fun i hi => by
          rw [hscores i hi, MmapIndex.docIds_legacy loaded hrecords i hi]⟩
  · rw [hlayout] at hcodec
    obtain ⟨codec, hkind, hcodes⟩ := hcodec.exists_prod
    obtain ⟨prepared, hprepared⟩ := codec.prepareQuery_isOk env.arith hquery
    have hlengths := TurboQuantProdV1.prepared_of_prepareQuery hprepared
    choose scoreOf hscoreOf using fun record =>
      TurboQuantProdV1.score_isOk (ε := SearchError) env.arith hlengths hcodes record
    let scores : Nat → F32 := fun i =>
      if hi : i < records.length then scoreOf records[i] else .zero
    have hscores : ∀ i (hi : i < records.length),
        (prepared.score env.arith records[i] : Checked SearchError F32) = .ok (scores i) := by
      intro i hi
      rw [show scores i = scoreOf records[i] from dif_pos hi]
      exact hscoreOf _
    refine ⟨scores, _, hrecords, ?_, search_eq_of_candidates loaded fun topK => ?_⟩
    · rw [hkind]
      exact ⟨prepared, hprepared, hscores⟩
    · refine bind_eq_ok.mpr ⟨_, hrecords, ?_⟩
      rw [hkind]
      exact bind_eq_ok.mpr ⟨prepared, mapErr_eq_ok.mpr hprepared,
        scanTopK_candidatesOf hcount fun i hi => by
          rw [MmapIndex.docIds_prod loaded hrecords i hi]
          exact bind_eq_ok.mpr ⟨_, hscores i hi, rfl⟩⟩

end Scores

/-! ## Hits -/

/-- What a verified release's image is: every record has readable texts and a doc id. -/
structure Activatable (index : MmapIndex) : Prop where
  loaded : index.Loaded
  hasSidecars : index.hasDocSidecars = true
  utf8 : index.checkUtf8 = .ok ()

/-- A verified directory loads as such an image. -/
theorem StaticVerify.activatable {sha : Sha256} {json : JsonCodec ReleaseManifest} {dir : ReleaseDir}
    {manifest : ReleaseManifest} (verified : Verified sha json dir manifest) :
    ∃ index, MmapIndex.load sha dir = .ok index ∧ Activatable index := by
  obtain ⟨_, index, -, hload, hversion, -, -, hutf8⟩ := verified.image
  have loaded := MmapIndex.loaded_of_load hload
  refine ⟨index, hload, loaded, loaded.hasSidecars.mpr fun hlayout => ?_, hutf8⟩
  have hold : manifest.turboVersion = turboVersionV2 := by
    rw [← hversion]
    exact (KnownRecordLayout.fromHeader_eq_ok loaded.layout).2.trans
      (congrArg KnownRecordLayout.version hlayout)
  have hnames := verified.names
  rw [hold] at hnames
  cases hnames

namespace Activatable

variable {index : MmapIndex} (activatable : Activatable index) {i : Nat}
  (hi : i < index.recordCount)

include activatable hi

theorem texts : (∃ text, index.textAt i = .ok text) ∧ (∃ title, index.titleAt i = .ok title) ∧
    (∃ docId, index.originalDocId i = .ok docId) ∧ ∃ json, index.metadataJson i = .ok json := by
  have hchecked := forM_eq_ok.mp activatable.utf8 i (List.mem_range.mpr hi)
  simp only [bind_eq_ok] at hchecked
  obtain ⟨text, htext, title, htitle, docId, hdocId, json, hjson, -⟩ := hchecked
  exact ⟨⟨text, htext⟩, ⟨title, htitle⟩, ⟨docId, hdocId⟩, json, hjson⟩

/-- Every record has a doc id of its own. -/
theorem originalDocId : ∃ docId, index.originalDocId i = .ok (some docId) := by
  obtain ⟨-, -, ⟨found, hfound⟩, -⟩ := activatable.texts hi
  cases found with
  | some docId => exact ⟨docId, hfound⟩
  | none =>
      obtain ⟨sidecars, hsidecars⟩ := Option.isSome_iff_exists.mp activatable.hasSidecars
      obtain ⟨entry, hentry, hnone⟩ := bind_eq_ok.mp hfound
      unfold MmapIndex.metaExtRecord at hentry
      simp only [hsidecars, if_neg (not_le.mpr hi), bind_eq_ok] at hentry
      obtain ⟨_, -, _, -, hentry⟩ := hentry
      cases hentry
      rcases map_eq_ok.mp hnone with ⟨_, -, h⟩
      cases h

/-- A candidate becomes a hit with its doc id and its score. -/
theorem materialize_isOk (env : SearchEnv) (candidate : RankedResult)
    (hcandidate : candidate.recordIndex = i) {docId : String}
    (hdocId : index.originalDocId i = .ok (some docId)) :
    ∃ hit, TurboQuantSearcher.materialize env index candidate = .ok hit ∧ hit.docId = docId ∧
      hit.score = candidate.score := by
  subst hcandidate
  obtain ⟨⟨text, htext⟩, ⟨title, htitle⟩, -, json, hjson⟩ := activatable.texts hi
  obtain ⟨entry, hentry, -⟩ := MmapIndex.metaAt_isOk activatable.loaded (ε := SearchError) hi
  have hidentify : TurboQuantSearcher.identify env index candidate =
      .ok (docId, json.bind env.parseMetadata) := by
    unfold TurboQuantSearcher.identify
    rw [if_pos activatable.hasSidecars, hdocId, hjson]
    rfl
  have hcitation : ∃ citation, TurboQuantSearcher.citationOf index candidate docId
      (CorpusType.fromId entry.corpusType) (json.bind env.parseMetadata) = .ok citation := by
    unfold TurboQuantSearcher.citationOf
    split
    · exact ⟨_, rfl⟩
    · rw [htitle]
      exact ⟨_, rfl⟩
  obtain ⟨citation, hcitation⟩ := hcitation
  simp only [TurboQuantSearcher.materialize, bind_eq_ok, mapErr_eq_ok]
  exact ⟨_, ⟨entry, hentry, text, htext, _, hidentify, citation, hcitation, rfl⟩, rfl, rfl⟩

end Activatable

/-! ## Ranking -/

theorem compareRankedResults_swap (a b : RankedResult) :
    compareRankedResults b a = (compareRankedResults a b).swap := by
  have hscore : compare a.score.totalKey b.score.totalKey =
      (compare b.score.totalKey a.score.totalKey).swap := Std.OrientedCmp.eq_swap
  simp only [compareRankedResults, Ordering.swap_then, Std.OrientedCmp.eq_swap (a := b.docId)]
  rw [hscore]

/-- A higher score is better, whatever the ids. -/
theorem compareRankedResults_of_lt {a b : RankedResult}
    (h : b.score.totalKey < a.score.totalKey) : compareRankedResults a b = .lt := by
  rw [compareRankedResults, compare_lt_iff_lt.mpr h]
  rfl

theorem compareRankedResults_ne_gt {a b : RankedResult} : compareRankedResults a b ≠ .gt ↔
    b.score.totalKey < a.score.totalKey ∨
      b.score.totalKey = a.score.totalKey ∧ a.docId.toNat ≤ b.docId.toNat := by
  have hid : compare a.docId b.docId = .gt ↔ b.docId.toNat < a.docId.toNat := by
    rw [← UInt64.lt_iff_toNat_lt]
    exact Std.compare_eq_gt
  rw [compareRankedResults, ne_eq, Ordering.then_eq_gt, Std.compare_eq_gt, compare_eq_iff_eq, hid]
  omega

/-- A scanner that keeps its heap sorted and does not split. -/
def sortingScanner : Scanner where
  heap := .ofSort compareRankedResults
    (fun a b c hab hbc => by
      rw [compareRankedResults_ne_gt] at hab hbc ⊢
      omega)
    (fun a b => by
      rw [compareRankedResults_ne_gt, compareRankedResults_ne_gt]
      omega)
  plan := .segment

/-! ## Servable releases -/

/-- The bits of `+∞`. -/
def F32.infinity : F32 := ⟨0x7f800000#32⟩

/-- A query that the searcher accepts. -/
def ValidQuery (query : List F32) (topK : Nat) : Prop :=
  query.length = 512 ∧ (∀ value ∈ query, value.isFinite = true) ∧ 1 ≤ topK ∧ topK ≤ topKMax

/-- Every accepted query is answered with valid hits, whatever the scores. -/
def Servable (index : MmapIndex) : Prop :=
  ∀ (scores : Nat → F32), FiniteWhereStored index scores →
    ∀ (env : SearchEnv) (query : List F32) (topK : Nat), ValidQuery query topK →
      ∃ hits, searchScored env index scores query topK = .ok hits ∧ validateResults hits = .ok ()

namespace Activatable

variable {index : MmapIndex} (activatable : Activatable index)

include activatable

/-- The hits of an accepted query are the materialized candidates of the scan. -/
theorem searchScored_eq_ok {env : SearchEnv} {scores : Nat → F32} {query : List F32} {topK : Nat}
    (hquery : ValidQuery query topK) {hits : List SearchResult} :
    searchScored env index scores query topK = .ok hits ↔
      List.Forall₂ (fun candidate hit => TurboQuantSearcher.materialize env index candidate = .ok hit)
        ((env.scanner.heap.scan topK env.scanner.plan (candidatesOf index scores)).mergeSort
          fun a b => compareRankedResults a b ≠ .gt) hits := by
  obtain ⟨hlen, hfinite, hlow, hhigh⟩ := hquery
  have hne : query ≠ [] := by
    rintro rfl
    cases hlen
  have hvalid := validateQueryEmbedding_eq_ok.mpr ⟨hne, hfinite⟩
  have hdim : validateEmbeddingDim query index.dim.toNat = .ok () := by
    refine rejectIf_eq_ok.mpr (not_not.mpr ?_)
    rw [hlen, MmapIndex.dim_eq activatable.loaded]
    rfl
  have htop : validateTopK topK = .ok () := rejectIf_eq_ok.mpr (by omega)
  rw [← mapM_eq_ok_iff]
  unfold searchScored
  rw [hvalid, hdim, htop, mapM_rankedRecord activatable.loaded]
  rfl

/-- When every record is fit, every accepted query is answered with valid hits. -/
theorem servable_of_fit (hfit : ∀ i, i < index.recordCount → index.Fit i) : Servable index := by
  intro scores hscores env query topK hquery
  have hhit : ∀ candidate ∈ (env.scanner.heap.scan topK env.scanner.plan
      (candidatesOf index scores)).mergeSort (fun a b => compareRankedResults a b ≠ .gt),
      ∃ hit, TurboQuantSearcher.materialize env index candidate = .ok hit ∧
        hit.validate = .ok () := by
    intro candidate hcandidate
    obtain ⟨hi, hcandidate⟩ := mem_candidatesOf.mp
      (env.scanner.heap.mem_scan topK (List.mem_mergeSort.mp hcandidate))
    obtain ⟨⟨docId, hdocId, hne⟩, hfloats⟩ := hfit _ hi
    obtain ⟨hit, hmaterialize, hid, hscore⟩ := activatable.materialize_isOk hi env _ rfl hdocId
    refine ⟨hit, hmaterialize, SearchResult.validate_eq_ok.mpr ⟨hid ▸ hne, ?_⟩⟩
    rw [hscore, hcandidate]
    exact hscores _ hi hfloats
  obtain ⟨hits, hhits⟩ := mapM_isOk fun candidate hcandidate =>
    (hhit candidate hcandidate).imp fun _ h => h.1
  have hall := mapM_eq_ok_iff.mp hhits
  refine ⟨hits, (activatable.searchScored_eq_ok hquery).mpr hall, ?_⟩
  refine validateResults_eq_ok.mpr fun result hresult => ?_
  obtain ⟨j, hj, rfl⟩ := List.mem_iff_getElem.mp hresult
  have hj' := hall.length_eq ▸ hj
  obtain ⟨hit, hmaterialize, hvalid⟩ := hhit _ (List.getElem_mem hj')
  have hsame := hall.get hj' hj
  rw [List.get_eq_getElem] at hsame
  rw [hmaterialize] at hsame
  cases hsame
  exact hvalid

/-- The record whose score is above all others is a hit of every accepted query. -/
theorem best_is_hit {env : SearchEnv} {scores : Nat → F32} {query : List F32} {topK i : Nat}
    (hquery : ValidQuery query topK) (hi : i < index.recordCount)
    (hbest : ∀ j, j < index.recordCount → j ≠ i → (scores j).totalKey < (scores i).totalKey)
    {hits : List SearchResult} (h : searchScored env index scores query topK = .ok hits)
    {docId : String} (hdocId : index.originalDocId i = .ok (some docId)) :
    ∃ hit ∈ hits, hit.docId = docId ∧ hit.score = scores i := by
  have hall := (activatable.searchScored_eq_ok hquery).mp h
  have hmem : ({ score := scores i, docId := index.hashId i, recordIndex := i } : RankedResult) ∈
      env.scanner.heap.scan topK env.scanner.plan (candidatesOf index scores) := by
    refine env.scanner.heap.best_mem_scan topK compareRankedResults_swap hquery.2.2.1
      (fun other hother hne => ?_) (mem_candidatesOf.mpr ⟨hi, rfl⟩)
    obtain ⟨hj, hother⟩ := mem_candidatesOf.mp hother
    refine compareRankedResults_of_lt ?_
    rw [hother]
    refine hbest _ hj fun heq => hne ?_
    rw [hother, heq]
  obtain ⟨j, hj, hcandidate⟩ := List.mem_iff_getElem.mp (List.mem_mergeSort.mpr hmem)
  have hj' := hall.length_eq ▸ hj
  have hhit := hall.get hj hj'
  simp only [List.get_eq_getElem, hcandidate] at hhit
  obtain ⟨hit, hmaterialize, hid, hscore⟩ := activatable.materialize_isOk hi env
    { score := scores i, docId := index.hashId i, recordIndex := i } rfl hdocId
  rw [hmaterialize] at hhit
  cases hhit
  exact ⟨_, List.getElem_mem hj', hid, hscore⟩

/-- When every accepted query is answered with valid hits, every record is fit: some scores rank the
record first. -/
theorem fit_of_servable (hservable : Servable index) {i : Nat} (hi : i < index.recordCount) :
    index.Fit i := by
  classical
  let scores : Nat → F32 := fun j =>
    if j = i then if index.StoredFinite i then .one else .infinity else .zero
  have hzero : ∀ j, j ≠ i → scores j = .zero := fun j hj => if_neg hj
  have hscores : FiniteWhereStored index scores := by
    intro j _ hfloats
    by_cases hj : j = i
    · subst hj
      have hone : scores j = .one := by simp only [scores, if_true, if_pos hfloats]
      rw [hone]
      decide
    · rw [hzero j hj]
      decide
  have hbest : ∀ j, j < index.recordCount → j ≠ i → (scores j).totalKey < (scores i).totalKey := by
    intro j _ hj
    rw [hzero j hj]
    by_cases hfloats : index.StoredFinite i
    · have hone : scores i = .one := by simp only [scores, if_true, if_pos hfloats]
      rw [hone]
      decide
    · have hinfinity : scores i = .infinity := by simp only [scores, if_true, if_neg hfloats]
      rw [hinfinity]
      decide
  have hquery : ValidQuery (List.replicate 512 F32.zero) 1 := by
    refine ⟨List.length_replicate, fun value hvalue => ?_, le_rfl, by decide⟩
    rw [List.eq_of_mem_replicate hvalue]
    decide
  obtain ⟨docId, hdocId⟩ := activatable.originalDocId hi
  obtain ⟨hits, hhits, hvalid⟩ := hservable scores hscores
    { arith := zeroArith, scanner := sortingScanner, parseMetadata := fun _ => none } _ _ hquery
  obtain ⟨hit, hmem, hid, hscore⟩ := activatable.best_is_hit hquery hi hbest hhits hdocId
  obtain ⟨hne, hfinite⟩ :=
    SearchResult.validate_eq_ok.mp (validateResults_eq_ok.mp hvalid hit hmem)
  refine ⟨⟨docId, hdocId, hid ▸ hne⟩, ?_⟩
  by_contra hfloats
  have hinfinity : scores i = .infinity := by simp only [scores, if_true, if_neg hfloats]
  rw [hscore, hinfinity] at hfinite
  cases hfinite

end Activatable

/-- A verified release is servable exactly when each of its records has a nonempty doc id and finite
floats; and what is said of given scores holds of the scores of the codec. -/
theorem servable_verifiedRelease {sha : Sha256} {json : JsonCodec ReleaseManifest} {path : String}
    {dir : ReleaseDir} {expectModelId : Option String} {expectDim : Option UInt32}
    {manifest : ReleaseManifest}
    (hverify : verifyReleaseDir sha json path dir expectModelId expectDim = .ok manifest) :
    ∃ index, MmapIndex.load sha dir = .ok index ∧
      (Servable index ↔ ∀ i, i < index.recordCount → index.Fit i) ∧
      ∀ (env : SearchEnv) (query : List F32), query.length = 512 → ∃ scores slice,
        (index.records : Checked SearchError _) = .ok slice ∧
        CodecScores env query scores slice index.codec ∧
        ∀ topK, TurboQuantSearcher.search env ⟨index⟩ query topK =
          searchScored env index scores query topK := by
  obtain ⟨index, hload, activatable⟩ :=
    StaticVerify.activatable (verifyReleaseDir_eq_ok.mp hverify).1
  exact ⟨index, hload, ⟨fun h i hi => activatable.fit_of_servable h hi,
    activatable.servable_of_fit⟩, fun env query hquery =>
      search_eq_searchScored env activatable.loaded hquery⟩

namespace SampleRelease

/-- A chunk without a doc id. -/
def nameless : StaticChunk where
  docId := ""
  text := "text"
  metadata := []
  corpusType := .legal

def zeros : List F32 := List.replicate 512 .zero

theorem nameless_checked : checkChunks .v3 [nameless] [zeros] profile = .ok () := by
  have hfinite : ¬∃ value ∈ zeros, value.isFinite = false := by
    rintro ⟨value, hvalue, h⟩
    rw [List.eq_of_mem_replicate hvalue] at h
    cases h
  simp only [checkChunks, check_bind_eq_ok, rejectIf_eq_ok, not_not, List.zip_cons_cons,
    List.zip_nil_left, forM_eq_ok, List.forall_mem_singleton]
  exact ⟨rfl, List.cons_ne_nil _ _, rfl, ⟨List.length_replicate, hfinite⟩, rfl, rfl⟩

theorem nameless_short : ∀ chunk ∈ [nameless], chunk.Short :=
  List.forall_mem_singleton.mpr
    ⟨by decide +kernel, by decide +kernel, by decide +kernel, by decide +kernel⟩

/-- What a sample release is, once verified: an image with the chunks' doc ids. -/
theorem exists_image {chunks : List StaticChunk} {embeddings : List (List F32)} {rows : UInt64}
    (hchecked : checkChunks .v3 chunks embeddings profile = .ok ()) (hfew : chunks.length < 2 ^ 30)
    (hshort : ∀ chunk ∈ chunks, chunk.Short) (hrows : rows.toNat = chunks.length) :
    ∃ (env : ReleaseEnv) (manifest : ReleaseManifest) (dir : ReleaseDir) (index : MmapIndex),
      verifyReleaseDir env.sha env.json "release" dir none none = .ok manifest ∧
      MmapIndex.load env.sha dir = .ok index ∧ index.recordCount = chunks.length ∧
      (∀ i (hi : i < chunks.length), index.originalDocId i = .ok (some chunks[i].docId)) ∧
      index.layout = .v3Dim512 := by
  obtain ⟨manifest, dir, hbuild⟩ := parses (source "data.lance" rows) hchecked hfew hshort
  have verified := verified_of_buildRelease hbuild hshort (roundTrips_parserOf manifest) (by decide)
    rfl (show "data.lance" ≠ "" by decide) (show (1 : UInt64) ≠ 0 by decide) hrows
  obtain ⟨codec, index, hcodec, hload, hheader, hversion, -, -, hcount, hback⟩ :=
    load_buildRelease hbuild hshort
  have hlayout := (MmapIndex.loaded_of_load hload).layout
  rw [hheader] at hlayout
  cases hcodec
  have hlengths := (checkChunks_eq_ok hchecked).1
  exact ⟨_, manifest, dir, index, verifyReleaseDir_eq_ok.mpr ⟨verified, nofun, nofun⟩, hload, hcount,
    fun i hi => (hback i hi (hlengths ▸ hi)).originalDocId, (Except.ok.inj hlayout).symm⟩

end SampleRelease

open SampleRelease in
/-- A verified release with an empty doc id: its scores are finite, and a search of it returns a hit
that is not valid. -/
theorem search_emptyDocId : ∃ (sha : Sha256) (json : JsonCodec ReleaseManifest)
    (manifest : ReleaseManifest) (dir : ReleaseDir) (index : MmapIndex) (env : SearchEnv)
    (query : List F32),
    verifyReleaseDir sha json "release" dir none none = .ok manifest ∧
    MmapIndex.load sha dir = .ok index ∧ ValidQuery query 1 ∧
    (∀ scores slice, (index.records : Checked SearchError _) = .ok slice →
      CodecScores env query scores slice index.codec → FiniteWhereStored index scores) ∧
    ∃ hits, TurboQuantSearcher.search env ⟨index⟩ query 1 = .ok hits ∧
      validateResults hits ≠ .ok () := by
  obtain ⟨env, manifest, dir, index, hverify, hload, hcount, hdocIds, hlayout⟩ :=
    @exists_image _ _ 1 nameless_checked (by decide) nameless_short rfl
  have hcount : index.recordCount = 1 := hcount
  have hdocId : index.originalDocId 0 = .ok (some "") := hdocIds 0 (by decide)
  let senv : SearchEnv :=
    { arith := zeroArith, scanner := sortingScanner, parseMetadata := fun _ => none }
  have hquery : ValidQuery zeros 1 := by
    refine ⟨List.length_replicate, fun value hvalue => ?_, le_rfl, by decide⟩
    rw [List.eq_of_mem_replicate hvalue]
    decide
  obtain ⟨_, hload', activatable⟩ := StaticVerify.activatable (verifyReleaseDir_eq_ok.mp hverify).1
  obtain rfl := Except.ok.inj (hload.symm.trans hload')
  have hi : 0 < index.recordCount := by omega
  refine ⟨_, _, manifest, dir, index, senv, zeros, hverify, hload, hquery, ?_, ?_⟩
  · intro scores slice hslice hscores i hi _
    rcases MmapIndex.records_isOk activatable.loaded (ε := SearchError) with
      ⟨records, hrecords, hlen, -⟩ | ⟨_, -, -, hv4⟩
    · rw [hrecords] at hslice
      cases hslice
      obtain ⟨_, _, hkind, -⟩ := activatable.loaded.codec.exists_legacy (by rw [hlayout]; decide)
      rw [hkind] at hscores
      obtain ⟨prepared, -, hscores⟩ := hscores
      have hscore : prepared.score senv.arith records[i] = .zero := rfl
      rw [hscores i (hlen ▸ hi), hscore]
      decide
    · rw [hlayout] at hv4
      cases hv4
  · obtain ⟨scores, slice, -, -, hsearch⟩ := search_eq_searchScored senv activatable.loaded
      (show zeros.length = 512 from hquery.1)
    have hmaterialize : ∀ candidate ∈ (senv.scanner.heap.scan 1 senv.scanner.plan
        (candidatesOf index scores)).mergeSort (fun a b => compareRankedResults a b ≠ .gt),
        ∃ hit, TurboQuantSearcher.materialize senv index candidate = .ok hit := by
      intro candidate hcandidate
      obtain ⟨hlt, -⟩ := mem_candidatesOf.mp
        (senv.scanner.heap.mem_scan 1 (List.mem_mergeSort.mp hcandidate))
      obtain ⟨docId, hid⟩ := activatable.originalDocId hlt
      obtain ⟨hit, hhit, -⟩ := activatable.materialize_isOk hlt senv _ rfl hid
      exact ⟨hit, hhit⟩
    obtain ⟨hits, hhits⟩ := mapM_isOk hmaterialize
    have hscored := (activatable.searchScored_eq_ok hquery).mpr (mapM_eq_ok_iff.mp hhits)
    refine ⟨hits, (hsearch 1).trans hscored, fun hvalid => ?_⟩
    obtain ⟨hit, hmem, hid, -⟩ := activatable.best_is_hit hquery hi
      (fun j hj hne => absurd hne (by omega)) hscored hdocId
    exact (SearchResult.validate_eq_ok.mp (validateResults_eq_ok.mp hvalid hit hmem)).1 hid

open SampleRelease in
/-- The iff at a verified release of two chunks. -/
theorem servable_twoChunks : ∃ (sha : Sha256) (dir : ReleaseDir) (index : MmapIndex),
    MmapIndex.load sha dir = .ok index ∧ index.recordCount = 2 ∧
      index.originalDocId 0 = .ok (some "doc-1") ∧ index.originalDocId 1 = .ok (some "doc-2") ∧
      (Servable index ↔ ∀ i, i < index.recordCount → index.Fit i) := by
  obtain ⟨env, manifest, dir, index, hverify, hload, hcount, hids, -⟩ :=
    @exists_image _ _ 2 twoChunks_checked (by decide) twoChunks_short rfl
  obtain ⟨_, hload', hiff, -⟩ := servable_verifiedRelease hverify
  obtain rfl := Except.ok.inj (hload.symm.trans hload')
  exact ⟨_, dir, index, hload, hcount, hids 0 (by decide), hids 1 (by decide), hiff⟩

end LTSearch
