/-
# LTSearch.Query.Ranker -- reciprocal rank fusion

The hits of the two dynamic retrievers become one hit for each document: its score is the sum of the
reciprocals of its ranks, its payload that of its first hit, completed by the keyword hits.
-/
import LTSearch.Foundation.Checked
import LTSearch.Foundation.Table
import LTSearch.Models.Request

namespace LTSearch

open LTSearch.Foundation

/-! ## Floats that are compared -/

namespace F32

/-- A number that orders like the float, if that is not a NaN. -/
def value (x : F32) : Int := if x.bits.msb then -x.magnitude else x.magnitude

/-- The float lies between the two others. -/
structure Between (lower upper x : F32) : Prop where
  number : x.isNan = false
  lower_le : lower.value ≤ x.value
  le_upper : x.value ≤ upper.value

/-- `1/32`, above every reciprocal of a rank. -/
def share : F32 := ⟨0x3d000000#32⟩

/-- `2^20`, which absorbs one more share. -/
def absorbing : F32 := ⟨0x49800000#32⟩

theorem Between.isFinite {x : F32} (h : Between zero absorbing x) : x.isFinite = true := by
  have hlower := h.lower_le
  have hupper := h.le_upper
  have hmagnitude : x.magnitude ≤ 0x49800000 := by
    have hzero : zero.value = 0 := by decide
    have habsorbing : absorbing.value = 0x49800000 := by decide
    rw [hzero] at hlower
    rw [habsorbing] at hupper
    unfold value at hlower hupper
    split at hlower
    · omega
    · rename_i hmsb
      rwa [if_neg hmsb] at hupper
  have hbits : x.bits.toNat % 2 ^ 31 ≤ 0x49800000 := by
    unfold magnitude at hmagnitude
    rw [BitVec.extractLsb'_toNat, Nat.shiftRight_zero] at hmagnitude
    omega
  have hexponent : x.bits.toNat / 2 ^ 23 % 2 ^ 8 ≠ 0xff := by omega
  unfold F32.isFinite
  rw [bne_iff_ne]
  intro heq
  have hnat := congrArg BitVec.toNat heq
  rw [BitVec.extractLsb'_toNat, Nat.shiftRight_eq_div_pow] at hnat
  exact hexponent hnat

end F32

/-- The arithmetic of the ranker, which is the machine's.  The two laws are about rounding: a
reciprocal of `60 + rank` is at most a share, and a share that is added to `2^20` is less than half a
unit in its last place. -/
structure RankArith where
  add : F32 → F32 → F32
  div : F32 → F32 → F32
  ofUsize : Nat → F32
  /-- `60.0` -/
  rrfK : F32
  between_share {rank : Nat} : 1 ≤ rank →
    F32.Between F32.zero F32.share (div F32.one (add rrfK (ofUsize rank)))
  between_add {x y : F32} : F32.Between F32.zero F32.absorbing x →
    F32.Between F32.zero F32.share y → F32.Between F32.zero F32.absorbing (add x y)

/-! ## Payloads -/

namespace Metadata

theorem get_cons (entry : String × Json) (rest : Metadata) (key : String) :
    Metadata.get (entry :: rest) key = if key = entry.1 then some entry.2 else rest.get key := by
  unfold Metadata.get
  rw [List.lookup.eq_def]
  by_cases hkey : key = entry.1
  · simp only [hkey, beq_self_eq_true, if_true]
  · simp only [beq_eq_false_iff_ne.mpr hkey, if_neg hkey]

theorem get_append (before after : Metadata) (key : String) :
    Metadata.get (before ++ after) key = (before.get key).or (after.get key) :=
  List.lookup_append

/-- `entry(key).or_insert(value)`. -/
def orInsert (metadata : Metadata) (entry : String × Json) : Metadata :=
  match metadata.get entry.1 with
  | some _ => metadata
  | none => metadata.takeWhile (fun e => decide (e.1 < entry.1)) ++
      entry :: metadata.dropWhile fun e => decide (e.1 < entry.1)

theorem get_orInsert (metadata : Metadata) (entry : String × Json) (key : String) :
    (metadata.orInsert entry).get key =
      (metadata.get key).or (if key = entry.1 then some entry.2 else none) := by
  unfold orInsert
  split
  · rename_i v hpresent
    by_cases hkey : key = entry.1
    · rw [hkey, hpresent, Option.some_or]
    · rw [if_neg hkey, Option.or_none]
  · rename_i habsent
    -- the entry goes between two halves of the map, neither of which has its key
    have hhalves := List.takeWhile_append_dropWhile (p := fun e => decide (e.1 < entry.1))
      (l := metadata)
    generalize metadata.takeWhile (fun e => decide (e.1 < entry.1)) = before at hhalves ⊢
    generalize metadata.dropWhile (fun e => decide (e.1 < entry.1)) = after at hhalves ⊢
    subst hhalves
    rw [get_append, Option.or_eq_none_iff] at habsent
    rw [get_append, get_append, get_cons]
    by_cases hkey : key = entry.1
    · simp only [hkey, habsent.1, habsent.2, if_true, Option.none_or]
    · simp only [hkey, if_false, Option.or_none]

/-- All entries of another map, where there is none. -/
def merge (existing incoming : Metadata) : Metadata := incoming.foldl orInsert existing

theorem get_merge (existing incoming : Metadata) (key : String) :
    (existing.merge incoming).get key = (existing.get key).or (incoming.get key) := by
  unfold merge
  induction incoming generalizing existing with
  | nil => exact Option.or_none.symm
  | cons entry rest ih =>
      rw [List.foldl_cons, ih, get_orInsert, Option.or_assoc, get_cons]
      split <;> rfl

end Metadata

/-- `merge_metadata`. -/
def mergeMetadata : Option Metadata → Option Metadata → Option Metadata
  | some existing, some incoming => some (existing.merge incoming)
  | none, some incoming => some incoming
  | existing, none => existing

/-- `merge_result_payload`. -/
def mergeResultPayload (existing incoming : SearchResult) : SearchResult :=
  { existing with
    metadata := mergeMetadata existing.metadata incoming.metadata
    citation := existing.citation.orElse fun _ => incoming.citation }

/-- The value of a metadata field. -/
def SearchResult.field (result : SearchResult) (key : String) : Option Json :=
  result.metadata.bind fun metadata => metadata.get key

theorem field_mergeResultPayload (existing incoming : SearchResult) (key : String) :
    (mergeResultPayload existing incoming).field key =
      (existing.field key).or (incoming.field key) := by
  unfold SearchResult.field mergeResultPayload
  cases existing.metadata with
  | none =>
      cases incoming.metadata with
      | none => rfl
      | some metadata => rfl
  | some metadata =>
      cases incoming.metadata with
      | none => exact Option.or_none.symm
      | some metadata' => exact Metadata.get_merge metadata metadata' key

/-- A hit that stands for the hits of one document: its body is that of one of them, and so is each
of its metadata fields. -/
structure MergedFrom (hits : List SearchResult) (result : SearchResult) : Prop where
  body : ∃ hit ∈ hits, hit.docId = result.docId ∧ hit.text = result.text ∧
    hit.chunkSource = result.chunkSource ∧ hit.corpusType = result.corpusType
  fields : ∀ key value, result.field key = some value →
    ∃ hit ∈ hits, hit.docId = result.docId ∧ hit.field key = some value

namespace MergedFrom

variable {hits : List SearchResult}

theorem of_mem {hit : SearchResult} (h : hit ∈ hits) : MergedFrom hits hit where
  body := ⟨hit, h, rfl, rfl, rfl, rfl⟩
  fields _ _ hfield := ⟨hit, h, rfl, hfield⟩

theorem merge {existing hit : SearchResult} (h : MergedFrom hits existing) (hhit : hit ∈ hits)
    (hdoc : hit.docId = existing.docId) : MergedFrom hits (mergeResultPayload existing hit) where
  body := h.body
  fields key value hfield := by
    rw [field_mergeResultPayload, Option.or_eq_some_iff] at hfield
    rcases hfield with hfield | ⟨-, hfield⟩
    · exact h.fields key value hfield
    · exact ⟨hit, hhit, hdoc, hfield⟩

end MergedFrom

/-! ## The ranker -/

namespace HybridRanker

variable (arith : RankArith)

/-- `compute_rrf_score`, of a rank from 1 on. -/
def computeRrfScore (rank : Nat) : F32 :=
  arith.div F32.one (arith.add arith.rrfK (arith.ofUsize rank))

/-- The two maps that `fuse` fills. -/
structure Fusion where
  rrfScores : Table (fun entry : String × F32 => entry.1)
  docMap : Table SearchResult.docId

/-- `entry(doc_id).or_insert(0.0) += compute_rrf_score(rank)`. -/
def addScore (scores : Table fun entry : String × F32 => entry.1) (docId : String) (index : Nat) :
    Table fun entry : String × F32 => entry.1 :=
  scores.upsert (docId, arith.add F32.zero (computeRrfScore arith (index + 1)))
    (fun entry => (entry.1, arith.add entry.2 (computeRrfScore arith (index + 1)))) fun _ => rfl

/-- One vector hit: the first one of a document stays. -/
def addVector (fusion : Fusion) (hit : SearchResult × Nat) : Fusion where
  rrfScores := addScore arith fusion.rrfScores hit.1.docId hit.2
  docMap := fusion.docMap.upsert hit.1 id fun _ => rfl

/-- One keyword hit: it completes the payload of its document. -/
def addKeyword (fusion : Fusion) (hit : SearchResult × Nat) : Fusion where
  rrfScores := addScore arith fusion.rrfScores hit.1.docId hit.2
  docMap := fusion.docMap.upsert hit.1 (fun existing => mergeResultPayload existing hit.1) fun _ => rfl

/-- Both loops. -/
def collect (vectorResults keywordResults : List SearchResult) : Fusion :=
  keywordResults.zipIdx.foldl (addKeyword arith)
    (vectorResults.zipIdx.foldl (addVector arith) { rrfScores := ∅, docMap := ∅ })

/-- The order of the fused hits: a higher score first, then the smaller doc id. -/
def compareFused (left right : SearchResult) : Ordering :=
  (compare right.score.value left.score.value).then (compare left.docId right.docId)

/-- The fused hit of one document. -/
def fusedHit (docMap : Table SearchResult.docId) (entry : String × F32) :
    Checked SearchError SearchResult :=
  match docMap.get entry.1 with
  | none => Checked.panicked "missing search result"
  | some result => .ok { result with score := entry.2, source := .hybrid }

/-- `fuse`.  A sort of two or more hits compares each of them, and to compare a NaN is a panic. -/
def fuse (vectorResults keywordResults : List SearchResult) :
    Checked SearchError (List SearchResult) := do
  let fusion := collect arith vectorResults keywordResults
  let fused ← fusion.rrfScores.rows.mapM (fusedHit fusion.docMap)
  Checked.assertThat (fused.length < 2 ∨ ∀ result ∈ fused, result.score.isNan = false)
    "called Option::unwrap() on a None value"
  return fused.mergeSort fun left right => compareFused left right ≠ .gt

variable {arith}

/-! ## What the loops keep -/

/-- Scores are in range and belong to a payload, and a payload is merged from hits. -/
structure Fusion.Sound (hits : List SearchResult) (fusion : Fusion) : Prop where
  scores : ∀ entry ∈ fusion.rrfScores.rows, F32.Between F32.zero F32.absorbing entry.2
  known : ∀ docId, (fusion.rrfScores.get docId).isSome → (fusion.docMap.get docId).isSome
  payloads : ∀ result ∈ fusion.docMap.rows, MergedFrom hits result

theorem between_addScore {scores : Table fun entry : String × F32 => entry.1} {docId : String}
    {index : Nat} (h : ∀ entry ∈ scores.rows, F32.Between F32.zero F32.absorbing entry.2) :
    ∀ entry ∈ (addScore arith scores docId index).rows,
      F32.Between F32.zero F32.absorbing entry.2 := by
  intro entry hentry
  have hshare : F32.Between F32.zero F32.share (computeRrfScore arith (index + 1)) :=
    arith.between_share (Nat.le_add_left 1 index)
  have hzero : F32.Between F32.zero F32.absorbing F32.zero := ⟨by decide, by decide, by decide⟩
  obtain hget := Table.mem_iff_get.mp hentry
  rw [addScore, Table.get_upsert] at hget
  split at hget
  · cases hold : scores.get entry.1 with
    | none =>
        rw [hold] at hget
        obtain rfl := Option.some.inj hget
        exact arith.between_add hzero hshare
    | some old =>
        rw [hold] at hget
        obtain rfl := Option.some.inj hget
        exact arith.between_add (h old (Table.get_eq_some_iff.mp hold).1) hshare
  · exact h entry (Table.get_eq_some_iff.mp hget).1

/-- One hit, of either list: `f` is what it does to the payload its document already has. -/
theorem Fusion.Sound.step {hits : List SearchResult} {fusion : Fusion} (h : fusion.Sound hits)
    {hit : SearchResult} (hhit : hit ∈ hits) (index : Nat) {f : SearchResult → SearchResult}
    (hf : ∀ r, (f r).docId = r.docId)
    (hmerge : ∀ r, MergedFrom hits r → hit.docId = r.docId → MergedFrom hits (f r)) :
    Fusion.Sound hits {
      rrfScores := addScore arith fusion.rrfScores hit.docId index
      docMap := fusion.docMap.upsert hit f hf } where
  scores := between_addScore h.scores
  known docId hscored := by
    rw [addScore, Table.get_upsert] at hscored
    rw [Table.get_upsert]
    by_cases hdoc : hit.docId = docId
    · rw [if_pos hdoc]
      rfl
    · rw [if_neg hdoc] at hscored ⊢
      exact h.known docId hscored
  payloads result hresult := by
    have hget := Table.mem_iff_get.mp hresult
    rw [Table.get_upsert] at hget
    split at hget
    · rename_i hdoc
      cases hold : fusion.docMap.get result.docId with
      | none =>
          rw [hold] at hget
          obtain rfl := Option.some.inj hget
          exact .of_mem hhit
      | some old =>
          rw [hold] at hget
          obtain rfl := Option.some.inj hget
          obtain ⟨hmem, hkey⟩ := Table.get_eq_some_iff.mp hold
          exact hmerge old (h.payloads old hmem) (hdoc.trans hkey.symm)
    · exact h.payloads result (Table.get_eq_some_iff.mp hget).1

variable (arith) in
theorem sound_collect (vectorResults keywordResults : List SearchResult) :
    (collect arith vectorResults keywordResults).Sound (vectorResults ++ keywordResults) := by
  have hempty : Fusion.Sound (vectorResults ++ keywordResults) { rrfScores := ∅, docMap := ∅ } :=
    ⟨nofun, nofun, nofun⟩
  have hvector : ∀ entry ∈ vectorResults.zipIdx, entry.1 ∈ vectorResults ++ keywordResults :=
    fun entry hentry => List.mem_append_left _ (List.fst_mem_of_mem_zipIdx hentry)
  have hkeyword : ∀ entry ∈ keywordResults.zipIdx, entry.1 ∈ vectorResults ++ keywordResults :=
    fun entry hentry => List.mem_append_right _ (List.fst_mem_of_mem_zipIdx hentry)
  unfold collect
  refine List.foldlRecOn _ _ (List.foldlRecOn _ _ hempty fun fusion h entry hentry => ?_)
    fun fusion h entry hentry => ?_
  · exact h.step (hvector entry hentry) entry.2 _ fun _ hr _ => hr
  · exact h.step (hkeyword entry hentry) entry.2 _ fun _ hr hdoc =>
      hr.merge (hkeyword entry hentry) hdoc

/-! ## The order -/

/-- `left` may stand before `right`. -/
theorem compareFused_ne_gt {left right : SearchResult} : compareFused left right ≠ .gt ↔
    right.score.value < left.score.value ∨
      left.score.value = right.score.value ∧ left.docId ≤ right.docId := by
  unfold compareFused
  rw [ne_eq, Ordering.then_eq_gt, compare_gt_iff_gt, compare_eq_iff_eq, compare_gt_iff_gt, not_or,
    not_and, not_lt, not_lt]
  constructor
  · rintro ⟨hle, htie⟩
    rcases hle.lt_or_eq with hlt | heq
    · exact .inl hlt
    · exact .inr ⟨heq.symm, htie heq⟩
  · rintro (hlt | ⟨heq, hdoc⟩)
    · exact ⟨hlt.le, fun heq => absurd heq hlt.ne⟩
    · exact ⟨heq.ge, fun _ => hdoc⟩

/-- The sort puts the hits in this order. -/
theorem pairwise_mergeSort (results : List SearchResult) :
    (results.mergeSort fun left right => compareFused left right ≠ .gt).Pairwise fun left right =>
      compareFused left right ≠ .gt := by
  have htrans : ∀ a b c : SearchResult, decide (compareFused a b ≠ .gt) = true →
      decide (compareFused b c ≠ .gt) = true → decide (compareFused a c ≠ .gt) = true := by
    intro a b c hab hbc
    rw [decide_eq_true_eq, compareFused_ne_gt] at hab hbc ⊢
    rcases hab with hab | ⟨hab, hdoc⟩
    · exact .inl (hbc.elim (fun hbc => hbc.trans hab) fun hbc => hbc.1 ▸ hab)
    · rcases hbc with hbc | ⟨hbc, hdoc'⟩
      · exact .inl (hab ▸ hbc)
      · exact .inr ⟨hab.trans hbc, hdoc.trans hdoc'⟩
  have htotal : ∀ a b : SearchResult,
      (decide (compareFused a b ≠ .gt) || decide (compareFused b a ≠ .gt)) = true := by
    intro a b
    rw [Bool.or_eq_true, decide_eq_true_eq, decide_eq_true_eq, compareFused_ne_gt, compareFused_ne_gt]
    rcases lt_trichotomy a.score.value b.score.value with h | h | h
    · exact .inr (.inl h)
    · exact (le_total a.docId b.docId).imp (fun hdoc => .inr ⟨h, hdoc⟩) fun hdoc => .inr ⟨h.symm, hdoc⟩
    · exact .inl (.inl h)
  exact (List.pairwise_mergeSort htrans htotal results).imp fun h => of_decide_eq_true h

/-! ## What the ranker returns -/

/-- One hit for each document, in order, each with a score in range. -/
structure Ranked (hits fused : List SearchResult) : Prop where
  distinct : (fused.map (·.docId)).Nodup
  ordered : fused.Pairwise fun left right => compareFused left right = .lt
  scores : ∀ result ∈ fused, F32.Between F32.zero F32.absorbing result.score
  merged : ∀ result ∈ fused, MergedFrom hits result

theorem fusedHit_eq_ok {docMap : Table SearchResult.docId} {entry : String × F32}
    {result : SearchResult} (h : fusedHit docMap entry = .ok result) :
    ∃ payload ∈ docMap.rows, result = { payload with score := entry.2, source := .hybrid } ∧
      result.docId = entry.1 := by
  unfold fusedHit at h
  split at h
  · cases h
  · rename_i payload hget
    obtain ⟨hmem, hkey⟩ := Table.get_eq_some_iff.mp hget
    obtain rfl := Except.ok.inj h
    exact ⟨payload, hmem, rfl, hkey⟩

theorem Fusion.Sound.fusedHit_isOk {hits : List SearchResult} {fusion : Fusion}
    (h : fusion.Sound hits) {entry : String × F32} (hentry : entry ∈ fusion.rrfScores.rows) :
    ∃ result, fusedHit fusion.docMap entry = .ok result := by
  have hscored : (fusion.rrfScores.get entry.1).isSome := by
    rw [Table.mem_iff_get.mp hentry]
    rfl
  obtain ⟨payload, hpayload⟩ := Option.isSome_iff_exists.mp (h.known entry.1 hscored)
  exact ⟨{ payload with score := entry.2, source := .hybrid }, by rw [fusedHit, hpayload]⟩

/-- The hits before they are sorted. -/
theorem Fusion.Sound.hits_of_mapM {hits : List SearchResult} {fusion : Fusion} (h : fusion.Sound hits)
    {fused : List SearchResult} (hfused : fusion.rrfScores.rows.mapM (fusedHit fusion.docMap) = .ok fused) :
    (fused.map (·.docId)).Nodup ∧ ∀ result ∈ fused,
      F32.Between F32.zero F32.absorbing result.score ∧ MergedFrom hits result := by
  have hall := mapM_eq_ok_iff.mp hfused
  constructor
  · have hids : fused.map (·.docId) = fusion.rrfScores.rows.map (·.1) := by
      refine (List.forall₂_eq_eq_eq ▸ List.forall₂_map_left_iff.mpr
        (List.forall₂_map_right_iff.mpr (hall.flip.imp fun result entry hresult => ?_)))
      obtain ⟨-, -, -, hdoc⟩ := fusedHit_eq_ok hresult
      exact hdoc
    rw [hids]
    exact fusion.rrfScores.nodup
  · intro result hresult
    obtain ⟨i, hi, rfl⟩ := List.getElem_of_mem hresult
    have hhit := hall.get (hall.length_eq ▸ hi) hi
    have hentry := List.getElem_mem (hall.length_eq ▸ hi)
    obtain ⟨payload, hpayload, hresult, -⟩ := fusedHit_eq_ok hhit
    have hmerged := h.payloads payload hpayload
    rw [List.get_eq_getElem] at hresult
    rw [hresult]
    exact ⟨h.scores _ hentry, hmerged.body, hmerged.fields⟩

variable (arith) in
/-- The ranker does not panic. -/
theorem exists_fuse (vectorResults keywordResults : List SearchResult) :
    ∃ fused, fuse arith vectorResults keywordResults = .ok fused ∧
      Ranked (vectorResults ++ keywordResults) fused := by
  have hsound := sound_collect arith vectorResults keywordResults
  obtain ⟨fused, hfused⟩ := mapM_isOk fun entry hentry => hsound.fusedHit_isOk hentry
  obtain ⟨hdistinct, hhits⟩ := hsound.hits_of_mapM hfused
  have hnumbers : fused.length < 2 ∨ ∀ result ∈ fused, result.score.isNan = false :=
    .inr fun result hresult => (hhits result hresult).1.number
  have hperm := List.mergeSort_perm fused fun left right => compareFused left right ≠ .gt
  refine ⟨fused.mergeSort fun left right => compareFused left right ≠ .gt, ?_, ?_, ?_, ?_, ?_⟩
  · exact bind_eq_ok.mpr ⟨fused, hfused, bind_eq_ok.mpr ⟨(), if_pos hnumbers, rfl⟩⟩
  · exact (hperm.map _).nodup_iff.mpr hdistinct
  · have hne : (fused.mergeSort fun left right => compareFused left right ≠ .gt).Pairwise
        fun left right => left.docId ≠ right.docId :=
      List.pairwise_map.mp ((hperm.map _).nodup_iff.mpr hdistinct)
    refine (pairwise_mergeSort fused).imp₂ (fun left right hle hne => ?_) hne
    have heq : compareFused left right ≠ .eq := by
      intro heq
      rw [compareFused, Ordering.then_eq_eq, compare_eq_iff_eq, compare_eq_iff_eq] at heq
      exact hne heq.2
    cases hcompare : compareFused left right with
    | lt => rfl
    | eq => exact absurd hcompare heq
    | gt => exact absurd hcompare hle
  · exact fun result hresult => (hhits result (hperm.mem_iff.mp hresult)).1
  · exact fun result hresult => (hhits result (hperm.mem_iff.mp hresult)).2

end HybridRanker

end LTSearch
