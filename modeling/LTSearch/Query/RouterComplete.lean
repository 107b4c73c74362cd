/-
# LTSearch.Query.RouterComplete -- a filtered search is complete up to the largest window

The window doubles until enough hits pass the filters or it has reached its maximum, so the search
ends, and it under-fills a response only by what the retrievers give for the largest window.
-/
import LTSearch.Foundation.CallBound
import LTSearch.Query.RouterSound

namespace LTSearch

open LTSearch.Foundation Contract.Safe

namespace QueryRouter

section Complete

variable {env : RouterEnv} {manifest : ActiveManifest} {request : SearchRequest}
  {queryEmbedding : Except String (List F32)} {history : History}

/-! ## Windows -/

/-- From its maximum on, the number that is asked for fills the window. -/
theorem retrievalWindow_of_le {topK : Nat} (h : searchWindowMax ≤ topK) :
    retrievalWindow topK = searchWindowMax := by
  simp only [retrievalWindow, saturatingMul, Checked.usizeSize, searchWindowMax] at h ⊢
  omega

/-- The window has room for what was asked for. -/
theorem le_retrievalWindow {topK : Nat} (h : topK ≤ searchWindowMax) : topK ≤ retrievalWindow topK := by
  simp only [retrievalWindow, saturatingMul, Checked.usizeSize, searchWindowMax] at h ⊢
  omega

/-! ## The search ends -/

theorem callsAtMost_searchPass (warned : Bool) (topK : Nat) :
    (searchPass env request manifest queryEmbedding warned topK).run.CallsAtMost 3 := by
  cases queryEmbedding with
  | ok embedding =>
      unfold searchPass searchGrouped
      refine Prog.CallsAtMost.bindExcept (m := 1) (n := 2) (Prog.callsAtMost_ask _).liftExcept fun _ => ?_
      refine Prog.CallsAtMost.bindExcept (m := 1) (n := 1) (Prog.callsAtMost_ask _).liftExcept fun _ => ?_
      refine Prog.CallsAtMost.bindExcept (m := 1) (n := 0) (Prog.callsAtMost_ask _).liftExcept fun _ => ?_
      exact Prog.callsAtMost_check _
  | error error =>
      have hkeyword : (do
          let dynamicChunks ← searchKeywordOnly manifest request.query (retrievalWindow topK)
          return { staticChunks := [], dynamicChunks } : SearchM GroupedSearchResults).run.CallsAtMost 1 := by
        refine Prog.CallsAtMost.bindExcept (m := 1) (n := 0) ?_ fun _ => trivial
        exact Prog.CallsAtMost.bindExcept (m := 1) (n := 0) (Prog.callsAtMost_ask _).liftExcept
          fun _ => Prog.callsAtMost_check _
      cases warned with
      | true => exact hkeyword.mono (by omega)
      | false =>
          refine (Prog.CallsAtMost.bindExcept (m := 1) (n := 1) ?_ fun _ => hkeyword).mono (by omega)
          exact (Prog.callsAtMost_ask _).liftExcept

/-- As many passes as it takes to double the window to its maximum. -/
theorem callsAtMost_growWindow (doublings : Nat) {topK : Nat} (warned : Bool)
    (h : searchWindowMax ≤ topK * 2 ^ doublings) :
    (growWindow env request manifest queryEmbedding topK warned).run.CallsAtMost
      (3 * (doublings + 1)) := by
  induction doublings generalizing topK warned with
  | zero =>
      rw [growWindow]
      refine Prog.CallsAtMost.bindExcept (m := 3) (n := 0) (callsAtMost_searchPass warned topK)
        fun results => ?_
      show Prog.CallsAtMost (ExceptT.run (if _ : _ then _ else _)) 0
      rw [dif_pos (.inr (by simpa using h))]
      trivial
  | succ doublings ih =>
      rw [growWindow, show 3 * (doublings + 1 + 1) = 3 + 3 * (doublings + 1) by omega]
      refine Prog.CallsAtMost.bindExcept (callsAtMost_searchPass warned topK) fun results => ?_
      show Prog.CallsAtMost (ExceptT.run (if _ : _ then _ else _)) _
      split
      · trivial
      show Prog.CallsAtMost (ExceptT.run (if _ : _ then _ else _)) _
      split
      · trivial
      refine ih true ?_
      rw [pow_succ, Nat.mul_comm _ 2, ← Nat.mul_assoc] at h
      simp only [saturatingMul, Checked.usizeSize, searchWindowMax] at h ⊢
      rcases Nat.lt_or_ge (topK * 2) 100 with hsmall | hlarge
      · rw [Nat.min_eq_left (by omega), Nat.min_eq_left (by omega)]
        exact h
      · rw [Nat.min_eq_right (by omega)]
        exact Nat.le_mul_of_pos_right 100 (Nat.two_pow_pos _)

/-- The manifest, two embeddings, eight passes of three calls, and the clock. -/
def searchCallsMax : Nat := 28

theorem callsAtMost_search {M E K V S : Type} (router : QueryRouter M E K V S) :
    (search env router request).run.CallsAtMost searchCallsMax := by
  have hresults : ∀ manifest queryEmbedding,
      (searchResults env request manifest queryEmbedding).run.CallsAtMost 24 := by
    intro manifest queryEmbedding
    unfold searchResults
    split
    · refine callsAtMost_growWindow 7 false ?_
      simp only [searchWindowMax]
      omega
    · exact (callsAtMost_searchPass false request.topK).mono (by omega)
  have hgenerate : (generateEmbeddingWithRetry request.query).CallsAtMost 2 := by
    unfold generateEmbeddingWithRetry
    refine Prog.CallsAtMost.bind (m := 1) (n := 1) (Prog.callsAtMost_ask _) fun first => ?_
    cases first with
    | ok embedding => trivial
    | error error => exact Prog.callsAtMost_ask _
  unfold search respond
  refine Prog.CallsAtMost.bindExcept (m := 28) (n := 0) ?_ fun response => ?_
  · refine Prog.CallsAtMost.bindExcept (m := 0) (n := 28) (Prog.callsAtMost_check _) fun _ => ?_
    refine Prog.CallsAtMost.bindExcept (m := 1) (n := 27) (Prog.callsAtMost_ask _).liftExcept
      fun loaded => ?_
    refine Prog.CallsAtMost.bindExcept (m := 0) (n := 27) (Prog.callsAtMost_check _) fun manifest => ?_
    refine Prog.CallsAtMost.bindExcept (m := 2) (n := 25) hgenerate.liftExcept fun embedding => ?_
    refine Prog.CallsAtMost.bindExcept (m := 24) (n := 1) (hresults manifest embedding) fun results => ?_
    exact Prog.CallsAtMost.bindExcept (m := 1) (n := 0) (Prog.callsAtMost_ask _).liftExcept
      fun _ => trivial
  · exact Prog.CallsAtMost.bindExcept (m := 0) (n := 0) (Prog.callsAtMost_check _) fun _ => trivial

/-! ## What is left out -/

/-- What the retrievers gave for a window after the embedding was generated, or was not. -/
def GaveTo (env : RouterEnv) (request : SearchRequest) (manifest : ActiveManifest)
    (history : History) (window : Nat) (dynamic : List SearchResult) : Except String (List F32) → Prop
  | .ok embedding => ∃ vectorHits keywordHits,
      ⟨.searchVector manifest embedding window, .returned (.ok vectorHits)⟩ ∈ history ∧
      ⟨.searchKeyword manifest request.query window, .returned (.ok keywordHits)⟩ ∈ history ∧
      HybridRanker.fuse env.rank vectorHits keywordHits = .ok dynamic
  | .error _ => ⟨.searchKeyword manifest request.query window, .returned (.ok dynamic)⟩ ∈ history

theorem GaveTo.append {window : Nat} {dynamic : List SearchResult}
    (h : GaveTo env request manifest history window dynamic queryEmbedding) (later : History) :
    GaveTo env request manifest (history ++ later) window dynamic queryEmbedding := by
  cases queryEmbedding with
  | ok embedding =>
      obtain ⟨vectorHits, keywordHits, hvector, hkeyword, hfuse⟩ := h
      exact ⟨vectorHits, keywordHits, List.mem_append_left _ hvector,
        List.mem_append_left _ hkeyword, hfuse⟩
  | error error => exact List.mem_append_left _ h

theorem fuse_of_groupResults {static keyword vector : Retrieved} {results : GroupedSearchResults}
    (h : groupResults env static keyword vector = .ok results) :
    ∃ vectorHits keywordHits, vector = .returned (.ok vectorHits) ∧
      keyword = .returned (.ok keywordHits) ∧
      HybridRanker.fuse env.rank vectorHits keywordHits = .ok results.dynamicChunks := by
  simp only [groupResults, bind_eq_ok, joined_eq_ok, lifted_eq_ok] at h
  obtain ⟨_, rfl, _, rfl, _, rfl, staticHits, rfl, keywordHits, rfl, vectorHits, rfl, _, -, _, -, _, -,
    dynamic, hfuse, hresults⟩ := h
  cases hresults
  exact ⟨vectorHits, keywordHits, rfl, rfl, hfuse⟩

/-- A pass returns what the retrievers give for its window. -/
theorem safe_searchPass_gave (warned : Bool) (topK : Nat) :
    contract.Safe () (searchPass env request manifest queryEmbedding warned topK).run
      (OnOk fun results history' =>
        GaveTo env request manifest history' (retrievalWindow topK) results.dynamicChunks queryEmbedding)
      history := by
  cases queryEmbedding with
  | ok embedding =>
      unfold searchPass searchGrouped
      refine bindExcept (liftExcept (safe_call fun static => ?_))
      refine bindExcept (liftExcept (safe_call fun keyword => ?_))
      refine bindExcept (liftExcept (safe_call fun vector => ?_))
      refine checkExcept (fun results hresults history' hrely _ => ?_) fun _ _ _ _ _ => trivial
      rw [Contract.rely_solo hrely]
      obtain ⟨vectorHits, keywordHits, rfl, rfl, hfuse⟩ := fuse_of_groupResults hresults
      refine ⟨vectorHits, keywordHits, ?_, ?_, hfuse⟩
      all_goals simp only [List.mem_append, List.mem_singleton, true_or, or_true]
  | error error =>
      have hkeyword : ∀ history, contract.Safe ()
          (do
            let dynamicChunks ← searchKeywordOnly manifest request.query (retrievalWindow topK)
            return { staticChunks := [], dynamicChunks } : SearchM GroupedSearchResults).run
          (OnOk fun results history' => GaveTo env request manifest history' (retrievalWindow topK)
            results.dynamicChunks (.error error)) history := by
        intro history
        unfold searchKeywordOnly
        refine bindExcept (bindExcept (liftExcept (safe_call fun keyword => ?_)))
        refine checkExcept (fun dynamic hdynamic history₁ hrely _ => ?_) fun _ _ _ _ _ => trivial
        refine pureExcept fun history₂ hrely' _ => ?_
        rw [Contract.rely_solo hrely', Contract.rely_solo hrely]
        obtain ⟨rfl, -⟩ := checkedResults_eq_ok hdynamic
        exact List.mem_append_right _ (List.mem_singleton_self _)
      cases warned with
      | true => exact hkeyword history
      | false => exact bindExcept (liftExcept (safe_call fun _ => hkeyword _))

/-- How many hits have what every filter of the request asks for. -/
def passing (env : RouterEnv) (request : SearchRequest) (results : List SearchResult) : Nat :=
  results.countP fun result => Satisfies env.asF64 request.filters result

theorem length_applyFilters (results : List SearchResult) :
    (applyFilters env.asF64 results request.filters).length = passing env request results := by
  rw [applyFilters_eq]
  exact List.countP_eq_length_filter.symm

/-- Enough hits pass the filters, or the retrievers gave these for the largest window. -/
def Filled (env : RouterEnv) (request : SearchRequest) (manifest : ActiveManifest)
    (queryEmbedding : Except String (List F32)) (results : GroupedSearchResults) (history : History) :
    Prop :=
  request.topK ≤ passing env request results.dynamicChunks ∨
    GaveTo env request manifest history searchWindowMax results.dynamicChunks queryEmbedding

/-- The loop ends for one of these reasons: as long as the window is below its maximum, it grows. -/
theorem safe_growWindow_filled (topK : Nat) (warned : Bool) (hpos : 1 ≤ topK) :
    contract.Safe () (growWindow env request manifest queryEmbedding topK warned).run
      (OnOk (Filled env request manifest queryEmbedding)) history := by
  induction hleft : searchWindowMax - topK using Nat.strong_induction_on
    generalizing topK warned history with
  | h left ih =>
  subst hleft
  rw [growWindow]
  refine bindExcept ((safe_searchPass_gave warned topK).mono fun r history' _ hr => ?_)
  cases r with
  | error e => trivial
  | ok results =>
      show contract.Safe () (ExceptT.run (if _ : _ then _ else _)) _ history'
      split
      · rename_i hdone
        refine pureExcept fun history'' hrely _ => ?_
        rw [Contract.rely_solo hrely]
        refine hdone.imp (fun henough => ?_) fun hmax => ?_
        · rwa [ge_iff_le, length_applyFilters] at henough
        · rwa [retrievalWindow_of_le hmax] at hr
      · rename_i hnot
        show contract.Safe () (ExceptT.run (if _ : _ then _ else _)) _ history'
        simp only [not_or, not_le, searchWindowMax] at hnot
        split
        · -- a window below its maximum does not stay the same
          rename_i hsame
          simp only [saturatingMul, Checked.usizeSize, searchWindowMax] at hsame
          omega
        · refine ih _ ?_ _ true ?_ rfl
          · simp only [saturatingMul, Checked.usizeSize, searchWindowMax]
            omega
          · simp only [saturatingMul, Checked.usizeSize, searchWindowMax]
            omega

/-! ## The response -/

/-- What the retrievers gave for the largest window: fused, or keyword hits only where no embedding
was generated. -/
def GaveAtLargest (env : RouterEnv) (request : SearchRequest) (history : History) (dynamic : List SearchResult) : Prop :=
  ∃ manifest queryEmbedding, GaveTo env request manifest history searchWindowMax dynamic queryEmbedding ∧
    ((∃ query embedding, ⟨.generate query, .ok embedding⟩ ∈ history) ↔
      ∃ embedding, queryEmbedding = .ok embedding)

/-- A response has as many dynamic chunks as were asked for, or as many as there are hits that pass
the filters in what the retrievers gave for the largest window. -/
def Complete (env : RouterEnv) (request : SearchRequest) (response : SearchResponse)
    (history : History) : Prop :=
  request.topK ≤ response.dynamicCount ∨ ∃ dynamic, GaveAtLargest env request history dynamic ∧
    min request.topK (passing env request dynamic) ≤ response.dynamicCount

/-- A group is cut to a window that has room for what was asked for. -/
theorem le_length_shape {results : List SearchResult} (h : request.topK ≤ searchWindowMax) :
    min request.topK (passing env request results) ≤ (shape env request results).length := by
  have hroom := le_retrievalWindow h
  rw [← length_applyFilters]
  unfold shape
  split
  · rw [List.length_take]
    omega
  · rw [stripMetadata, List.length_map, List.length_take]
    omega

/-- A valid request asks for no more than the largest window. -/
theorem topK_le_of_validate (h : request.validate = .ok ()) : request.topK ≤ searchWindowMax := by
  simp only [SearchRequest.validate, check_bind_eq_ok, rejectIf_eq_ok] at h
  obtain ⟨-, -, hrange, -⟩ := h
  simp only [not_or, topKMax, searchWindowMax] at hrange ⊢
  omega

section Respond

variable {M E K V S : Type} {router : QueryRouter M E K V S}

theorem safe_respond_complete (hfilters : queryRequiresIterativeFiltering request = true) :
    contract.Safe () (respond env router request).run (OnOk (Complete env request)) [] := by
  unfold respond
  refine bindCheck (fun _ hvalid history hrely _ => ?_) fun _ _ _ _ _ => trivial
  obtain rfl := Contract.rely_solo hrely
  have htopK := topK_le_of_validate (mapError_eq_ok.mp (lifted_eq_ok.mp hvalid))
  refine bindExcept (liftExcept (safe_call fun loaded => ?_))
  refine bindCheck (fun manifest hmanifest history hrely _ => ?_) fun _ _ _ _ _ => trivial
  obtain rfl := Contract.rely_solo hrely
  obtain rfl : loaded = .ok manifest := mapError_eq_ok.mp (lifted_eq_ok.mp hmanifest)
  refine bindExcept (liftExcept ((safe_generateEmbeddingWithRetry request.query).mono
    fun queryEmbedding history₁ _ hprepared => ?_))
  rw [searchResults, if_pos hfilters]
  refine bindExcept (((safe_growWindow request (max request.topK 1) false hprepared).and
    (safe_growWindow_filled (max request.topK 1) false (le_max_right _ _))).mono
    fun r history₂ _ hr => ?_)
  cases r with
  | error e => trivial
  | ok results =>
      obtain ⟨⟨hprepared₂, -, -⟩, hfilled⟩ := hr
      refine bindExcept (liftExcept (safe_call fun latencyMs => ?_))
      refine pureExcept fun history₃ hrely _ => ?_
      rw [Contract.rely_solo hrely]
      have hcount : min request.topK (passing env request results.dynamicChunks) ≤
          (shape env request results.dynamicChunks).length := le_length_shape htopK
      rcases hfilled with henough | hgave
      · refine .inl (le_trans ?_ hcount)
        exact le_min le_rfl henough
      · refine .inr ⟨results.dynamicChunks, ⟨manifest, queryEmbedding, hgave.append _, ?_⟩, hcount⟩
        exact (hprepared₂.append .elapsed latencyMs).embedded

theorem safe_search_complete (hfilters : queryRequiresIterativeFiltering request = true) :
    contract.Safe () (search env router request).run (OnOk (Complete env request)) [] := by
  unfold search
  refine bindExcept ((safe_respond_complete hfilters).mono fun r history _ hr => ?_)
  cases r with
  | error e => trivial
  | ok response =>
      refine bindCheck (fun _ _ history' hrely _ => ?_) fun _ _ _ _ _ => trivial
      refine pureExcept fun history'' hrely' _ => ?_
      rw [Contract.rely_solo hrely', Contract.rely_solo hrely]
      exact hr

end Respond

end Complete

/-- A filtered search ends, and a response is complete up to the largest window. -/
theorem filteredSearch_complete {M E K V S : Type} (env : RouterEnv) (router : QueryRouter M E K V S)
    (request : SearchRequest) (hfilters : queryRequiresIterativeFiltering request = true)
    (answers : List ((op : RouterOp) → op.Ans)) :
    (searchCallsMax ≤ answers.length →
      ∃ result, (played (search env router request) answers).threads () = .done result) ∧
    ∀ response, (played (search env router request) answers).threads () = .done (.ok response) →
      Complete env request response (played (search env router request) answers).world := by
  constructor
  · intro hlength
    refine Machine.done_of_callsAtMost (n := searchCallsMax) (callsAtMost_search router)
      (fun _ _ => rfl) ?_
    rwa [List.length_map]
  · exact fun response hdone => played_post (safe_search_complete hfilters) hdone

/-! ## A window that grows -/

namespace GrowingWindow

/-- `1/62` of `62`, and `1/61` elsewhere. -/
def reciprocal (x : F32) : F32 := if x = ⟨0x42780000#32⟩ then ⟨0x3c842108#32⟩ else ⟨0x3c864b8a#32⟩

theorem between_reciprocal (x : F32) : F32.Between F32.zero F32.share (reciprocal x) := by
  unfold reciprocal
  split
  · exact ⟨by decide, by decide, by decide⟩
  · exact ⟨by decide, by decide, by decide⟩

/-- The arithmetic on the values that come up here, and something in range elsewhere. -/
def rank : RankArith where
  add x y :=
    if x = ⟨0x42700000#32⟩ then (if y = ⟨0x40000000#32⟩ then ⟨0x42780000#32⟩ else ⟨0x42740000#32⟩)
    else if x = F32.zero then y
    else x
  div _ y := reciprocal y
  ofUsize rank := if rank = 2 then ⟨0x40000000#32⟩ else F32.one
  rrfK := ⟨0x42700000#32⟩
  between_share _ := between_reciprocal _
  between_add hx hy := by
    split
    · split
      · exact ⟨by decide, by decide, by decide⟩
      · exact ⟨by decide, by decide, by decide⟩
    · split
      · exact ⟨hy.number, hy.lower_le, hy.le_upper.trans (by decide)⟩
      · exact hx

def parts : RouterEnv := { rank, asF64 := fun _ => none }

def hit (source : SearchSource) (docId lang : String) : SearchResult where
  docId
  score := F32.one
  text := "text"
  metadata := some [("lang", .str lang)]
  source
  chunkSource := .dynamic
  corpusType := none
  citation := none

def request : SearchRequest where
  query := "rust search"
  topK := 2
  filters := some [("lang", .stringEquals "rust")]
  includeMetadata := true
  corpusWeights := none

def vectorHits : List SearchResult := [hit .vector "doc-1" "rust"]

def keywordHits : List SearchResult := [hit .keyword "doc-2" "go", hit .keyword "doc-3" "rust"]

/-- The keyword index gives one hit for every six that are asked for. -/
def answers : (op : RouterOp) → op.Ans
  | .loadActiveManifest => .ok TwoHalves.activeManifest
  | .generate _ => .ok [F32.one]
  | .searchStatic _ _ _ => .returned (.ok [])
  | .searchKeyword _ _ topK => .returned (.ok (keywordHits.take (topK / 6)))
  | .searchVector _ _ _ => .returned (.ok vectorHits)
  | .warn _ => ()
  | .elapsedMillis => 3

/-- The fused hits of the larger window. -/
def fused : List SearchResult :=
  [{ hit .hybrid "doc-1" "rust" with score := ⟨0x3c864b8a#32⟩ },
    { hit .hybrid "doc-2" "go" with score := ⟨0x3c864b8a#32⟩ },
    { hit .hybrid "doc-3" "rust" with score := ⟨0x3c842108#32⟩ }]

theorem fuse_eq {keyword results : List SearchResult}
    (hhits : (HybridRanker.collect rank vectorHits keyword).rrfScores.rows.mapM
      (HybridRanker.fusedHit (HybridRanker.collect rank vectorHits keyword).docMap) = .ok results)
    (hscores : ∀ result ∈ results, result.score.isNan = false)
    (hordered : results.Pairwise fun left right => HybridRanker.compareFused left right ≠ .gt) :
    HybridRanker.fuse rank vectorHits keyword = .ok results := by
  unfold HybridRanker.fuse
  refine bind_eq_ok.mpr ⟨_, hhits, bind_eq_ok.mpr ⟨(), if_pos (.inr hscores), ?_⟩⟩
  refine congrArg Except.ok (List.mergeSort_of_pairwise ?_)
  exact hordered.imp fun h => decide_eq_true h

/-- The smaller window has room for one of the keyword hits, the larger one for both. -/
theorem fuse_smaller : HybridRanker.fuse rank vectorHits (keywordHits.take 1) = .ok (fused.take 2) :=
  fuse_eq rfl (by decide) (by decide)

theorem fuse_larger : HybridRanker.fuse rank vectorHits keywordHits = .ok fused :=
  fuse_eq rfl (by decide) (by decide)

/-- The three calls of a pass. -/
def passCalls (window : Nat) : History :=
  [⟨.searchStatic TwoHalves.activeManifest [F32.one] window, .returned (.ok [])⟩,
    ⟨.searchKeyword TwoHalves.activeManifest request.query window,
      .returned (.ok (keywordHits.take (window / 6)))⟩,
    ⟨.searchVector TwoHalves.activeManifest [F32.one] window, .returned (.ok vectorHits)⟩]

theorem alone_searchPass (topK window : Nat) {results : List SearchResult} (warned : Bool)
    (history : History) (hwindow : retrievalWindow topK = window)
    (hfuse : HybridRanker.fuse rank vectorHits (keywordHits.take (window / 6)) = .ok results) :
    machine.alone () answers (searchPass parts request TwoHalves.activeManifest (.ok [F32.one])
        warned topK).run history =
      (.ok { staticChunks := [], dynamicChunks := results }, history ++ passCalls window) := by
  subst hwindow
  have hvalid : ∀ hits : List SearchResult, (∀ hit ∈ hits, hit ∈ vectorHits ++ keywordHits) →
      Checked.lifted (validateResults hits) = .ok () := by
    refine fun hits hhits => lifted_eq_ok.mpr (validateResults_eq_ok.mpr fun hit hhit => ?_)
    have hall : ∀ hit ∈ vectorHits ++ keywordHits, hit.docId ≠ "" ∧ hit.score.isFinite = true := by
      decide
    exact SearchResult.validate_eq_ok.mpr (hall hit (hhits hit hhit))
  have hgroups : groupResults parts (.returned (.ok []))
      (.returned (.ok (keywordHits.take (retrievalWindow topK / 6)))) (.returned (.ok vectorHits)) =
        .ok { staticChunks := [], dynamicChunks := results } := by
    refine bind_eq_ok.mpr ⟨_, rfl, bind_eq_ok.mpr ⟨_, rfl, bind_eq_ok.mpr ⟨_, rfl, ?_⟩⟩⟩
    refine bind_eq_ok.mpr ⟨_, rfl, bind_eq_ok.mpr ⟨_, rfl, bind_eq_ok.mpr ⟨_, rfl, ?_⟩⟩⟩
    refine bind_eq_ok.mpr ⟨(), hvalid _ (List.forall_mem_nil _), bind_eq_ok.mpr ⟨(), hvalid _ fun hit hhit => ?_,
      bind_eq_ok.mpr ⟨(), hvalid _ fun hit hhit => ?_, bind_eq_ok.mpr ⟨_, hfuse, rfl⟩⟩⟩⟩
    · exact List.mem_append_right _ (List.mem_of_mem_take hhit)
    · exact List.mem_append_left _ hhit
  have hcalls : ∀ x y z : Σ op : RouterOp, op.Ans, history ++ [x, y, z] = history ++ [x] ++ [y] ++ [z] := by
    intro x y z
    simp only [List.append_assoc, List.cons_append, List.nil_append]
  rw [passCalls, hcalls]
  exact (Machine.alone_bind_ok (Machine.alone_lift rfl)).trans
    ((Machine.alone_bind_ok (Machine.alone_lift rfl)).trans
      ((Machine.alone_bind_ok (Machine.alone_lift rfl)).trans (Machine.alone_ofExcept hgroups)))

/-- One of the two hits of the first pass is in Rust, and two of the three of the second. -/
theorem alone_growWindow (history : History) :
    machine.alone () answers
        (growWindow parts request TwoHalves.activeManifest (.ok [F32.one]) 2 false).run history =
      (.ok { staticChunks := [], dynamicChunks := fused }, history ++ passCalls 6 ++ passCalls 12) := by
  have hsmaller : ¬((applyFilters parts.asF64 (fused.take 2) request.filters).length ≥ request.topK ∨
      2 ≥ searchWindowMax) := by decide
  have hgrows : min (saturatingMul 2 2) searchWindowMax = 4 := by decide
  have hlarger : (applyFilters parts.asF64 fused request.filters).length ≥ request.topK ∨
      4 ≥ searchWindowMax := by decide
  rw [growWindow]
  refine (Machine.alone_bind_ok (alone_searchPass 2 6 false history (by decide) fuse_smaller)).trans ?_
  rw [dif_neg hsmaller]
  show machine.alone () answers (ExceptT.run (if _ : _ then _ else _)) _ = _
  rw [dif_neg (by decide)]
  show machine.alone () answers (growWindow parts request TwoHalves.activeManifest (.ok [F32.one])
    (min (saturatingMul 2 2) searchWindowMax) true).run _ = _
  rw [hgrows, growWindow]
  refine (Machine.alone_bind_ok (alone_searchPass 4 12 true _ (by decide) fuse_larger)).trans ?_
  rw [dif_pos hlarger]
  rfl

theorem alone_searchResults (history : History) :
    machine.alone () answers
        (searchResults parts request TwoHalves.activeManifest (.ok [F32.one])).run history =
      (.ok { staticChunks := [], dynamicChunks := fused }, history ++ passCalls 6 ++ passCalls 12) :=
  alone_growWindow history

theorem validate_request : request.validate = .ok () := by
  simp only [SearchRequest.validate, check_bind_eq_ok, rejectIf_eq_ok, forM_eq_ok]
  refine ⟨by decide, by decide, by decide, ?_, rfl⟩
  intro entry hentry
  obtain rfl := List.mem_singleton.mp hentry
  exact ⟨validateFilterFieldName_eq_ok rfl rfl rfl, rejectIf_eq_ok.mpr (by decide)⟩

theorem alone_search : ∃ response,
    machine.alone () answers (search parts TwoHalves.router request).run [] = (.ok response,
      [⟨.loadActiveManifest, .ok TwoHalves.activeManifest⟩,
          ⟨.generate request.query, .ok [F32.one]⟩] ++ passCalls 6 ++ passCalls 12 ++
        [⟨.elapsedMillis, 3⟩]) ∧
      response.dynamicChunks = shape parts request fused := by
  have hmanifest : answers .loadActiveManifest = .ok TwoHalves.activeManifest := rfl
  have hembedding : answers (.generate request.query) = .ok [F32.one] := rfl
  refine QueryRouter.alone_search validate_request hmanifest hembedding (alone_searchResults _)
    ⟨List.forall_mem_nil _, ?_⟩
  have hfused : ∀ result ∈ fused, result.docId ≠ "" ∧ result.score.isFinite = true := by decide
  exact fun result hresult => SearchResult.validate_eq_ok.mpr (hfused result hresult)

end GrowingWindow

/-- The windows that the keyword index was asked for. -/
def askedWindows (history : History) : List Nat :=
  history.filterMap fun entry => match entry.1 with
    | .searchKeyword _ _ topK => some topK
    | _ => none

/-- The first window leaves one hit that passes, the second one two, as was asked for. -/
theorem filteredSearch_complete_growingWindow :
    ∃ answers response,
      (played (search GrowingWindow.parts TwoHalves.router GrowingWindow.request) answers).threads () =
        .done (.ok response) ∧
      askedWindows (played (search GrowingWindow.parts TwoHalves.router GrowingWindow.request)
        answers).world = [6, 12] ∧
      response.dynamicChunks.map (·.docId) = ["doc-1", "doc-3"] ∧
      Complete GrowingWindow.parts GrowingWindow.request response
        (played (search GrowingWindow.parts TwoHalves.router GrowingWindow.request) answers).world := by
  obtain ⟨response, halone, hdynamic⟩ := GrowingWindow.alone_search
  obtain ⟨n, hrun, hwindows⟩ := (Machine.done_iff_alone
    { world := [], threads := fun _ =>
        (search GrowingWindow.parts TwoHalves.router GrowingWindow.request).run }
    (.ok response) fun history => askedWindows history = [6, 12]).mpr
      ⟨congrArg Prod.fst halone, by rw [halone]; rfl⟩
  have hplayed : played (search GrowingWindow.parts TwoHalves.router GrowingWindow.request)
      (List.replicate n GrowingWindow.answers) = run machine.step { world := [], threads := fun _ =>
        (search GrowingWindow.parts TwoHalves.router GrowingWindow.request).run }
        (List.replicate n ((), GrowingWindow.answers)) := by
    unfold played
    rw [List.map_replicate]
  have hdone : (played (search GrowingWindow.parts TwoHalves.router GrowingWindow.request)
      (List.replicate n GrowingWindow.answers)).threads () = .done (.ok response) := by
    rw [hplayed]
    exact hrun
  refine ⟨List.replicate n GrowingWindow.answers, response, hdone, ?_, ?_, ?_⟩
  · rw [hplayed]
    exact hwindows
  · rw [hdynamic]
    decide
  · exact (filteredSearch_complete GrowingWindow.parts TwoHalves.router GrowingWindow.request
      (by decide) _).2 response hdone

end QueryRouter

end LTSearch
