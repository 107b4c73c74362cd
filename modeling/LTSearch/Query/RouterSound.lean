/-
# LTSearch.Query.RouterSound -- what a response says of the retrievers' hits

Every response is read off the history of the calls that led to it.  The rules of a contract carry
what is known of the history from one call to the next.
-/
import LTSearch.Query.Router

namespace LTSearch

open LTSearch.Foundation Contract.Safe

namespace QueryRouter

/-! ## The history -/

/-- Between two calls nothing happens, and nothing is asked of the answers. -/
abbrev contract : Contract machine := Contract.solo machine (fun _ => True) fun _ _ _ => True

theorem safe_call {op : RouterOp} {Q : op.Ans → History → Prop} {history : History}
    (h : ∀ ans, Q ans (history ++ [⟨op, ans⟩])) : contract.Safe () (call op) Q history :=
  Contract.Safe.solo fun answers _ _ => ⟨trivial, h (answers op)⟩

/-- One manifest was loaded, and it is the one that all retrievers were given; the embedding is what
the generator answered, if it ever did. -/
structure Prepared (manifest : ActiveManifest) (queryEmbedding : Except String (List F32))
    (history : History) : Prop where
  loaded : ⟨.loadActiveManifest, .ok manifest⟩ ∈ history
  only : ∀ answer, ⟨.loadActiveManifest, answer⟩ ∈ history → answer = .ok manifest
  passed : ∀ entry ∈ history, ∀ passed ∈ entry.1.manifest?, passed = manifest
  embedded : (∃ query embedding, ⟨.generate query, .ok embedding⟩ ∈ history) ↔
    ∃ embedding, queryEmbedding = .ok embedding

/-- The calls that come after the embedding. -/
inductive Retrieves (manifest : ActiveManifest) : RouterOp → Prop where
  | static (embedding topK) : Retrieves manifest (.searchStatic manifest embedding topK)
  | keyword (query topK) : Retrieves manifest (.searchKeyword manifest query topK)
  | vector (embedding topK) : Retrieves manifest (.searchVector manifest embedding topK)
  | warn (message) : Retrieves manifest (.warn message)
  | elapsed : Retrieves manifest .elapsedMillis

variable {manifest : ActiveManifest} {queryEmbedding : Except String (List F32)} {history : History}

theorem Prepared.append (h : Prepared manifest queryEmbedding history) {op : RouterOp}
    (hop : Retrieves manifest op) (ans : op.Ans) :
    Prepared manifest queryEmbedding (history ++ [⟨op, ans⟩]) where
  loaded := List.mem_append_left _ h.loaded
  only answer hanswer := by
    rcases List.mem_append.mp hanswer with hanswer | hanswer
    · exact h.only answer hanswer
    · -- a retrieval is no load of the manifest
      cases hop <;> cases List.mem_singleton.mp hanswer
  passed entry hentry passed hpassed := by
    rcases List.mem_append.mp hentry with hentry | hentry
    · exact h.passed entry hentry passed hpassed
    · obtain rfl := List.mem_singleton.mp hentry
      cases hop <;> cases hpassed <;> rfl
  embedded := by
    rw [← h.embedded]
    constructor
    · rintro ⟨query, embedding, hmem⟩
      rcases List.mem_append.mp hmem with hmem | hmem
      · exact ⟨query, embedding, hmem⟩
      · cases hop <;> cases List.mem_singleton.mp hmem
    · rintro ⟨query, embedding, hmem⟩
      exact ⟨query, embedding, List.mem_append_left _ hmem⟩

/-! ## One pass -/

variable {env : RouterEnv}

/-- The hits of all three retrievers, those of the two dynamic ones fused. -/
structure HybridGroups (manifest : ActiveManifest) (history : History)
    (static dynamic : List SearchResult) (vectorHits keywordHits : List SearchResult) : Prop where
  static : ∃ embedding topK,
    ⟨.searchStatic manifest embedding topK, .returned (.ok static)⟩ ∈ history
  vector : ∃ embedding topK,
    ⟨.searchVector manifest embedding topK, .returned (.ok vectorHits)⟩ ∈ history
  keyword : ∃ query topK,
    ⟨.searchKeyword manifest query topK, .returned (.ok keywordHits)⟩ ∈ history
  ranked : HybridRanker.Ranked (vectorHits ++ keywordHits) dynamic

/-- Where the groups of a pass come from. -/
def GroupsFrom (manifest : ActiveManifest) (history : History) (results : GroupedSearchResults) :
    Except String (List F32) → Prop
  | .ok _ => ∃ vectorHits keywordHits,
      HybridGroups manifest history results.staticChunks results.dynamicChunks vectorHits keywordHits
  | .error _ => results.staticChunks = [] ∧ ∃ query topK,
      ⟨.searchKeyword manifest query topK, .returned (.ok results.dynamicChunks)⟩ ∈ history

/-- All hits pass their own check. -/
def Valid (results : GroupedSearchResults) : Prop :=
  (∀ result ∈ results.staticChunks, result.validate = .ok ()) ∧
    ∀ result ∈ results.dynamicChunks, result.validate = .ok ()

theorem lifted_eq_ok {ε α : Type} {x : Except ε α} {a : α} : Checked.lifted x = .ok a ↔ x = .ok a := by
  cases x with
  | ok b => simp only [Checked.lifted, Except.ok.injEq]
  | error e => constructor <;> intro h <;> cases h

theorem joined_eq_ok {context : String} {unjoined : List Retrieved} {retrieved : Retrieved}
    {results : Except SearchError (List SearchResult)} :
    joined context unjoined retrieved = .ok results ↔ retrieved = .returned results := by
  cases retrieved with
  | returned results' => simp only [joined, Except.ok.injEq, Retrieved.returned.injEq]
  | panicked payload =>
      have hstops : ∃ stop, joined context unjoined (.panicked payload) = .error stop := by
        simp only [joined]
        split <;> exact ⟨_, rfl⟩
      obtain ⟨stop, hstop⟩ := hstops
      exact iff_of_false (fun h => by cases hstop.symm.trans h) fun h => by cases h

/-- A fused hit passes the check that its hits pass. -/
theorem validate_of_ranked {hits fused : List SearchResult} (h : HybridRanker.Ranked hits fused)
    (hhits : ∀ hit ∈ hits, hit.validate = .ok ()) : ∀ result ∈ fused, result.validate = .ok () := by
  intro result hresult
  obtain ⟨hit, hhit, hdoc, -⟩ := (h.merged result hresult).body
  have hvalid := SearchResult.validate_eq_ok.mp (hhits hit hhit)
  exact SearchResult.validate_eq_ok.mpr ⟨hdoc ▸ hvalid.1, (h.scores result hresult).isFinite⟩

/-- What the three threads must have returned. -/
theorem groupResults_eq_ok {static keyword vector : Retrieved} {results : GroupedSearchResults}
    (h : groupResults env static keyword vector = .ok results) :
    ∃ vectorHits keywordHits, static = .returned (.ok results.staticChunks) ∧
      keyword = .returned (.ok keywordHits) ∧ vector = .returned (.ok vectorHits) ∧
      HybridRanker.Ranked (vectorHits ++ keywordHits) results.dynamicChunks ∧ Valid results := by
  simp only [groupResults, bind_eq_ok, joined_eq_ok, lifted_eq_ok] at h
  obtain ⟨_, rfl, _, rfl, _, rfl, staticHits, rfl, keywordHits, rfl, vectorHits, rfl, _, hstatic, _,
    hkeyword, _, hvector, dynamic, hfuse, hresults⟩ := h
  cases hresults
  obtain ⟨fused, hfused, hranked⟩ :=
    HybridRanker.exists_fuse env.rank vectorHits keywordHits
  obtain rfl := Except.ok.inj (hfused.symm.trans hfuse)
  refine ⟨vectorHits, keywordHits, rfl, rfl, rfl, hranked, validateResults_eq_ok.mp hstatic,
    validate_of_ranked hranked fun hit hhit => ?_⟩
  rcases List.mem_append.mp hhit with hhit | hhit
  · exact validateResults_eq_ok.mp hvector hit hhit
  · exact validateResults_eq_ok.mp hkeyword hit hhit

theorem checkedResults_eq_ok {retrieved : Retrieved} {results : List SearchResult}
    (h : checkedResults retrieved = .ok results) :
    retrieved = .returned (.ok results) ∧ ∀ result ∈ results, result.validate = .ok () := by
  cases retrieved with
  | panicked payload => cases h
  | returned answer =>
      simp only [checkedResults, bind_eq_ok, lifted_eq_ok] at h
      obtain ⟨results', rfl, _, hvalid, hresults⟩ := h
      cases hresults
      exact ⟨rfl, validateResults_eq_ok.mp hvalid⟩

/-- What is known after a pass. -/
def PassDone (manifest : ActiveManifest) (queryEmbedding : Except String (List F32))
    (results : GroupedSearchResults) (history : History) : Prop :=
  Prepared manifest queryEmbedding history ∧ GroupsFrom manifest history results queryEmbedding ∧
    Valid results

/-- After an error nothing is claimed. -/
abbrev OnOk {α : Type} (Q : α → History → Prop) : Except (Stop SearchError) α → History → Prop :=
  Contract.Safe.Outcome Q fun _ _ => True

theorem safe_searchGrouped {embedding : List F32} (query : String) (topK : Nat)
    (h : Prepared manifest (.ok embedding) history) :
    contract.Safe () (searchGrouped env manifest query embedding topK).run
      (OnOk (PassDone manifest (.ok embedding))) history := by
  unfold searchGrouped
  refine bindExcept (liftExcept (safe_call fun static => ?_))
  have h₁ := h.append (.static embedding topK) static
  refine bindExcept (liftExcept (safe_call fun keyword => ?_))
  have h₂ := h₁.append (.keyword query topK) keyword
  refine bindExcept (liftExcept (safe_call fun vector => ?_))
  have h₃ := h₂.append (.vector embedding topK) vector
  -- the three answers are in the history now, under the arguments they were asked with
  refine checkExcept (fun results hresults history' hrely _ => ?_) fun _ _ _ _ _ => trivial
  rw [Contract.rely_solo hrely]
  obtain ⟨vectorHits, keywordHits, rfl, rfl, rfl, hranked, hvalid⟩ := groupResults_eq_ok hresults
  refine ⟨h₃, ⟨vectorHits, keywordHits, ⟨embedding, topK, ?_⟩, ⟨embedding, topK, ?_⟩,
    ⟨query, topK, ?_⟩, hranked⟩, hvalid⟩
  all_goals simp only [List.mem_append, List.mem_singleton, true_or, or_true]

theorem safe_searchKeywordOnly {error : String} (query : String) (topK : Nat)
    (h : Prepared manifest (.error error) history) :
    contract.Safe () (searchKeywordOnly manifest query topK).run
      (OnOk fun dynamic => PassDone manifest (.error error)
        { staticChunks := [], dynamicChunks := dynamic }) history := by
  unfold searchKeywordOnly
  refine bindExcept (liftExcept (safe_call fun keyword => ?_))
  refine checkExcept (fun results hresults history' hrely _ => ?_) fun _ _ _ _ _ => trivial
  rw [Contract.rely_solo hrely]
  obtain ⟨rfl, hvalid⟩ := checkedResults_eq_ok hresults
  exact ⟨h.append (.keyword query topK) _,
    ⟨rfl, query, topK, List.mem_append_right _ (List.mem_singleton_self _)⟩, List.forall_mem_nil _,
    hvalid⟩

theorem safe_searchPass (request : SearchRequest) (warned : Bool) (topK : Nat)
    (h : Prepared manifest queryEmbedding history) :
    contract.Safe () (searchPass env request manifest queryEmbedding warned topK).run
      (OnOk (PassDone manifest queryEmbedding)) history := by
  cases queryEmbedding with
  | ok embedding => exact safe_searchGrouped request.query (retrievalWindow topK) h
  | error error =>
      have hkeyword : ∀ history, Prepared manifest (.error error) history → contract.Safe ()
          (do
            let dynamicChunks ← searchKeywordOnly manifest request.query (retrievalWindow topK)
            return { staticChunks := [], dynamicChunks } : SearchM GroupedSearchResults).run
          (OnOk (PassDone manifest (.error error))) history := by
        intro history h
        refine bindExcept ((safe_searchKeywordOnly request.query (retrievalWindow topK) h).mono ?_)
        intro r history' _ hr
        cases r with
        | error e => trivial
        | ok dynamic =>
            refine pureExcept fun history'' hrely _ => ?_
            rw [Contract.rely_solo hrely]
            exact hr
      -- the warning is written once, in the first pass
      cases warned with
      | true => exact hkeyword history h
      | false =>
          refine bindExcept (liftExcept (safe_call fun _ => ?_))
          exact hkeyword _ (h.append (.warn _) _)

/-- The loop, by induction on how far the window still is from its maximum. -/
theorem safe_growWindow (request : SearchRequest) (topK : Nat) (warned : Bool)
    (h : Prepared manifest queryEmbedding history) :
    contract.Safe () (growWindow env request manifest queryEmbedding topK warned).run
      (OnOk (PassDone manifest queryEmbedding)) history := by
  induction hleft : searchWindowMax - topK using Nat.strong_induction_on
    generalizing topK warned history with
  | h left ih =>
  subst hleft
  rw [growWindow]
  refine bindExcept ((safe_searchPass request warned topK h).mono fun r history' _ hr => ?_)
  cases r with
  | error e => trivial
  | ok results =>
      -- a pass that returns is done; otherwise the next one starts from its history
      have hreturn : contract.Safe () (pure results : SearchM GroupedSearchResults).run
          (OnOk (PassDone manifest queryEmbedding)) history' := by
        refine pureExcept fun history'' hrely _ => ?_
        rw [Contract.rely_solo hrely]
        exact hr
      show contract.Safe () (ExceptT.run (if _ : _ then _ else _)) _ history'
      split
      · exact hreturn
      · rename_i hnot
        show contract.Safe () (ExceptT.run (if _ : _ then _ else _)) _ history'
        split
        · exact hreturn
        · rename_i hgrew
          -- the window is larger than before, and there is a largest one
          refine ih _ ?_ _ true hr.1 rfl
          simp only [not_or, not_le, saturatingMul, Checked.usizeSize, searchWindowMax]
            at hnot hgrew ⊢
          omega

/-! ## The response -/

/-- A hit as the response shows it. -/
def shown (request : SearchRequest) (hit : SearchResult) : SearchResult :=
  if request.includeMetadata then hit else stripResult hit

/-- The chunks of one group, each with what it was before it was stripped. -/
def Shows (env : RouterEnv) (request : SearchRequest) (source : SearchResult → Prop)
    (chunks : List SearchResult) : Prop :=
  ∀ chunk ∈ chunks, ∃ hit, source hit ∧ Satisfies env.asF64 request.filters hit ∧
    chunk = shown request hit

theorem mem_shape {request : SearchRequest} {results : List SearchResult} {chunk : SearchResult}
    (h : chunk ∈ shape env request results) : ∃ hit ∈ results,
      Satisfies env.asF64 request.filters hit ∧ chunk = shown request hit := by
  unfold shape at h
  unfold shown
  split at h
  · obtain ⟨hmem, hsatisfies⟩ := mem_applyFilters (List.mem_of_mem_take h)
    exact ⟨chunk, hmem, hsatisfies, (if_pos ‹_›).symm⟩
  · obtain ⟨hit, hhit, rfl⟩ := List.mem_map.mp h
    obtain ⟨hmem, hsatisfies⟩ := mem_applyFilters (List.mem_of_mem_take hhit)
    exact ⟨hit, hmem, hsatisfies, (if_neg ‹_›).symm⟩

theorem length_shape_le (request : SearchRequest) (results : List SearchResult) :
    (shape env request results).length ≤ retrievalWindow request.topK := by
  unfold shape
  split
  · exact List.length_take_le _ _
  · rw [stripMetadata, List.length_map]
    exact List.length_take_le _ _

/-- Filtering, truncation and stripping keep what holds of all pairs by doc id and score. -/
theorem pairwise_shape {request : SearchRequest} {results : List SearchResult}
    {R : SearchResult → SearchResult → Prop} (h : results.Pairwise R)
    (hstrip : ∀ {left right}, R left right → R (stripResult left) (stripResult right)) :
    (shape env request results).Pairwise R := by
  have hkept := (h.sublist (applyFilters_sublist results request.filters)).sublist
    (List.take_sublist (retrievalWindow request.topK) (applyFilters env.asF64 results request.filters))
  unfold shape
  split
  · exact hkept
  · exact List.pairwise_map.mpr (hkept.imp hstrip)

theorem validate_shape {request : SearchRequest} {results : List SearchResult}
    (h : ∀ result ∈ results, result.validate = .ok ()) :
    ∀ chunk ∈ shape env request results, chunk.validate = .ok () := by
  intro chunk hchunk
  obtain ⟨hit, hhit, -, rfl⟩ := mem_shape hchunk
  unfold shown
  split
  · exact h hit hhit
  · exact h hit hhit

/-- What a response says of the calls that led to it. -/
structure Answers (env : RouterEnv) (request : SearchRequest) (history : History)
    (response : SearchResponse) : Prop where
  staticWindow : response.staticChunks.length ≤ retrievalWindow request.topK
  dynamicWindow : response.dynamicChunks.length ≤ retrievalWindow request.topK
  staticCounted : response.staticCount = response.staticChunks.length
  dynamicCounted : response.dynamicCount = response.dynamicChunks.length
  /-- one manifest is loaded, all retrievers get it, and its version is reported -/
  manifest : ∃ manifest, ⟨.loadActiveManifest, .ok manifest⟩ ∈ history ∧
    (∀ answer, ⟨.loadActiveManifest, answer⟩ ∈ history → answer = .ok manifest) ∧
    (∀ entry ∈ history, ∀ passed ∈ entry.1.manifest?, passed = manifest) ∧
    response.indexVersion = manifest.head.versionId
  staticShown : Shows env request (fun hit => ∃ manifest embedding topK hits,
    ⟨.searchStatic manifest embedding topK, .returned (.ok hits)⟩ ∈ history ∧ hit ∈ hits)
    response.staticChunks
  /-- without an embedding: keyword hits only -/
  keywordShown : (¬∃ query embedding, ⟨.generate query, .ok embedding⟩ ∈ history) →
    response.staticChunks = [] ∧ Shows env request (fun hit => ∃ manifest query topK hits,
      ⟨.searchKeyword manifest query topK, .returned (.ok hits)⟩ ∈ history ∧ hit ∈ hits)
      response.dynamicChunks
  /-- with one: the fused hits of one pass -/
  hybridShown : (∃ query embedding, ⟨.generate query, .ok embedding⟩ ∈ history) →
    (∃ manifest query embedding topK topK' vectorHits keywordHits,
      ⟨.searchVector manifest embedding topK, .returned (.ok vectorHits)⟩ ∈ history ∧
      ⟨.searchKeyword manifest query topK', .returned (.ok keywordHits)⟩ ∈ history ∧
      Shows env request (MergedFrom (vectorHits ++ keywordHits)) response.dynamicChunks) ∧
    (response.dynamicChunks.map (·.docId)).Nodup ∧
    response.dynamicChunks.Pairwise fun left right => HybridRanker.compareFused left right = .lt

section Respond

variable {M E K V S : Type} {router : QueryRouter M E K V S} {request : SearchRequest}

/-- The groups of the last pass, shaped, and the time. -/
theorem PassDone.answers {results : GroupedSearchResults}
    (h : PassDone manifest queryEmbedding results history) {latencyMs : UInt64} :
    Answers env request (history ++ [⟨.elapsedMillis, latencyMs⟩]) {
      staticChunks := shape env request results.staticChunks
      staticCount := (shape env request results.staticChunks).length
      dynamicChunks := shape env request results.dynamicChunks
      dynamicCount := (shape env request results.dynamicChunks).length
      latencyMs
      indexVersion := manifest.head.versionId
      staticReleaseId := router.staticReleaseId } := by
  obtain ⟨hprepared, hgroups, -⟩ := h
  have hprepared := hprepared.append .elapsed latencyMs
  have hold : ∀ {entry}, entry ∈ history → entry ∈ history ++ [⟨.elapsedMillis, latencyMs⟩] :=
    fun hentry => List.mem_append_left _ hentry
  generalize history ++ [⟨.elapsedMillis, latencyMs⟩] = final at hprepared hold
  refine ⟨length_shape_le _ _, length_shape_le _ _, rfl, rfl,
    ⟨manifest, hprepared.loaded, hprepared.only, hprepared.passed, rfl⟩, ?_, ?_, ?_⟩
  · intro chunk hchunk
    obtain ⟨hit, hhit, hsatisfies, hshown⟩ := mem_shape hchunk
    -- a static chunk comes from the static retriever, which is asked with an embedding only
    cases queryEmbedding with
    | ok embedding =>
        obtain ⟨vectorHits, keywordHits, hhybrid⟩ := hgroups
        obtain ⟨embedding', topK, hstatic⟩ := hhybrid.static
        exact ⟨hit, ⟨manifest, embedding', topK, _, hold hstatic, hhit⟩, hsatisfies, hshown⟩
    | error e =>
        rw [hgroups.1] at hhit
        cases hhit
  · intro hnone
    rw [hprepared.embedded] at hnone
    cases queryEmbedding with
    | ok embedding => exact absurd ⟨embedding, rfl⟩ hnone
    | error e =>
        obtain ⟨hempty, query, topK, hkeyword⟩ := hgroups
        constructor
        · refine List.eq_nil_iff_forall_not_mem.mpr fun chunk hchunk => ?_
          obtain ⟨hit, hhit, -⟩ := mem_shape hchunk
          rw [hempty] at hhit
          cases hhit
        · intro chunk hchunk
          obtain ⟨hit, hhit, hsatisfies, hshown⟩ := mem_shape hchunk
          exact ⟨hit, ⟨manifest, query, topK, _, hold hkeyword, hhit⟩, hsatisfies, hshown⟩
  · intro hsome
    rw [hprepared.embedded] at hsome
    obtain ⟨embedding, rfl⟩ := hsome
    obtain ⟨vectorHits, keywordHits, hhybrid⟩ := hgroups
    obtain ⟨embedding₁, topK₁, hvector⟩ := hhybrid.vector
    obtain ⟨query, topK₂, hkeyword⟩ := hhybrid.keyword
    refine ⟨⟨manifest, query, embedding₁, topK₁, topK₂, vectorHits, keywordHits, hold hvector,
      hold hkeyword, fun chunk hchunk => ?_⟩, ?_, ?_⟩
    · obtain ⟨hit, hhit, hsatisfies, hshown⟩ := mem_shape hchunk
      exact ⟨hit, hhybrid.ranked.merged hit hhit, hsatisfies, hshown⟩
    · exact List.pairwise_map.mpr (pairwise_shape (List.pairwise_map.mp hhybrid.ranked.distinct) id)
    · exact pairwise_shape hhybrid.ranked.ordered id

/-- The manifest is loaded, and the generator has given these answers. -/
theorem prepared_of_answers {query : String} (answers : List (Except String (List F32)))
    (h : (∃ embedding, .ok embedding ∈ answers) ↔ ∃ embedding, queryEmbedding = .ok embedding) :
    Prepared manifest queryEmbedding
      (⟨.loadActiveManifest, .ok manifest⟩ :: answers.map fun answer => ⟨.generate query, answer⟩) where
  loaded := List.mem_cons_self
  only answer hanswer := by
    rcases List.mem_cons.mp hanswer with hanswer | hanswer
    · cases hanswer
      rfl
    · obtain ⟨_, -, hanswer⟩ := List.mem_map.mp hanswer
      cases hanswer
  passed entry hentry passed hpassed := by
    rcases List.mem_cons.mp hentry with rfl | hentry
    · cases hpassed
    · obtain ⟨_, -, rfl⟩ := List.mem_map.mp hentry
      cases hpassed
  embedded := by
    rw [← h]
    constructor
    · rintro ⟨query', embedding, hmem⟩
      rcases List.mem_cons.mp hmem with hmem | hmem
      · cases hmem
      · obtain ⟨answer, hanswer, heq⟩ := List.mem_map.mp hmem
        cases heq
        exact ⟨embedding, hanswer⟩
    · rintro ⟨embedding, hmem⟩
      exact ⟨query, embedding, List.mem_cons_of_mem _ (List.mem_map_of_mem hmem)⟩

/-- The generator is asked at most twice. -/
theorem safe_generateEmbeddingWithRetry (query : String) :
    contract.Safe () (generateEmbeddingWithRetry query) (Prepared manifest)
      [⟨.loadActiveManifest, .ok manifest⟩] := by
  unfold generateEmbeddingWithRetry
  refine Contract.Safe.bind (safe_call fun first => ?_)
  cases first with
  | ok embedding =>
      refine Contract.Safe.done fun history hrely _ => ?_
      rw [Contract.rely_solo hrely]
      refine prepared_of_answers [.ok embedding] ?_
      exact ⟨fun _ => ⟨embedding, rfl⟩, fun _ => ⟨embedding, List.mem_singleton_self _⟩⟩
  | error error =>
      -- the second answer counts, whatever it is
      refine safe_call fun second => prepared_of_answers [.error error, second] ?_
      constructor
      · rintro ⟨embedding, hmem⟩
        simp only [List.mem_cons, reduceCtorEq, List.not_mem_nil, or_false, false_or] at hmem
        exact ⟨embedding, hmem.symm⟩
      · rintro ⟨embedding, rfl⟩
        exact ⟨embedding, List.mem_cons_of_mem _ (List.mem_singleton_self _)⟩

/-- What a response says, and that it passes its check. -/
theorem safe_respond : contract.Safe () (respond env router request).run
    (OnOk fun response history => Answers env request history response ∧
      response.validate (retrievalWindow request.topK) = .ok ()) [] := by
  unfold respond
  refine bindCheck (fun _ hvalid history hrely _ => ?_) fun _ _ _ _ _ => trivial
  obtain rfl := Contract.rely_solo hrely
  refine bindExcept (liftExcept (safe_call fun loaded => ?_))
  refine bindCheck (fun manifest hmanifest history hrely _ => ?_) fun _ _ _ _ _ => trivial
  obtain rfl := Contract.rely_solo hrely
  obtain rfl : loaded = .ok manifest := mapError_eq_ok.mp (lifted_eq_ok.mp hmanifest)
  refine bindExcept (liftExcept ((safe_generateEmbeddingWithRetry request.query).mono
    fun queryEmbedding history₁ _ hprepared => ?_))
  -- with a filter the window may grow, without one there is one pass
  have hpass : contract.Safe () (searchResults env request manifest queryEmbedding).run
      (OnOk (PassDone manifest queryEmbedding)) history₁ := by
    unfold searchResults
    split
    · exact safe_growWindow request (max request.topK 1) false hprepared
    · exact safe_searchPass request false request.topK hprepared
  refine bindExcept (hpass.mono fun r history₂ _ hr => ?_)
  cases r with
  | error e => trivial
  | ok results =>
      refine bindExcept (liftExcept (safe_call fun latencyMs => ?_))
      refine pureExcept fun history₃ hrely _ => ?_
      rw [Contract.rely_solo hrely]
      refine ⟨hr.answers, SearchResponse.validate_eq_ok.mpr ⟨le_rfl, le_rfl, ?_, ?_, ?_, ?_⟩⟩
      · exact length_shape_le request results.staticChunks
      · exact length_shape_le request results.dynamicChunks
      · exact validate_shape hr.2.2.1
      · exact validate_shape hr.2.2.2

theorem safe_search : contract.Safe () (search env router request).run
    (OnOk fun response history => Answers env request history response) [] := by
  unfold search
  refine bindExcept (safe_respond.mono fun r history _ hr => ?_)
  cases r with
  | error e => trivial
  | ok response =>
      refine bindCheck (fun _ _ history' hrely _ => ?_) fun _ _ _ _ _ => trivial
      refine pureExcept fun history'' hrely' _ => ?_
      rw [Contract.rely_solo hrely', Contract.rely_solo hrely]
      exact hr.1

end Respond

/-- A run under some answers, from no calls at all. -/
def played {α : Type} (p : SearchM α) (answers : List ((op : RouterOp) → op.Ans)) :
    Config signature History Unit (Except (Stop SearchError) α) :=
  run machine.step { world := [], threads := fun _ => p.run } (answers.map fun a => ((), a))

theorem played_post {α : Type} {p : SearchM α} {Q : α → History → Prop}
    (hsafe : contract.Safe () p.run (OnOk Q) []) {answers : List ((op : RouterOp) → op.Ans)} {a : α}
    (hdone : (played p answers).threads () = .done (.ok a)) : Q a (played p answers).world := by
  have hallowed := Contract.allowed_of_forall (K := contract) (fun _ _ _ _ => trivial)
    { world := [], threads := fun _ => p.run } (answers.map fun a => ((), a))
  have hrun := Contract.run_safe (K := contract) (Q := fun _ => OnOk Q) trivial (fun _ => hsafe) _
    hallowed
  have hpost : OnOk Q (.ok a) (played p answers).world :=
    Contract.post_of_done (hrun.2.2 ()) hdone hrun.1
  exact hpost

/-- Whatever the manifest store, the generator and the retrievers answer: a response says what
`Answers` says, and the check of the response passes. -/
theorem search_sound {M E K V S : Type} (env : RouterEnv) (router : QueryRouter M E K V S)
    (request : SearchRequest) (answers : List ((op : RouterOp) → op.Ans)) :
    (∀ response, (played (search env router request) answers).threads () = .done (.ok response) →
      Answers env request (played (search env router request) answers).world response) ∧
    ∀ response, (played (respond env router request) answers).threads () = .done (.ok response) →
      response.validate (retrievalWindow request.topK) = .ok () :=
  ⟨fun _ hdone => played_post safe_search hdone, fun _ hdone => (played_post safe_respond hdone).2⟩

/-! ## A search to its end -/

/-- With an embedding, and with groups that pass their check, a search alone ends with a response. -/
theorem alone_search {M E K V S : Type} {env : RouterEnv} {router : QueryRouter M E K V S}
    {request : SearchRequest} {answers : (op : RouterOp) → op.Ans} {manifest : ActiveManifest}
    {embedding : List F32} {results : GroupedSearchResults} {history : History}
    (hrequest : request.validate = .ok ())
    (hmanifest : answers .loadActiveManifest = .ok manifest)
    (hembedding : answers (.generate request.query) = .ok embedding)
    (hresults : machine.alone () answers
      (searchResults env request manifest (.ok embedding)).run
        [⟨.loadActiveManifest, .ok manifest⟩, ⟨.generate request.query, .ok embedding⟩] =
      (.ok results, history))
    (hvalid : Valid results) :
    ∃ response, machine.alone () answers (search env router request).run [] =
        (.ok response, history ++ [⟨.elapsedMillis, answers .elapsedMillis⟩]) ∧
      response.dynamicChunks = shape env request results.dynamicChunks := by
  have hrequest := lifted_eq_ok.mpr (mapError_eq_ok (g := SearchError.validation).mpr hrequest)
  have hgenerate : machine.alone () answers (generateEmbeddingWithRetry request.query)
      [⟨.loadActiveManifest, .ok manifest⟩] =
        (.ok embedding, [⟨.loadActiveManifest, .ok manifest⟩,
          ⟨.generate request.query, .ok embedding⟩]) := by
    unfold generateEmbeddingWithRetry
    rw [Machine.alone_bind, call, Machine.alone_ask]
    simp only [machine, hembedding]
    rfl
  have hload : machine.alone () answers (call .loadActiveManifest) [] =
      (.ok manifest, [⟨.loadActiveManifest, .ok manifest⟩]) := by
    rw [call, Machine.alone_ask]
    simp only [machine, hmanifest, List.nil_append]
  obtain ⟨response, hrespond, hdynamic, hresponse⟩ : ∃ response,
      machine.alone () answers (respond env router request).run [] =
          (.ok response, history ++ [⟨.elapsedMillis, answers .elapsedMillis⟩]) ∧
        response.dynamicChunks = shape env request results.dynamicChunks ∧
        response.validate (retrievalWindow request.topK) = .ok () := by
    refine ⟨_, (Machine.alone_check hrequest).trans
      ((Machine.alone_bind_ok (Machine.alone_lift hload)).trans
        ((Machine.alone_check rfl).trans
          ((Machine.alone_bind_ok (Machine.alone_lift hgenerate)).trans
            ((Machine.alone_bind_ok hresults).trans
              ((Machine.alone_bind_ok (Machine.alone_lift rfl)).trans rfl))))), rfl, ?_⟩
    refine SearchResponse.validate_eq_ok.mpr ⟨le_rfl, le_rfl, ?_, ?_, ?_, ?_⟩
    · exact length_shape_le request results.staticChunks
    · exact length_shape_le request results.dynamicChunks
    · exact validate_shape hvalid.1
    · exact validate_shape hvalid.2
  refine ⟨response, (Machine.alone_bind_ok hrespond).trans ?_, hdynamic⟩
  exact Machine.alone_check (lifted_eq_ok.mpr (mapError_eq_ok.mpr hresponse))

/-! ## A hit that no retriever returned -/

namespace TwoHalves

/-- The arithmetic on the values that come up here, and something in range elsewhere. -/
def rank : RankArith where
  add x y := if x = ⟨0x42700000#32⟩ then ⟨0x42740000#32⟩ else if x = F32.zero then y else ⟨0x3d064b8a#32⟩
  div _ _ := ⟨0x3c864b8a#32⟩
  ofUsize _ := F32.one
  rrfK := ⟨0x42700000#32⟩
  between_share _ := ⟨by decide, by decide, by decide⟩
  between_add hx hy := by
    split
    · exact ⟨by decide, by decide, by decide⟩
    · split
      · exact ⟨hy.number, hy.lower_le, hy.le_upper.trans (by decide)⟩
      · exact ⟨by decide, by decide, by decide⟩

def parts : RouterEnv := { rank, asF64 := fun _ => none }

/-- A hit of the document with one metadata field. -/
def hit (source : SearchSource) (field : String) : SearchResult where
  docId := "law-1"
  score := F32.one
  text := "text"
  metadata := some [(field, .str "x")]
  source := source
  chunkSource := .dynamic
  corpusType := none
  citation := none

def request : SearchRequest where
  query := "law"
  topK := 1
  filters := some [("lang", .stringEquals "x"), ("region", .stringEquals "x")]
  includeMetadata := true
  corpusWeights := none

def activeManifest : ActiveManifest where
  head := .new 1 1700000000000
  manifest := {
    versionId := 1
    createdAt := 1700000000000
    embeddingDim := 1
    documentCount := 1
    numShards := 0
    shards := [] }

/-- One field comes from the vector index, the other from the keyword index. -/
def answers : (op : RouterOp) → op.Ans
  | .loadActiveManifest => .ok activeManifest
  | .generate _ => .ok [F32.one]
  | .searchStatic _ _ _ => .returned (.ok [])
  | .searchKeyword _ _ _ => .returned (.ok [hit .keyword "region"])
  | .searchVector _ _ _ => .returned (.ok [hit .vector "lang"])
  | .warn _ => ()
  | .elapsedMillis => 3

def router : QueryRouter Unit Unit Unit Unit Unit where
  manifestStore := ()
  embeddingGenerator := ()
  keywordRetriever := ()
  vectorRetriever := ()
  staticRetriever := ()
  staticReleaseId := none

/-- The fused hit has both fields. -/
def fused : SearchResult :=
  { hit .hybrid "lang" with
    score := ⟨0x3d064b8a#32⟩
    metadata := some [("lang", .str "x"), ("region", .str "x")] }

theorem fuse_hits : HybridRanker.fuse rank [hit .vector "lang"] [hit .keyword "region"] =
    .ok [fused] := by
  unfold HybridRanker.fuse
  have hhits : (HybridRanker.collect rank [hit .vector "lang"] [hit .keyword "region"]).rrfScores.rows.mapM
      (HybridRanker.fusedHit (HybridRanker.collect rank [hit .vector "lang"] [hit .keyword "region"]).docMap) =
      .ok [fused] := by rfl
  refine bind_eq_ok.mpr ⟨_, hhits, ?_⟩
  exact congrArg Except.ok (List.mergeSort_singleton _)

def groups : GroupedSearchResults where
  staticChunks := []
  dynamicChunks := [fused]

theorem groupResults_hits : groupResults parts (.returned (.ok []))
    (.returned (.ok [hit .keyword "region"])) (.returned (.ok [hit .vector "lang"])) = .ok groups := by
  refine bind_eq_ok.mpr ⟨_, rfl, bind_eq_ok.mpr ⟨_, rfl, bind_eq_ok.mpr ⟨_, rfl, ?_⟩⟩⟩
  refine bind_eq_ok.mpr ⟨_, rfl, bind_eq_ok.mpr ⟨_, rfl, bind_eq_ok.mpr ⟨_, rfl, ?_⟩⟩⟩
  refine bind_eq_ok.mpr ⟨_, rfl, bind_eq_ok.mpr ⟨_, rfl, bind_eq_ok.mpr ⟨_, rfl, ?_⟩⟩⟩
  exact bind_eq_ok.mpr ⟨_, fuse_hits, rfl⟩

theorem alone_searchResults (history : History) : ∃ history',
    machine.alone () answers (searchResults parts request activeManifest (.ok [F32.one])).run history =
      (.ok groups, history') := by
  obtain ⟨history', hpass⟩ : ∃ history', machine.alone () answers
      (searchPass parts request activeManifest (.ok [F32.one]) false 1).run history =
      (.ok groups, history') :=
    ⟨_, (Machine.alone_bind_ok (Machine.alone_lift rfl)).trans
      ((Machine.alone_bind_ok (Machine.alone_lift rfl)).trans
        ((Machine.alone_bind_ok (Machine.alone_lift rfl)).trans
          (Machine.alone_ofExcept groupResults_hits)))⟩
  refine ⟨history', ?_⟩
  show machine.alone () answers (growWindow parts request activeManifest _ 1 false).run history = _
  rw [growWindow]
  refine (Machine.alone_bind_ok hpass).trans ?_
  have henough : (applyFilters parts.asF64 groups.dynamicChunks request.filters).length ≥
      request.topK ∨ 1 ≥ searchWindowMax := by decide
  rw [dif_pos henough]
  rfl

theorem validate_request : request.validate = .ok () := by
  simp only [SearchRequest.validate, check_bind_eq_ok, rejectIf_eq_ok, forM_eq_ok]
  refine ⟨by decide, by decide, by decide, ?_, rfl⟩
  intro entry hentry
  have hentries : entry = ("lang", .stringEquals "x") ∨ entry = ("region", .stringEquals "x") := by
    simpa only [request, Option.getD_some, List.mem_cons, List.not_mem_nil, or_false] using hentry
  have hlang : validateFilterFieldName "lang" = .ok () := validateFilterFieldName_eq_ok rfl rfl rfl
  have hregion : validateFilterFieldName "region" = .ok () :=
    validateFilterFieldName_eq_ok rfl rfl rfl
  have hvalue : FilterValue.validate (.stringEquals "x") = .ok () := rejectIf_eq_ok.mpr (by decide)
  rcases hentries with rfl | rfl
  · exact ⟨hlang, hvalue⟩
  · exact ⟨hregion, hvalue⟩

theorem alone_search : ∃ response history,
    machine.alone () answers (search parts router request).run [] = (.ok response, history) ∧
      response.dynamicChunks = [fused] := by
  obtain ⟨history, hresults⟩ := alone_searchResults
    [⟨.loadActiveManifest, .ok activeManifest⟩, ⟨.generate request.query, .ok [F32.one]⟩]
  have hfused : ∀ result ∈ groups.dynamicChunks, result.validate = .ok () := by
    intro result hresult
    obtain rfl := List.mem_singleton.mp hresult
    exact SearchResult.validate_eq_ok.mpr ⟨by decide, by decide⟩
  have hmanifest : answers .loadActiveManifest = .ok activeManifest := rfl
  have hembedding : answers (.generate request.query) = .ok [F32.one] := rfl
  obtain ⟨response, hsearch, hdynamic⟩ := QueryRouter.alone_search validate_request hmanifest
    hembedding hresults ⟨List.forall_mem_nil _, hfused⟩
  have hshape : shape parts request groups.dynamicChunks = [fused] := rfl
  exact ⟨response, _, hsearch, hdynamic.trans hshape⟩

/-- The history of a run in which each operation always answers the same. -/
theorem history_played {α : Type} (p : SearchM α) (n : Nat) :
    ∀ entry ∈ (played p (List.replicate n answers)).world, entry.2 = answers entry.1 := by
  have hrun : ∀ c : Config signature History Unit (Except (Stop SearchError) α),
      (∀ entry ∈ c.world, entry.2 = answers entry.1) →
      ∀ entry ∈ (run machine.step c (List.replicate n ((), answers))).world,
        entry.2 = answers entry.1 := by
    induction n with
    | zero => exact fun c h => h
    | succ n ih =>
        intro c h
        rw [List.replicate_succ, run_cons]
        refine ih _ fun entry hentry => ?_
        unfold Machine.step at hentry
        split at hentry
        · exact h entry hentry
        · rcases List.mem_append.mp hentry with hentry | hentry
          · exact h entry hentry
          · obtain rfl := List.mem_singleton.mp hentry
            rfl
  unfold played
  rw [List.map_replicate]
  exact hrun _ (List.forall_mem_nil _)

end TwoHalves

/-- A hit that some retriever returned. -/
def RetrieverHit (history : History) (hit : SearchResult) : Prop :=
  ∃ hits, hit ∈ hits ∧
    ((∃ manifest embedding topK,
        ⟨.searchStatic manifest embedding topK, .returned (.ok hits)⟩ ∈ history) ∨
      (∃ manifest query topK,
        ⟨.searchKeyword manifest query topK, .returned (.ok hits)⟩ ∈ history) ∨
      ∃ manifest embedding topK,
        ⟨.searchVector manifest embedding topK, .returned (.ok hits)⟩ ∈ history)

/-- A chunk of a response need not come from a hit that has all that the filters ask for: here each of
two hits of the document has one half of it. -/
theorem search_mergedHit : ∃ answers response, ∃ chunk ∈ response.dynamicChunks,
    (played (search TwoHalves.parts TwoHalves.router TwoHalves.request) answers).threads () =
      .done (.ok response) ∧
    ∀ hit, RetrieverHit
        (played (search TwoHalves.parts TwoHalves.router TwoHalves.request) answers).world hit →
      ¬Satisfies TwoHalves.parts.asF64 TwoHalves.request.filters hit := by
  obtain ⟨response, history, halone, hdynamic⟩ := TwoHalves.alone_search
  have hend := congrArg Prod.fst halone
  obtain ⟨n, hdone, -⟩ := (Machine.done_iff_alone
    { world := [], threads := fun _ => (search TwoHalves.parts TwoHalves.router TwoHalves.request).run }
    (.ok response) fun _ => True).mpr ⟨hend, trivial⟩
  refine ⟨List.replicate n TwoHalves.answers, response, TwoHalves.fused, ?_, ?_, ?_⟩
  · rw [hdynamic]
    exact List.mem_singleton_self _
  · unfold played
    rw [List.map_replicate]
    exact hdone
  · rintro hit ⟨hits, hhit, hsource⟩ hsatisfies
    have hanswered := TwoHalves.history_played
      (search TwoHalves.parts TwoHalves.router TwoHalves.request) n
    rcases hsource with ⟨manifest, embedding, topK, hmem⟩ | ⟨manifest, query, topK, hmem⟩ |
      ⟨manifest, embedding, topK, hmem⟩
    · cases hanswered _ hmem
      cases hhit
    · cases hanswered _ hmem
      obtain rfl := List.mem_singleton.mp hhit
      obtain ⟨actual, hactual, -⟩ := hsatisfies "lang" (.stringEquals "x") (by decide)
      cases hactual
    · cases hanswered _ hmem
      obtain rfl := List.mem_singleton.mp hhit
      obtain ⟨actual, hactual, -⟩ := hsatisfies "region" (.stringEquals "x") (by decide)
      cases hactual

end QueryRouter

end LTSearch
