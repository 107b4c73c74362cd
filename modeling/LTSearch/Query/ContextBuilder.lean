/-
# LTSearch.Query.ContextBuilder -- a context within a budget of tokens

The context is a header, a block for each chunk, and the question.  When it is to stay within a budget,
chunks are dropped from the tail of the group that costs more, until the rounded costs of the blocks
add up to no more than the budget.  The estimate of the text is never above that sum.
-/
import LTSearch.Foundation.Checked
import LTSearch.Foundation.Shrinking
import LTSearch.Models.Search

namespace LTSearch

open LTSearch.Foundation

namespace ContextBuilder

/-! ## The text -/

/-- `is_cjk` -/
def isCjk (c : Char) : Bool :=
  let n := c.toNat
  (0x3000 ≤ n && n ≤ 0x303F) || (0x3400 ≤ n && n ≤ 0x4DBF) || (0x4E00 ≤ n && n ≤ 0x9FFF) ||
    (0xF900 ≤ n && n ≤ 0xFAFF) || (0xFF00 ≤ n && n ≤ 0xFFEF) || (0x20000 ≤ n && n ≤ 0x2FA1F) ||
    (0x30000 ≤ n && n ≤ 0x3134F)

/-- The fold of `estimate_tokens`: characters of one token each, and the others. -/
def countChars (text : List Char) : Nat × Nat :=
  text.foldl (fun (cjk, other) c => if isCjk c then (cjk + 1, other) else (cjk, other + 1)) (0, 0)

/-- `estimate_tokens` -/
def estimateTokens (text : String) : Nat :=
  let (cjk, other) := countChars text.toList
  cjk + (other + 3) / 4

/-- `corpus_type_label`, of a corpus type that may be missing. -/
def corpusTypeLabel : Option CorpusType → String
  | some corpusType => corpusType.label
  | none => "法规/合同"

/-- `chunk_block` -/
def chunkBlock (label : String) (index : Nat) (r : SearchResult) : String :=
  let n := index + 1
  match r.citation.bind (·.title) with
  | some title => "[" ++ label ++ " #" ++ toString n ++ "] " ++ title ++ "\n" ++ r.text ++ "\n\n"
  | none => "[" ++ label ++ " #" ++ toString n ++ "]\n" ++ r.text ++ "\n\n"

/-- `static_chunk_block` -/
def staticChunkBlock (index : Nat) (r : SearchResult) : String :=
  chunkBlock (corpusTypeLabel r.corpusType) index r

/-- `dynamic_chunk_block` -/
def dynamicChunkBlock (index : Nat) (r : SearchResult) : String := chunkBlock "用户数据" index r

/-- `build_context` -/
def buildContext (staticChunks dynamicChunks : List SearchResult) (query : String) : String :=
  let out := "=== 参考资料 ===\n\n"
  let out := staticChunks.zipIdx.foldl (fun out (r, i) => out ++ staticChunkBlock i r) out
  let out := dynamicChunks.zipIdx.foldl (fun out (r, i) => out ++ dynamicChunkBlock i r) out
  out ++ ("=== 问题 ===\n" ++ query)

/-! ## The budget -/

/-- How many chunks of each group are kept, and what they cost. -/
@[ext]
structure Kept where
  keptStatic : Nat
  keptDynamic : Nat
  staticTotal : Nat
  dynamicTotal : Nat

/-- Whether the next chunk to drop is a static one. -/
def Kept.dropStatic (kept : Kept) : Bool :=
  if kept.keptDynamic = 0 then true
  else if kept.keptStatic = 0 then false
  else if kept.staticTotal ≠ kept.dynamicTotal then kept.staticTotal > kept.dynamicTotal
  else kept.keptStatic > kept.keptDynamic

theorem Kept.keptStatic_pos {kept : Kept} (h : kept.dropStatic = true)
    (hsome : kept.keptStatic > 0 ∨ kept.keptDynamic > 0) : 0 < kept.keptStatic := by
  unfold dropStatic at h
  split_ifs at h <;> simp at h <;> omega

theorem Kept.keptDynamic_pos {kept : Kept} (h : ¬kept.dropStatic = true) : 0 < kept.keptDynamic := by
  unfold dropStatic at h
  split_ifs at h <;> simp at h <;> omega

/-- `a - b` on `usize`. -/
def usizeSub {ε : Type} (a b : Nat) : Checked ε Nat :=
  if b ≤ a then .ok (a - b) else Checked.panicked "attempt to subtract with overflow"

/-- The loop of `build_context_bounded`. -/
def shrink {ε : Type} (staticCosts dynamicCosts : List Nat) (fixed maxTokens : Nat) (kept : Kept) :
    Checked ε Kept :=
  if h : fixed + kept.staticTotal + kept.dynamicTotal > maxTokens ∧
      (kept.keptStatic > 0 ∨ kept.keptDynamic > 0) then
    if hdrop : kept.dropStatic then do
      let cost ← Checked.at' (kept.keptStatic - 1) staticCosts
      let staticTotal ← usizeSub kept.staticTotal cost
      shrink staticCosts dynamicCosts fixed maxTokens
        { kept with keptStatic := kept.keptStatic - 1, staticTotal }
    else do
      let cost ← Checked.at' (kept.keptDynamic - 1) dynamicCosts
      let dynamicTotal ← usizeSub kept.dynamicTotal cost
      shrink staticCosts dynamicCosts fixed maxTokens
        { kept with keptDynamic := kept.keptDynamic - 1, dynamicTotal }
  else .ok kept
termination_by kept.keptStatic + kept.keptDynamic
decreasing_by
  · have hpos := Kept.keptStatic_pos hdrop h.2
    show kept.keptStatic - 1 + kept.keptDynamic < _
    omega
  · have hpos := Kept.keptDynamic_pos hdrop
    show kept.keptStatic + (kept.keptDynamic - 1) < _
    omega

/-- The costs of the blocks of the chunks. -/
def blockCosts (block : Nat → SearchResult → String) (chunks : List SearchResult) : List Nat :=
  chunks.zipIdx.map fun (r, i) => estimateTokens (block i r)

/-- `build_context_bounded` -/
def buildContextBounded {ε : Type} (staticChunks dynamicChunks : List SearchResult) (query : String)
    (maxTokens : Nat) : Checked ε String := do
  let fixed := estimateTokens (buildContext [] [] query)
  let staticCosts := blockCosts staticChunkBlock staticChunks
  let dynamicCosts := blockCosts dynamicChunkBlock dynamicChunks
  let kept ← shrink staticCosts dynamicCosts fixed maxTokens {
    keptStatic := staticChunks.length
    keptDynamic := dynamicChunks.length
    staticTotal := staticCosts.sum
    dynamicTotal := dynamicCosts.sum }
  let staticKept ← Checked.slice 0 kept.keptStatic staticChunks
  let dynamicKept ← Checked.slice 0 kept.keptDynamic dynamicChunks
  .ok (buildContext staticKept dynamicKept query)

/-! ## Estimates -/

/-- The estimate of a text, from its characters. -/
def tokens (text : List Char) : Nat :=
  text.countP isCjk + (text.countP (fun c => !isCjk c) + 3) / 4

theorem countChars_eq (text : List Char) :
    countChars text = (text.countP isCjk, text.countP fun c => !isCjk c) := by
  have hfold : ∀ start : Nat × Nat,
      text.foldl (fun (cjk, other) c => if isCjk c then (cjk + 1, other) else (cjk, other + 1)) start =
        (start.1 + text.countP isCjk, start.2 + text.countP fun c => !isCjk c) := by
    induction text with
    | nil => simp
    | cons c text ih =>
        intro start
        rw [List.foldl_cons, ih]
        by_cases h : isCjk c = true
        · simp [h]
          omega
        · simp [h]
          omega
  simp [countChars, hfold]

theorem estimateTokens_eq (text : String) : estimateTokens text = tokens text.toList := by
  simp [estimateTokens, countChars_eq, tokens]

/-- A text costs no more than its parts. -/
theorem tokens_append_le (a b : List Char) : tokens (a ++ b) ≤ tokens a + tokens b := by
  simp only [tokens, List.countP_append]
  omega

theorem tokens_flatMap_le {α : Type} (l : List α) (f : α → List Char) :
    tokens (l.flatMap f) ≤ (l.map fun a => tokens (f a)).sum := by
  induction l with
  | nil => simp [tokens]
  | cons a l ih =>
      rw [List.flatMap_cons, List.map_cons, List.sum_cons]
      exact (tokens_append_le _ _).trans (Nat.add_le_add_left ih _)

theorem toList_foldl_append {α : Type} (l : List α) (f : α → String) (out : String) :
    (l.foldl (fun out a => out ++ f a) out).toList =
      out.toList ++ l.flatMap fun a => (f a).toList := by
  induction l generalizing out with
  | nil => simp
  | cons a l ih => simp [ih]

/-- The context costs no more than the context without chunks and the blocks one by one. -/
theorem estimateTokens_buildContext_le (staticChunks dynamicChunks : List SearchResult)
    (query : String) :
    estimateTokens (buildContext staticChunks dynamicChunks query) ≤
      estimateTokens (buildContext [] [] query) + (blockCosts staticChunkBlock staticChunks).sum +
        (blockCosts dynamicChunkBlock dynamicChunks).sum := by
  have hstatic := tokens_flatMap_le staticChunks.zipIdx fun (r, i) => (staticChunkBlock i r).toList
  have hdynamic := tokens_flatMap_le dynamicChunks.zipIdx fun (r, i) => (dynamicChunkBlock i r).toList
  simp only [estimateTokens_eq, buildContext, blockCosts, String.toList_append, toList_foldl_append,
    List.zipIdx_nil, List.foldl_nil]
  -- the blocks stand between the two ends of the skeleton
  simp only [tokens, List.countP_append] at hstatic hdynamic ⊢
  omega

/-! ## What is kept -/

/-- The steps of the loop: the last chunk of one of the groups. -/
def shrinking (staticCosts dynamicCosts : List Nat) : Shrinking Kept where
  step kept :=
    if kept.keptStatic > 0 ∨ kept.keptDynamic > 0 then
      if kept.dropStatic then
        some { kept with
          keptStatic := kept.keptStatic - 1
          staticTotal := (staticCosts.take (kept.keptStatic - 1)).sum }
      else
        some { kept with
          keptDynamic := kept.keptDynamic - 1
          dynamicTotal := (dynamicCosts.take (kept.keptDynamic - 1)).sum }
    else none
  size kept := kept.keptStatic + kept.keptDynamic
  size_lt {kept kept'} h := by
    split_ifs at h with hsome hdrop
    · have hpos := Kept.keptStatic_pos hdrop hsome
      cases h
      show kept.keptStatic - 1 + kept.keptDynamic < _
      omega
    · have hpos := Kept.keptDynamic_pos hdrop
      cases h
      show kept.keptStatic + (kept.keptDynamic - 1) < _
      omega

/-- The totals are those of the kept chunks. -/
structure Totals (staticCosts dynamicCosts : List Nat) (kept : Kept) : Prop where
  static_le : kept.keptStatic ≤ staticCosts.length
  dynamic_le : kept.keptDynamic ≤ dynamicCosts.length
  static_total : kept.staticTotal = (staticCosts.take kept.keptStatic).sum
  dynamic_total : kept.dynamicTotal = (dynamicCosts.take kept.keptDynamic).sum

theorem Totals.step {staticCosts dynamicCosts : List Nat} {kept kept' : Kept}
    (h : Totals staticCosts dynamicCosts kept)
    (hstep : (shrinking staticCosts dynamicCosts).step kept = some kept') :
    Totals staticCosts dynamicCosts kept' := by
  have hstatic := h.static_le
  have hdynamic := h.dynamic_le
  unfold shrinking at hstep
  simp only at hstep
  split_ifs at hstep with hsome hdrop <;> cases hstep
  · exact ⟨by show kept.keptStatic - 1 ≤ _; omega, hdynamic, rfl, h.dynamic_total⟩
  · exact ⟨hstatic, by show kept.keptDynamic - 1 ≤ _; omega, h.static_total, rfl⟩

/-- Taking the last cost off a total leaves the total of the others. -/
theorem drop_last {ε : Type} {costs : List Nat} {kept : Nat} (hpos : 0 < kept)
    (hle : kept ≤ costs.length) : ∃ cost, (Checked.at' (kept - 1) costs : Checked ε Nat) = .ok cost ∧
      (usizeSub (costs.take kept).sum cost : Checked ε Nat) = .ok (costs.take (kept - 1)).sum := by
  have hlt : kept - 1 < costs.length := by omega
  have hsum : (costs.take kept).sum = (costs.take (kept - 1)).sum + costs[kept - 1] := by
    rw [← List.sum_take_succ costs (kept - 1) hlt, Nat.sub_add_cancel hpos]
  refine ⟨costs[kept - 1], ?_, ?_⟩
  · rw [at'_eq_ok, List.getElem?_eq_getElem hlt]
  · rw [usizeSub, hsum, if_pos (Nat.le_add_left _ _), Nat.add_sub_cancel]

/-- What the blocks and the rest cost together. -/
def total (fixed : Nat) (kept : Kept) : Nat := fixed + kept.staticTotal + kept.dynamicTotal

/-- The loop does not panic, and takes away until it fits. -/
theorem shrink_eq {ε : Type} {staticCosts dynamicCosts : List Nat} (fixed maxTokens : Nat)
    (kept : Kept) (h : Totals staticCosts dynamicCosts kept) :
    (shrink staticCosts dynamicCosts fixed maxTokens kept : Checked ε Kept) =
      .ok ((shrinking staticCosts dynamicCosts).fitTo (total fixed) maxTokens kept) := by
  induction hsize : kept.keptStatic + kept.keptDynamic using Nat.strong_induction_on
    generalizing kept with
  | _ size ih =>
      rw [shrink]
      split
      · next hloop =>
        have hcost : ¬total fixed kept ≤ maxTokens := not_le.mpr hloop.1
        split
        · next hdrop =>
          have hpos := Kept.keptStatic_pos hdrop hloop.2
          obtain ⟨cost, hat, hsub⟩ := drop_last (ε := ε) hpos h.static_le
          have hstep : (shrinking staticCosts dynamicCosts).step kept = some { kept with
              keptStatic := kept.keptStatic - 1
              staticTotal := (staticCosts.take (kept.keptStatic - 1)).sum } := by
            show (if _ then _ else _) = _
            rw [if_pos hloop.2, if_pos hdrop]
          rw [hat, Shrinking.fitTo_of_some hcost hstep,
            ← ih _ (by rw [← hsize]; exact (shrinking _ _).size_lt hstep) _ (h.step hstep) rfl]
          show (usizeSub kept.staticTotal cost >>= fun _ => _) = _
          rw [h.static_total, hsub]
          rfl
        · next hdrop =>
          have hpos := Kept.keptDynamic_pos hdrop
          obtain ⟨cost, hat, hsub⟩ := drop_last (ε := ε) hpos h.dynamic_le
          have hstep : (shrinking staticCosts dynamicCosts).step kept = some { kept with
              keptDynamic := kept.keptDynamic - 1
              dynamicTotal := (dynamicCosts.take (kept.keptDynamic - 1)).sum } := by
            show (if _ then _ else _) = _
            rw [if_pos hloop.2, if_neg hdrop]
          rw [hat, Shrinking.fitTo_of_some hcost hstep,
            ← ih _ (by rw [← hsize]; exact (shrinking _ _).size_lt hstep) _ (h.step hstep) rfl]
          show (usizeSub kept.dynamicTotal cost >>= fun _ => _) = _
          rw [h.dynamic_total, hsub]
          rfl
      · next hloop =>
        -- it fits, or there is nothing to take away
        by_cases hcost : total fixed kept ≤ maxTokens
        · rw [Shrinking.fitTo_of_le hcost]
        · have hnone : (shrinking staticCosts dynamicCosts).step kept = none := by
            show (if _ then _ else _) = _
            exact if_neg fun hsome => hloop ⟨not_le.mp hcost, hsome⟩
          rw [Shrinking.fitTo_of_none hnone]

/-- Where the loop begins: everything is kept. -/
def allKept (staticChunks dynamicChunks : List SearchResult) : Kept where
  keptStatic := staticChunks.length
  keptDynamic := dynamicChunks.length
  staticTotal := (blockCosts staticChunkBlock staticChunks).sum
  dynamicTotal := (blockCosts dynamicChunkBlock dynamicChunks).sum

/-- Where the loop ends. -/
def keptOf (staticChunks dynamicChunks : List SearchResult) (query : String) (maxTokens : Nat) : Kept :=
  (shrinking (blockCosts staticChunkBlock staticChunks)
    (blockCosts dynamicChunkBlock dynamicChunks)).fitTo
    (total (estimateTokens (buildContext [] [] query))) maxTokens (allKept staticChunks dynamicChunks)

theorem length_blockCosts (block : Nat → SearchResult → String) (chunks : List SearchResult) :
    (blockCosts block chunks).length = chunks.length := by
  simp [blockCosts]

/-- The costs of the first blocks are those of the first chunks. -/
theorem blockCosts_take (block : Nat → SearchResult → String) (chunks : List SearchResult) (n : Nat) :
    blockCosts block (chunks.take n) = (blockCosts block chunks).take n := by
  apply List.ext_getElem
  · simp [blockCosts]
  · intro i hi hi'
    simp [blockCosts]

theorem totals_allKept (staticChunks dynamicChunks : List SearchResult) :
    Totals (blockCosts staticChunkBlock staticChunks) (blockCosts dynamicChunkBlock dynamicChunks)
      (allKept staticChunks dynamicChunks) where
  static_le := (length_blockCosts _ _).ge
  dynamic_le := (length_blockCosts _ _).ge
  static_total := congrArg List.sum (List.take_of_length_le (length_blockCosts _ _).le).symm
  dynamic_total := congrArg List.sum (List.take_of_length_le (length_blockCosts _ _).le).symm

/-- The counts determine the totals. -/
theorem Totals.unique {staticCosts dynamicCosts : List Nat} {kept kept' : Kept}
    (h : Totals staticCosts dynamicCosts kept) (h' : Totals staticCosts dynamicCosts kept')
    (hstatic : kept.keptStatic = kept'.keptStatic) (hdynamic : kept.keptDynamic = kept'.keptDynamic) :
    kept = kept' := by
  apply Kept.ext hstatic hdynamic
  · rw [h.static_total, h'.static_total, hstatic]
  · rw [h.dynamic_total, h'.dynamic_total, hdynamic]

/-- Chunks are only dropped. -/
theorem fitTo_le {staticCosts dynamicCosts : List Nat} {cost : Kept → Nat} (budget : Nat)
    (kept : Kept) :
    ((shrinking staticCosts dynamicCosts).fitTo cost budget kept).keptStatic ≤ kept.keptStatic ∧
      ((shrinking staticCosts dynamicCosts).fitTo cost budget kept).keptDynamic ≤
        kept.keptDynamic := by
  apply Shrinking.fitTo_keeps (R := fun kept kept' : Kept =>
    kept'.keptStatic ≤ kept.keptStatic ∧ kept'.keptDynamic ≤ kept.keptDynamic)
  · exact fun _ => ⟨le_rfl, le_rfl⟩
  · intro kept kept' kept'' hstep hle
    unfold shrinking at hstep
    simp only at hstep
    split_ifs at hstep <;> cases hstep
    · exact ⟨hle.1.trans (Nat.sub_le _ _), hle.2⟩
    · exact ⟨hle.1, hle.2.trans (Nat.sub_le _ _)⟩

/-- The totals stay those of the kept chunks. -/
theorem totals_fitTo {staticCosts dynamicCosts : List Nat} {cost : Kept → Nat} (budget : Nat)
    {kept : Kept} (h : Totals staticCosts dynamicCosts kept) :
    Totals staticCosts dynamicCosts
      ((shrinking staticCosts dynamicCosts).fitTo cost budget kept) := by
  revert h
  apply Shrinking.fitTo_keeps (R := fun kept kept' =>
    Totals staticCosts dynamicCosts kept → Totals staticCosts dynamicCosts kept')
  · exact fun _ => id
  · exact fun _ _ _ hstep hrest h => hrest (h.step hstep)

/-- There is nothing to drop where nothing is kept, and only there. -/
theorem step_eq_none_iff {staticCosts dynamicCosts : List Nat} {kept : Kept} :
    (shrinking staticCosts dynamicCosts).step kept = none ↔
      kept.keptStatic = 0 ∧ kept.keptDynamic = 0 := by
  unfold shrinking
  simp only
  split_ifs <;> simp <;> omega

section Budget

variable (staticChunks dynamicChunks : List SearchResult) (query : String) (maxTokens : Nat)

theorem totals_keptOf :
    Totals (blockCosts staticChunkBlock staticChunks) (blockCosts dynamicChunkBlock dynamicChunks)
      (keptOf staticChunks dynamicChunks query maxTokens) :=
  totals_fitTo maxTokens (totals_allKept staticChunks dynamicChunks)

/-- The loop of the builder ends where `keptOf` says. -/
theorem shrink_allKept {ε : Type} :
    (shrink (blockCosts staticChunkBlock staticChunks) (blockCosts dynamicChunkBlock dynamicChunks)
      (estimateTokens (buildContext [] [] query)) maxTokens (allKept staticChunks dynamicChunks) :
      Checked ε Kept) = .ok (keptOf staticChunks dynamicChunks query maxTokens) :=
  shrink_eq _ maxTokens _ (totals_allKept staticChunks dynamicChunks)

/-- The context is that of the kept chunks. -/
theorem buildContextBounded_eq {ε : Type} :
    (buildContextBounded staticChunks dynamicChunks query maxTokens : Checked ε String) =
      .ok (buildContext
        (staticChunks.take (keptOf staticChunks dynamicChunks query maxTokens).keptStatic)
        (dynamicChunks.take (keptOf staticChunks dynamicChunks query maxTokens).keptDynamic)
        query) := by
  have htotals := totals_keptOf staticChunks dynamicChunks query maxTokens
  have hslice : ∀ {block : Nat → SearchResult → String} {chunks : List SearchResult} {n : Nat},
      n ≤ (blockCosts block chunks).length →
      (Checked.slice 0 n chunks : Checked ε _) = .ok (chunks.take n) := by
    intro block chunks n hn
    rw [length_blockCosts] at hn
    exact slice_eq_ok.mpr ⟨⟨Nat.zero_le n, hn⟩, rfl⟩
  unfold buildContextBounded
  show (shrink _ _ _ maxTokens (allKept staticChunks dynamicChunks) >>= fun kept => _) = _
  rw [shrink_allKept]
  show (Checked.slice 0 (keptOf staticChunks dynamicChunks query maxTokens).keptStatic staticChunks
    >>= fun _ => _) = _
  rw [hslice htotals.static_le]
  show (Checked.slice 0 (keptOf staticChunks dynamicChunks query maxTokens).keptDynamic dynamicChunks
    >>= fun _ => _) = _
  rw [hslice htotals.dynamic_le]
  rfl

/-- What the kept blocks and the skeleton cost together is within the budget if the skeleton is. -/
theorem total_keptOf_le (hskeleton : estimateTokens (buildContext [] [] query) ≤ maxTokens) :
    total (estimateTokens (buildContext [] [] query))
      (keptOf staticChunks dynamicChunks query maxTokens) ≤ maxTokens := by
  have htotals := totals_keptOf staticChunks dynamicChunks query maxTokens
  rcases Shrinking.fitTo_fits (S := shrinking (blockCosts staticChunkBlock staticChunks)
    (blockCosts dynamicChunkBlock dynamicChunks)) maxTokens (allKept staticChunks dynamicChunks)
    with hfits | hnone
  · exact hfits
  · -- nothing is kept, so only the skeleton is left
    obtain ⟨hstatic, hdynamic⟩ := step_eq_none_iff.mp hnone
    have hstatic' := htotals.static_total
    have hdynamic' := htotals.dynamic_total
    have hzero : (keptOf staticChunks dynamicChunks query maxTokens).keptStatic = 0 := hstatic
    have hzero' : (keptOf staticChunks dynamicChunks query maxTokens).keptDynamic = 0 := hdynamic
    rw [hzero, List.take_zero, List.sum_nil] at hstatic'
    rw [hzero', List.take_zero, List.sum_nil] at hdynamic'
    unfold total
    omega

/-- The text is within the budget if the skeleton is. -/
theorem estimateTokens_kept_le (hskeleton : estimateTokens (buildContext [] [] query) ≤ maxTokens) :
    estimateTokens (buildContext
      (staticChunks.take (keptOf staticChunks dynamicChunks query maxTokens).keptStatic)
      (dynamicChunks.take (keptOf staticChunks dynamicChunks query maxTokens).keptDynamic)
      query) ≤ maxTokens := by
  have htotals := totals_keptOf staticChunks dynamicChunks query maxTokens
  apply (estimateTokens_buildContext_le _ _ query).trans
  rw [blockCosts_take, blockCosts_take, ← htotals.static_total, ← htotals.dynamic_total]
  exact total_keptOf_le staticChunks dynamicChunks query maxTokens hskeleton

/-- Nothing is dropped exactly if everything fits or there is nothing to drop. -/
theorem keptOf_all_iff :
    (keptOf staticChunks dynamicChunks query maxTokens).keptStatic = staticChunks.length ∧
        (keptOf staticChunks dynamicChunks query maxTokens).keptDynamic = dynamicChunks.length ↔
      total (estimateTokens (buildContext [] [] query)) (allKept staticChunks dynamicChunks) ≤
          maxTokens ∨ staticChunks = [] ∧ dynamicChunks = [] := by
  have hnone : (shrinking (blockCosts staticChunkBlock staticChunks)
      (blockCosts dynamicChunkBlock dynamicChunks)).step (allKept staticChunks dynamicChunks) = none ↔
        staticChunks = [] ∧ dynamicChunks = [] := by
    rw [step_eq_none_iff]
    show staticChunks.length = 0 ∧ dynamicChunks.length = 0 ↔ _
    rw [List.length_eq_zero_iff, List.length_eq_zero_iff]
  rw [← hnone, ← Shrinking.fitTo_eq_self_iff]
  constructor
  · rintro ⟨hstatic, hdynamic⟩
    exact (totals_keptOf staticChunks dynamicChunks query maxTokens).unique
      (totals_allKept staticChunks dynamicChunks) hstatic hdynamic
  · intro hself
    have hkept : keptOf staticChunks dynamicChunks query maxTokens =
        allKept staticChunks dynamicChunks := hself
    rw [hkept]
    exact ⟨rfl, rfl⟩

/-- A larger budget keeps no less. -/
theorem keptOf_mono {maxTokens maxTokens' : Nat} (h : maxTokens ≤ maxTokens') :
    (keptOf staticChunks dynamicChunks query maxTokens).keptStatic ≤
        (keptOf staticChunks dynamicChunks query maxTokens').keptStatic ∧
      (keptOf staticChunks dynamicChunks query maxTokens).keptDynamic ≤
        (keptOf staticChunks dynamicChunks query maxTokens').keptDynamic := by
  have hlater : keptOf staticChunks dynamicChunks query maxTokens =
      (shrinking _ _).fitTo _ maxTokens (keptOf staticChunks dynamicChunks query maxTokens') :=
    (Shrinking.fitTo_fitTo h _).symm
  rw [hlater]
  exact fitTo_le maxTokens _

/-- A context within a budget: it is the context of what the loop keeps of each group, it fits if the
skeleton does, nothing is dropped exactly if everything fits or there is nothing to drop, and a larger
budget keeps no less. -/
theorem buildContextBounded_budget {ε : Type} :
    ∃ kept : Kept,
      (shrink (blockCosts staticChunkBlock staticChunks) (blockCosts dynamicChunkBlock dynamicChunks)
        (estimateTokens (buildContext [] [] query)) maxTokens (allKept staticChunks dynamicChunks) :
        Checked ε Kept) = .ok kept ∧
      kept.keptStatic ≤ staticChunks.length ∧ kept.keptDynamic ≤ dynamicChunks.length ∧
      (buildContextBounded staticChunks dynamicChunks query maxTokens : Checked ε String) =
        .ok (buildContext (staticChunks.take kept.keptStatic) (dynamicChunks.take kept.keptDynamic)
          query) ∧
      (estimateTokens (buildContext [] [] query) ≤ maxTokens →
        estimateTokens (buildContext (staticChunks.take kept.keptStatic)
          (dynamicChunks.take kept.keptDynamic) query) ≤ maxTokens) ∧
      (kept.keptStatic = staticChunks.length ∧ kept.keptDynamic = dynamicChunks.length ↔
        estimateTokens (buildContext [] [] query) +
            (blockCosts staticChunkBlock staticChunks).sum +
            (blockCosts dynamicChunkBlock dynamicChunks).sum ≤ maxTokens ∨
          staticChunks = [] ∧ dynamicChunks = []) ∧
      ∀ maxTokens' kept', maxTokens ≤ maxTokens' →
        (shrink (blockCosts staticChunkBlock staticChunks)
          (blockCosts dynamicChunkBlock dynamicChunks) (estimateTokens (buildContext [] [] query))
          maxTokens' (allKept staticChunks dynamicChunks) : Checked ε Kept) = .ok kept' →
        kept.keptStatic ≤ kept'.keptStatic ∧ kept.keptDynamic ≤ kept'.keptDynamic := by
  have hle : (keptOf staticChunks dynamicChunks query maxTokens).keptStatic ≤ staticChunks.length ∧
      (keptOf staticChunks dynamicChunks query maxTokens).keptDynamic ≤ dynamicChunks.length :=
    fitTo_le maxTokens (allKept staticChunks dynamicChunks)
  refine ⟨keptOf staticChunks dynamicChunks query maxTokens,
    shrink_allKept staticChunks dynamicChunks query maxTokens, hle.1, hle.2,
    buildContextBounded_eq staticChunks dynamicChunks query maxTokens,
    estimateTokens_kept_le staticChunks dynamicChunks query maxTokens,
    keptOf_all_iff staticChunks dynamicChunks query maxTokens, ?_⟩
  intro maxTokens' kept' hbudget hkept'
  rw [shrink_allKept] at hkept'
  cases hkept'
  exact keptOf_mono staticChunks dynamicChunks query hbudget

/-- Without chunks nothing is dropped, though the skeleton alone does not fit. -/
theorem keptOf_noChunks :
    (shrink (blockCosts staticChunkBlock []) (blockCosts dynamicChunkBlock [])
        (estimateTokens (buildContext [] [] "")) 0 (allKept [] []) : Checked Unit Kept) =
        .ok (allKept [] []) ∧
      ¬estimateTokens (buildContext [] [] "") + (blockCosts staticChunkBlock []).sum +
        (blockCosts dynamicChunkBlock []).sum ≤ 0 := by
  constructor
  · rw [shrink, dif_neg]
    rintro ⟨-, hsome | hsome⟩
    · exact absurd hsome (Nat.lt_irrefl 0)
    · exact absurd hsome (Nat.lt_irrefl 0)
  · decide

end Budget

end ContextBuilder

end LTSearch
