/-
# LTSearch.Foundation.Separated -- encodings that end where something else begins

Some encodings do not say where they end, but cannot go on with what may follow them.  Pieces of such an
encoding with a separator between them and a closing mark at the end are read in one way.
-/
import LTSearch.Foundation.PrefixCode

namespace LTSearch.Foundation

variable {α β δ : Type}

/-- The stream tells the value of `s` that it starts with, if what follows it may follow. -/
def DelimitedBy (follow : List δ → Prop) (s : Set α) (encode : α → List δ) : Prop :=
  ∀ ⦃a⦄, a ∈ s → ∀ ⦃b⦄, b ∈ s → ∀ rest rest', follow rest → follow rest' →
    encode a ++ rest = encode b ++ rest' → a = b ∧ rest = rest'

/-- Elements of one kind go on for as long as there are any. -/
theorem delimitedBy_run (p : δ → Bool) :
    DelimitedBy (fun rest => ∀ c ∈ rest.head?, p c = false) {run : List δ | ∀ c ∈ run, p c = true} id := by
  intro run hrun run' hrun' rest rest' hrest hrest' heq
  replace hrun : ∀ c ∈ run, p c = true := hrun
  replace hrun' : ∀ c ∈ run', p c = true := hrun'
  replace heq : run ++ rest = run' ++ rest' := heq
  have hspan : ∀ run rest : List δ, (∀ c ∈ run, p c = true) → (∀ c ∈ rest.head?, p c = false) →
      (run ++ rest).takeWhile p = run := by
    intro run rest hrun hrest
    rw [List.takeWhile_append_of_pos hrun]
    cases rest with
    | nil => simp
    | cons c rest => simp [hrest c rfl]
  have hsame : run = run' := by
    rw [← hspan run rest hrun hrest, heq, hspan run' rest' hrun' hrest']
  subst hsame
  exact ⟨rfl, List.append_cancel_left heq⟩

/-- The pieces with a separator between them. -/
def separated (separator : δ) (encode : α → List δ) : List α → List δ
  | [] => []
  | [a] => encode a
  | a :: b :: rest => encode a ++ separator :: separated separator encode (b :: rest)

/-- What follows the first of some pieces. -/
def afterPiece (separator close : δ) (encode : α → List δ) (rest : List δ) : List α → List δ
  | [] => close :: rest
  | pieces => separator :: (separated separator encode pieces ++ close :: rest)

theorem separated_cons (separator close : δ) (encode : α → List δ) (a : α) (pieces : List α)
    (rest : List δ) : separated separator encode (a :: pieces) ++ close :: rest =
      encode a ++ afterPiece separator close encode rest pieces := by
  cases pieces with
  | nil => rfl
  | cons b pieces => simp [separated, afterPiece]

namespace DelimitedBy

variable {follow : List δ → Prop} {s : Set α} {encode : α → List δ} {separator close : δ}

/-- Pieces up to the closing mark. -/
theorem separated (h : DelimitedBy follow s encode) (hseparator : ∀ rest, follow (separator :: rest))
    (hclose : ∀ rest, follow (close :: rest)) (hne : separator ≠ close)
    (hstart : ∀ a ∈ s, ∃ c ∈ (encode a).head?, c ≠ close) :
    SelfDelimiting {pieces : List α | ∀ a ∈ pieces, a ∈ s}
      fun pieces => Foundation.separated separator encode pieces ++ [close] := by
  have hopen : ∀ a ∈ s, ∀ more rest, encode a ++ more ≠ close :: rest := by
    intro a ha more rest heq
    obtain ⟨c, hc, hne⟩ := hstart a ha
    cases hencode : encode a with
    | nil => simp [hencode] at hc
    | cons d tail =>
        rw [hencode] at hc heq
        simp only [List.head?_cons, Option.mem_some_iff] at hc
        simp only [List.cons_append, List.cons.injEq] at heq
        exact hne (hc ▸ heq.1)
  have hfollow : ∀ (rest : List δ) (pieces : List α),
      follow (afterPiece separator close encode rest pieces) := by
    intro rest pieces
    cases pieces with
    | nil => exact hclose rest
    | cons a pieces => exact hseparator _
  intro pieces hpieces pieces' hpieces' rest rest' heq
  replace hpieces : ∀ a ∈ pieces, a ∈ s := hpieces
  replace hpieces' : ∀ a ∈ pieces', a ∈ s := hpieces'
  simp only [List.append_assoc, List.singleton_append] at heq
  -- both lists shrink together, one piece and what follows it at a time
  induction pieces generalizing pieces' with
  | nil =>
      cases pieces' with
      | nil => exact ⟨rfl, (List.cons.inj heq).2⟩
      | cons a' pieces' =>
          rw [separated_cons] at heq
          exact absurd heq.symm (hopen a' (hpieces' a' List.mem_cons_self) _ rest)
  | cons a pieces ih =>
      cases pieces' with
      | nil =>
          rw [separated_cons] at heq
          exact absurd heq (hopen a (hpieces a List.mem_cons_self) _ rest')
      | cons a' pieces' =>
          obtain ⟨ha, htail⟩ := List.forall_mem_cons.mp hpieces
          obtain ⟨ha', htail'⟩ := List.forall_mem_cons.mp hpieces'
          rw [separated_cons, separated_cons] at heq
          obtain ⟨rfl, hafter⟩ := h ha ha' _ _ (hfollow rest pieces) (hfollow rest' pieces') heq
          cases pieces with
          | nil =>
              cases pieces' with
              | nil => exact ⟨rfl, (List.cons.inj hafter).2⟩
              | cons b' pieces' => exact absurd (List.cons.inj hafter).1.symm hne
          | cons b pieces =>
              cases pieces' with
              | nil => exact absurd (List.cons.inj hafter).1 hne
              | cons b' pieces' =>
                  obtain ⟨hpieces_eq, hrest⟩ := ih htail htail' (List.cons.inj hafter).2
                  exact ⟨congrArg (a :: ·) hpieces_eq, hrest⟩

end DelimitedBy

end LTSearch.Foundation
