/-
# LTSearch.Foundation.PrefixCode -- encodings that say where they end

An encoding is self-delimiting on a set when what follows it does not matter for reading it: two
encodings that start the same stream are of the same value.  Fields of fixed width are and texts behind
their length are; as many self-delimiting pieces as are expected can be read one after the other, and
so can pieces that fill the whole stream.
-/
import LTSearch.Foundation.Bytes

namespace LTSearch.Foundation

variable {α β γ δ : Type}

/-- The stream tells the value of `s` that it starts with, and what follows it. -/
def SelfDelimiting (s : Set α) (encode : α → List δ) : Prop :=
  ∀ ⦃a⦄, a ∈ s → ∀ ⦃b⦄, b ∈ s → ∀ rest rest', encode a ++ rest = encode b ++ rest' →
    a = b ∧ rest = rest'

namespace SelfDelimiting

variable {s : Set α} {encode : α → List δ}

/-- A field of one width. -/
theorem of_length (width : Nat) (hlen : ∀ a ∈ s, (encode a).length = width)
    (hinj : Set.InjOn encode s) : SelfDelimiting s encode := by
  intro a ha b hb rest rest' heq
  obtain ⟨henc, hrest⟩ := List.append_inj heq ((hlen a ha).trans (hlen b hb).symm)
  exact ⟨hinj ha hb henc, hrest⟩

/-- A field of a value, read off a bigger one. -/
theorem comap {f : β → α} {t : Set β} (h : SelfDelimiting s encode) (hmaps : Set.MapsTo f t s)
    (hinj : Set.InjOn f t) : SelfDelimiting t fun b => encode (f b) := by
  intro a ha b hb rest rest' heq
  obtain ⟨hf, hrest⟩ := h (hmaps ha) (hmaps hb) rest rest' heq
  exact ⟨hinj ha hb hf, hrest⟩

/-- As many pieces as the other stream has. -/
theorem flatMap_of_length (h : SelfDelimiting s encode) {n : Nat} :
    SelfDelimiting {l : List α | l.length = n ∧ ∀ a ∈ l, a ∈ s} fun l => l.flatMap encode := by
  rintro l ⟨rfl, hl⟩ l' hl' rest rest' heq
  obtain ⟨hlen', hl'⟩ := hl'
  replace heq : l.flatMap encode ++ rest = l'.flatMap encode ++ rest' := heq
  induction l generalizing l' with
  | nil =>
      obtain rfl := List.length_eq_zero_iff.mp hlen'
      exact ⟨rfl, heq⟩
  | cons a l ih =>
      cases l' with
      | nil => cases hlen'
      | cons a' l' =>
          obtain ⟨ha, hl⟩ := List.forall_mem_cons.mp hl
          obtain ⟨ha', htail'⟩ := List.forall_mem_cons.mp hl'
          simp only [List.flatMap_cons, List.append_assoc] at heq
          obtain ⟨rfl, hnext⟩ := h ha ha' _ _ heq
          obtain ⟨rfl, hrest⟩ := ih hl (Nat.succ.inj hlen') htail' hnext
          exact ⟨rfl, hrest⟩

/-- Pieces up to the end of the stream, each of which takes some of it. -/
theorem flatMap_injOn (h : SelfDelimiting s encode) (hne : ∀ a ∈ s, encode a ≠ []) :
    Set.InjOn (fun l : List α => l.flatMap encode) {l | ∀ a ∈ l, a ∈ s} := by
  intro l hl l' hl' heq
  replace hl : ∀ a ∈ l, a ∈ s := hl
  replace hl' : ∀ a ∈ l', a ∈ s := hl'
  induction l generalizing l' with
  | nil =>
      cases l' with
      | nil => rfl
      | cons a' l' =>
          have hnil := (List.append_eq_nil_iff.mp (Eq.symm heq)).1
          exact absurd hnil (hne a' (hl' a' List.mem_cons_self))
  | cons a l ih =>
      cases l' with
      | nil =>
          have hnil := (List.append_eq_nil_iff.mp heq).1
          exact absurd hnil (hne a (hl a List.mem_cons_self))
      | cons a' l' =>
          obtain ⟨ha, hl⟩ := List.forall_mem_cons.mp hl
          obtain ⟨ha', htail'⟩ := List.forall_mem_cons.mp hl'
          obtain ⟨rfl, hrest⟩ := h ha ha' _ _ heq
          exact congrArg (a :: ·) (ih hrest hl htail')

end SelfDelimiting

/-! ## Integers and byte strings -/

theorem selfDelimiting_u32le : SelfDelimiting Set.univ u32le :=
  .of_length 4 (fun x _ => length_u32le x) fun _ _ _ _ h => u32le_inj h

theorem selfDelimiting_u64le : SelfDelimiting Set.univ u64le :=
  .of_length 8 (fun x _ => length_u64le x) fun _ _ _ _ h => u64le_inj h

theorem selfDelimiting_byte : SelfDelimiting Set.univ fun b : UInt8 => [b] :=
  .of_length 1 (fun _ _ => rfl) fun _ _ _ _ h => List.singleton_inj.mp h

/-- A byte string behind its length in eight bytes. -/
theorem selfDelimiting_lenPrefixed :
    SelfDelimiting {bytes : Bytes | bytes.length < 2 ^ 64} fun bytes =>
      leBytes 8 bytes.length ++ bytes := by
  intro bytes (hbytes : bytes.length < 2 ^ 64) bytes' (hbytes' : bytes'.length < 2 ^ 64) rest rest' heq
  simp only [List.append_assoc] at heq
  obtain ⟨hwidth, heq⟩ := List.append_inj heq (by rw [length_leBytes, length_leBytes])
  have hlen : bytes.length = bytes'.length := leBytes_inj (by omega) (by omega) hwidth
  exact List.append_inj heq hlen

end LTSearch.Foundation
