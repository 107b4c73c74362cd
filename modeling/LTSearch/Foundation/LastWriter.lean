/-
# LTSearch.Foundation.LastWriter -- last writer wins, over blocks of entries

A register is rebuilt by reading entries in some order and keeping one: an entry replaces the kept
one unless its stamp is older.  Entries come in blocks, all entries of a block under the stamp of
the block, and blocks that hold entries have different stamps.  Then the register does not depend
on the order the blocks are read in, nor on how often each is read: it is the last entry of the
block with the greatest stamp.
-/
import Mathlib

namespace LTSearch.Foundation

universe u v w

variable {ε : Type u} {S : Type v} {B : Type w} [LinearOrder S]

/-- Keep `e` unless the entry kept so far has a later stamp. -/
def keepLater (stamp : ε → S) (kept : Option ε) (e : ε) : Option ε :=
  match kept with
  | some current => if stamp current > stamp e then some current else some e
  | none => some e

/-- The register after reading all entries. -/
def lastWriter (stamp : ε → S) (entries : List ε) : Option ε :=
  entries.foldl (keepLater stamp) none

variable {stamp : ε → S}

theorem keepLater_of_lt {current e : ε} (h : stamp e < stamp current) :
    keepLater stamp (some current) e = some current :=
  if_pos h

theorem keepLater_of_le {kept : Option ε} {e : ε} (h : ∀ current ∈ kept, stamp current ≤ stamp e) :
    keepLater stamp kept e = some e := by
  cases kept with
  | none => rfl
  | some current => exact if_neg (not_lt.mpr (h current rfl))

/-- The register holds one of the entries read, and none of them is later. -/
theorem lastWriter_mem {entries : List ε} {r : ε} (h : lastWriter stamp entries = some r) :
    r ∈ entries ∧ ∀ e ∈ entries, stamp e ≤ stamp r := by
  unfold lastWriter at h
  induction entries using List.reverseRecOn generalizing r with
  | nil => cases h
  | append_singleton entries e ih =>
      rw [List.foldl_append, List.foldl_cons, List.foldl_nil] at h
      cases hk : entries.foldl (keepLater stamp) none with
      | none =>
          rw [hk] at h
          cases h
          refine ⟨by simp, ?_⟩
          intro e' he'
          rcases List.mem_append.mp he' with he' | he'
          · -- an empty register means that nothing was read
            cases entries using List.reverseRecOn with
            | nil => exact absurd he' List.not_mem_nil
            | append_singleton entries x =>
                rw [List.foldl_append, List.foldl_cons, List.foldl_nil] at hk
                unfold keepLater at hk
                split at hk
                · split at hk <;> cases hk
                · cases hk
          · rw [List.mem_singleton.mp he']
      | some current =>
          obtain ⟨hmem, hle⟩ := ih hk
          rw [hk] at h
          by_cases hlt : stamp e < stamp current
          · rw [keepLater_of_lt hlt] at h
            cases h
            refine ⟨List.mem_append_left _ hmem, ?_⟩
            intro e' he'
            rcases List.mem_append.mp he' with he' | he'
            · exact hle e' he'
            · rw [List.mem_singleton.mp he']
              exact hlt.le
          · have hle' : stamp current ≤ stamp e := not_lt.mp hlt
            rw [keepLater_of_le (by rintro _ ⟨⟩; exact hle')] at h
            cases h
            refine ⟨by simp, ?_⟩
            intro e' he'
            rcases List.mem_append.mp he' with he' | he'
            · exact (hle e' he').trans hle'
            · rw [List.mem_singleton.mp he']

/-! ## Blocks -/

/-- A block whose entries are all older than the kept one changes nothing. -/
theorem foldl_keepLater_of_lt {block : List ε} {current : ε}
    (h : ∀ e ∈ block, stamp e < stamp current) :
    block.foldl (keepLater stamp) (some current) = some current := by
  induction block with
  | nil => rfl
  | cons e rest ih =>
      rw [List.foldl_cons, keepLater_of_lt (h e List.mem_cons_self)]
      exact ih fun e' he' => h e' (List.mem_cons_of_mem e he')

/-- A block under one stamp that is not older than the kept entry leaves its last entry. -/
theorem foldl_keepLater_of_le {block : List ε} {time : S} (hstamp : ∀ e ∈ block, stamp e = time)
    (hne : block ≠ []) {kept : Option ε} (hkept : ∀ current ∈ kept, stamp current ≤ time) :
    block.foldl (keepLater stamp) kept = block.getLast? := by
  induction block generalizing kept with
  | nil => exact absurd rfl hne
  | cons e rest ih =>
      have he : stamp e = time := hstamp e List.mem_cons_self
      rw [List.foldl_cons, keepLater_of_le (by rw [he]; exact hkept)]
      cases rest with
      | nil => rfl
      | cons e' rest' =>
          rw [ih (fun x hx => hstamp x (List.mem_cons_of_mem e hx)) (List.cons_ne_nil _ _)
            (by rintro _ ⟨⟩; exact he.le), List.getLast?_cons_cons]

/-- Whatever order the blocks are read in and however often, the register is the last entry of the
block with the greatest stamp. -/
theorem lastWriter_flatMap {entries : B → List ε} {time : B → S} {blocks : List B} {b : B}
    (hb : b ∈ blocks) (hne : entries b ≠ [])
    (hstamp : ∀ b' ∈ blocks, ∀ e ∈ entries b', stamp e = time b')
    (hmax : ∀ b' ∈ blocks, b' ≠ b → entries b' ≠ [] → time b' < time b) :
    lastWriter stamp (blocks.flatMap entries) = (entries b).getLast? := by
  classical
  -- before `b` is first read the register is empty or older than `b`, afterwards it is `b`'s
  suffices hinv : ∀ front : List B, (∀ b' ∈ front, b' ∈ blocks) →
      (b ∈ front → lastWriter stamp (front.flatMap entries) = (entries b).getLast?) ∧
      (b ∉ front → ∀ kept ∈ lastWriter stamp (front.flatMap entries), stamp kept < time b) from
    (hinv blocks fun _ h => h).1 hb
  intro front
  induction front using List.reverseRecOn with
  | nil =>
      intro _
      exact ⟨fun h => absurd h List.not_mem_nil, fun _ kept h => by cases h⟩
  | append_singleton front b' ih =>
      intro hsub
      obtain ⟨hin, hout⟩ := ih fun x hx => hsub x (List.mem_append_left _ hx)
      have hb' : b' ∈ blocks := hsub b' (by simp)
      have hfold : lastWriter stamp ((front ++ [b']).flatMap entries) =
          (entries b').foldl (keepLater stamp) (lastWriter stamp (front.flatMap entries)) := by
        unfold lastWriter
        rw [List.flatMap_append, List.foldl_append, List.flatMap_singleton]
      rw [hfold]
      by_cases heq : b' = b
      · subst heq
        refine ⟨fun _ => foldl_keepLater_of_le (hstamp b' hb') hne ?_, fun h => absurd (by simp) h⟩
        intro current hcurrent
        by_cases hfront : b' ∈ front
        · rw [hin hfront] at hcurrent
          rw [hstamp b' hb' current (List.mem_of_getLast? hcurrent)]
        · exact (hout hfront current hcurrent).le
      · have hmem : b ∈ front ++ [b'] ↔ b ∈ front := by simp [Ne.symm heq]
        rw [hmem]
        by_cases hempty : entries b' = []
        · rw [hempty, List.foldl_nil]
          exact ⟨hin, hout⟩
        · have hlt := hmax b' hb' heq hempty
          constructor
          · intro hfront
            rw [hin hfront]
            have hlast := List.getLast?_eq_some_getLast hne
            generalize (entries b).getLast hne = last at hlast
            rw [hlast]
            apply foldl_keepLater_of_lt
            intro e he
            rw [hstamp b' hb' e he, hstamp b hb last (List.mem_of_getLast? hlast)]
            exact hlt
          · intro hfront kept hkept
            by_cases hle : ∀ current ∈ lastWriter stamp (front.flatMap entries),
                stamp current ≤ time b'
            · rw [foldl_keepLater_of_le (hstamp b' hb') hempty hle] at hkept
              rw [hstamp b' hb' kept (List.mem_of_getLast? hkept)]
              exact hlt
            · push Not at hle
              obtain ⟨current, hcurrent, hgt⟩ := hle
              have hcur := hout hfront current hcurrent
              rw [Option.mem_def.mp hcurrent, foldl_keepLater_of_lt] at hkept
              · cases hkept
                exact hcur
              · intro e he
                rw [hstamp b' hb' e he]
                exact hgt

/-- When the blocks that hold entries come with increasing stamps, the last entry of them all is the
last entry of the block with the greatest stamp. -/
theorem exists_last_block {entries : B → List ε} {time : B → S} {blocks : List B}
    (hincr : blocks.Pairwise fun a b => entries a ≠ [] → entries b ≠ [] → time a < time b) :
    (∀ b ∈ blocks, entries b = []) ∨
    ∃ b ∈ blocks, entries b ≠ [] ∧
      (∀ b' ∈ blocks, b' ≠ b → entries b' ≠ [] → time b' < time b) ∧
      (blocks.flatMap entries).getLast? = (entries b).getLast? := by
  induction blocks using List.reverseRecOn with
  | nil => exact .inl fun b hb => absurd hb List.not_mem_nil
  | append_singleton front b ih =>
      obtain ⟨hfront, -, hlast⟩ := List.pairwise_append.mp hincr
      have hcat : (front ++ [b]).flatMap entries = front.flatMap entries ++ entries b := by
        rw [List.flatMap_append, List.flatMap_singleton]
      by_cases hempty : entries b = []
      · rw [hcat, hempty, List.append_nil]
        rcases ih hfront with hall | ⟨c, hc, hne, hmax, hget⟩
        · left
          intro x hx
          rcases List.mem_append.mp hx with hx | hx
          · exact hall x hx
          · rw [List.mem_singleton.mp hx]
            exact hempty
        · right
          refine ⟨c, List.mem_append_left _ hc, hne, ?_, hget⟩
          intro x hx hxc hxne
          rcases List.mem_append.mp hx with hx | hx
          · exact hmax x hx hxc hxne
          · rw [List.mem_singleton.mp hx] at hxne
            exact absurd hempty hxne
      · right
        refine ⟨b, by simp, hempty, ?_, ?_⟩
        · intro x hx hxb hxne
          rcases List.mem_append.mp hx with hx | hx
          · exact hlast x hx b (List.mem_singleton_self b) hxne hempty
          · exact absurd (List.mem_singleton.mp hx) hxb
        · rw [hcat, List.getLast?_append_of_ne_nil _ hempty]

/-- Replaying blocks with increasing stamps in any order, each at least once, keeps the entry that
was written last. -/
theorem lastWriter_replay {entries : B → List ε} (time : B → S) {blocks order : List B}
    (hsame : ∀ b, b ∈ order ↔ b ∈ blocks)
    (hstamp : ∀ b ∈ blocks, ∀ e ∈ entries b, stamp e = time b)
    (hincr : blocks.Pairwise fun a b => entries a ≠ [] → entries b ≠ [] → time a < time b) :
    lastWriter stamp (order.flatMap entries) = (blocks.flatMap entries).getLast? := by
  rcases exists_last_block hincr with hall | ⟨b, hb, hne, hmax, hget⟩
  · have horder : order.flatMap entries = [] :=
      List.flatMap_eq_nil_iff.mpr fun b hb => hall b ((hsame b).mp hb)
    have hblocks : blocks.flatMap entries = [] := List.flatMap_eq_nil_iff.mpr hall
    rw [horder, hblocks]
    rfl
  · rw [hget]
    exact lastWriter_flatMap ((hsame b).mpr hb) hne (fun b' hb' => hstamp b' ((hsame b').mp hb'))
      fun b' hb' => hmax b' ((hsame b').mp hb')

end LTSearch.Foundation
