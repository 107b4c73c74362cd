/-
# LTSearch.Foundation.Canonical -- formats in which every value has one file

A writer and a reader belong together if the reader returns what was written, if it accepts nothing
but what the writer would have written, and if it refuses the rest with an error.
-/
import LTSearch.Foundation.Bytes
import LTSearch.Foundation.Checked

namespace LTSearch.Foundation

variable {ε α : Type}

/-- Among the byte strings of a kind, the reader accepts the files of the good values, and each file
says of which value it is. -/
structure Canonical (good : α → Prop) (kind : Bytes → Prop) (write : α → Bytes)
    (read : Bytes → Checked ε α) : Prop where
  readBack : ∀ a, good a → kind (write a) ∧ read (write a) = .ok a
  accepted : ∀ bytes a, kind bytes → read bytes = .ok a → good a ∧ write a = bytes
  refused : ∀ bytes, kind bytes → (∀ a, good a → write a ≠ bytes) →
    ∃ e, read bytes = .error (.error e)

namespace Canonical

variable {good : α → Prop} {kind : Bytes → Prop} {write : α → Bytes} {read : Bytes → Checked ε α}

/-- A reader that neither panics nor accepts what was not written refuses it. -/
theorem of_total (hreadBack : ∀ a, good a → kind (write a) ∧ read (write a) = .ok a)
    (haccepted : ∀ bytes a, kind bytes → read bytes = .ok a → good a ∧ write a = bytes)
    (htotal : ∀ bytes, Total (read bytes)) : Canonical good kind write read where
  readBack := hreadBack
  accepted := haccepted
  refused bytes hkind hnot := by
    cases hread : read bytes with
    | ok a =>
        obtain ⟨hgood, hwrite⟩ := haccepted bytes a hkind hread
        exact absurd hwrite (hnot a hgood)
    | error stop =>
        cases stop with
        | error e => exact ⟨e, rfl⟩
        | panic why => exact absurd hread (htotal bytes why)

end Canonical

end LTSearch.Foundation
