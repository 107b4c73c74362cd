/-
# LTSearch.JsonRender -- a printed value says which value it is

The compact text of a value followed by a comma, a bracket, a brace or nothing is read in one way: no
two values print alike.  Numbers are the tokens without an end of their own, so what follows matters.
-/
import LTSearch.JsonText
import LTSearch.Foundation.Separated

namespace LTSearch

open LTSearch.Foundation

namespace Json

/-! ## Strings -/

/-- The value of a hexadecimal digit. -/
def hexValue (c : Char) : Nat := if c.isDigit then c.toNat - 48 else c.toNat - 87

/-- The character that a piece of a string literal starts with, and what follows it. -/
def unescape : List Char → Option (Char × List Char)
  | '\\' :: 'u' :: _ :: _ :: high :: low :: rest =>
      some (Char.ofNat (16 * hexValue high + hexValue low), rest)
  | '\\' :: 'n' :: rest => some ('\n', rest)
  | '\\' :: 'r' :: rest => some ('\r', rest)
  | '\\' :: 't' :: rest => some ('\t', rest)
  | '\\' :: 'b' :: rest => some (Char.ofNat 8, rest)
  | '\\' :: 'f' :: rest => some (Char.ofNat 12, rest)
  | '\\' :: c :: rest => some (c, rest)
  | c :: rest => some (c, rest)
  | [] => none

theorem ofNat_toNat_of_eq {c : Char} {n : Nat} (h : c.toNat = n) : Char.ofNat n = c := by
  rw [← h, Char.ofNat_toNat]

/-- Reading undoes escaping. -/
theorem unescape_escapeChar (c : Char) (rest : List Char) :
    unescape ((escapeChar c).toList ++ rest) = some (c, rest) := by
  unfold escapeChar
  split_ifs with h₁ h₂ h₃ h₄ h₅ h₆ h₇ h₈
  · rw [h₁]; rfl
  · rw [h₂]; rfl
  · rw [h₃]; rfl
  · rw [h₄]; rfl
  · rw [h₅]; rfl
  · rw [← ofNat_toNat_of_eq h₆]; rfl
  · rw [← ofNat_toNat_of_eq h₇]; rfl
  · -- the other control characters, by their number
    have hdigits : ∀ n < 32,
        16 * hexValue (Nat.digitChar (n / 16)) + hexValue (Nat.digitChar (n % 16)) = n := by decide
    simp only [String.toList_append, String.toList_ofList]
    show some (Char.ofNat _, rest) = _
    rw [hdigits c.toNat h₈, Char.ofNat_toNat]
  · rw [String.toList_singleton]
    show unescape (c :: rest) = _
    unfold unescape
    split <;> simp_all

/-- The characters between the quotes, and the closing quote. -/
def literal (cs : List Char) : List Char := cs.flatMap (fun c => (escapeChar c).toList) ++ ['"']

theorem toList_quote (s : String) : (quote s).toList = '"' :: literal s.toList := by
  have hfold : ∀ cs : List Char, (cs.foldr (fun c rest => escapeChar c ++ rest) "\"").toList = literal cs := by
    intro cs
    induction cs with
    | nil => rfl
    | cons c cs ih => simp [literal, ih]
  unfold quote
  rw [String.toList_append, hfold]
  rfl

theorem escapeChar_inj {c d : Char} {rest rest' : List Char}
    (h : (escapeChar c).toList ++ rest = (escapeChar d).toList ++ rest') : c = d ∧ rest = rest' := by
  have hread : some (c, rest) = some (d, rest') := by
    rw [← unescape_escapeChar c rest, h, unescape_escapeChar]
  simpa using hread

/-- An escaped character does not start with the quote. -/
theorem escapeChar_ne_quote (c : Char) (rest rest' : List Char) :
    (escapeChar c).toList ++ rest ≠ '"' :: rest' := by
  intro h
  have hread : some (c, rest) = some ('"', rest') := by
    rw [← unescape_escapeChar c rest, h]
    rfl
  obtain rfl : c = '"' := by simpa using congrArg (Option.map Prod.fst) hread
  exact absurd (List.cons.inj h).1 (by decide)

theorem selfDelimiting_literal : SelfDelimiting Set.univ literal := by
  intro cs hcs ds hds rest rest' heq
  clear hcs hds
  simp only [literal, List.append_assoc, List.singleton_append] at heq
  induction cs generalizing ds with
  | nil =>
      cases ds with
      | nil => exact ⟨rfl, (List.cons.inj heq).2⟩
      | cons d ds =>
          rw [List.flatMap_cons, List.append_assoc] at heq
          exact absurd heq.symm (escapeChar_ne_quote d _ _)
  | cons c cs ih =>
      cases ds with
      | nil =>
          rw [List.flatMap_cons, List.append_assoc] at heq
          exact absurd heq (escapeChar_ne_quote c _ _)
      | cons d ds =>
          simp only [List.flatMap_cons, List.append_assoc] at heq
          obtain ⟨rfl, htail⟩ := escapeChar_inj heq
          obtain ⟨rfl, hrest⟩ := ih htail
          exact ⟨rfl, hrest⟩

theorem selfDelimiting_quote : SelfDelimiting Set.univ fun s : String => (quote s).toList := by
  intro s _ t _ rest rest' heq
  simp only [toList_quote, List.cons_append, List.cons.injEq, true_and] at heq
  obtain ⟨hchars, hrest⟩ := selfDelimiting_literal trivial trivial _ _ heq
  exact ⟨String.toList_injective hchars, hrest⟩

/-! ## Values -/

/-- A value whose numbers are texts of numbers. -/
inductive Printed : Json → Prop
  | null : Printed .null
  | bool (b : Bool) : Printed (.bool b)
  | num (number : NumberText) : Printed (.num number.text)
  | str (s : String) : Printed (.str s)
  | arr (items : List Json) (each : ∀ item ∈ items, Printed item) : Printed (.arr items)
  | obj (fields : List (String × Json)) (each : ∀ field ∈ fields, Printed field.2) : Printed (.obj fields)

/-- The text of a field. -/
def fieldText (field : String × Json) : List Char :=
  (quote field.1).toList ++ ':' :: (render field.2).toList

theorem toList_renderItems (items : List Json) :
    (renderItems items).toList = separated ',' (fun item => (render item).toList) items := by
  induction items with
  | nil => rfl
  | cons item rest ih =>
      cases rest with
      | nil => rfl
      | cons next rest => simp [renderItems, separated, ih]

theorem toList_renderFields (fields : List (String × Json)) :
    (renderFields fields).toList = separated ',' fieldText fields := by
  induction fields with
  | nil => rfl
  | cons field rest ih =>
      cases rest with
      | nil => simp [renderFields, separated, fieldText]
      | cons next rest => simp [renderFields, separated, fieldText, ih]

theorem toList_render_arr (items : List Json) :
    (render (.arr items)).toList =
      '[' :: (separated ',' (fun item => (render item).toList) items ++ [']']) := by
  simp [render, toList_renderItems]

theorem toList_render_obj (fields : List (String × Json)) :
    (render (.obj fields)).toList = '\x7b' :: (separated ',' fieldText fields ++ ['\x7d']) := by
  simp [render, toList_renderFields]

/-- The kind of a value. -/
inductive Kind where
  | null
  | bool (b : Bool)
  | num
  | str
  | arr
  | obj
  deriving DecidableEq

def kind : Json → Kind
  | null => .null
  | bool b => .bool b
  | num _ => .num
  | str _ => .str
  | arr _ => .arr
  | obj _ => .obj

/-- The kind of the values that start with a character. -/
def kindOf (c : Char) : Option Kind :=
  if isNumberChar c then some .num
  else if c = 'n' then some .null
  else if c = 't' then some (.bool true)
  else if c = 'f' then some (.bool false)
  else if c = '"' then some .str
  else if c = '[' then some .arr
  else if c = '\x7b' then some .obj
  else none

/-- The first character of a text tells the kind of the value. -/
theorem Printed.starts {a : Json} (h : Printed a) :
    ∃ c tail, (render a).toList = c :: tail ∧ kindOf c = some a.kind := by
  cases h with
  | null => exact ⟨_, _, rfl, by decide⟩
  | bool b => cases b <;> exact ⟨_, _, rfl, by decide⟩
  | num number =>
      obtain ⟨c, tail, htext⟩ := List.exists_cons_of_ne_nil number.nonempty
      refine ⟨c, tail, htext, ?_⟩
      have hc : isNumberChar c = true := number.chars c (htext ▸ List.mem_cons_self)
      simp [kindOf, hc, kind]
  | str s => exact ⟨'"', _, toList_quote s, rfl⟩
  | arr items => exact ⟨'[', _, toList_render_arr items, rfl⟩
  | obj fields => exact ⟨'\x7b', _, toList_render_obj fields, rfl⟩

theorem Printed.kind_eq {a b : Json} (ha : Printed a) (hb : Printed b) {rest rest' : List Char}
    (heq : (render a).toList ++ rest = (render b).toList ++ rest') : a.kind = b.kind := by
  obtain ⟨c, tail, hrender, hkind⟩ := ha.starts
  obtain ⟨d, tail', hrender', hkind'⟩ := hb.starts
  rw [hrender, hrender'] at heq
  obtain rfl : c = d := (List.cons.inj heq).1
  exact Option.some.inj (hkind.symm.trans hkind')

/-- What may follow a value goes on with no number. -/
def EndsValue (rest : List Char) : Prop := ∀ c ∈ rest.head?, isNumberChar c = false

theorem endsValue_cons {c : Char} (h : isNumberChar c = false) (rest : List Char) :
    EndsValue (c :: rest) := by
  simpa [EndsValue] using h

theorem Printed.not_close {a : Json} (h : Printed a) {close : Char} (hclose : kindOf close = none) :
    ∃ c ∈ ((render a).toList).head?, c ≠ close := by
  obtain ⟨c, tail, hrender, hkind⟩ := h.starts
  refine ⟨c, by rw [hrender]; rfl, ?_⟩
  rintro rfl
  rw [hclose] at hkind
  cases hkind

theorem delimitedBy_fieldText {s : Set Json}
    (h : DelimitedBy EndsValue s fun a => (render a).toList) :
    DelimitedBy EndsValue {field | field.2 ∈ s} fieldText := by
  rintro ⟨name, a⟩ ha ⟨name', b⟩ hb rest rest' hrest hrest' heq
  simp only [fieldText, List.append_assoc, List.cons_append] at heq
  obtain ⟨hname, heq⟩ := selfDelimiting_quote trivial trivial _ _ heq
  obtain ⟨hvalue, hafter⟩ := h ha hb rest rest' hrest hrest' (List.cons.inj heq).2
  exact ⟨Prod.ext hname hvalue, hafter⟩

/-- The text of a value says which value it is; by induction on the size of the values. -/
theorem delimitedBy_render (n : Nat) :
    DelimitedBy EndsValue {a | Printed a ∧ sizeOf a < n} fun a => (render a).toList := by
  induction n with
  | zero => exact fun a ha => absurd ha.2 (Nat.not_lt_zero _)
  | succ n ih =>
      rintro a ⟨ha, hsize⟩ b ⟨hb, hsize'⟩ rest rest' hrest hrest' heq
      have hkind := ha.kind_eq hb heq
      cases ha with
      | null =>
          cases hb <;> simp [kind] at hkind
          exact ⟨rfl, List.append_cancel_left heq⟩
      | bool x =>
          cases hb <;> simp [kind] at hkind
          subst hkind
          exact ⟨rfl, List.append_cancel_left heq⟩
      | num number =>
          cases hb <;> simp [kind] at hkind
          rename_i number'
          obtain ⟨htext, hafter⟩ :=
            delimitedBy_run isNumberChar number.chars number'.chars rest rest' hrest hrest' heq
          exact ⟨congrArg num (String.toList_injective htext), hafter⟩
      | str s =>
          cases hb <;> simp [kind] at hkind
          obtain ⟨rfl, hafter⟩ := selfDelimiting_quote trivial trivial rest rest' heq
          exact ⟨rfl, hafter⟩
      | arr items each =>
          cases hb <;> simp [kind] at hkind
          rename_i items' each'
          simp only [toList_render_arr, List.cons_append, List.cons.injEq, true_and] at heq
          have hsmall : ∀ items : List Json, sizeOf (arr items) < n + 1 →
              ∀ item ∈ items, sizeOf item < n := by
            intro items hsize item hitem
            have := List.sizeOf_lt_of_mem hitem
            simp only [arr.sizeOf_spec] at hsize
            omega
          have hitems : SelfDelimiting {items : List Json | ∀ item ∈ items, Printed item ∧ sizeOf item < n}
              fun items => separated ',' (fun item => (render item).toList) items ++ [']'] :=
            ih.separated (endsValue_cons (by decide)) (endsValue_cons (by decide)) (by decide)
              fun item hitem => hitem.1.not_close (by decide)
          obtain ⟨rfl, hafter⟩ := hitems (fun item hitem => ⟨each item hitem, hsmall _ hsize item hitem⟩)
            (fun item hitem => ⟨each' item hitem, hsmall _ hsize' item hitem⟩) rest rest' heq
          exact ⟨rfl, hafter⟩
      | obj fields each =>
          cases hb <;> simp [kind] at hkind
          rename_i fields' each'
          simp only [toList_render_obj, List.cons_append, List.cons.injEq, true_and] at heq
          have hsmall : ∀ fields : List (String × Json), sizeOf (obj fields) < n + 1 →
              ∀ field ∈ fields, sizeOf field.2 < n := by
            rintro fields hsize ⟨name, value⟩ hfield
            have := List.sizeOf_lt_of_mem hfield
            simp only [obj.sizeOf_spec] at hsize
            simp only [Prod.mk.sizeOf_spec] at this
            show sizeOf value < n
            omega
          have hfields : SelfDelimiting
              {fields : List (String × Json) | ∀ field ∈ fields, Printed field.2 ∧ sizeOf field.2 < n}
              fun fields => separated ',' fieldText fields ++ ['\x7d'] := by
            apply (delimitedBy_fieldText ih).separated (endsValue_cons (by decide))
              (endsValue_cons (by decide)) (by decide)
            exact fun field _ => ⟨'"', by rw [fieldText, toList_quote]; rfl, by decide⟩
          obtain ⟨rfl, hafter⟩ := hfields (fun field hfield => ⟨each field hfield, hsmall _ hsize field hfield⟩)
            (fun field hfield => ⟨each' field hfield, hsmall _ hsize' field hfield⟩) rest rest' heq
          exact ⟨rfl, hafter⟩

/-- No two values print alike. -/
theorem render_inj {a b : Json} (ha : Printed a) (hb : Printed b) (h : render a = render b) : a = b := by
  refine (delimitedBy_render (sizeOf a + sizeOf b + 1) ⟨ha, by omega⟩ ⟨hb, by omega⟩ [] [] ?_ ?_ ?_).1
  · simp [EndsValue]
  · simp [EndsValue]
  · simp [h]

end Json

end LTSearch
