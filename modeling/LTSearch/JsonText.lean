/-
# LTSearch.JsonText -- JSON texts as they are written, and what they parse to

`serde_json::from_str` keeps an object as a sorted map, and of several fields of one name the last.
How a text is split into its parts is a parameter where it is needed; what the parts come to is defined
here.  The fields of an object may be written in any order, at any depth.
-/
import LTSearch.Json
import LTSearch.Foundation.SortedMap

namespace LTSearch

open LTSearch.Foundation

/-- A character of a number. -/
def isNumberChar (c : Char) : Bool := c.isDigit || c ∈ ['-', '+', '.', 'e', 'E']

/-- The text that a number prints as. -/
structure NumberText where
  text : String
  nonempty : text.toList ≠ []
  chars : ∀ c ∈ text.toList, isNumberChar c = true

/-- A JSON text: the fields of an object in the order they are written. -/
inductive JsonText where
  | null
  | bool (b : Bool)
  | num (number : NumberText)
  | str (s : String)
  | arr (items : List JsonText)
  | obj (fields : List (String × JsonText))

namespace JsonText

mutual

/-- `serde_json::from_str::<Value>` of the text. -/
def value : JsonText → Json
  | null => .null
  | bool b => .bool b
  | num number => .num number.text
  | str s => .str s
  | arr items => .arr (valueItems items)
  | obj fields => .obj (ofEntries (valueFields fields))

def valueItems : List JsonText → List Json
  | [] => []
  | item :: rest => value item :: valueItems rest

def valueFields : List (String × JsonText) → List (String × Json)
  | [] => []
  | (name, field) :: rest => (name, value field) :: valueFields rest

end

theorem valueFields_eq_map (fields : List (String × JsonText)) :
    valueFields fields = fields.map fun field => (field.1, field.2.value) := by
  induction fields with
  | nil => rfl
  | cons field rest ih => simp [valueFields, ih]

/-! ## Fields in another order -/

mutual

/-- The same text, but for the order of the fields of objects with distinct names, at any depth. -/
inductive Reordered : JsonText → JsonText → Prop
  | null : Reordered .null .null
  | bool (b : Bool) : Reordered (.bool b) (.bool b)
  | num (number : NumberText) : Reordered (.num number) (.num number)
  | str (s : String) : Reordered (.str s) (.str s)
  | arr {items items' : List JsonText} (each : ReorderedItems items items') :
      Reordered (.arr items) (.arr items')
  | obj {fields middle fields' : List (String × JsonText)} (each : ReorderedFields fields middle)
      (perm : middle.Perm fields') (names : (fields.map Prod.fst).Nodup) :
      Reordered (.obj fields) (.obj fields')

inductive ReorderedItems : List JsonText → List JsonText → Prop
  | nil : ReorderedItems [] []
  | cons {item item' : JsonText} {rest rest' : List JsonText} (head : Reordered item item')
      (tail : ReorderedItems rest rest') : ReorderedItems (item :: rest) (item' :: rest')

inductive ReorderedFields : List (String × JsonText) → List (String × JsonText) → Prop
  | nil : ReorderedFields [] []
  | cons {name : String} {field field' : JsonText} {rest rest' : List (String × JsonText)}
      (head : Reordered field field') (tail : ReorderedFields rest rest') :
      ReorderedFields ((name, field) :: rest) ((name, field') :: rest')

end

mutual

/-- Reordering fields does not change what the text parses to. -/
theorem Reordered.value_eq {a b : JsonText} : Reordered a b → a.value = b.value
  | .null => rfl
  | .bool _ => rfl
  | .num _ => rfl
  | .str _ => rfl
  | .arr each => by simp only [value, each.value_eq]
  | @Reordered.obj fields middle fields' each perm names => by
      have hvalues : valueFields fields = valueFields middle := each.value_eq
      have hnames : ((valueFields middle).map Prod.fst).Nodup := by
        rw [← hvalues, valueFields_eq_map, List.map_map]
        exact names
      have hperm : (valueFields middle).Perm (valueFields fields') := by
        rw [valueFields_eq_map, valueFields_eq_map]
        exact perm.map _
      simp only [value, hvalues, ofEntries_perm hperm hnames]

theorem ReorderedItems.value_eq {items items' : List JsonText} :
    ReorderedItems items items' → valueItems items = valueItems items'
  | .nil => rfl
  | .cons head tail => by simp only [valueItems, head.value_eq, tail.value_eq]

theorem ReorderedFields.value_eq {fields fields' : List (String × JsonText)} :
    ReorderedFields fields fields' → valueFields fields = valueFields fields'
  | .nil => rfl
  | .cons head tail => by simp only [valueFields, head.value_eq, tail.value_eq]

end

end JsonText

end LTSearch
