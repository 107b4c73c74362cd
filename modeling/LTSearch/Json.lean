/-
# LTSearch.Json -- the JSON values the crate stores and the text `serde_json` prints for them

Only the compact printer is defined here: the crate measures the printed length of document
metadata and prints queue messages itself.  Parsing is never modelled by a definition; where a
result needs a text to parse back, that is an assumption about the printed text in question.
-/
import Mathlib

namespace LTSearch

/-- A `serde_json::Value`.  A number is kept as the text it prints as; an object lists its fields
in key order, as the default sorted map does. -/
inductive Json where
  | null
  | bool (b : Bool)
  | num (text : String)
  | str (s : String)
  | arr (items : List Json)
  | obj (fields : List (String × Json))
  deriving Repr

namespace Json

/-- The escape of one character inside a JSON string: the two-character escapes, `\u00xx` for the
other control characters, and every other character as itself. -/
def escapeChar (c : Char) : String :=
  if c = '"' then "\\\""
  else if c = '\\' then "\\\\"
  else if c = '\n' then "\\n"
  else if c = '\r' then "\\r"
  else if c = '\t' then "\\t"
  else if c.toNat = 8 then "\\b"
  else if c.toNat = 12 then "\\f"
  else if c.toNat < 32 then
    "\\u00" ++ String.ofList [Nat.digitChar (c.toNat / 16), Nat.digitChar (c.toNat % 16)]
  else String.singleton c

/-- A JSON string literal. -/
def quote (s : String) : String :=
  "\"" ++ s.toList.foldr (fun c rest => escapeChar c ++ rest) "\""

mutual

/-- `serde_json::to_string`: the compact text of a value. -/
def render : Json → String
  | null => "null"
  | bool true => "true"
  | bool false => "false"
  | num text => text
  | str s => quote s
  | arr items => "[" ++ renderItems items ++ "]"
  | obj fields => "\x7b" ++ renderFields fields ++ "\x7d"

/-- The items of an array, separated by commas. -/
def renderItems : List Json → String
  | [] => ""
  | [item] => render item
  | item :: rest => render item ++ "," ++ renderItems rest

/-- The fields of an object, separated by commas. -/
def renderFields : List (String × Json) → String
  | [] => ""
  | [(name, value)] => quote name ++ ":" ++ render value
  | (name, value) :: rest => quote name ++ ":" ++ render value ++ "," ++ renderFields rest

end

example : (obj [("a", num "1"), ("b", arr [null, str "x\n"])]).render
    = "\x7b\"a\":1,\"b\":[null,\"x\\n\"]\x7d" := by decide

end Json

/-- `serde_json` at one type: the text it prints and the parser.  Both are parameters of the model;
what a result needs of them is stated about the values it prints. -/
structure Serde (α : Type) where
  toString : α → String
  fromStr : String → Except String α

/-- The text printed for `a` parses back as `a`. -/
def Serde.RoundTrips {α : Type} (json : Serde α) (a : α) : Prop :=
  json.fromStr (json.toString a) = .ok a

end LTSearch
