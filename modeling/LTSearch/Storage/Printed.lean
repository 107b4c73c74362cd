/-
# LTSearch.Storage.Printed -- the documents of the store as `serde_json` prints them

The codecs of the store are parameters, and what a result needs of them it names.  Where a run is
carried out on concrete values, they are the ones of this module: `to_string_pretty` is the printer
below, and a text is parsed by looking it up among the values that the run prints.  On those values any
parser that reads back what was printed does the same (`Codec.lookingUp_eq`); a text that nothing
prints is refused.  A parser for texts of any other origin is not defined here.
-/
import LTSearch.Storage.Head

namespace LTSearch

open LTSearch.Foundation

/-! ## Codecs that look values up -/

namespace Codec

variable {α : Type}

/-- A codec that tries some values before it parses. -/
def lookingUp (codec : Codec α) (values : List α) : Codec α where
  toVec := codec.toVec
  fromSlice bytes :=
    -- as lists, which compare in one pass
    match values.find? fun a => (codec.toVec a).data.toList = bytes.data.toList with
    | some a => .ok a
    | none => codec.fromSlice bytes

/-- Values that parse back may as well be looked up. -/
theorem lookingUp_eq {codec : Codec α} {values : List α}
    (h : ∀ a ∈ values, codec.fromSlice (codec.toVec a) = .ok a) : codec.lookingUp values = codec := by
  have hslice : (codec.lookingUp values).fromSlice = codec.fromSlice := by
    funext bytes
    unfold lookingUp
    dsimp only
    cases hfind : values.find? fun a => (codec.toVec a).data.toList = bytes.data.toList with
    | none => rfl
    | some a =>
        have hlist : (codec.toVec a).data.toList = bytes.data.toList := by
          simpa only [decide_eq_true_eq] using List.find?_some hfind
        obtain rfl : codec.toVec a = bytes := ByteArray.ext (Array.toList_inj.mp hlist)
        exact (h a (List.mem_of_find?_eq_some hfind)).symm
  cases codec
  exact congrArg (Codec.mk _) hslice

/-- The codec of a printer, for these values only. -/
def listed (toVec : α → ByteArray) (values : List α) : Codec α :=
  lookingUp { toVec, fromSlice := fun _ => .error "expected value at line 1 column 1" } values

end Codec

/-- The same for texts. -/
def Serde.listed {α : Type} (toString : α → String) (values : List α) : Serde α where
  toString := toString
  fromStr text :=
    match values.find? fun a => (toString a).toUTF8.data.toList = text.toUTF8.data.toList with
    | some a => .ok a
    | none => .error "expected value at line 1 column 1"

/-- `serde_json` on heads, with those looked up that a run writes. -/
theorem ManifestHead.serdeCodec_lookingUp (heads : List (UInt64 × Int)) :
    serdeCodec.lookingUp (heads.map fun head => .new head.1 head.2) = serdeCodec := by
  refine Codec.lookingUp_eq fun head hhead => ?_
  obtain ⟨⟨v, updatedAt⟩, -, rfl⟩ := List.mem_map.mp hhead
  exact serdeCodec_roundTrips v updatedAt

/-! ## Pretty texts -/

namespace Json

mutual

/-- `serde_json::to_string_pretty`, of a value in a line that is indented so far. -/
def pretty (indent : String) : Json → String
  | arr (item :: rest) => "[" ++ prettyItems (indent ++ "  ") (item :: rest) ++ "\n" ++ indent ++ "]"
  | obj (field :: rest) =>
      "\x7b" ++ prettyFields (indent ++ "  ") (field :: rest) ++ "\n" ++ indent ++ "\x7d"
  | value => value.render

/-- The items of an array, each on its own lines. -/
def prettyItems (indent : String) : List Json → String
  | [] => ""
  | [item] => "\n" ++ indent ++ pretty indent item
  | item :: rest => "\n" ++ indent ++ pretty indent item ++ "," ++ prettyItems indent rest

/-- The fields of an object, each on its own lines. -/
def prettyFields (indent : String) : List (String × Json) → String
  | [] => ""
  | [(name, value)] => "\n" ++ indent ++ quote name ++ ": " ++ pretty indent value
  | (name, value) :: rest =>
      "\n" ++ indent ++ quote name ++ ": " ++ pretty indent value ++ "," ++ prettyFields indent rest

end

end Json

/-- The fields of a shard in the order of the struct. -/
def ShardManifest.json (shard : ShardManifest) : Json :=
  .obj [("shard_id", .num (toString shard.shardId)), ("document_count", .num (toString shard.documentCount)),
    ("lance_path", .str shard.lancePath), ("tantivy_path", .str shard.tantivyPath)]

/-- The fields of a manifest in the order of the struct. -/
def IndexManifest.json (manifest : IndexManifest) : Json :=
  .obj [("version_id", .num (toString manifest.versionId)),
    ("created_at", .num (toString manifest.createdAt)),
    ("embedding_dim", .num (toString manifest.embeddingDim)),
    ("document_count", .num (toString manifest.documentCount)),
    ("num_shards", .num (toString manifest.numShards)),
    ("shards", .arr (manifest.shards.map ShardManifest.json))]

/-- The bytes of the file that a builder writes for a manifest. -/
def IndexManifest.toVecPretty (manifest : IndexManifest) : ByteArray :=
  (manifest.json.pretty "").toUTF8

/-- The codec for these manifests. -/
def IndexManifest.codec (manifests : List IndexManifest) : Codec IndexManifest :=
  .listed toVecPretty manifests

end LTSearch
