/-
# LTSearch.Write.Wal -- segment keys, and reading a segment back line by line

A segment is a run of JSON lines.  `lines` is `str::lines`: a line ends at `\n`, a `\r` right before
that `\n` belongs to the line ending, and text after the last `\n` is a line of its own unless it
is empty.
-/
import LTSearch.Models.Write

namespace LTSearch

open LTSearch.Foundation

def walPrefix : String := "wal/"

/-! ## Segment keys -/

/-- `civil_from_days`: year, month and day of a day count since 1970-01-01.  The divisions truncate
towards zero, as `i64` division does. -/
def civilFromDays (daysSinceEpoch : Int) : Int × Int × Int :=
  let z := daysSinceEpoch + 719468
  let era := (if z ≥ 0 then z else z - 146096).tdiv 146097
  let doe := z - era * 146097
  let yoe := (doe - doe.tdiv 1460 + doe.tdiv 36524 - doe.tdiv 146096).tdiv 365
  let y := yoe + era * 400
  let doy := doe - (365 * yoe + yoe.tdiv 4 - yoe.tdiv 100)
  let mp := (5 * doy + 2).tdiv 153
  let day := doy - (153 * mp + 2).tdiv 5 + 1
  let month := mp + (if mp < 10 then 3 else -9)
  let year := y + (if month ≤ 2 then 1 else 0)
  (year, month, day)

example : civilFromDays 20648 = (2026, 7, 14) := by decide +kernel

/-- `{value:0width}`: zeros on the left, after the sign. -/
def zeroPad (width : Nat) (value : Int) : String :=
  let digits := toString value.natAbs
  let sign := if value < 0 then "-" else ""
  sign ++ String.ofList (List.replicate (width - sign.length - digits.length) '0') ++ digits

/-- `haystack.contains(needle)`. -/
def containsText (haystack needle : String) : Bool :=
  decide (needle.toList <:+: haystack.toList)

/-- `validate_segment_id`. -/
def validateSegmentId (segmentId : String) : Except ValidationError Unit :=
  rejectIf (segmentId = "" ∨ containsText segmentId "/" = true ∨ containsText segmentId ".." = true
    ∨ containsText segmentId "\\" = true) (.invalidValue "segment_id")

/-- The path of a segment: its day, then its id.  `div_euclid` by a positive number is Lean's integer
division. -/
def segmentPath (timestampMillis : Int) (segmentId : String) : String :=
  let daysSinceEpoch := timestampMillis / 86400000
  let (year, month, day) := civilFromDays daysSinceEpoch
  walPrefix ++ zeroPad 4 year ++ "/" ++ zeroPad 2 month ++ "/" ++ zeroPad 2 day ++ "/"
    ++ segmentId ++ ".jsonl"

/-- `segment_key`. -/
def segmentKey (timestampMillis : Int) (segmentId : String) : Except ValidationError String := do
  validateSegmentId segmentId
  return segmentPath timestampMillis segmentId

/-! ## Lines -/

/-- Drop the `\r` of a `\r\n` line ending. -/
def stripCr (line : List Char) : List Char :=
  if line.getLast? = some '\r' then line.dropLast else line

/-- `lines` with the characters of the current line read so far. -/
def linesFrom : List Char → List Char → List (List Char)
  | current, [] => if current = [] then [] else [current]
  | current, c :: rest =>
      if c = '\n' then stripCr current :: linesFrom [] rest else linesFrom (current ++ [c]) rest

/-- `str::lines`. -/
def lines (contents : String) : List String :=
  (linesFrom [] contents.toList).map String.ofList

theorem linesFrom_append {current line : List Char} (hline : '\n' ∉ line) (rest : List Char) :
    linesFrom current (line ++ '\n' :: rest) = stripCr (current ++ line) :: linesFrom [] rest := by
  induction line generalizing current with
  | nil => simp [linesFrom]
  | cons c cs ih =>
      have hc : c ≠ '\n' := fun h => hline (h ▸ List.mem_cons_self)
      have hcs : '\n' ∉ cs := fun h => hline (List.mem_cons_of_mem c h)
      rw [List.cons_append, linesFrom, if_neg hc, ih hcs, List.append_assoc, List.singleton_append]

/-- The text of a segment: every entry on a line of its own. -/
def joinLines (entries : List String) : String :=
  entries.foldr (fun line rest => line ++ "\n" ++ rest) ""

/-- A text that is one line of a file: no line feed in it, and no carriage return that the line
ending would swallow. -/
def OneLine (text : String) : Prop :=
  '\n' ∉ text.toList ∧ text.toList.getLast? ≠ some '\r'

/-- Splitting what was joined gives the entries back, when each is one line. -/
theorem lines_joinLines {entries : List String} (h : ∀ line ∈ entries, OneLine line) :
    lines (joinLines entries) = entries := by
  induction entries with
  | nil => rfl
  | cons line rest ih =>
      obtain ⟨hn, hr⟩ := h line List.mem_cons_self
      have hrest := ih (fun l hl => h l (List.mem_cons_of_mem line hl))
      have hstrip : stripCr line.toList = line.toList := by
        unfold stripCr
        rw [if_neg hr]
      unfold lines at hrest ⊢
      simp only [joinLines, List.foldr_cons, String.toList_append]
      rw [show "\n".toList = ['\n'] from rfl, List.append_assoc, List.singleton_append,
        linesFrom_append hn, List.nil_append, hstrip, List.map_cons, String.ofList_toList]
      exact congrArg _ hrest

/-! ## Reading a segment -/

/-- One line of `WriteAheadLog::read`: parse, then check the record again. -/
def readLine (json : Serde WalRecord) (line : String) : Except IngestError WalRecord := do
  let record ← (json.fromStr line).mapError .operation
  record.validate.mapError IngestError.validation
  return record

/-- `WriteAheadLog::read`, on the bytes the storage answered with. -/
def readSegment (json : Serde WalRecord) (bytes : ByteArray) :
    Except IngestError (List WalRecord) := do
  let contents ← match String.fromUTF8? bytes with
    | some contents => Except.ok contents
    | none => .error (.operation "invalid utf-8 sequence")
  (lines contents).mapM (readLine json)

/-- A record the serialiser prints on one line, in a text that parses back to it. -/
structure Storable (json : Serde WalRecord) (record : WalRecord) : Prop where
  roundTrips : json.RoundTrips record
  oneLine : OneLine (json.toString record)

/-- A segment of well-formed, storable records reads back as those records. -/
theorem readSegment_joinLines {json : Serde WalRecord} {records : List WalRecord}
    (hwf : ∀ r ∈ records, r.WellFormed) (hjson : ∀ r ∈ records, Storable json r) :
    readSegment json (joinLines (records.map json.toString)).toUTF8 = .ok records := by
  have hutf8 : ∀ s : String, String.fromUTF8? s.toUTF8 = some s := by
    intro s
    exact dif_pos s.isValidUTF8
  have hlines : lines (joinLines (records.map json.toString)) = records.map json.toString := by
    apply lines_joinLines
    intro line hline
    obtain ⟨r, hr, rfl⟩ := List.mem_map.mp hline
    exact (hjson r hr).oneLine
  unfold readSegment
  simp only [hutf8]
  change (lines _).mapM (readLine json) = _
  rw [hlines, mapM_eq_ok_iff]
  induction records with
  | nil => exact .nil
  | cons r rest ih =>
      refine .cons ?_ ?_
      · have hvalid := WalRecord.validate_eq_ok_iff.mpr (hwf r List.mem_cons_self)
        unfold readLine
        rw [(hjson r List.mem_cons_self).roundTrips]
        change (r.validate.mapError IngestError.validation >>= fun _ => pure r) = _
        rw [hvalid]
        rfl
      · refine ih (fun x hx => hwf x (List.mem_cons_of_mem r hx))
          (fun x hx => hjson x (List.mem_cons_of_mem r hx)) ?_
        apply lines_joinLines
        intro line hline
        obtain ⟨x, hx, rfl⟩ := List.mem_map.mp hline
        exact (hjson x (List.mem_cons_of_mem r hx)).oneLine

end LTSearch
