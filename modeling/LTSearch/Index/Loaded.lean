/-
# LTSearch.Index.Loaded -- what a loaded index can be trusted for

`Loaded` is what the loader's checks establish together.  The loader itself never panics, whatever
the files hold, and an index that it returned satisfies `Loaded`, from which every accessor is in
bounds for every record.
-/
import LTSearch.Index.MmapIndex

namespace LTSearch

open LTSearch.Foundation

namespace MmapIndex

/-! ## Entry files -/

/-- A checked file of entries: one for each record, and every range within its blob. -/
structure EntriesIn {α : Type} {width : Nat} (layout : FixedLayout α width) (count : Nat)
    (data : Bytes) (ranges : α → List (String × Nat × UInt64 × UInt32)) : Prop where
  length : data.length = count * width
  small : data.length < 2 ^ 63
  ranges : ∀ i, i < count → ∀ entry, layout.At (i * width) data entry →
    ∀ range ∈ ranges entry, rangeInBlob range.2.1 range.2.2.1 range.2.2.2

section Entries

variable {α : Type} {width : Nat} {layout : FixedLayout α width} {file : String} {count : UInt64}
  {data : Bytes} {mismatch : Nat → MmapIndexError} {outOfBounds : Nat → String → MmapIndexError}
  {ranges : α → List (String × Nat × UInt64 × UInt32)}

theorem ensureAligned_zero (file : String) : ensureAligned file 0 = .ok () := rfl

/-- The length of an entry file that passed its two checks. -/
theorem length_of_count (hmod : data.length % width = 0)
    (hdiv : data.length / width = count.toNat) : data.length = count.toNat * width := by
  rw [← hdiv, Nat.div_mul_cancel (Nat.dvd_of_mod_eq_zero hmod)]

theorem total_checkEntries (hsmall : data.length < 2 ^ 63) :
    Total (checkEntries layout file count data mismatch outOfBounds ranges) := by
  refine (Total.failIf _ _).bind fun _ hmod => ?_
  refine (Total.failIf _ _).bind fun _ hdiv => ?_
  have hlen := length_of_count (not_not.mp (failIf_eq_ok.mp hmod))
    (not_not.mp (failIf_eq_ok.mp hdiv))
  refine Total.bind (.failIf _ _) fun _ _ => ?_
  refine Total.forM fun i hi => ?_
  have hbound : i * width + width ≤ data.length :=
    FixedLayout.record_in_bounds (List.mem_range.mp hi) hlen.ge
  have hword : data.length < Checked.usizeSize := by
    show _ < 2 ^ 64
    omega
  refine (Total.usizeMul (by omega)).bind fun offset hoffset => ?_
  obtain ⟨-, rfl⟩ := usizeMul_eq_ok.mp hoffset
  refine (layout.total_castAt hbound).bind fun entry _ => ?_
  exact Total.forM fun _ _ => .failIf _ _

theorem entriesIn_of_check (hsmall : data.length < 2 ^ 63)
    (h : checkEntries layout file count data mismatch outOfBounds ranges = .ok ()) :
    EntriesIn layout count.toNat data ranges := by
  simp only [checkEntries, check_bind_eq_ok, failIf_eq_ok, not_not, forM_eq_ok] at h
  obtain ⟨hmod, hdiv, -, h⟩ := h
  refine ⟨length_of_count hmod hdiv, hsmall, fun i hi entry hentry => ?_⟩
  have hloop := h i (List.mem_range.mpr hi)
  obtain ⟨offset, hoffset, hloop⟩ := bind_eq_ok.mp hloop
  obtain ⟨-, rfl⟩ := usizeMul_eq_ok.mp hoffset
  obtain ⟨found, hfound, hloop⟩ := bind_eq_ok.mp hloop
  obtain ⟨_, rfl⟩ := layout.castAt_eq_ok.mp hfound
  obtain ⟨_, rfl⟩ := hentry
  intro range hrange
  have hcheck := forM_eq_ok.mp hloop range hrange
  exact not_not.mp (failIf_eq_ok.mp hcheck)

end Entries

/-! ## The loader -/

/-- The codec belongs to the layout and its assets have the record's dimensions. -/
inductive CodecOf : KnownRecordLayout → IndexCodec → Prop where
  | legacy {layout : KnownRecordLayout} {centroids : CentroidTable}
      {projection : ProjectionMatrix} (hlayout : layout ≠ .v4Dim512) (hdim : centroids.dim = 512)
      (hper : centroids.centroidsPerDim = 4) (hin : projection.inputDim = 512)
      (hout : projection.outputDim = 512) : CodecOf layout (.legacy centroids projection)
  | prod {codec : TurboQuantProdV1} (hcodes : TurboProdRecord512.holdsCodesOf codec) :
      CodecOf .v4Dim512 (.prod codec)

theorem CodecOf.exists_legacy {layout : KnownRecordLayout} {codec : IndexCodec}
    (h : CodecOf layout codec) (hlayout : layout ≠ .v4Dim512) :
    ∃ centroids projection, codec = .legacy centroids projection ∧ centroids.dim = 512 ∧
      centroids.centroidsPerDim = 4 ∧ projection.inputDim = 512 ∧ projection.outputDim = 512 := by
  cases h with
  | legacy _ hdim hper hin hout => exact ⟨_, _, rfl, hdim, hper, hin, hout⟩
  | prod _ => exact absurd rfl hlayout

theorem CodecOf.exists_prod {codec : IndexCodec} (h : CodecOf .v4Dim512 codec) :
    ∃ prod, codec = .prod prod ∧ TurboProdRecord512.holdsCodesOf prod := by
  cases h with
  | legacy hlayout => exact absurd rfl hlayout
  | prod hcodes => exact ⟨_, rfl, hcodes⟩

/-- A sidecar set that passed its checks. -/
structure SidecarsIn (count : Nat) (sidecars : Sidecars) : Prop where
  entries : EntriesIn MetaExtRecord.layout count sidecars.metaExt
    (metaExtRanges sidecars.docid.length sidecars.metaJson.length)
  docidSmall : sidecars.docid.length < 2 ^ 63
  metaJsonSmall : sidecars.metaJson.length < 2 ^ 63

/-- What the loader's checks establish. -/
structure Loaded (index : MmapIndex) : Prop where
  layout : KnownRecordLayout.fromHeader index.header = .ok index.layout
  binLength : index.bin.length = index.recordCount * 208 + 32
  binSmall : index.bin.length < 2 ^ 63
  entries : EntriesIn MetaRecord.layout index.recordCount index.metaRecords
    (metaRanges index.text.length index.title.length)
  sidecars : ∀ sidecars, index.sidecars = some sidecars → SidecarsIn index.recordCount sidecars
  hasSidecars : index.sidecars.isSome ↔ index.layout ≠ .v2Dim512
  codec : CodecOf index.layout index.codec

theorem total_mmapFile (dir : ReleaseDir) (name : String) : Total (mmapFile dir name) := by
  unfold mmapFile
  split
  · exact .fail _
  · split
    · exact .ok _
    · exact .fail _

theorem mmapFile_eq_ok {dir : ReleaseDir} {name : String} {bytes : Bytes} :
    mmapFile dir name = .ok bytes ↔ dir name = some bytes ∧ bytes.length < 2 ^ 63 := by
  unfold mmapFile
  cases dir name with
  | none => simp
  | some found =>
      by_cases hsmall : found.length < 2 ^ 63
      · simp only [hsmall, if_true, Except.ok.injEq, Option.some.injEq]
        constructor
        · rintro rfl
          exact ⟨rfl, hsmall⟩
        · exact fun h => h.1
      · simp only [hsmall, if_false, fail_eq_ok, Option.some.injEq, false_iff]
        rintro ⟨rfl, hlen⟩
        exact hsmall hlen

theorem total_loadSidecars (dir : ReleaseDir) (header : TurboHeader) (layout : KnownRecordLayout) :
    Total (loadSidecars dir header layout) := by
  have hsidecars : Total (loadSidecars dir header .v3Dim512) := by
    refine (total_mmapFile _ _).bind fun metaExt hext => ?_
    refine (total_mmapFile _ _).bind fun _ _ => ?_
    refine (total_mmapFile _ _).bind fun _ _ => ?_
    exact (total_checkEntries (mmapFile_eq_ok.mp hext).2).bind fun _ _ => .ok _
  cases layout with
  | v2Dim512 => exact .ok _
  | v3Dim512 => exact hsidecars
  | v4Dim512 => exact hsidecars

theorem total_loadLegacyCodec (dir : ReleaseDir) (header : TurboHeader) :
    Total (loadLegacyCodec dir header) := by
  refine (total_mmapFile _ _).bind fun _ _ => ?_
  refine (total_mmapFile _ _).bind fun _ _ => ?_
  refine (CentroidTable.total_fromBytes _).mapErr.bind fun _ _ => ?_
  refine (Total.failIf _ _).bind fun _ _ => ?_
  refine (Total.failIf _ _).bind fun _ _ => ?_
  refine (ProjectionMatrix.total_fromBytes _).mapErr.bind fun _ _ => ?_
  refine (Total.failIf _ _).bind fun _ _ => ?_
  exact (Total.failIf _ _).bind fun _ _ => .ok _

theorem total_loadProdCodec (sha : Sha256) (dir : ReleaseDir) (header : TurboHeader) :
    Total (loadProdCodec sha dir header) := by
  refine (total_mmapFile _ _).bind fun _ _ => ?_
  refine (total_mmapFile _ _).bind fun _ _ => ?_
  refine (total_mmapFile _ _).bind fun _ _ => ?_
  refine (Rotation.total_fromBytes _).mapErr.bind fun _ _ => ?_
  refine (LloydMaxCodebook.total_fromBytes _).mapErr.bind fun _ _ => ?_
  refine (QjlMatrix.total_fromBytes _).mapErr.bind fun _ _ => ?_
  refine (Total.lifted _).mapErr.bind fun _ _ => ?_
  refine (Total.failIf _ _).bind fun _ _ => ?_
  split
  · exact Total.ite (fun _ => .ok _) fun _ => .fail _
  · exact .fail _

theorem total_loadCodec (sha : Sha256) (dir : ReleaseDir) (header : TurboHeader)
    (layout : KnownRecordLayout) : Total (loadCodec sha dir header layout) := by
  cases layout with
  | v2Dim512 => exact total_loadLegacyCodec dir header
  | v3Dim512 => exact total_loadLegacyCodec dir header
  | v4Dim512 => exact total_loadProdCodec sha dir header

/-- The loader never panics. -/
theorem total_load (sha : Sha256) (dir : ReleaseDir) : Total (load sha dir) := by
  refine (total_mmapFile _ _).bind fun bin _ => ?_
  refine (Total.failIf _ _).bind fun _ hlong => ?_
  have hlen : TurboHeader.size ≤ bin.length := not_lt.mp (failIf_eq_ok.mp hlong)
  refine (Total.slice (Nat.zero_le _) hlen).bind fun _ _ => ?_
  refine (TurboHeader.total_fromBytes _).mapErr.bind fun header _ => ?_
  refine (Total.lifted _).mapErr.bind fun layout _ => ?_
  refine (total_mmapFile _ _).bind fun metaRecords hmeta => ?_
  refine (total_mmapFile _ _).bind fun _ _ => ?_
  refine (total_mmapFile _ _).bind fun _ _ => ?_
  refine (Total.lifted _).mapErr.bind fun _ _ => ?_
  refine (Total.failIf _ _).bind fun _ _ => ?_
  refine Total.bind (.failIf _ _) fun _ _ => ?_
  refine (total_checkEntries (mmapFile_eq_ok.mp hmeta).2).bind fun _ _ => ?_
  refine (total_loadSidecars _ _ _).bind fun _ _ => ?_
  exact (total_loadCodec _ _ _ _).bind fun _ _ => .ok _

theorem sidecarsIn_of_load {dir : ReleaseDir} {header : TurboHeader} {layout : KnownRecordLayout}
    {found : Option Sidecars} (h : loadSidecars dir header layout = .ok found) :
    (∀ sidecars, found = some sidecars → SidecarsIn header.recordCount.toNat sidecars) ∧
      (found.isSome ↔ layout ≠ .v2Dim512) := by
  have hread : loadSidecars dir header .v3Dim512 = .ok found →
      ∃ sidecars, found = some sidecars ∧ SidecarsIn header.recordCount.toNat sidecars := by
    intro h
    simp only [loadSidecars, bind_eq_ok, mmapFile_eq_ok] at h
    obtain ⟨metaExt, hext, docid, hdocid, metaJson, hjson, u, hcheck, h⟩ := h
    cases h
    exact ⟨_, rfl, entriesIn_of_check hext.2 hcheck, hdocid.2, hjson.2⟩
  have hsome : loadSidecars dir header .v3Dim512 = .ok found → layout ≠ .v2Dim512 →
      (∀ sidecars, found = some sidecars → SidecarsIn header.recordCount.toNat sidecars) ∧
        (found.isSome ↔ layout ≠ .v2Dim512) := by
    intro h hlayout
    obtain ⟨sidecars, rfl, hin⟩ := hread h
    refine ⟨fun other hother => ?_, iff_of_true rfl hlayout⟩
    cases hother
    exact hin
  cases layout with
  | v2Dim512 =>
      cases h
      exact ⟨nofun, by simp⟩
  | v3Dim512 => exact hsome h (by decide)
  | v4Dim512 => exact hsome h (by decide)

theorem codecOf_loadLegacyCodec {dir : ReleaseDir} {header : TurboHeader} {codec : IndexCodec}
    {layout : KnownRecordLayout} (hdim : header.dim = 512) (hlayout : layout ≠ .v4Dim512)
    (h : loadLegacyCodec dir header = .ok codec) : CodecOf layout codec := by
  simp only [loadLegacyCodec, bind_eq_ok, failIf_eq_ok, not_not] at h
  obtain ⟨-, -, -, -, centroids, -, -, hcentroids, -, hper, projection, -, -, hin, -, hout, h⟩ := h
  cases h
  exact .legacy hlayout (hcentroids.trans hdim) hper (hin.trans hdim) (hout.trans hdim)

theorem codecOf_loadProdCodec {sha : Sha256} {dir : ReleaseDir} {header : TurboHeader}
    {codec : IndexCodec} (h : loadProdCodec sha dir header = .ok codec) :
    CodecOf .v4Dim512 codec := by
  simp only [loadProdCodec, bind_eq_ok, failIf_eq_ok, not_not] at h
  obtain ⟨_, -, _, -, _, -, rotation, -, codebook, -, qjl, -, prod, -, -, hcodes, h⟩ := h
  split at h
  · split at h
    · cases h
      exact .prod hcodes
    · cases h
  · cases h

theorem codecOf_loadCodec {sha : Sha256} {dir : ReleaseDir} {header : TurboHeader}
    {layout : KnownRecordLayout} {codec : IndexCodec} (hdim : header.dim = 512)
    (h : loadCodec sha dir header layout = .ok codec) : CodecOf layout codec := by
  cases layout with
  | v2Dim512 => exact codecOf_loadLegacyCodec hdim (by decide) h
  | v3Dim512 => exact codecOf_loadLegacyCodec hdim (by decide) h
  | v4Dim512 => exact codecOf_loadProdCodec h

/-- The size the header announces, where there is one. -/
theorem expectedFileSize_eq_ok {header : TurboHeader} {size : Nat}
    (h : header.expectedFileSize = .ok size) : size = header.recordCount.toNat * 208 + 32 := by
  simp only [TurboHeader.expectedFileSize, bind_eq_ok, rejectIf_eq_ok] at h
  obtain ⟨layout, -, -, -, -, -, h⟩ := h
  cases h
  rfl

/-- The files an index was loaded from, and the checks it passed. -/
theorem load_eq_ok {sha : Sha256} {dir : ReleaseDir} {index : MmapIndex}
    (h : load sha dir = .ok index) :
    mmapFile dir "turbo_static.bin" = .ok index.bin ∧
      TurboHeader.fromBytes (index.bin.take 32) = .ok index.header ∧
      KnownRecordLayout.fromHeader index.header = .ok index.layout ∧
      mmapFile dir "turbo_static_meta.bin" = .ok index.metaRecords ∧
      mmapFile dir "turbo_static_text.bin" = .ok index.text ∧
      mmapFile dir "turbo_static_title.bin" = .ok index.title ∧
      index.bin.length = index.recordCount * 208 + 32 ∧
      EntriesIn MetaRecord.layout index.recordCount index.metaRecords
        (metaRanges index.text.length index.title.length) ∧
      loadSidecars dir index.header index.layout = .ok index.sidecars ∧
      loadCodec sha dir index.header index.layout = .ok index.codec := by
  simp only [load, bind_eq_ok, failIf_eq_ok, not_not, slice_eq_ok, mapErr_eq_ok, lifted_eq_ok] at h
  obtain ⟨bin, hbin, -, -, headerBytes, ⟨-, rfl⟩, header, hheader, layout, hlayout, metaRecords,
    hmeta, text, htext, title, htitle, size, hsize, -, hlen, -, -, u, hentries, sidecars, hsidecars,
    codec, hcodec, h⟩ := h
  cases h
  obtain rfl := expectedFileSize_eq_ok hsize
  have hsmall := (mmapFile_eq_ok.mp hmeta).2
  exact ⟨hbin, hheader, hlayout, hmeta, htext, htitle, hlen, entriesIn_of_check hsmall hentries,
    hsidecars, hcodec⟩

theorem loaded_of_load {sha : Sha256} {dir : ReleaseDir} {index : MmapIndex}
    (h : load sha dir = .ok index) : Loaded index := by
  obtain ⟨hbin, -, hlayout, -, -, -, hlen, hentries, hsidecars, hcodec⟩ := load_eq_ok h
  have hdim := (KnownRecordLayout.fromHeader_eq_ok hlayout).1
  obtain ⟨hsidecarsIn, hhas⟩ := sidecarsIn_of_load hsidecars
  exact ⟨hlayout, hlen, (mmapFile_eq_ok.mp hbin).2, hentries, hsidecarsIn, hhas,
    codecOf_loadCodec hdim hcodec⟩

/-! ## The accessors -/

theorem total_textFromBlob {ε : Type} {offset : UInt64} {len : UInt32} {blob : Bytes}
    {invalid : ε} (h : rangeInBlob blob.length offset len) :
    Total (textFromBlob offset len blob invalid) := by
  refine (Total.usizeAdd h.1).bind fun stop hstop => ?_
  obtain ⟨-, rfl⟩ := usizeAdd_eq_ok.mp hstop
  exact (Total.slice (Nat.le_add_right _ _) h.2).bind fun _ _ => .lifted _

/-- The arithmetic on record offsets does not overflow. -/
theorem offset_lt {i count : Nat} (hi : i < count) {width : Nat} {data : Bytes}
    (hlen : data.length = count * width) (hsmall : data.length < 2 ^ 63) :
    i * width + width < Checked.usizeSize := by
  have hbound := FixedLayout.record_in_bounds hi hlen.ge
  show _ < 2 ^ 64
  omega

section Accessors

variable {index : MmapIndex} (loaded : Loaded index)

include loaded

theorem dim_eq : index.dim = 512 := (KnownRecordLayout.fromHeader_eq_ok loaded.layout).1

theorem recordData_eq_ok {ε : Type} :
    (index.recordData : Checked ε Bytes) = .ok (index.bin.drop 32) := by
  have hlen := loaded.binLength
  refine slice_eq_ok.mpr ⟨⟨?_, le_rfl⟩, ?_⟩
  · show 32 ≤ index.bin.length
    omega
  · exact List.take_of_length_le (List.length_drop ..).le

theorem length_recordData : (index.bin.drop 32).length = index.recordCount * 208 := by
  rw [List.length_drop, loaded.binLength, Nat.add_sub_cancel]

/-- The typed records of the layout. -/
theorem records_isOk {ε : Type} :
    (∃ records, (index.records : Checked ε _) = .ok (.v2Dim512 records) ∧
      records.length = index.recordCount ∧ index.layout ≠ .v4Dim512) ∨
    ∃ records, (index.records : Checked ε _) = .ok (.v4Dim512 records) ∧
      records.length = index.recordCount ∧ index.layout = .v4Dim512 := by
  have hregion := (length_recordData loaded).ge
  obtain ⟨legacy, hlegacy⟩ := TurboRecord512.layout.castAll_isOk (ε := ε) hregion
  obtain ⟨prod, hprod⟩ := TurboProdRecord512.layout.castAll_isOk (ε := ε) hregion
  have hcount := (TurboRecord512.layout.castAll_eq_ok.mp hlegacy).1
  have hcount' := (TurboProdRecord512.layout.castAll_eq_ok.mp hprod).1
  simp only [records, recordData_eq_ok loaded]
  cases hlayout : index.layout with
  | v2Dim512 =>
      exact .inl ⟨legacy, bind_eq_ok.mpr ⟨_, rfl, bind_eq_ok.mpr ⟨_, hlegacy, rfl⟩⟩, hcount, by decide⟩
  | v3Dim512 =>
      exact .inl ⟨legacy, bind_eq_ok.mpr ⟨_, rfl, bind_eq_ok.mpr ⟨_, hlegacy, rfl⟩⟩, hcount, by decide⟩
  | v4Dim512 =>
      exact .inr ⟨prod, bind_eq_ok.mpr ⟨_, rfl, bind_eq_ok.mpr ⟨_, hprod, rfl⟩⟩, hcount', rfl⟩

theorem total_records {ε : Type} : Total (index.records : Checked ε TurboRecordSlice) := by
  rcases records_isOk loaded (ε := ε) with ⟨records, h, -⟩ | ⟨records, h, -⟩
  · rw [h]
    exact .ok _
  · rw [h]
    exact .ok _

/-- Every record is there, and so are its fields. -/
theorem record_isOk {ε : Type} {i : Nat} (hi : i < index.recordCount) :
    ∃ record, (index.record i : Checked ε TurboRecordRef) = .ok record ∧
      record.data.length = 208 ∧ record.layout = index.layout := by
  have hregion := length_recordData loaded
  have hsmall : (index.bin.drop 32).length < 2 ^ 63 := by
    rw [List.length_drop]
    have := loaded.binSmall
    omega
  have hword := offset_lt hi hregion hsmall
  have hbound := FixedLayout.record_in_bounds hi hregion.ge
  have hlen : (((index.bin.drop 32).drop (i * 208)).take (i * 208 + 208 - i * 208)).length = 208 := by
    rw [List.length_take, List.length_drop]
    omega
  simp only [record, bind_eq_ok, assertThat_eq_ok, usizeMul_eq_ok, usizeAdd_eq_ok,
    recordData_eq_ok loaded, slice_eq_ok, KnownRecordLayout.recordSize]
  exact ⟨_, ⟨(), hi, _, ⟨by omega, rfl⟩, _, ⟨hword, rfl⟩, _, rfl, _, ⟨⟨by omega, hbound⟩, rfl⟩,
    (), assertThat_eq_ok.mpr hlen.ge, rfl⟩, hlen, rfl⟩

theorem metaAt_isOk {ε : Type} {i : Nat} (hi : i < index.recordCount) :
    ∃ entry, (index.metaAt i : Checked ε MetaRecord) = .ok entry ∧
      MetaRecord.layout.At (i * 40) index.metaRecords entry := by
  have hword := offset_lt hi loaded.entries.length loaded.entries.small
  have hbound := FixedLayout.record_in_bounds hi loaded.entries.length.ge
  obtain ⟨entry, hentry⟩ := MetaRecord.layout.castAt_isOk (ε := ε) hbound
  simp only [metaAt, bind_eq_ok, assertThat_eq_ok, usizeMul_eq_ok]
  exact ⟨entry, ⟨(), hi, _, ⟨by omega, rfl⟩, hentry⟩, MetaRecord.layout.castAt_eq_ok.mp hentry⟩

theorem total_metaAt {ε : Type} {i : Nat} (hi : i < index.recordCount) :
    Total (index.metaAt i : Checked ε MetaRecord) := by
  obtain ⟨entry, hentry, -⟩ := metaAt_isOk loaded (ε := ε) hi
  rw [hentry]
  exact .ok _

/-- The two ranges of a record's entry lie within their blobs. -/
theorem metaAt_ranges {ε : Type} {i : Nat} {entry : MetaRecord}
    (h : (index.metaAt i : Checked ε MetaRecord) = .ok entry) :
    rangeInBlob index.text.length entry.textOffset entry.textLen ∧
      rangeInBlob index.title.length entry.titleOffset entry.titleLen := by
  simp only [metaAt, bind_eq_ok, assertThat_eq_ok, usizeMul_eq_ok] at h
  obtain ⟨-, hi, _, ⟨-, rfl⟩, hentry⟩ := h
  have hranges := loaded.entries.ranges i hi entry (MetaRecord.layout.castAt_eq_ok.mp hentry)
  simp only [metaRanges, List.forall_mem_cons] at hranges
  exact ⟨hranges.1, hranges.2.1⟩

theorem total_textAt {i : Nat} (hi : i < index.recordCount) : Total (index.textAt i) :=
  (total_metaAt loaded hi).bind fun _ hentry =>
    total_textFromBlob (metaAt_ranges loaded hentry).1

theorem total_titleAt {i : Nat} (hi : i < index.recordCount) : Total (index.titleAt i) := by
  refine (total_metaAt loaded hi).bind fun entry hentry => ?_
  exact Total.ite (fun _ => .ok _) fun _ =>
    (total_textFromBlob (metaAt_ranges loaded hentry).2).map

/-- The sidecar entry of a record, where there are sidecars, and its two ranges. -/
theorem metaExtRecord_isOk {ε : Type} (i : Nat) :
    ∃ found, (index.metaExtRecord i : Checked ε _) = .ok found ∧
      ∀ sidecars entry, found = some (sidecars, entry) → index.sidecars = some sidecars ∧
        MetaExtRecord.layout.At (i * 24) sidecars.metaExt entry ∧
        rangeInBlob sidecars.docid.length entry.docidOffset entry.docidLen ∧
        rangeInBlob sidecars.metaJson.length entry.metaJsonOffset entry.metaJsonLen := by
  unfold metaExtRecord
  cases hsidecars : index.sidecars with
  | none => exact ⟨none, rfl, nofun⟩
  | some sidecars =>
      dsimp only
      split
      · exact ⟨none, rfl, nofun⟩
      · rename_i hbound
        have hi : i < index.recordCount := not_le.mp hbound
        have hin := (loaded.sidecars sidecars hsidecars).entries
        have hword := offset_lt hi hin.length hin.small
        have hbound := FixedLayout.record_in_bounds hi hin.length.ge
        obtain ⟨entry, hentry⟩ := MetaExtRecord.layout.castAt_isOk (ε := ε) hbound
        have hat := MetaExtRecord.layout.castAt_eq_ok.mp hentry
        have hranges := hin.ranges i hi entry hat
        simp only [metaExtRanges, List.forall_mem_cons] at hranges
        refine ⟨some (sidecars, entry), ?_, ?_⟩
        · exact bind_eq_ok.mpr ⟨_, usizeMul_eq_ok.mpr ⟨by omega, rfl⟩,
            bind_eq_ok.mpr ⟨_, hentry, rfl⟩⟩
        · rintro _ _ h
          cases h
          exact ⟨rfl, hat, hranges.1, hranges.2.1⟩

theorem total_originalDocId (i : Nat) : Total (index.originalDocId i) := by
  obtain ⟨found, hfound, hranges⟩ := metaExtRecord_isOk loaded (ε := MmapIndexError) i
  unfold originalDocId
  rw [hfound]
  cases found with
  | none => exact .ok _
  | some found => exact (total_textFromBlob (hranges _ _ rfl).2.2.1).map

theorem total_metadataJson (i : Nat) : Total (index.metadataJson i) := by
  obtain ⟨found, hfound, hranges⟩ := metaExtRecord_isOk loaded (ε := MmapIndexError) i
  unfold metadataJson
  rw [hfound]
  cases found with
  | none => exact .ok _
  | some found => exact (total_textFromBlob (hranges _ _ rfl).2.2.2).map

theorem total_checkUtf8 : Total index.checkUtf8 := by
  refine Total.forM fun i hi => ?_
  have hi := List.mem_range.mp hi
  refine (total_textAt loaded hi).bind fun _ _ => ?_
  refine (total_titleAt loaded hi).bind fun _ _ => ?_
  refine (total_originalDocId loaded i).bind fun _ _ => ?_
  exact (total_metadataJson loaded i).bind fun _ _ => .ok _

end Accessors

namespace TurboRecordRef

/-- The fields of a record of the right size are in bounds. -/
theorem total_fields {ε : Type} {record : TurboRecordRef} (h : record.data.length = 208) :
    Total (record.docId : Checked ε UInt64) ∧ Total (record.idx : Checked ε Bytes) ∧
      Total (record.qjl : Checked ε Bytes) ∧ Total (record.gamma : Checked ε F32) ∧
      Total (record.norm : Checked ε (Option F32)) := by
  have hfloat : ∀ start, start + 4 ≤ 208 → Total (record.float start : Checked ε F32) :=
    fun start hstart =>
      (Total.slice (Nat.le_add_right _ _) (by omega)).bind fun _ _ => .ok _
  refine ⟨total_u64At (by omega), Total.slice (by omega) (by omega),
    Total.slice (by omega) (by omega), hfloat 200 (by omega), ?_⟩
  unfold norm
  split
  · exact .ok _
  · exact .ok _
  · exact (hfloat 204 (by omega)).map

end TurboRecordRef

end MmapIndex

end LTSearch
