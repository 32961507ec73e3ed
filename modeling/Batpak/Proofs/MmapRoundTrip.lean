/-
Module: Batpak.Proofs.MmapRoundTrip
Purpose: The memory-mapped snapshot loads as the index it was written for; a file with other bytes
  behind the prefix, or cut short, is invalid.
Trusted boundary: none
Main exports: mmap_snapshot_round_trip, mmap_snapshot_replaces_unknown_kinds
-/
import Batpak.Proofs.SnapshotRules
import Batpak.Store.MmapIndex

namespace Batpak.Store

open Batpak.Util

/-! ### Kinds and hashes -/

theorem rawToKindCounted_fst (raw : Nat) (counts : ReservedKindFallbackStats) :
    (rawToKindCounted raw counts).1 = rawToKind raw := by
  unfold rawToKind rawToKindCounted
  split_ifs <;> rfl

theorem beValue_hashBytes {digest : Digest} (h : digest < 256 ^ 32) :
    beValue (hashBytes digest).toList = digest := by
  rw [hashBytes, Vector.toList_mk, List.toList_toArray]
  exact beValue_beBytes h

/-- The entry as the mapped snapshot gives it back: an unknown reserved kind is replaced. -/
def InternedEntry.remapped (e : InternedEntry) : InternedEntry :=
  { e.reloaded with entry := { e.reloaded.entry with kind := rawToKind e.entry.kind.raw } }

/-! ### Sections -/

/-- What was written of a value is read as the value. -/
theorem fromBytes_of_write {α : Type} {r : SegmentReader} {s : Serde α} {a : α} {bytes : Bytes}
    (hwrite : r.codec.write (s.ser a) = .ok bytes) (ha : s.Fits a) :
    r.fromBytes s bytes = .ok a := by
  rw [SegmentReader.fromBytes, r.codec.read_write _ _ hwrite]
  dsimp only
  rw [s.de_ser a ha]

theorem foldl_update (crc : Crc32) (hasher : crc.State) (rows : List MmapIndexEntry) :
    rows.foldl (fun hasher row => crc.update hasher row.encodeIntoV5) hasher =
      crc.update hasher (rows.flatMap MmapIndexEntry.encodeIntoV5) := by
  induction rows generalizing hasher with
  | nil => exact (crc.update_nil hasher).symm
  | cons row rest ih => rw [List.foldl_cons, ih, List.flatMap_cons, crc.update_append]

theorem mmapChecksum_eq (crc : Crc32) (tail interner summary blob : Bytes)
    (rows : List MmapIndexEntry) :
    mmapChecksum crc tail interner summary blob rows =
      crc.hash (tail ++ (interner ++ (summary ++ (blob ++
        rows.flatMap MmapIndexEntry.encodeIntoV5)))) := by
  simp only [mmapChecksum, foldl_update, Crc32.hash, crc.update_append]

/-- A file of the current version, by its stored checksum and what is behind it. -/
def mmapFile (stored : UInt32) (rest : Bytes) : Bytes :=
  mmapIndexMagic ++ (putLe mmapIndexVersion ++ (putLe stored ++ rest))

section File

variable (stored : UInt32) (rest : Bytes)

theorem take_mmapFile : (mmapFile stored rest).take 6 = mmapIndexMagic :=
  List.take_left' rfl

theorem version_mmapFile : (getLe UInt16 ((mmapFile stored rest).drop 6)).1.toNat = 5 := by
  have hdrop : (mmapFile stored rest).drop 6 =
      putLe mmapIndexVersion ++ (putLe stored ++ rest) := List.drop_left' rfl
  rw [hdrop, getLe_putLe]
  rfl

theorem stored_mmapFile : (getLe UInt32 ((mmapFile stored rest).drop 8)).1 = stored := by
  have hdrop : (mmapFile stored rest).drop 8 = putLe stored ++ rest := by
    rw [mmapFile, ← List.append_assoc]
    apply List.drop_left'
    simp [mmapIndexMagic, FixedWidth.width]
  rw [hdrop, getLe_putLe]

/-- Magic, version and checksum. -/
def mmapPrefix : Bytes :=
  mmapIndexMagic ++ (putLe mmapIndexVersion ++ putLe stored)

theorem mmapFile_eq : mmapFile stored rest = mmapPrefix stored ++ rest := by
  simp only [mmapFile, mmapPrefix, List.append_assoc]

theorem length_mmapPrefix : (mmapPrefix stored).length = mmapPrefixLen := by
  simp [mmapPrefix, mmapIndexMagic, mmapPrefixLen, FixedWidth.width]

theorem length_mmapFile : (mmapFile stored rest).length = 12 + rest.length := by
  rw [mmapFile_eq, List.length_append, length_mmapPrefix, mmapPrefixLen]

theorem prefix_of_mmapFile : (mmapFile stored rest).take mmapPrefixLen = mmapPrefix stored := by
  rw [mmapFile_eq]
  exact List.take_left' (length_mmapPrefix stored)

theorem drop_mmapFile : (mmapFile stored rest).drop mmapPrefixLen = rest := by
  rw [mmapFile_eq]
  exact List.drop_left' (length_mmapPrefix stored)

theorem stretch_mmapFile : stretch (mmapFile stored rest) mmapPrefixLen (mmapHeaderTailLen 5) =
    rest.take 60 := by
  rw [stretch, drop_mmapFile]
  rfl

end File

/-- A file with the sections of the current version. -/
structure MmapSections where
  header : MmapHeader
  interner : Bytes
  summary : Bytes
  blob : Bytes
  rows : List MmapIndexEntry

namespace MmapSections

variable (s : MmapSections)

def covered : Bytes :=
  s.header.tail ++ (s.interner ++ (s.summary ++ (s.blob ++
    s.rows.flatMap MmapIndexEntry.encodeIntoV5)))

def file (crc : Crc32) : Bytes :=
  mmapFile (crc.hash s.covered) s.covered

/-- The header speaks of these sections. -/
structure Measured : Prop where
  interner : s.header.internerBytesLen.toNat = s.interner.length
  summary : s.header.summaryBytesLen.toNat = s.summary.length
  blob : s.header.extensionBlobLen.toNat = s.blob.length
  rows : s.header.entryCount.toNat = s.rows.length

@[simp] theorem length_tail (h : MmapHeader) : h.tail.length = 60 := by
  simp [MmapHeader.tail, FixedWidth.width]

theorem length_file (crc : Crc32) : (s.file crc).length =
    72 + s.interner.length + s.summary.length + s.blob.length + s.rows.length * 218 := by
  simp only [file, covered, length_mmapFile, List.length_append, length_tail,
    length_flatMap_blocks MmapIndexEntry.length_encodeIntoV5]
  omega

variable {s}

/-- A section is where the lengths in front of it put it. -/
theorem stretch_file (crc : Crc32) {before current rest : Bytes} {start len : Nat}
    (hsplit : s.covered = before ++ (current ++ rest)) (hstart : start = 12 + before.length)
    (hlen : len = current.length) : stretch (s.file crc) start len = current := by
  have hdrop : (s.file crc).drop start = (s.covered).drop before.length := by
    rw [← drop_mmapFile (crc.hash s.covered) s.covered, List.drop_drop, hstart, mmapPrefixLen, file]
  rw [stretch, hdrop, hsplit, List.drop_left, hlen, List.take_left]

theorem take_covered : s.covered.take 60 = s.header.tail :=
  List.take_left' (length_tail s.header)

end MmapSections

/-! ### Loading a file -/

/-- A reader says that the file is invalid. -/
def FileLoad.IsInvalid {α : Type} : FileLoad α → Prop
  | .invalid _ => True
  | _ => False

section Loading

variable {c : MmapCodec} {dir : MmapDir} {s : MmapSections}

theorem expectedLen_eq (measured : s.Measured) (crc : Crc32) :
    (s.header.layout 5).expectedLen = (s.file crc).length := by
  rw [MmapSections.length_file]
  simp only [MmapHeader.layout, mmapHeaderLen, mmapPrefixLen, mmapHeaderTailLen, mmapEntrySize,
    measured.interner, measured.summary, measured.blob, measured.rows]
  rfl

/-- What lets a reader map the snapshots of a directory. -/
structure MmapDir.Maps (dir : MmapDir) (watermark : WatermarkInfo) : Prop where
  watermark : validateWatermarkSegment dir.toColdStartDir watermark.watermarkSegmentId
    watermark.watermarkOffset = .ok ()
  admitted : dir.admitMmapIndex = .ok ()
  mapped : dir.mapMmapIndexFile = .ok ()

theorem checkMmapHeader_file (measured : s.Measured) (crc : Crc32)
    (hsize : (s.file crc).length ≤ usizeMax)
    (hdir : dir.Maps ⟨s.header.watermarkSegmentId.toNat, s.header.watermarkOffset.toNat⟩) :
    checkMmapHeader dir 5 s.header (s.file crc).length = .ok () := by
  have hexpected := expectedLen_eq measured crc
  have hentries : (s.header.layout 5).entriesOffset + s.header.entryCount.toNat * mmapEntrySize 5 =
      (s.header.layout 5).expectedLen := rfl
  have hblob : (s.header.layout 5).extensionBlobOffset + s.header.extensionBlobLen.toNat =
      (s.header.layout 5).entriesOffset := rfl
  have hsummary : (s.header.layout 5).summaryOffset + s.header.summaryBytesLen.toNat =
      (s.header.layout 5).extensionBlobOffset := rfl
  unfold checkMmapHeader
  dsimp only
  rw [if_neg (by omega), if_neg (by omega), if_neg (by omega), if_neg (by omega),
    if_neg (by omega), if_neg (by omega), hdir.watermark]
  dsimp only
  rw [hdir.admitted]
  dsimp only
  rw [hdir.mapped]

/-- With the right numbers in the header and the right checksum the sections are read. -/
theorem loadMmapIndex_mmapFile {stored : UInt32} {rest : Bytes} (hlong : 60 ≤ rest.length)
    (hcheck : checkMmapHeader dir 5 (readMmapHeader 5 (rest.take 60)) (12 + rest.length) = .ok ())
    (hcrc : c.crc.hash rest = stored) :
    loadMmapIndex c dir (.ok (some (mmapFile stored rest))) =
      readMmapSections c 5 (readMmapHeader 5 (rest.take 60)) (mmapFile stored rest) := by
  have hlength := length_mmapFile stored rest
  have hheader : mmapHeaderLen 5 = 72 := rfl
  unfold loadMmapIndex
  dsimp only
  rw [if_neg (by rw [hlength, mmapPrefixLen]; omega),
    if_neg (not_not_intro (take_mmapFile stored rest)), version_mmapFile,
    if_neg (by decide), if_neg (by decide),
    if_neg (by rw [hlength, hheader]; omega), stretch_mmapFile, hlength, hcheck]
  dsimp only
  rw [drop_mmapFile, stored_mmapFile, if_neg (not_not_intro hcrc)]

/-- Otherwise the file is invalid. -/
theorem isInvalid_mmapFile {stored : UInt32} {rest : Bytes}
    (h : 60 ≤ rest.length →
      checkMmapHeader dir 5 (readMmapHeader 5 (rest.take 60)) (12 + rest.length) = .ok () →
      c.crc.hash rest ≠ stored) :
    (loadMmapIndex c dir (.ok (some (mmapFile stored rest)))).IsInvalid := by
  have hlength := length_mmapFile stored rest
  have hheader : mmapHeaderLen 5 = 72 := rfl
  unfold loadMmapIndex
  dsimp only
  rw [if_neg (by rw [hlength, mmapPrefixLen]; omega),
    if_neg (not_not_intro (take_mmapFile stored rest)), version_mmapFile,
    if_neg (by decide), if_neg (by decide)]
  by_cases hshort : (mmapFile stored rest).length < mmapHeaderLen 5
  · rw [if_pos hshort]
    trivial
  · rw [if_neg hshort, stretch_mmapFile, hlength]
    cases hcheck : checkMmapHeader dir 5 (readMmapHeader 5 (rest.take 60)) (12 + rest.length) with
    | error reason => trivial
    | ok =>
        dsimp only
        rw [drop_mmapFile, stored_mmapFile, if_pos (h (by omega) hcheck)]
        trivial

theorem loadMmapIndex_file (measured : s.Measured) (hsize : (s.file c.crc).length ≤ usizeMax)
    (hdir : dir.Maps ⟨s.header.watermarkSegmentId.toNat, s.header.watermarkOffset.toNat⟩) :
    loadMmapIndex c dir (.ok (some (s.file c.crc))) =
      readMmapSections c 5 s.header (s.file c.crc) := by
  have hlength := s.length_file c.crc
  have hcovered : (s.file c.crc).length = 12 + s.covered.length := length_mmapFile _ _
  have hheader : readMmapHeader 5 (s.covered.take 60) = s.header := by
    rw [MmapSections.take_covered, readMmapHeader_tail]
  have hload := @loadMmapIndex_mmapFile c dir (c.crc.hash s.covered) s.covered (by omega)
    (by
      rw [hheader, ← hcovered]
      exact checkMmapHeader_file measured c.crc hsize hdir) rfl
  rw [hheader] at hload
  exact hload

end Loading

/-! ### Laying the rows -/

section Rows

variable {c : MmapCodec}

/-- A row stands for an entry, and its extensions for a stretch of the blob. -/
structure RowOf (c : MmapCodec) (blob : Bytes) (e : InternedEntry) (row : MmapIndexEntry) :
    Prop where
  extensions : (e.entry.receiptExtensions = [] ∧ row = MmapIndexEntry.fromIndexEntry e) ∨
    ∃ before bytes rest, blob = before ++ bytes ++ rest ∧ bytes ≠ [] ∧
      c.codec.write (extensionsSerde.ser e.entry.receiptExtensions) = .ok bytes ∧
      row = { MmapIndexEntry.fromIndexEntry e with
        extensionOffset := UInt64.ofNat before.length
        extensionLen := UInt64.ofNat bytes.length
        extensionHash := c.extensionBlobDigest bytes }

/-- Nothing is written as no bytes. -/
def MmapCodec.NeverEmpty (c : MmapCodec) : Prop :=
  ∀ v, c.codec.write v ≠ .ok []

theorem encodeReceiptExtensions_cases (hcodec : c.NeverEmpty) {extensions : Extensions}
    {bytes : Bytes} (h : c.encodeReceiptExtensions extensions = .ok bytes) :
    (extensions = [] ∧ bytes = []) ∨
      (bytes ≠ [] ∧ c.codec.write (extensionsSerde.ser extensions) = .ok bytes) := by
  unfold MmapCodec.encodeReceiptExtensions at h
  by_cases hempty : extensions = []
  · rw [if_pos hempty] at h
    cases h
    exact .inl ⟨hempty, rfl⟩
  · rw [if_neg hempty] at h
    have hwrite := mapError_ok_iff.mp h
    refine .inr ⟨?_, hwrite⟩
    rintro rfl
    exact hcodec _ hwrite

/-- The blob only grows, and every row ends up with its stretch of it. -/
theorem layMmapRows_ok (hcodec : c.NeverEmpty) {entries : List InternedEntry} {start blob : Bytes}
    {rows : List MmapIndexEntry} (h : layMmapRows c entries start = .ok (rows, blob)) :
    start <+: blob ∧ List.Forall₂ (RowOf c blob) entries rows := by
  induction entries generalizing start rows with
  | nil =>
      cases h
      exact ⟨List.prefix_refl _, .nil⟩
  | cons e rest ih =>
      obtain ⟨bytes, hbytes, h⟩ := bindOk_iff.mp h
      obtain ⟨⟨more, final⟩, hmore, hsame⟩ := bindOk_iff.mp h
      cases hsame
      obtain ⟨hgrows, hrest⟩ := ih hmore
      refine ⟨(List.prefix_append _ _).trans hgrows, .cons ⟨?_⟩ hrest⟩
      rcases encodeReceiptExtensions_cases hcodec hbytes with ⟨hnone, rfl⟩ | ⟨hsome, hwrite⟩
      · exact .inl ⟨hnone, if_pos rfl⟩
      · obtain ⟨behind, hbehind⟩ := hgrows
        exact .inr ⟨start, bytes, behind, hbehind.symm, hsome, hwrite, if_neg hsome⟩

/-! ### Rebuilding the rows -/

theorem causationOfWire_getD (causationId : Option Nat) :
    causationOfWire (causationId.getD 0) = causationId.filter fun id => id ≠ 0 := by
  cases causationId with
  | none => rfl
  | some id =>
      by_cases hzero : id = 0
      · simp [causationOfWire, hzero, Option.filter]
      · simp [causationOfWire, hzero, Option.filter]

/-- The row that a reader makes of an entry's fields. -/
def coldStartRowOf (e : InternedEntry) : ColdStartIndexRow where
  source := .mmapIndex
  eventId := e.entry.eventId
  correlationId := e.entry.correlationId
  causationId := e.entry.causationId.filter fun id => id ≠ 0
  entityId := e.entityId
  scopeId := e.scopeId
  kind := rawToKind e.entry.kind.raw
  wallMs := e.entry.wallMs
  clock := e.entry.clock
  dagLane := e.entry.dagLane
  dagDepth := e.entry.dagDepth
  hashChain := e.entry.hashChain
  diskPos := e.entry.diskPos
  globalSequence := e.entry.globalSequence

theorem toColdStartRowCounted_fromIndexEntry {e : InternedEntry} (typed : e.Typed)
    (counts : ReservedKindFallbackStats) :
    ((MmapIndexEntry.fromIndexEntry e).toColdStartRowCounted counts).1 = coldStartRowOf e := by
  have hbits : ∀ n : Nat, n < 256 ^ 16 → n % 2 ^ 128 = n := fun n h => Nat.mod_eq_of_lt h
  have hcausation : e.entry.causationId.getD 0 < 256 ^ 16 := by
    cases hid : e.entry.causationId with
    | none => decide
    | some id => exact typed.causationId id hid
  have hwire := causationOfWire_getD e.entry.causationId
  unfold MmapIndexEntry.toColdStartRowCounted coldStartRowOf MmapIndexEntry.fromIndexEntry
  simp only [BitVec.toNat_ofNat, UInt32.toNat_ofNat', UInt16.toNat_ofNat', UInt64.toNat_ofNat',
    hbits _ typed.eventId, hbits _ typed.correlationId, hbits _ hcausation,
    Nat.mod_eq_of_lt typed.entityId, Nat.mod_eq_of_lt typed.scopeId, Nat.mod_eq_of_lt typed.kind,
    Nat.mod_eq_of_lt typed.wallMs, Nat.mod_eq_of_lt typed.clock, Nat.mod_eq_of_lt typed.dagLane,
    Nat.mod_eq_of_lt typed.dagDepth, Nat.mod_eq_of_lt typed.segmentId,
    Nat.mod_eq_of_lt typed.offset, Nat.mod_eq_of_lt typed.length,
    Nat.mod_eq_of_lt typed.globalSequence, rawToKindCounted_fst, hwire,
    beValue_hashBytes typed.prevHash, beValue_hashBytes typed.eventHash]

theorem RowOf.coldStartRow {blob : Bytes} {e : InternedEntry} {row : MmapIndexEntry}
    (h : RowOf c blob e row) (typed : e.Typed) (counts : ReservedKindFallbackStats) :
    (row.toColdStartRowCounted counts).1 = coldStartRowOf e := by
  rw [← toColdStartRowCounted_fromIndexEntry typed counts]
  rcases h.extensions with ⟨-, rfl⟩ | ⟨before, bytes, rest, -, -, -, rfl⟩
  · rfl
  · rfl

theorem RowOf.decodeReceiptExtensions {blob : Bytes} {e : InternedEntry} {row : MmapIndexEntry}
    (h : RowOf c blob e row) (typed : e.Typed) (hblob : blob.length ≤ usizeMax) :
    c.decodeReceiptExtensionsFromBlob row blob = .ok e.entry.receiptExtensions := by
  rcases h.extensions with ⟨hnone, rfl⟩ | ⟨before, bytes, rest, rfl, hsome, hwrite, rfl⟩
  · rw [hnone]
    rfl
  · have hlong : (before ++ bytes ++ rest).length = before.length + bytes.length + rest.length := by
      rw [List.length_append, List.length_append]
    have hmax : usizeMax + 1 = 2 ^ 64 := rfl
    have hpos := List.length_pos_of_ne_nil hsome
    have hoffset : (UInt64.ofNat before.length).toNat = before.length := by
      rw [UInt64.toNat_ofNat', Nat.mod_eq_of_lt (by omega)]
    have hlen : (UInt64.ofNat bytes.length).toNat = bytes.length := by
      rw [UInt64.toNat_ofNat', Nat.mod_eq_of_lt (by omega)]
    have hne : UInt64.ofNat bytes.length ≠ 0 := by
      intro hzero
      rw [hzero] at hlen
      change 0 = bytes.length at hlen
      omega
    unfold MmapCodec.decodeReceiptExtensionsFromBlob
    dsimp only
    rw [if_neg hne, hoffset, hlen, if_neg (by omega), if_neg (by omega), stretch_append,
      if_neg (not_not_intro rfl), fromBytes_of_write hwrite typed.receiptExtensions]
    rfl

/-- An entry that is laid down as a row is rebuilt from it. -/
theorem rebuildMmapRow_ok {blob : Bytes} {e : InternedEntry} {row : MmapIndexEntry}
    {strings : List String} (h : RowOf c blob e row) (typed : e.Typed)
    (hvalid : e.entry.coord.validate = .ok ()) (hresolves : e.Resolves strings)
    (hblob : blob.length ≤ usizeMax) (counts : ReservedKindFallbackStats) :
    ∃ counts', rebuildMmapRow c 5 strings blob row.encodeIntoV5 counts =
      .ok (e.remapped, counts') := by
  refine ⟨(row.toColdStartRowCounted counts).2, ?_⟩
  have hentry : (coldStartRowOf e).toIndexEntry strings =
      .ok ((coldStartRowOf e).entryAt e.entry.coord) :=
    (toIndexEntry_ok_iff hresolves.1 hresolves.2).mpr ⟨hvalid, rfl⟩
  unfold rebuildMmapRow
  apply bindOk_iff.mpr
  refine ⟨row, MmapIndexEntry.decodeFrom_encodeIntoV5 row, ?_⟩
  dsimp only
  rw [h.coldStartRow typed]
  apply bindOk_iff.mpr
  refine ⟨_, hentry, ?_⟩
  rw [if_pos (Nat.le_refl 5)]
  apply bindOk_iff.mpr
  exact ⟨_, h.decodeReceiptExtensions typed hblob, rfl⟩

theorem rebuildMmapRows_ok {blob : Bytes} {entries : List InternedEntry}
    {rows : List MmapIndexEntry} {strings : List String}
    (h : List.Forall₂ (RowOf c blob) entries rows) (typed : ∀ e ∈ entries, e.Typed)
    (hvalid : ∀ e ∈ entries, e.entry.coord.validate = .ok ())
    (hresolves : ∀ e ∈ entries, e.Resolves strings) (hblob : blob.length ≤ usizeMax)
    (counts : ReservedKindFallbackStats) :
    ∃ counts', rebuildMmapRows c 5 strings blob (rows.map MmapIndexEntry.encodeIntoV5) counts =
      .ok (entries.map InternedEntry.remapped, counts') := by
  induction h generalizing counts with
  | nil => exact ⟨counts, rfl⟩
  | cons hrow _ ih =>
      obtain ⟨here, hhere⟩ := rebuildMmapRow_ok hrow (typed _ List.mem_cons_self)
        (hvalid _ List.mem_cons_self) (hresolves _ List.mem_cons_self) hblob counts
      obtain ⟨behind, hbehind⟩ := ih (fun e he => typed e (List.mem_cons_of_mem _ he))
        (fun e he => hvalid e (List.mem_cons_of_mem _ he))
        (fun e he => hresolves e (List.mem_cons_of_mem _ he)) here
      refine ⟨behind, ?_⟩
      rw [List.map_cons, List.map_cons, rebuildMmapRows]
      apply bindOk_iff.mpr
      refine ⟨_, hhere, ?_⟩
      apply bindOk_iff.mpr
      exact ⟨_, hbehind, rfl⟩

/-! ### Chunks -/

/-- The rows come apart again. -/
theorem chunksExact_rows (rows : List MmapIndexEntry) :
    chunksExact 218 (rows.flatMap MmapIndexEntry.encodeIntoV5) =
      rows.map MmapIndexEntry.encodeIntoV5 := by
  have hblocks := MmapIndexEntry.length_encodeIntoV5
  rw [chunksExact, length_flatMap_blocks hblocks, Nat.mul_div_cancel _ (by decide),
    map_stretch_blocks hblocks]

theorem bound_of_mem_chunkRangesFrom {entryCount expectedStart : Nat}
    {chunks : List RestoreChunkSummary} {ranges : List (Nat × Nat)} {r : Nat × Nat}
    (h : chunkRangesFrom entryCount expectedStart chunks = some ranges) (hr : r ∈ ranges) :
    r.1 + r.2 ≤ entryCount := by
  induction chunks generalizing expectedStart ranges with
  | nil =>
      rw [chunkRangesFrom] at h
      split at h
      · cases h
        cases hr
      · cases h
  | cons chunk rest ih =>
      rw [chunkRangesFrom] at h
      split at h
      · cases h
      · split at h
        · cases h
        · rename_i hchecked
          obtain ⟨tail, htail, rfl⟩ := Option.map_eq_some_iff.mp h
          rcases List.mem_cons.mp hr with rfl | hr
          · simp only [not_or, Nat.not_lt] at hchecked
            exact hchecked.2.2
          · exact ih htail hr

theorem bound_of_mem_restoreChunkRanges {entryCount : Nat} {routing : RoutingSummary}
    {r : Nat × Nat} (hr : r ∈ restoreChunkRanges entryCount routing) : r.1 + r.2 ≤ entryCount := by
  have heven : r ∈ evenRanges entryCount → r.1 + r.2 ≤ entryCount := by
    intro hr
    have hbound := bound_of_mem_consecutive hr
    have hparts : 0 < recommendedRestoreChunkCount entryCount := by
      rw [recommendedRestoreChunkCount]
      omega
    rw [sum_evenLengths hparts] at hbound
    omega
  rw [restoreChunkRanges] at hr
  split at hr
  · exact heven hr
  · cases hranges : chunkRangesFrom entryCount 0 routing.chunks with
    | none =>
        rw [hranges, Option.getD_none] at hr
        exact heven hr
    | some ranges =>
        rw [hranges, Option.getD_some] at hr
        exact bound_of_mem_chunkRangesFrom hranges hr

/-- The rows of a file and the entries they are rebuilt as. -/
structure LaidRows (c : MmapCodec) (strings : List String) (blob : Bytes)
    (entries : List InternedEntry) (rows : List MmapIndexEntry) : Prop where
  rowOf : List.Forall₂ (RowOf c blob) entries rows
  typed : ∀ e ∈ entries, e.Typed
  valid : ∀ e ∈ entries, e.entry.coord.validate = .ok ()
  resolves : ∀ e ∈ entries, e.Resolves strings
  blobFits : blob.length ≤ usizeMax
  rowsFit : rows.length * 218 ≤ usizeMax

theorem rebuildMmapChunk_ok {strings : List String} {blob : Bytes} {entries : List InternedEntry}
    {rows : List MmapIndexEntry} (h : LaidRows c strings blob entries rows)
    {loaded : LoadedMmapIndex} (hversion : loaded.version = 5) (hsize : loaded.entrySize = 218)
    (hstrings : loaded.internerStrings = strings) {range : Nat × Nat}
    (hrange : range.1 + range.2 ≤ rows.length) :
    ∃ counts, rebuildMmapChunk c loaded (rows.flatMap MmapIndexEntry.encodeIntoV5) blob range =
      .ok ((stretch entries range.1 range.2).map InternedEntry.remapped, counts) := by
  have hsub : ∀ e ∈ stretch entries range.1 range.2, e ∈ entries := fun e he =>
    (stretch_sublist _ _ _).subset he
  have hrows : List.Forall₂ (RowOf c blob) (stretch entries range.1 range.2)
      (stretch rows range.1 range.2) := List.forall₂_take _ (List.forall₂_drop _ h.rowOf)
  have hbytes : (range.1 + range.2) * 218 ≤ rows.length * 218 := Nat.mul_le_mul_right 218 hrange
  rw [Nat.add_mul] at hbytes
  have hfits := h.rowsFit
  have hlength := length_flatMap_blocks MmapIndexEntry.length_encodeIntoV5 rows
  obtain ⟨counts, hcounts⟩ := rebuildMmapRows_ok hrows (fun e he => h.typed e (hsub e he))
    (fun e he => h.valid e (hsub e he)) (fun e he => h.resolves e (hsub e he)) h.blobFits .none
  refine ⟨counts, ?_⟩
  unfold rebuildMmapChunk
  dsimp only
  rw [hversion, hsize, hstrings, if_neg (by omega), if_neg (by omega), if_neg (by omega),
    if_neg (by omega), stretch_flatMap_blocks MmapIndexEntry.length_encodeIntoV5, chunksExact_rows]
  exact hcounts

/-- All chunks together give all the entries. -/
theorem mapM_rebuildMmapChunk_ok {strings : List String} {blob : Bytes}
    {entries : List InternedEntry} {rows : List MmapIndexEntry}
    (h : LaidRows c strings blob entries rows) {loaded : LoadedMmapIndex}
    (hversion : loaded.version = 5) (hsize : loaded.entrySize = 218)
    (hstrings : loaded.internerStrings = strings) (routing : RoutingSummary) :
    ∃ perChunk, (restoreChunkRanges rows.length routing).mapM
        (rebuildMmapChunk c loaded (rows.flatMap MmapIndexEntry.encodeIntoV5) blob) = .ok perChunk ∧
      perChunk.flatMap (·.1) = entries.map InternedEntry.remapped := by
  obtain ⟨perChunk, hperChunk⟩ := exists_mapM_ok_iff.mpr fun range hrange => by
    obtain ⟨counts, hcounts⟩ := rebuildMmapChunk_ok h hversion hsize hstrings
      (bound_of_mem_restoreChunkRanges hrange)
    exact ⟨_, hcounts⟩
  refine ⟨perChunk, hperChunk, ?_⟩
  have hentries : perChunk.map (·.1) = (restoreChunkRanges rows.length routing).map
      fun range => (stretch entries range.1 range.2).map InternedEntry.remapped := by
    apply map_eq_of_mapM_ok_mem hperChunk
    intro range hrange chunk hchunk
    obtain ⟨counts, hcounts⟩ := rebuildMmapChunk_ok h hversion hsize hstrings
      (bound_of_mem_restoreChunkRanges hrange)
    rw [hcounts] at hchunk
    cases hchunk
    rfl
  have htiles := tiles_restoreChunkRanges rows.length routing
  rw [← h.rowOf.length_eq] at htiles hentries
  rw [List.flatMap_def, hentries, ← List.flatMap_def, ← List.map_flatMap,
    flatMap_stretch_of_tiles htiles]

end Rows

/-! ### The round trip -/

/-- The sections a file was written as. -/
structure MmapWritten (c : MmapCodec) (index : InternedIndex) (watermark : WatermarkInfo)
    (counts : ReservedKindFallbackStats) (s : MmapSections) : Prop where
  measured : s.Measured
  size : (s.file c.crc).length ≤ Sidx.maxFileLen
  segment : s.header.watermarkSegmentId = UInt64.ofNat watermark.watermarkSegmentId
  offset : s.header.watermarkOffset = UInt64.ofNat watermark.watermarkOffset
  allocator : s.header.storedAllocator = UInt64.ofNat index.globalSequence
  internerCount : s.header.internerCount.toNat = index.interner.fullSnapshot.length
  interner : c.codec.write (Sidx.stringTable.ser index.interner.fullSnapshot) = .ok s.interner
  summary : c.codec.write (mmapSummarySerde.ser
    ⟨RoutingSummary.fromSortedEntries (index.bySequence.map (·.entry))
      (recommendedRestoreChunkCount index.entries.length), counts⟩) = .ok s.summary
  rows : layMmapRows c index.bySequence [] = .ok (s.rows, s.blob)

theorem writeMmapIndex_ok {c : MmapCodec} (hcodec : c.NeverEmpty) {index : InternedIndex}
    {watermark : WatermarkInfo} {counts : ReservedKindFallbackStats} {file : Bytes}
    (h : writeMmapIndex c index watermark counts = .ok file) :
    ∃ s, file = MmapSections.file s c.crc ∧ MmapWritten c index watermark counts s := by
  obtain ⟨interner, hinterner, h⟩ := bindOk_iff.mp h
  obtain ⟨summary, hsummary, h⟩ := bindOk_iff.mp h
  obtain ⟨hcount, h⟩ := ifError_ok_iff.mp h
  obtain ⟨⟨rows, blob⟩, hrows, h⟩ := bindOk_iff.mp h
  dsimp only at h
  rw [mmapChecksum_eq] at h
  obtain ⟨hsize, h⟩ := ifError_ok_iff.mp h
  cases h
  have hsorted : (index.entries.insertionSort
      fun a b => a.entry.globalSequence ≤ b.entry.globalSequence) = index.bySequence := rfl
  rw [hsorted] at hsummary hrows hsize ⊢
  rw [index.length_bySequence] at hsummary
  obtain ⟨-, hrowOf⟩ := layMmapRows_ok hcodec hrows
  have hsame := hrowOf.length_eq
  refine ⟨⟨_, interner, summary, blob, rows⟩, rfl, ?_⟩
  have hfits := Nat.not_lt.mp hsize
  have hlength := MmapSections.length_file ⟨{
      watermarkSegmentId := UInt64.ofNat watermark.watermarkSegmentId
      watermarkOffset := UInt64.ofNat watermark.watermarkOffset
      storedAllocator := UInt64.ofNat index.globalSequence
      internerCount := UInt32.ofNat index.interner.fullSnapshot.length
      entryCount := UInt64.ofNat index.bySequence.length
      internerBytesLen := UInt64.ofNat interner.length
      summaryBytesLen := UInt64.ofNat summary.length
      extensionBlobLen := UInt64.ofNat blob.length }, interner, summary, blob, rows⟩ c.crc
  have hroom : 72 + interner.length + summary.length + blob.length + rows.length * 218 ≤
      Sidx.maxFileLen := by
    rw [← hlength]
    exact hfits
  have hmax : Sidx.maxFileLen < 2 ^ 64 := by decide
  have hnat : ∀ n, n ≤ Sidx.maxFileLen → (UInt64.ofNat n).toNat = n := by
    intro n hn
    rw [UInt64.toNat_ofNat', Nat.mod_eq_of_lt (by omega)]
  constructor
  case measured =>
    constructor
    · exact hnat _ (by omega)
    · exact hnat _ (by omega)
    · exact hnat _ (by omega)
    · dsimp only
      rw [hsame]
      exact hnat _ (by omega)
  case size => exact hfits
  case segment => rfl
  case offset => rfl
  case allocator => rfl
  case internerCount =>
    dsimp only
    rw [UInt32.toNat_ofNat', Nat.mod_eq_of_lt (Nat.not_le.mp hcount)]
  case interner => exact mapError_ok_iff.mp hinterner
  case summary => exact mapError_ok_iff.mp hsummary
  case rows => exact hrows

/-- The snapshot is the index, the watermark and the counters it was written for. How
many reserved kinds the load itself fell back on is left out. -/
structure MmapReturns (index : InternedIndex) (watermark : WatermarkInfo)
    (counts : ReservedKindFallbackStats) (snapshot : LoadedMmapSnapshot) : Prop where
  entries : snapshot.entries = index.bySequence.map InternedEntry.remapped
  internerStrings : snapshot.internerStrings = index.interner.fullSnapshot
  resolves : ∀ e ∈ snapshot.entries, e.Resolves snapshot.internerStrings
  watermark : snapshot.watermark = watermark
  storedAllocator : snapshot.storedAllocator = index.globalSequence
  routing : snapshot.routing = RoutingSummary.fromSortedEntries (index.bySequence.map (·.entry))
    (recommendedRestoreChunkCount index.entries.length)
  counts : snapshot.cumulativeReservedKindFallbacks = counts
  hydrated : snapshot.receiptExtensionsHydrated = true

/-- What a file of these sections is loaded as. -/
def MmapSections.loaded (s : MmapSections) (crc : Crc32) (index : InternedIndex)
    (watermark : WatermarkInfo) (counts : ReservedKindFallbackStats) : LoadedMmapIndex where
  mmap := s.file crc
  internerStrings := index.interner.fullSnapshot
  routing := RoutingSummary.fromSortedEntries (index.bySequence.map (·.entry))
    (recommendedRestoreChunkCount index.entries.length)
  entriesOffset := 72 + s.interner.length + s.summary.length + s.blob.length
  extensionBlobOffset := 72 + s.interner.length + s.summary.length
  extensionBlobLen := s.blob.length
  entryCount := s.rows.length
  entrySize := 218
  version := 5
  watermark := watermark
  storedAllocator := index.globalSequence
  cumulativeReservedKindFallbacks := counts

/-- Numbers of the state within their types. -/
structure SnapshotTyped (index : InternedIndex) (watermark : WatermarkInfo)
    (counts : ReservedKindFallbackStats) : Prop where
  ofIndex : index.Typed
  coordinates : ∀ e ∈ index.entries, e.entry.coord.validate = .ok ()
  segment : watermark.watermarkSegmentId < 2 ^ 64
  offset : watermark.watermarkOffset < 2 ^ 64
  ofCounts : fallbackStatsSerde.Fits counts

theorem fits_bySequence {index : InternedIndex} (typed : index.Typed) :
    routingSerde.Fits (RoutingSummary.fromSortedEntries (index.bySequence.map (·.entry))
      (recommendedRestoreChunkCount index.entries.length)) := by
  apply fits_fromSortedEntries
  · rw [List.length_map, index.length_bySequence]
    exact typed.count
  · intro e he
    obtain ⟨original, horiginal, rfl⟩ := List.mem_map.mp he
    exact (typed.entries original (InternedIndex.mem_bySequence.mp horiginal)).globalSequence
  · rw [recommendedRestoreChunkCount]
    omega

section Written

variable {c : MmapCodec} {index : InternedIndex} {watermark : WatermarkInfo}
  {counts : ReservedKindFallbackStats} {s : MmapSections}

theorem readMmapSummary_of_read {m : Msgpack} {data : MmapSummaryData} {bytes : Bytes}
    (hread : c.codec.read bytes = .ok m) (hdata : mmapSummarySerde.de m = some data) :
    readMmapSummary c 5 bytes = .ok data := by
  unfold readMmapSummary
  rw [if_neg (by decide), hread]
  dsimp only
  rw [if_pos (by decide), hdata]

theorem readMmapSections_written (h : MmapWritten c index watermark counts s)
    (typed : SnapshotTyped index watermark counts) :
    readMmapSections c 5 s.header (s.file c.crc) =
      .loaded (s.loaded c.crc index watermark counts) := by
  have hinterner : stretch (s.file c.crc) 72 s.interner.length = s.interner := by
    apply MmapSections.stretch_file c.crc rfl
    case hstart => rw [MmapSections.length_tail]
    case hlen => rfl
  have hsummary : stretch (s.file c.crc) (72 + s.interner.length) s.summary.length =
      s.summary := by
    apply MmapSections.stretch_file c.crc (List.append_assoc _ _ _).symm
    case hstart =>
      rw [List.length_append, MmapSections.length_tail]
      omega
    case hlen => rfl
  have hstrings : c.fromBytes Sidx.stringTable s.interner = .ok index.interner.fullSnapshot :=
    fromBytes_of_write h.interner fun _ _ => trivial
  have hdata : readMmapSummary c 5 s.summary = .ok ⟨RoutingSummary.fromSortedEntries
      (index.bySequence.map (·.entry)) (recommendedRestoreChunkCount index.entries.length),
      counts⟩ :=
    readMmapSummary_of_read (c.codec.read_write _ _ h.summary)
      (mmapSummarySerde.de_ser _ ⟨fits_bySequence typed.ofIndex, typed.ofCounts⟩)
  have hsegment : s.header.watermarkSegmentId.toNat = watermark.watermarkSegmentId := by
    rw [h.segment, UInt64.toNat_ofNat', Nat.mod_eq_of_lt typed.segment]
  have hoffset : s.header.watermarkOffset.toNat = watermark.watermarkOffset := by
    rw [h.offset, UInt64.toNat_ofNat', Nat.mod_eq_of_lt typed.offset]
  have hallocator : s.header.storedAllocator.toNat = index.globalSequence := by
    rw [h.allocator, UInt64.toNat_ofNat', Nat.mod_eq_of_lt typed.ofIndex.globalSequence]
  have hheader : mmapHeaderLen 5 = 72 := rfl
  unfold readMmapSections MmapHeader.layout
  dsimp only
  rw [h.measured.interner, h.measured.summary, h.measured.blob, h.measured.rows, hheader, hinterner,
    hstrings]
  dsimp only
  rw [if_neg (not_not_intro h.internerCount.symm), hsummary, hdata, hsegment, hoffset, hallocator]
  rfl

theorem loadMmapIndex_written {dir : MmapDir} (h : MmapWritten c index watermark counts s)
    (typed : SnapshotTyped index watermark counts) (hdir : dir.Maps watermark) :
    loadMmapIndex c dir (.ok (some (s.file c.crc))) =
      .loaded (s.loaded c.crc index watermark counts) := by
  have hsegment : s.header.watermarkSegmentId.toNat = watermark.watermarkSegmentId := by
    rw [h.segment, UInt64.toNat_ofNat', Nat.mod_eq_of_lt typed.segment]
  have hoffset : s.header.watermarkOffset.toNat = watermark.watermarkOffset := by
    rw [h.offset, UInt64.toNat_ofNat', Nat.mod_eq_of_lt typed.offset]
  have hmax : Sidx.maxFileLen ≤ usizeMax := by decide
  rw [loadMmapIndex_file h.measured (h.size.trans hmax), readMmapSections_written h typed]
  rw [hsegment, hoffset]
  exact hdir

theorem laidRows_written (hcodec : c.NeverEmpty) (h : MmapWritten c index watermark counts s)
    (typed : SnapshotTyped index watermark counts) :
    LaidRows c index.interner.fullSnapshot s.blob index.bySequence s.rows := by
  have hlength := s.length_file c.crc
  have hsize := h.size
  have hmax : Sidx.maxFileLen ≤ usizeMax := by decide
  constructor
  case rowOf => exact (layMmapRows_ok hcodec h.rows).2
  case typed => exact fun e he => typed.ofIndex.entries e (InternedIndex.mem_bySequence.mp he)
  case valid => exact fun e he => typed.coordinates e (InternedIndex.mem_bySequence.mp he)
  case resolves => exact index.resolves_bySequence
  case blobFits => omega
  case rowsFit => omega

/-- What is made of a file whose header and sections were accepted. -/
theorem loadMmapSnapshot_of_index {dir : MmapDir} {file : Except String (Option Bytes)}
    {loaded : LoadedMmapIndex} {entries blob : Bytes}
    {perChunk : List (List InternedEntry × ReservedKindFallbackStats)}
    (hload : loadMmapIndex c dir file = .loaded loaded) (hsize : loaded.mmap.length ≤ usizeMax)
    (hentriesEnd : loaded.entriesOffset + loaded.entryCount * loaded.entrySize ≤ loaded.mmap.length)
    (hblobEnd : loaded.extensionBlobOffset + loaded.extensionBlobLen ≤ loaded.mmap.length)
    (hentries : stretch loaded.mmap loaded.entriesOffset (loaded.entryCount * loaded.entrySize) =
      entries)
    (hblob : stretch loaded.mmap loaded.extensionBlobOffset loaded.extensionBlobLen = blob)
    (hchunks : (restoreChunkRanges loaded.entryCount loaded.routing).mapM
      (rebuildMmapChunk c loaded entries blob) = .ok perChunk) :
    loadMmapSnapshot c dir file = .loaded {
      entries := perChunk.flatMap (·.1)
      internerStrings := loaded.internerStrings
      watermark := loaded.watermark
      storedAllocator := loaded.storedAllocator
      routing :=
        if loaded.routing.chunks = [] then
          RoutingSummary.fromSortedEntries ((perChunk.flatMap (·.1)).map (·.entry))
            (recommendedRestoreChunkCount (perChunk.flatMap (·.1)).length)
        else loaded.routing
      reopenReservedKindFallbacks :=
        perChunk.foldl (fun counts chunk => counts.mergeFrom chunk.2) .none
      cumulativeReservedKindFallbacks := loaded.cumulativeReservedKindFallbacks
      receiptExtensionsHydrated := 5 ≤ loaded.version } := by
  unfold loadMmapSnapshot
  rw [hload, FileLoad.bind]
  dsimp only
  rw [if_neg (by omega), if_neg (by omega), if_neg (by omega), if_neg (by omega),
    if_neg (by omega), hentries, hblob, hchunks]

/-- Without chunks there are no entries. -/
theorem entries_eq_nil_of_chunks {entries : List IndexEntry} {chunkCount : Nat}
    (h : (RoutingSummary.fromSortedEntries entries chunkCount).chunks = []) : entries = [] := by
  have hnone := List.map_eq_nil_iff.mp h
  have htiles := tiles_consecutive (evenLengths entries.length (max chunkCount 1))
  rw [hnone, sum_evenLengths (by omega), Tiles] at htiles
  exact List.length_eq_zero_iff.mp (List.range_eq_nil.mp htiles.symm)

theorem loadMmapSnapshot_written (hcodec : c.NeverEmpty) {dir : MmapDir}
    (h : MmapWritten c index watermark counts s) (typed : SnapshotTyped index watermark counts)
    (hdir : dir.Maps watermark) :
    ∃ snapshot, loadMmapSnapshot c dir (.ok (some (s.file c.crc))) = .loaded snapshot ∧
      MmapReturns index watermark counts snapshot := by
  have hlaid := laidRows_written hcodec h typed
  have hlength := s.length_file c.crc
  have hsize := h.size
  have hmax : Sidx.maxFileLen ≤ usizeMax := by decide
  have hcount : s.rows.length = index.entries.length := by
    rw [← hlaid.rowOf.length_eq, index.length_bySequence]
  have hblobSplit : s.covered = (s.header.tail ++ s.interner ++ s.summary) ++
      (s.blob ++ s.rows.flatMap MmapIndexEntry.encodeIntoV5) := by
    simp only [MmapSections.covered, List.append_assoc]
  have hrowsSplit : s.covered = (s.header.tail ++ s.interner ++ s.summary ++ s.blob) ++
      (s.rows.flatMap MmapIndexEntry.encodeIntoV5 ++ []) := by
    simp only [MmapSections.covered, List.append_assoc, List.append_nil]
  have hblob : stretch (s.file c.crc) (72 + s.interner.length + s.summary.length) s.blob.length =
      s.blob := by
    apply MmapSections.stretch_file c.crc hblobSplit
    case hstart =>
      simp only [List.length_append, MmapSections.length_tail]
      omega
    case hlen => rfl
  have hrows : stretch (s.file c.crc) (72 + s.interner.length + s.summary.length + s.blob.length)
      (s.rows.length * 218) = s.rows.flatMap MmapIndexEntry.encodeIntoV5 := by
    apply MmapSections.stretch_file c.crc hrowsSplit
    case hstart =>
      simp only [List.length_append, MmapSections.length_tail]
      omega
    case hlen => exact (length_flatMap_blocks MmapIndexEntry.length_encodeIntoV5 s.rows).symm
  obtain ⟨perChunk, hperChunk, hentries⟩ :=
    @mapM_rebuildMmapChunk_ok c _ _ _ _ hlaid (s.loaded c.crc index watermark counts) rfl rfl rfl
      (s.loaded c.crc index watermark counts).routing
  have hload := loadMmapSnapshot_of_index (loadMmapIndex_written h typed hdir)
    (hsize.trans hmax) (by
      dsimp only [MmapSections.loaded]
      omega) (by
      dsimp only [MmapSections.loaded]
      omega) hrows hblob hperChunk
  rw [hentries] at hload
  refine ⟨_, hload, ?_⟩
  constructor
  case entries => rfl
  case internerStrings => rfl
  case resolves =>
    intro e he
    obtain ⟨original, horiginal, rfl⟩ := List.mem_map.mp he
    exact index.resolves_bySequence original horiginal
  case watermark => rfl
  case storedAllocator => rfl
  case routing =>
    dsimp only
    by_cases hchunks : (s.loaded c.crc index watermark counts).routing.chunks = []
    · rw [if_pos hchunks]
      have hnone := List.map_eq_nil_iff.mp (entries_eq_nil_of_chunks hchunks)
      have hlen := index.length_bySequence
      rw [hnone] at hlen ⊢
      rw [← hlen]
      rfl
    · rw [if_neg hchunks]
      rfl
  case counts => rfl
  case hydrated => rfl

end Written

/-! ### Damaged files -/

section Damaged

variable {c : MmapCodec} {s : MmapSections}

theorem loadMmapSnapshot_isInvalid {dir : MmapDir} {file : Except String (Option Bytes)}
    (h : (loadMmapIndex c dir file).IsInvalid) : (loadMmapSnapshot c dir file).IsInvalid := by
  unfold loadMmapSnapshot
  cases hload : loadMmapIndex c dir file with
  | invalid reason => trivial
  | missing =>
      rw [hload] at h
      cases h
  | futureVersion found supported =>
      rw [hload] at h
      cases h
  | loaded value =>
      rw [hload] at h
      cases h

/-- Other bytes behind the prefix have another checksum. -/
theorem isInvalid_altered {dir : MmapDir} {rest : Bytes} (hne : rest ≠ s.covered)
    (hcrc : c.crc.hash rest = c.crc.hash s.covered → rest = s.covered) :
    (loadMmapIndex c dir (.ok (some (mmapFile (c.crc.hash s.covered) rest)))).IsInvalid := by
  apply isInvalid_mmapFile
  intro _ _ hsame
  exact hne (hcrc hsame)

theorem length_of_checkMmapHeader {dir : MmapDir} {version fileLen : Nat} {header : MmapHeader}
    (h : checkMmapHeader dir version header fileLen = .ok ()) :
    fileLen = (header.layout version).expectedLen := by
  obtain ⟨-, h⟩ := ifError_ok_iff.mp h
  obtain ⟨-, h⟩ := ifError_ok_iff.mp h
  obtain ⟨-, h⟩ := ifError_ok_iff.mp h
  obtain ⟨-, h⟩ := ifError_ok_iff.mp h
  obtain ⟨-, h⟩ := ifError_ok_iff.mp h
  obtain ⟨hsize, -⟩ := ifError_ok_iff.mp h
  exact not_not.mp hsize

/-- A file that lost its end is too short for its prefix, for its header, or for the sections
that its header speaks of. -/
theorem isInvalid_cut (measured : s.Measured) {dir : MmapDir} {n : Nat}
    (hn : n < (s.file c.crc).length) :
    (loadMmapIndex c dir (.ok (some ((s.file c.crc).take n)))).IsInvalid := by
  have hexpected := expectedLen_eq measured c.crc
  have hcovered : (s.file c.crc).length = 12 + s.covered.length := length_mmapFile _ _
  by_cases hshort : n < 12
  · have hlen : ((s.file c.crc).take n).length < mmapPrefixLen := by
      rw [List.length_take, mmapPrefixLen]
      omega
    unfold loadMmapIndex
    dsimp only
    rw [if_pos hlen]
    trivial
  · have hcut : (s.file c.crc).take n =
        mmapFile (c.crc.hash s.covered) (s.covered.take (n - 12)) := by
      have hlen := length_mmapPrefix (c.crc.hash s.covered)
      rw [mmapPrefixLen] at hlen
      rw [MmapSections.file, mmapFile_eq, mmapFile_eq, List.take_append, hlen,
        List.take_of_length_le (by omega)]
    rw [hcut]
    apply isInvalid_mmapFile
    intro hlong hcheck
    have hsize := length_of_checkMmapHeader hcheck
    rw [List.length_take] at hlong hsize
    rw [List.take_take, Nat.min_eq_left (show 60 ≤ n - 12 by omega), MmapSections.take_covered,
      readMmapHeader_tail] at hsize
    omega

end Damaged

/-- A mapped snapshot that was written is loaded again, as long as the segment of its watermark is
there and the file may be mapped; with other bytes behind the prefix, or without its end, the file
is invalid. -/
theorem mmap_snapshot_round_trip (c : MmapCodec) (hcodec : c.NeverEmpty) (dir : MmapDir)
    (index : InternedIndex) (watermark : WatermarkInfo) (counts : ReservedKindFallbackStats)
    (file : Bytes) (typed : SnapshotTyped index watermark counts)
    (hwrite : writeMmapIndex c index watermark counts = .ok file) :
    (dir.Maps watermark → ∃ snapshot, loadMmapSnapshot c dir (.ok (some file)) = .loaded snapshot ∧
      MmapReturns index watermark counts snapshot) ∧
    (∀ other, other.take mmapPrefixLen = file.take mmapPrefixLen → other ≠ file →
      (c.crc.hash (other.drop mmapPrefixLen) = c.crc.hash (file.drop mmapPrefixLen) →
        other.drop mmapPrefixLen = file.drop mmapPrefixLen) →
      (loadMmapSnapshot c dir (.ok (some other))).IsInvalid) ∧
    ∀ n < file.length, (loadMmapSnapshot c dir (.ok (some (file.take n)))).IsInvalid := by
  obtain ⟨s, rfl, hwritten⟩ := writeMmapIndex_ok hcodec hwrite
  refine ⟨loadMmapSnapshot_written hcodec hwritten typed, ?altered, ?cut⟩
  case altered =>
    intro other hsame hne hcrc
    have hother : other = mmapFile (c.crc.hash s.covered) (other.drop mmapPrefixLen) := by
      rw [mmapFile_eq, ← prefix_of_mmapFile _ s.covered]
      exact (List.take_append_drop mmapPrefixLen other).symm.trans (by rw [hsame]; rfl)
    have hdrop : (MmapSections.file s c.crc).drop mmapPrefixLen = s.covered := drop_mmapFile _ _
    rw [hdrop] at hcrc
    rw [hother]
    apply loadMmapSnapshot_isInvalid
    apply isInvalid_altered _ hcrc
    intro hcovered
    rw [hcovered] at hother
    exact hne hother
  case cut =>
    intro n hn
    exact loadMmapSnapshot_isInvalid (isInvalid_cut hwritten.measured hn)

/-! ### An index of two events -/

namespace Snapshot

def mmapCodec : MmapCodec :=
  ⟨reader, fun bytes => hashBytes (beValue bytes)⟩

def mmapDir : MmapDir :=
  ⟨dir, .ok (), .ok ()⟩

theorem neverEmpty_mmapCodec : mmapCodec.NeverEmpty := by
  intro v hwrite
  have hread := mmapCodec.codec.read_write _ _ hwrite
  cases hread

theorem snapshotTyped_index {causationId : Nat} (h : causationId < 256 ^ 16) :
    SnapshotTyped (index causationId) ⟨1, 60⟩ .none where
  ofIndex := typed_index h
  coordinates := by
    have hvalid : (Coordinate.mk "user:1" "chat").validate = .ok () := by decide +kernel
    rw [entries_index]
    intro e he
    rcases List.mem_cons.mp he with rfl | he
    · exact hvalid
    · cases List.mem_singleton.mp he
      exact hvalid
  segment := by decide
  offset := by decide
  ofCounts := fits_noFallbacks

theorem mmap_snapshot_round_trip_two_events :
    ∃ file snapshot, writeMmapIndex mmapCodec (index 5) ⟨1, 60⟩ .none = .ok file ∧
      loadMmapSnapshot mmapCodec mmapDir (.ok (some file)) = .loaded snapshot ∧
      MmapReturns (index 5) ⟨1, 60⟩ .none snapshot := by
  obtain ⟨file, hfile⟩ : ∃ file, writeMmapIndex mmapCodec (index 5) ⟨1, 60⟩ .none = .ok file :=
    isOk_iff.mp (by decide +kernel)
  obtain ⟨hload, -, -⟩ := mmap_snapshot_round_trip mmapCodec neverEmpty_mmapCodec mmapDir
    (index 5) ⟨1, 60⟩ .none file (snapshotTyped_index (by decide)) hfile
  obtain ⟨snapshot, hloaded, hreturns⟩ := hload ⟨rfl, rfl, rfl⟩
  exact ⟨file, snapshot, hfile, hloaded, hreturns⟩

/-- One event of a reserved kind that no version has named, caused by the id of zero. -/
def unknownKind : InternedIndex :=
  ((InternedIndex.empty.publish { event 5 0 (some 0) with kind := ⟨0x0ABC⟩ }).toOption).getD
    InternedIndex.empty

/-- The entries that a written snapshot loads. -/
def remappedEntries (ix : InternedIndex) : List InternedEntry :=
  match writeMmapIndex mmapCodec ix ⟨1, 60⟩ .none with
  | .error _ => []
  | .ok file =>
      match loadMmapSnapshot mmapCodec mmapDir (.ok (some file)) with
      | .loaded snapshot => snapshot.entries
      | _ => []

/-- The event comes back with the kind of data and without a cause. -/
theorem mmap_snapshot_replaces_unknown_kinds :
    (unknownKind.bySequence.map fun e => (e.entry.kind.raw, e.entry.causationId)) =
        [(0x0ABC, some 0)] ∧
      ((remappedEntries unknownKind).map fun e => (e.entry.kind.raw, e.entry.causationId)) =
        [(EventKind.data.raw, none)] := by
  decide +kernel

end Snapshot

end Batpak.Store
