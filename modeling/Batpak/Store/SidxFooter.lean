/-
Module: Batpak.Store.SidxFooter
Purpose: The index footer of a sealed segment byte by byte: the rows, the collector that interns
  strings, and the reader that trusts an authenticated footer only.
Trusted boundary: the checksum and the MessagePack codec are parameters
Main exports: Crc32, Sidx.SidxEntry
-/
import Batpak.Store.Routing
import Batpak.Util.MsgpackWrite
import Batpak.Util.Serde

namespace Batpak.Store

open Batpak.Util

/-! ### The checksum -/

/-- A checksum that is fed chunk by chunk. -/
structure Crc32 where
  State : Type
  init : State
  update : State → Bytes → State
  finalize : State → UInt32
  update_nil : ∀ s, update s [] = s
  update_append : ∀ s a b, update s (a ++ b) = update (update s a) b

namespace Crc32

def hash (crc : Crc32) (bytes : Bytes) : UInt32 :=
  crc.finalize (crc.update crc.init bytes)

def shiftBit (s : Nat) : Nat :=
  s / 2 ^^^ s % 2 * 0xEDB88320

def shiftByte (s : Nat) (b : UInt8) : Nat :=
  Nat.repeat shiftBit 8 (s ^^^ b.toNat)

/-- A fold that looks at every intermediate state, which keeps evaluation flat. -/
def shiftBytes : Nat → Bytes → Nat
  | s, [] => s
  | s, b :: rest =>
      if shiftByte s b = 0 then shiftBytes 0 rest else shiftBytes (shiftByte s b) rest

theorem shiftBytes_eq (s : Nat) (bytes : Bytes) : shiftBytes s bytes = bytes.foldl shiftByte s := by
  induction bytes generalizing s with
  | nil => rfl
  | cons b rest ih =>
      rw [shiftBytes, ih, ih, List.foldl_cons]
      split
      case isTrue hzero => rw [hzero]
      case isFalse => rfl

/-- The reflected polynomial of IEEE 802.3. -/
def ieee : Crc32 where
  State := Nat
  init := 0xFFFFFFFF
  update := shiftBytes
  finalize s := UInt32.ofNat (s ^^^ 0xFFFFFFFF)
  update_nil _ := rfl
  update_append s a b := by simp only [shiftBytes_eq, List.foldl_append]

-- the check value of the algorithm: the digits one to nine
example : ieee.hash [49, 50, 51, 52, 53, 54, 55, 56, 57] = 0xCBF43926 := by decide +kernel

end Crc32

/-- `read_exact` at an offset. -/
def readExactAt (file : Bytes) (pos len : Nat) : Except StoreError Bytes :=
  if pos + len ≤ file.length then .ok ((file.drop pos).take len)
  else .error (.io "failed to fill whole buffer")

/-- The hashing loop reads a chunk of at most 8192 bytes a round. -/
def hashRounds (crc : Crc32) (file : Bytes) :
    Nat → Nat → Nat → crc.State → Except StoreError crc.State
  | 0, _, _, hasher => .ok hasher
  | rounds + 1, pos, remaining, hasher =>
      if remaining = 0 then .ok hasher
      else do
        let chunk ← readExactAt file pos (min remaining 8192)
        hashRounds crc file rounds (pos + min remaining 8192) (remaining - min remaining 8192)
          (crc.update hasher chunk)

namespace Sidx

/-! ### Rows -/

/-- One event of a sealed segment, with positions of its entity and scope in the string
table. -/
structure SidxEntry where
  eventId : BitVec 128
  entityIdx : UInt32
  scopeIdx : UInt32
  kind : UInt16
  wallMs : UInt64
  clock : UInt32
  dagLane : UInt32
  dagDepth : UInt32
  prevHash : Vector UInt8 32
  eventHash : Vector UInt8 32
  frameOffset : UInt64
  frameLength : UInt32
  globalSequence : UInt64
  correlationId : BitVec 128
  causationId : BitVec 128
  deriving DecidableEq

def entrySize : Nat := 162

namespace SidxEntry

def encodeInto (e : SidxEntry) : Bytes :=
  putLe e.eventId ++ (putLe e.entityIdx ++ (putLe e.scopeIdx ++ (putLe e.kind ++
  (putLe e.wallMs ++ (putLe e.clock ++ (putLe e.dagLane ++ (putLe e.dagDepth ++
  (e.prevHash.toList ++ (e.eventHash.toList ++
  (putLe e.frameOffset ++ (putLe e.frameLength ++ (putLe e.globalSequence ++
  (putLe e.correlationId ++ putLe e.causationId)))))))))))))

def decodeFrom (segmentId : Nat) (buf : Bytes) : Except StoreError SidxEntry :=
  if buf.length ≠ entrySize then
    .error (.corruptSegment segmentId
      ("SIDX entry buffer is " ++ toString buf.length ++ " bytes, expected " ++ toString entrySize))
  else
    let (eventId, buf) := getLe (BitVec 128) buf
    let (entityIdx, buf) := getLe UInt32 buf
    let (scopeIdx, buf) := getLe UInt32 buf
    let (kind, buf) := getLe UInt16 buf
    let (wallMs, buf) := getLe UInt64 buf
    let (clock, buf) := getLe UInt32 buf
    let (dagLane, buf) := getLe UInt32 buf
    let (dagDepth, buf) := getLe UInt32 buf
    let (prevHash, buf) := getBytes 32 buf
    let (eventHash, buf) := getBytes 32 buf
    let (frameOffset, buf) := getLe UInt64 buf
    let (frameLength, buf) := getLe UInt32 buf
    let (globalSequence, buf) := getLe UInt64 buf
    let (correlationId, buf) := getLe (BitVec 128) buf
    let (causationId, _) := getLe (BitVec 128) buf
    .ok { eventId, entityIdx, scopeIdx, kind, wallMs, clock, dagLane, dagDepth, prevHash,
          eventHash, frameOffset, frameLength, globalSequence, correlationId, causationId }

@[simp] theorem length_encodeInto (e : SidxEntry) : e.encodeInto.length = entrySize := by
  simp [encodeInto, entrySize, FixedWidth.width]

theorem decodeFrom_encodeInto (segmentId : Nat) (e : SidxEntry) :
    decodeFrom segmentId e.encodeInto = .ok e := by
  rw [decodeFrom, if_neg (not_not_intro (length_encodeInto e))]
  simp [encodeInto]

end SidxEntry

/-! ### The collector -/

/-- Rows and strings collected while a segment is written, with the position of each string. -/
structure SidxEntryCollector where
  entries : List SidxEntry
  strings : List String
  stringMap : List (String × UInt32)
  deriving DecidableEq

namespace SidxEntryCollector

def new : SidxEntryCollector :=
  ⟨[], [], []⟩

def intern (c : SidxEntryCollector) (s : String) : Except StoreError UInt32 × SidxEntryCollector :=
  match c.stringMap.lookup s with
  | some idx => (.ok idx, c)
  | none =>
      if c.strings.length < 2 ^ 32 then
        let idx := UInt32.ofNat c.strings.length
        (.ok idx, { c with strings := c.strings ++ [s], stringMap := (s, idx) :: c.stringMap })
      else (.error .internerExhausted, c)

/-- The indexes of the row are overwritten, every other field is kept. -/
def record (c : SidxEntryCollector) (entry : SidxEntry) (entity scope : String) :
    Except StoreError Unit × SidxEntryCollector :=
  match c.intern entity with
  | (.error e, c) => (.error e, c)
  | (.ok entityIdx, c) =>
      match c.intern scope with
      | (.error e, c) => (.error e, c)
      | (.ok scopeIdx, c) =>
          (.ok (), { c with entries := c.entries ++ [{ entry with entityIdx, scopeIdx }] })

/-- The rows of a segment, recorded one after another. -/
def recordAll : SidxEntryCollector → List (SidxEntry × Coordinate) →
    Except StoreError SidxEntryCollector
  | c, [] => .ok c
  | c, (entry, coord) :: rest =>
      match c.record entry coord.entity coord.scope with
      | (.error e, _) => .error e
      | (.ok (), c) => c.recordAll rest

end SidxEntryCollector

/-! ### Writing the footer -/

def trailerSize : Nat := 16

def sidxCrcLen : Nat := 4

/-- `SDX3` -/
def sidxMagic : Bytes := [0x53, 0x44, 0x58, 0x33]

/-- `SDX2`, written before footers carried a checksum. -/
def sidxMagicLegacy : Bytes := [0x53, 0x44, 0x58, 0x32]

/-- `Vec<String>` -/
def stringTable : Serde (List String) :=
  .list .string

/-- The covered region of a footer: the string table and the rows. -/
def footerBody (table : Bytes) (entries : List SidxEntry) : Bytes :=
  table ++ entries.flatMap SidxEntry.encodeInto

def footerTrailer (stringTableOffset : UInt64) (entryCount : UInt32) : Bytes :=
  putLe stringTableOffset ++ (putLe entryCount ++ sidxMagic)

/-- Files end at the largest offset a seek can name. -/
def maxFileLen : Nat := 2 ^ 63 - 1

/-- The footer goes behind the bytes that are already in the file, in one write. -/
def SidxEntryCollector.writeFooter (codec : MsgpackCodec) (crc : Crc32) (segmentId : Nat)
    (c : SidxEntryCollector) (file : Bytes) : Except StoreError Bytes := do
  let table ← (codec.write (stringTable.ser c.strings)).mapError .serialization
  if 2 ^ 32 ≤ c.entries.length then
    .error (.segmentTooManyEntries segmentId c.entries.length)
  else
    let body := footerBody table c.entries
    let footer := body ++ (putLe (crc.hash body) ++
      footerTrailer (UInt64.ofNat file.length) (UInt32.ofNat c.entries.length))
    if maxFileLen < file.length + footer.length then .error (.io "File too large (os error 27)")
    else .ok (file ++ footer)

/-! ### Reading the footer -/

structure FooterLayout where
  stringTableOffset : Nat
  stringTableLen : Nat
  entryCount : Nat
  deriving Repr, DecidableEq

/-- A footer whose magic or checksum does not match reads as no footer. -/
def readLayout (crc : Crc32) (segmentId : Nat) (file : Bytes) :
    Except StoreError (Option FooterLayout) :=
  if file.length < trailerSize then .ok none
  else do
    let trailer ← readExactAt file (file.length - trailerSize) trailerSize
    if trailer.drop 12 ≠ sidxMagic then .ok none
    else
      let stringTableOffset := (getLe UInt64 trailer).1.toNat
      let entryCount := (getLe UInt32 (trailer.drop 8)).1.toNat
      let entriesBlockLen := entryCount * entrySize
      if 2 ^ 64 ≤ entriesBlockLen then
        .error (.corruptSegment segmentId "SIDX entry_count × ENTRY_SIZE overflows u64")
      else if file.length < trailerSize + sidxCrcLen + entriesBlockLen then
        .error (.corruptSegment segmentId
          "SIDX entry block extends before the beginning of the file")
      else
        let entriesStart := file.length - trailerSize - sidxCrcLen - entriesBlockLen
        if entriesStart < stringTableOffset then
          .error (.corruptSegment segmentId ("SIDX string_table_offset "
            ++ toString stringTableOffset ++ " is past entries_start " ++ toString entriesStart))
        else do
          let stringTableLen := entriesStart - stringTableOffset
          let coveredLen := stringTableLen + entriesBlockLen
          let hasher ← hashRounds crc file coveredLen stringTableOffset coveredLen crc.init
          let storedCrc ← readExactAt file (entriesStart + entriesBlockLen) 4
          if crc.finalize hasher ≠ (getLe UInt32 storedCrc).1 then .ok none
          else .ok (some { stringTableOffset, stringTableLen, entryCount })

/-- Only a footer that authenticates gives an offset; of the errors only those of the disk
come through. -/
def authenticatedStringTableOffset (crc : Crc32) (segmentId : Nat) (file : Bytes) :
    Except StoreError (Option Nat) :=
  match readLayout crc segmentId file with
  | .ok (some layout) => .ok (some layout.stringTableOffset)
  | .ok none => .ok none
  | .error (.io e) => .error (.io e)
  | .error _ => .ok none

/-- A position of a row lies inside the string table. -/
def checkIdx (segmentId i : Nat) (field : String) (idx : UInt32) (strings : List String) :
    Except StoreError Unit :=
  if idx.toNat < strings.length then .ok ()
  else .error (.corruptSegment segmentId ("SIDX entry " ++ toString i ++ ": " ++ field ++ " "
    ++ toString idx.toNat ++ " out of range (table has " ++ toString strings.length ++ " strings)"))

/-- The rows from `pos` on; `i` numbers them in the errors. -/
def readEntries (segmentId : Nat) (strings : List String) (file : Bytes) :
    Nat → Nat → Nat → Except StoreError (List SidxEntry)
  | 0, _, _ => .ok []
  | count + 1, i, pos => do
      let buf ← (readExactAt file pos entrySize).mapError fun _ =>
        .corruptSegment segmentId ("SIDX: entry " ++ toString i ++ " truncated at EOF")
      let entry ← SidxEntry.decodeFrom segmentId buf
      checkIdx segmentId i "entity_idx" entry.entityIdx strings
      checkIdx segmentId i "scope_idx" entry.scopeIdx strings
      let rest ← readEntries segmentId strings file count (i + 1) (pos + entrySize)
      return entry :: rest

/-- The segment id is the one in the file's name, and zero when the name has none. -/
def readFooter (codec : MsgpackCodec) (crc : Crc32) (segmentId : Nat) (file : Bytes) :
    Except StoreError (Option (List SidxEntry × List String)) := do
  match ← readLayout crc segmentId file with
  | none => return none
  | some layout =>
      let buf ← readExactAt file layout.stringTableOffset layout.stringTableLen
      let table ← (codec.read buf).mapError .serialization
      match stringTable.de table with
      | none => .error (.serialization "invalid type")
      | some strings =>
          let entries ← readEntries segmentId strings file layout.entryCount 0
            (layout.stringTableOffset + layout.stringTableLen)
          return some (entries, strings)

end Sidx

end Batpak.Store
