/-
Module: Batpak.Store.IndexSnapshot
Purpose: What the two index snapshots share: the string interner, the entries with interned ids,
  and the serialized forms of the summary and the counters.
Trusted boundary: the data directory is given by the lengths of its segment files
Main exports: FileLoad, ColdStartDir
-/
import Batpak.Store.ColdStartRow
import Batpak.Store.FrameSerde

namespace Batpak.Store

open Batpak.Util

/-! ### Files and the watermark -/

/-- A file of a newer format is refused; a missing or an invalid one is rebuilt from a scan. -/
inductive FileLoad (α : Type) where
  | missing
  | loaded (a : α)
  | invalid (reason : String)
  | futureVersion (found supported : Nat)
  deriving Repr, DecidableEq

def FileLoad.bind {α β : Type} : FileLoad α → (α → FileLoad β) → FileLoad β
  | .missing, _ => .missing
  | .loaded a, f => f a
  | .invalid reason, _ => .invalid reason
  | .futureVersion found supported, _ => .futureVersion found supported

structure WatermarkInfo where
  watermarkSegmentId : Nat
  watermarkOffset : Nat
  deriving Repr, DecidableEq

/-- The data directory a snapshot is loaded from, and how an error reads. -/
structure ColdStartDir where
  segmentLen : Nat → Option Nat
  segmentPath : Nat → String
  errorText : StoreError → String

inductive WatermarkValidationError where
  | missingSegment (path : String)
  | offsetPastTail (path : String) (fileLen watermarkOffset : Nat)
  deriving Repr, DecidableEq

def validateWatermarkSegment (dir : ColdStartDir) (segmentId offset : Nat) :
    Except WatermarkValidationError Unit :=
  match dir.segmentLen segmentId with
  | some len =>
      if offset ≤ len then .ok () else .error (.offsetPastTail (dir.segmentPath segmentId) len offset)
  | none => .error (.missingSegment (dir.segmentPath segmentId))

/-! ### The interner -/

theorem getElem?_of_isPrefix {α : Type} {l more : List α} {i : Nat} {a : α} (hmore : l <+: more)
    (h : l[i]? = some a) : more[i]? = some a := by
  obtain ⟨rest, rfl⟩ := hmore
  obtain ⟨hi, -⟩ := List.getElem?_eq_some_iff.mp h
  rw [List.getElem?_append_left hi, h]

/-- Strings and their ids; slot zero is the empty string. The newest entry of `forward` counts. -/
structure StringInterner where
  forward : List (String × Nat)
  reverse : List String
  nextId : Nat
  deriving Repr, DecidableEq

namespace StringInterner

def new : StringInterner :=
  ⟨[("", 0)], [""], 1⟩

/-- The string is stored before the id after it is found to be out of range. -/
def intern (t : StringInterner) (s : String) : Except StoreError Nat × StringInterner :=
  match t.forward.lookup s with
  | some id => (.ok id, t)
  | none =>
      let stored := { t with forward := (s, t.nextId) :: t.forward, reverse := t.reverse ++ [s] }
      if t.nextId + 1 < 2 ^ 32 then (.ok t.nextId, { stored with nextId := t.nextId + 1 })
      else (.error .internerExhausted, stored)

def get (t : StringInterner) (s : String) : Option Nat :=
  t.forward.lookup s

def resolve (t : StringInterner) (id : Nat) : Option String :=
  t.reverse[id]?

/-- Without the sentinel. -/
def toSnapshot (t : StringInterner) : List String :=
  t.reverse.drop 1

/-- The strings with the sentinel in front, as the snapshots store them. -/
def fullSnapshot (t : StringInterner) : List String :=
  "" :: t.toSnapshot

def replaceFromFullSnapshot (strings : List String) : Except StoreError StringInterner :=
  let kept := strings.drop 1
  if 2 ^ 32 ≤ kept.length + 1 then .error .internerExhausted
  else .ok {
    forward := ((kept.zipIdx 1).reverse) ++ [("", 0)]
    reverse := "" :: kept
    nextId := kept.length + 1 }

/-- Every known string sits in the slot of its id. -/
structure Sound (t : StringInterner) : Prop where
  next : t.nextId = t.reverse.length
  bound : t.nextId < 2 ^ 32
  sentinel : t.reverse.take 1 = [""]
  known : ∀ s id, t.forward.lookup s = some id → t.reverse[id]? = some s

theorem Sound.fullSnapshot {t : StringInterner} (h : t.Sound) : t.fullSnapshot = t.reverse := by
  rw [StringInterner.fullSnapshot, toSnapshot, ← List.singleton_append, ← h.sentinel,
    List.take_append_drop]

theorem sound_new : new.Sound := by
  constructor
  case next => rfl
  case bound => decide
  case sentinel => rfl
  case known =>
    intro s id h
    by_cases hs : s = ""
    · subst hs
      cases h
      rfl
    · simp [new, List.lookup, beq_false_of_ne hs] at h

/-- An id that is handed out names its string, and the slots before keep theirs. -/
theorem Sound.intern {t t' : StringInterner} {s : String} {id : Nat} (h : t.Sound)
    (hintern : t.intern s = (.ok id, t')) :
    t'.Sound ∧ t'.reverse[id]? = some s ∧ t.reverse <+: t'.reverse := by
  unfold StringInterner.intern at hintern
  cases hlookup : t.forward.lookup s with
  | some found =>
      rw [hlookup] at hintern
      cases hintern
      exact ⟨h, h.known s id hlookup, List.prefix_refl _⟩
  | none =>
      rw [hlookup] at hintern
      dsimp only at hintern
      by_cases hroom : t.nextId + 1 < 2 ^ 32
      · rw [if_pos hroom] at hintern
        cases hintern
        have hslot : (t.reverse ++ [s])[t.nextId]? = some s := by
          rw [h.next, List.getElem?_append_right (Nat.le_refl _), Nat.sub_self]
          rfl
        refine ⟨⟨?next, hroom, ?sentinel, ?known⟩, hslot, List.prefix_append _ _⟩
        case next => simp [h.next]
        case sentinel =>
          have hlen : 1 ≤ t.reverse.length := by
            have htake := congrArg List.length h.sentinel
            rw [List.length_take, List.length_singleton] at htake
            omega
          rw [List.take_append_of_le_length hlen, h.sentinel]
        case known =>
          intro s' id' hfound
          rw [List.lookup_cons] at hfound
          by_cases hs : s' = s
          · simp only [hs, beq_self_eq_true, Option.some.injEq] at hfound
            rw [← hfound, hs]
            exact hslot
          · simp only [beq_false_of_ne hs] at hfound
            exact getElem?_of_isPrefix (List.prefix_append _ _) (h.known s' id' hfound)
      · rw [if_neg hroom] at hintern
        cases hintern

end StringInterner

/-! ### Entries and the index -/

/-- An index entry with the interned ids of its entity and its scope. -/
structure InternedEntry where
  entry : IndexEntry
  entityId : Nat
  scopeId : Nat
  deriving Repr, DecidableEq

/-- The ids name the strings of the coordinate. -/
def InternedEntry.Resolves (strings : List String) (e : InternedEntry) : Prop :=
  strings[e.entityId]? = some e.entry.coord.entity ∧ strings[e.scopeId]? = some e.entry.coord.scope

theorem InternedEntry.Resolves.mono {strings more : List String} {e : InternedEntry}
    (h : e.Resolves strings) (hmore : strings <+: more) : e.Resolves more := by
  exact ⟨getElem?_of_isPrefix hmore h.1, getElem?_of_isPrefix hmore h.2⟩

/-- The part of the in-memory index that a snapshot holds. The entries are in no particular
order. -/
structure InternedIndex where
  interner : StringInterner
  entries : List InternedEntry
  globalSequence : Nat
  sound : interner.Sound
  resolves : ∀ e ∈ entries, e.Resolves interner.reverse

namespace InternedIndex

def empty : InternedIndex where
  interner := .new
  entries := []
  globalSequence := 0
  sound := StringInterner.sound_new
  resolves := by simp

/-- An entry is added with the ids its strings have or get. -/
def publish (ix : InternedIndex) (e : IndexEntry) : Except StoreError InternedIndex :=
  match hentity : ix.interner.intern e.coord.entity with
  | (.error err, _) => .error err
  | (.ok entityId, t) =>
      match hscope : t.intern e.coord.scope with
      | (.error err, _) => .error err
      | (.ok scopeId, t') =>
          have first := ix.sound.intern hentity
          have second := first.1.intern hscope
          .ok {
            interner := t'
            entries := ix.entries ++ [⟨e, entityId, scopeId⟩]
            globalSequence := max ix.globalSequence (e.globalSequence + 1)
            sound := second.1
            resolves := by
              intro e' he'
              rcases List.mem_append.mp he' with hold | hnew
              · exact (ix.resolves e' hold).mono (first.2.2.trans second.2.2)
              · cases List.mem_singleton.mp hnew
                exact ⟨getElem?_of_isPrefix second.2.2 first.2.1, second.2.1⟩ }

end InternedIndex

/-- Strings are looked up and the coordinate is checked again. A row has no extensions. -/
def ColdStartIndexRow.toIndexEntry (row : ColdStartIndexRow) (internerStrings : List String) :
    Except StoreError InternedEntry := do
  let coord ← row.resolveStrings internerStrings
  coord.validate.mapError fun e => .coordinate e.display
  return {
    entry := {
      eventId := row.eventId
      correlationId := row.correlationId
      causationId := row.causationId
      coord
      kind := row.kind
      wallMs := row.wallMs
      clock := row.clock
      dagLane := row.dagLane
      dagDepth := row.dagDepth
      hashChain := row.hashChain
      diskPos := row.diskPos
      globalSequence := row.globalSequence
      receiptExtensions := []
      provenance := none }
    entityId := row.entityId
    scopeId := row.scopeId }

/-- The values of an entry within their types. -/
structure InternedEntry.Typed (e : InternedEntry) : Prop where
  eventId : e.entry.eventId < 256 ^ 16
  correlationId : e.entry.correlationId < 256 ^ 16
  causationId : ∀ id ∈ e.entry.causationId, id < 256 ^ 16
  entityId : e.entityId < 2 ^ 32
  scopeId : e.scopeId < 2 ^ 32
  kind : e.entry.kind.raw < 2 ^ 16
  wallMs : e.entry.wallMs < 2 ^ 64
  clock : e.entry.clock < 2 ^ 32
  dagLane : e.entry.dagLane < 2 ^ 32
  dagDepth : e.entry.dagDepth < 2 ^ 32
  prevHash : e.entry.hashChain.prevHash < 256 ^ 32
  eventHash : e.entry.hashChain.eventHash < 256 ^ 32
  segmentId : e.entry.diskPos.segmentId < 2 ^ 64
  offset : e.entry.diskPos.offset < 2 ^ 64
  length : e.entry.diskPos.length < 2 ^ 32
  globalSequence : e.entry.globalSequence < 2 ^ 64
  receiptExtensions : extensionsSerde.Fits e.entry.receiptExtensions

/-! ### Serialized summaries and counters -/

def entityRunSerde : Serde EntityRun where
  ser r := structOf [
    ("entity", Serde.string.ser r.entity),
    ("start", (Serde.uint 64).ser r.start),
    ("len", (Serde.uint 64).ser r.len),
    ("first_sequence", (Serde.uint 64).ser r.firstSequence),
    ("last_sequence", (Serde.uint 64).ser r.lastSequence)]
  de m := do
    let fields ← structFields m
    let entity ← required .string "entity" fields
    let start ← required (.uint 64) "start" fields
    let len ← required (.uint 64) "len" fields
    let firstSequence ← required (.uint 64) "first_sequence" fields
    let lastSequence ← required (.uint 64) "last_sequence" fields
    return { entity, start, len, firstSequence, lastSequence }
  Fits r := r.start < 2 ^ 64 ∧ r.len < 2 ^ 64 ∧ r.firstSequence < 2 ^ 64 ∧ r.lastSequence < 2 ^ 64
  de_ser := by
    intro r ⟨hstart, hlen, hfirst, hlast⟩
    apply bind_of_eq_some (structFields_structOf (by simp))
    apply bind_of_eq_some (@required_ser _ _ r.entity "entity" _ (by simp [fieldNamed]) trivial)
    apply bind_of_eq_some (required_ser "start" (by simp [fieldNamed]) hstart)
    apply bind_of_eq_some (required_ser "len" (by simp [fieldNamed]) hlen)
    apply bind_of_eq_some (required_ser "first_sequence" (by simp [fieldNamed]) hfirst)
    apply bind_of_eq_some (required_ser "last_sequence" (by simp [fieldNamed]) hlast)
    rfl

def restoreChunkSerde : Serde RestoreChunkSummary where
  ser c := structOf [
    ("start", (Serde.uint 64).ser c.start),
    ("len", (Serde.uint 64).ser c.len),
    ("first_sequence", (Serde.uint 64).ser c.firstSequence),
    ("last_sequence", (Serde.uint 64).ser c.lastSequence)]
  de m := do
    let fields ← structFields m
    let start ← required (.uint 64) "start" fields
    let len ← required (.uint 64) "len" fields
    let firstSequence ← required (.uint 64) "first_sequence" fields
    let lastSequence ← required (.uint 64) "last_sequence" fields
    return { start, len, firstSequence, lastSequence }
  Fits c := c.start < 2 ^ 64 ∧ c.len < 2 ^ 64 ∧ c.firstSequence < 2 ^ 64 ∧ c.lastSequence < 2 ^ 64
  de_ser := by
    intro c ⟨hstart, hlen, hfirst, hlast⟩
    apply bind_of_eq_some (structFields_structOf (by simp))
    apply bind_of_eq_some (required_ser "start" (by simp [fieldNamed]) hstart)
    apply bind_of_eq_some (required_ser "len" (by simp [fieldNamed]) hlen)
    apply bind_of_eq_some (required_ser "first_sequence" (by simp [fieldNamed]) hfirst)
    apply bind_of_eq_some (required_ser "last_sequence" (by simp [fieldNamed]) hlast)
    rfl

def routingSerde : Serde RoutingSummary where
  ser r := structOf [
    ("entry_count", (Serde.uint 64).ser r.entryCount),
    ("chunk_count", (Serde.uint 64).ser r.chunkCount),
    ("chunks", (Serde.list restoreChunkSerde).ser r.chunks),
    ("entity_runs", (Serde.list entityRunSerde).ser r.entityRuns)]
  de m := do
    let fields ← structFields m
    let entryCount ← required (.uint 64) "entry_count" fields
    let chunkCount ← required (.uint 64) "chunk_count" fields
    let chunks ← required (.list restoreChunkSerde) "chunks" fields
    let entityRuns ← required (.list entityRunSerde) "entity_runs" fields
    return { entryCount, chunkCount, chunks, entityRuns }
  Fits r := r.entryCount < 2 ^ 64 ∧ r.chunkCount < 2 ^ 64 ∧
    (Serde.list restoreChunkSerde).Fits r.chunks ∧ (Serde.list entityRunSerde).Fits r.entityRuns
  de_ser := by
    intro r ⟨hentries, hcount, hchunks, hruns⟩
    apply bind_of_eq_some (structFields_structOf (by simp))
    apply bind_of_eq_some (required_ser "entry_count" (by simp [fieldNamed]) hentries)
    apply bind_of_eq_some (required_ser "chunk_count" (by simp [fieldNamed]) hcount)
    apply bind_of_eq_some (required_ser "chunks" (by simp [fieldNamed]) hchunks)
    apply bind_of_eq_some (required_ser "entity_runs" (by simp [fieldNamed]) hruns)
    rfl

/-- `BTreeMap<u16, usize>` -/
def histogramSerde : Serde (List (Nat × Nat)) :=
  .sortedMap (.uint 16) (.uint 64)

def fallbackStatsSerde : Serde ReservedKindFallbackStats where
  ser c := structOf [
    ("system", (Serde.uint 64).ser c.system),
    ("effect", (Serde.uint 64).ser c.effect),
    ("system_histogram", histogramSerde.ser c.systemHistogram),
    ("effect_histogram", histogramSerde.ser c.effectHistogram)]
  de m := do
    let fields ← structFields m
    let system ← required (.uint 64) "system" fields
    let effect ← required (.uint 64) "effect" fields
    let systemHistogram ← defaulted histogramSerde [] "system_histogram" fields
    let effectHistogram ← defaulted histogramSerde [] "effect_histogram" fields
    return { system, effect, systemHistogram, effectHistogram }
  Fits c := c.system < 2 ^ 64 ∧ c.effect < 2 ^ 64 ∧ histogramSerde.Fits c.systemHistogram ∧
    histogramSerde.Fits c.effectHistogram
  de_ser := by
    intro c ⟨hsystem, heffect, hsystems, heffects⟩
    apply bind_of_eq_some (structFields_structOf (by simp))
    apply bind_of_eq_some (required_ser "system" (by simp [fieldNamed]) hsystem)
    apply bind_of_eq_some (required_ser "effect" (by simp [fieldNamed]) heffect)
    apply bind_of_eq_some (defaulted_ser "system_histogram" (by simp [fieldNamed]) hsystems)
    apply bind_of_eq_some (defaulted_ser "effect_histogram" (by simp [fieldNamed]) heffects)
    rfl

end Batpak.Store
