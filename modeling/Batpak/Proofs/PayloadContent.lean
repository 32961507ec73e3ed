/-
Module: Batpak.Proofs.PayloadContent
Purpose: The payload field of a rewritten event never reads back as the payload bytes it
  had: the compactor stores the decoded value where every reader expects the bytes.
Trusted boundary: none
Main exports: compactedFrames_ok, rewrite_never_preserves_content
-/
import Batpak.Store.Payload
import Batpak.Store.WriterLoop

namespace Batpak.Store

open Batpak.Util

variable {strategy : RewriteStrategy}

/-! ### Byte vectors and values -/

namespace Json

theorem ofItems_length {items : List Msgpack} {values : List Json}
    (h : ofItems items = some values) : values.length = items.length := by
  induction items generalizing values with
  | nil =>
      simp only [ofItems, Option.some.injEq] at h
      rw [← h]
      rfl
  | cons item rest ih =>
      simp only [ofItems] at h
      obtain ⟨x, -, h⟩ := Option.bind_eq_some_iff.mp h
      obtain ⟨xs, hxs, h⟩ := Option.bind_eq_some_iff.mp h
      cases h
      simp only [List.length_cons, ih hxs]

theorem toItems_length (items : List Json) : (toItems items).length = items.length := by
  induction items with
  | nil => simp only [toItems, List.length_nil]
  | cons item rest ih => simp only [toItems, List.length_cons, ih]

/-- A value decodes to an array only from an array of as many items. -/
theorem ofMsgpack_array {doc : Msgpack} {values : List Json}
    (h : ofMsgpack doc = some (.array values)) :
    ∃ items, doc = .array items ∧ items.length = values.length := by
  cases doc with
  | array items =>
      simp only [ofMsgpack, Option.map_eq_some_iff, Json.array.injEq] at h
      obtain ⟨found, hfound, rfl⟩ := h
      exact ⟨items, rfl, (ofItems_length hfound).symm⟩
  | map entries => simp [ofMsgpack] at h
  | float32 bits =>
      simp only [ofMsgpack, ofFloat] at h
      split at h <;> cases h
  | float64 bits =>
      simp only [ofMsgpack, ofFloat] at h
      split at h <;> cases h
  | str bytes =>
      simp only [ofMsgpack] at h
      split at h <;> cases h
  | nil => simp [ofMsgpack] at h
  | bool b => simp [ofMsgpack] at h
  | int n => simp [ofMsgpack] at h
  | bin bytes => simp [ofMsgpack] at h
  | ext tag bytes => simp [ofMsgpack] at h

end Json

theorem mapM_option_length {α β : Type} {f : α → Option β} {xs : List α} {ys : List β}
    (h : xs.mapM f = some ys) : ys.length = xs.length := by
  induction xs generalizing ys with
  | nil =>
      cases h
      rfl
  | cons x rest ih =>
      rw [List.mapM_cons] at h
      obtain ⟨y, -, h⟩ := Option.bind_eq_some_iff.mp h
      obtain ⟨later, hlater, h⟩ := Option.bind_eq_some_iff.mp h
      cases h
      simp only [List.length_cons, ih hlater]

/-- A re-encoded value read as a byte vector has a byte for each item of an array. -/
theorem bytesOfMsgpack_toMsgpack {value : Json} {bytes : Bytes}
    (h : bytesOfMsgpack value.toMsgpack = some bytes) :
    ∃ items, value = .array items ∧ items.length = bytes.length := by
  cases value with
  | array items =>
      simp only [Json.toMsgpack, bytesOfMsgpack] at h
      have hlength := mapM_option_length h
      rw [Json.toItems_length] at hlength
      exact ⟨items, rfl, hlength.symm⟩
  | null => simp [Json.toMsgpack, bytesOfMsgpack] at h
  | bool b => simp [Json.toMsgpack, bytesOfMsgpack] at h
  | int n => simp [Json.toMsgpack, bytesOfMsgpack] at h
  | float bits => simp [Json.toMsgpack, bytesOfMsgpack] at h
  | string bytes => simp [Json.toMsgpack, bytesOfMsgpack] at h
  | object entries => simp [Json.toMsgpack, bytesOfMsgpack] at h

/-- The bytes a rewritten payload reads back as are fewer than the bytes it was decoded
from: an array takes a byte for its marker besides one for each item. -/
theorem rewritten_payload_shrinks {bytes found : Bytes} {value : Json}
    (hvalue : valueFromBytes bytes = some value)
    (hfound : bytesOfMsgpack value.toMsgpack = some found) : found.length < bytes.length := by
  obtain ⟨values, rfl, hvalues⟩ := bytesOfMsgpack_toMsgpack hfound
  obtain ⟨⟨doc, rest⟩, hread, hdoc⟩ := Option.bind_eq_some_iff.mp hvalue
  obtain ⟨items, rfl, hitems⟩ := Json.ofMsgpack_array hdoc
  rw [← hvalues, ← hitems]
  exact Msgpack.read_array_length hread

/-! ### Kept events -/

/-- What stands in the merged segment for a frame of a source, if it is a kept event. -/
def keptAs (strategy : RewriteStrategy) (f : StoredFrame) : Option StoredFrame :=
  match decodeFramePayloadValue f with
  | .error _ => none
  | .ok entry =>
      if entry.event.header.kind.isBatchMarker then none
      else (strategy.rewrite entry).map writeScannedEntry

theorem fullScanFrames_ok {segmentId : Nat} {frames : List StoredFrame}
    {entries : List (FramePayload Json)} (h : fullScanFrames segmentId frames = .ok entries) :
    (entries.filterMap strategy.rewrite).map writeScannedEntry =
      frames.filterMap (keptAs strategy) := by
  induction frames generalizing entries with
  | nil =>
      cases h
      rfl
  | cons f rest ih =>
      unfold fullScanFrames at h
      cases hf : decodeFramePayloadValue f with
      | error e =>
          rw [hf] at h
          cases h
      | ok payload =>
          rw [hf] at h
          obtain ⟨later, hlater, h⟩ := bindOk_iff.mp h
          cases h
          have hrest := ih hlater
          by_cases hmarker : payload.event.header.kind.isBatchMarker
          · have hkept : keptAs strategy f = none := by simp [keptAs, hf, hmarker]
            simp only [hmarker, if_true, List.filterMap_cons, hkept, hrest]
          · have hkept : keptAs strategy f = (strategy.rewrite payload).map writeScannedEntry := by
              simp [keptAs, hf, hmarker]
            simp only [hmarker, Bool.false_eq_true, if_false, List.filterMap_cons, hkept]
            cases strategy.rewrite payload with
            | none => simp only [Option.map_none, hrest]
            | some entry => simp only [Option.map_some, List.map_cons, hrest]

theorem fullScanSealed_ok {sealed : List (Nat × List StoredFrame)}
    {entries : List (FramePayload Json)} (h : fullScanSealed sealed = .ok entries) :
    (entries.filterMap strategy.rewrite).map writeScannedEntry =
      sealed.flatMap fun seg => seg.2.filterMap (keptAs strategy) := by
  induction sealed generalizing entries with
  | nil =>
      cases h
      rfl
  | cons seg rest ih =>
      obtain ⟨segmentId, frames⟩ := seg
      unfold fullScanSealed at h
      obtain ⟨found, hfound, h⟩ := bindOk_iff.mp h
      obtain ⟨later, hlater, h⟩ := bindOk_iff.mp h
      cases h
      simp only [List.filterMap_append, List.map_append, List.flatMap_cons,
        fullScanFrames_ok hfound, ih hlater]

/-- The merged segment holds the kept events of the sources, in order. -/
theorem compactedFrames_ok {sealed : List (Nat × List StoredFrame)} {merged : List StoredFrame}
    (h : compactedFrames strategy sealed = .ok merged) :
    merged = sealed.flatMap fun seg => seg.2.filterMap (keptAs strategy) := by
  obtain ⟨entries, hentries, h⟩ := bindOk_iff.mp h
  cases h
  exact fullScanSealed_ok hentries

/-! ### Content -/

/-- Header, hash chain, coordinate and extensions agree, apart from a tombstoned kind. -/
def SameMetadata {P : Type} (old new : FramePayload P) : Prop :=
  (new.event.header = old.event.header ∨
      new.event.header = { old.event.header with kind := .tombstone }) ∧
    new.event.hashChain = old.event.hashChain ∧
    new.coord = old.coord ∧
    new.receiptExtensions = old.receiptExtensions

/-- Both read paths return the same event from both frames, and the content hash still
matches the recorded one. -/
structure ContentPreserved (computeHash : Bytes → Digest) (before after : StoredFrame) : Prop where
  raw : ∃ old new, decodeFramePayloadRaw before = .ok old ∧ decodeFramePayloadRaw after = .ok new ∧
    new.event.payload = old.event.payload ∧ SameMetadata old new
  value : ∃ old new, decodeFramePayloadValue before = .ok old ∧
    decodeFramePayloadValue after = .ok new ∧
    new.event.payload = old.event.payload ∧ SameMetadata old new
  hash : ∀ new, decodeFramePayloadRaw after = .ok new → ∀ chain ∈ new.event.hashChain,
    computeHash new.event.payload = chain.eventHash

theorem rewrite_payload {entry kept : FramePayload Json} (h : strategy.rewrite entry = some kept) :
    kept.event.payload = entry.event.payload := by
  cases strategy with
  | retention predicate =>
      simp only [RewriteStrategy.rewrite] at h
      split at h
      · cases h
        rfl
      · cases h
  | tombstone predicate =>
      simp only [RewriteStrategy.rewrite, Option.some.injEq] at h
      rw [← h]
      split <;> rfl

/-- A kept event was read as a byte vector, and the value decoded from those bytes is what
its payload field holds afterwards. -/
theorem keptAs_cases {f f' : StoredFrame} (h : keptAs strategy f = some f') :
    ∃ old value, decodeFramePayloadRaw f = .ok old ∧
      valueFromBytes old.event.payload = some value ∧ f'.event.payload = value.toMsgpack := by
  unfold keptAs at h
  cases hentry : decodeFramePayloadValue f with
  | error e =>
      rw [hentry] at h
      cases h
  | ok entry =>
      rw [hentry] at h
      by_cases hmarker : entry.event.header.kind.isBatchMarker
      · simp [hmarker] at h
      · simp only [hmarker, Bool.false_eq_true, if_false, Option.map_eq_some_iff] at h
        obtain ⟨kept, hkept, rfl⟩ := h
        obtain ⟨old, hold, hentry⟩ := bindOk_iff.mp hentry
        obtain ⟨value, hvalue, hentry⟩ := bindOk_iff.mp hentry
        cases hentry
        simp only [decodePayloadValue, hmarker, Bool.false_eq_true, if_false] at hvalue
        cases hdecoded : valueFromBytes old.event.payload with
        | none =>
            rw [hdecoded] at hvalue
            cases hvalue
        | some decoded =>
            rw [hdecoded] at hvalue
            cases hvalue
            refine ⟨old, value, hold, hdecoded, ?_⟩
            exact congrArg Json.toMsgpack (rewrite_payload hkept)

theorem keptAs_not_preserved {computeHash : Bytes → Digest} {f f' : StoredFrame}
    (h : keptAs strategy f = some f') :
    ¬ ContentPreserved computeHash f f' := by
  intro hpreserved
  obtain ⟨old, value, hold, hvalue, hpayload⟩ := keptAs_cases h
  obtain ⟨old', new, hold', hnew, hsame, -⟩ := hpreserved.raw
  cases hold.symm.trans hold'
  unfold decodeFramePayloadRaw at hnew
  rw [hpayload] at hnew
  cases hfound : bytesOfMsgpack value.toMsgpack with
  | none =>
      rw [hfound] at hnew
      cases hnew
  | some found =>
      rw [hfound] at hnew
      cases hnew
      have hshrinks := rewritten_payload_shrinks hvalue hfound
      rw [show found = old.event.payload from hsame] at hshrinks
      exact Nat.lt_irrefl _ hshrinks

/-- Every event a retention or tombstone compaction keeps is in the merged segment, and
for none of them does reading it back give the content it had. -/
theorem rewrite_never_preserves_content (computeHash : Bytes → Digest)
    (strategy : RewriteStrategy) (sealed : List (Nat × List StoredFrame))
    (merged : List StoredFrame) (h : compactedFrames strategy sealed = .ok merged) :
    ∀ seg ∈ sealed, ∀ f ∈ seg.2, ∀ f', keptAs strategy f = some f' →
      f' ∈ merged ∧ ¬ ContentPreserved computeHash f f' := by
  intro seg hseg f hf f' hkept
  constructor
  · rw [compactedFrames_ok h]
    exact List.mem_flatMap.mpr ⟨seg, hseg, List.mem_filterMap.mpr ⟨f, hf, hkept⟩⟩
  · exact keptAs_not_preserved hkept

/-- What the claim of a content-preserving compaction says about one call. -/
def CompactionPreservesContent (computeHash : Bytes → Digest) (strategy : RewriteStrategy)
    (sealed : List (Nat × List StoredFrame)) : Prop :=
  ∀ merged, compactedFrames strategy sealed = .ok merged →
    ∀ seg ∈ sealed, ∀ f ∈ seg.2, ∀ f', keptAs strategy f = some f' →
      f' ∈ merged ∧ ContentPreserved computeHash f f'

/-- The frame of an event with the given payload. -/
def payloadFrame (payload : Bytes) : StoredFrame :=
  storedFrame {
    eventId := 1
    correlationId := 1
    causationId := none
    timestampUs := 0
    wallMs := 0
    clock := 0
    dagLane := 0
    dagDepth := 0
    payloadSize := payload.length
    kind := .data
    flags := 0
    payloadVersion := 0
    payload := payload
    hashChain := ⟨0, 0⟩
    coord := ⟨"a", "ledger"⟩
    receiptExtensions := []
    provenance := none }

/-- One sealed segment with one event, whose payload is the encoding of `{"i": 1}`. -/
def objectSegment : List (Nat × List StoredFrame) :=
  [(1, [payloadFrame [0x81, 0xa1, 0x69, 0x01]])]

def retainAll : RewriteStrategy :=
  .retention fun _ => true

theorem objectSegment_compacts :
    ∃ merged, compactedFrames retainAll objectSegment = .ok merged :=
  isOk_iff.mp (by decide +kernel)

theorem objectSegment_keeps :
    ∃ f', keptAs retainAll (payloadFrame [0x81, 0xa1, 0x69, 0x01]) = some f' := by
  apply Option.isSome_iff_exists.mp
  decide +kernel

/-- Keeping every event of a segment that holds an object loses its payload. -/
theorem retained_object_not_preserved :
    ¬ CompactionPreservesContent Runtime.unsigned.computeHash retainAll objectSegment := by
  intro hclaim
  obtain ⟨merged, hmerged⟩ := objectSegment_compacts
  obtain ⟨f', hkept⟩ := objectSegment_keeps
  have hcontent := hclaim merged hmerged _ List.mem_cons_self _ List.mem_cons_self f' hkept
  exact keptAs_not_preserved hkept hcontent.2

/-- The general statement at that segment. -/
theorem retained_object_kept_and_not_preserved :
    ∃ merged f', compactedFrames retainAll objectSegment = .ok merged ∧ f' ∈ merged ∧
      ¬ ContentPreserved Runtime.unsigned.computeHash
        (payloadFrame [0x81, 0xa1, 0x69, 0x01]) f' := by
  obtain ⟨merged, hmerged⟩ := objectSegment_compacts
  obtain ⟨f', hkept⟩ := objectSegment_keeps
  have hgeneral := rewrite_never_preserves_content Runtime.unsigned.computeHash retainAll
    objectSegment merged hmerged _ List.mem_cons_self _ List.mem_cons_self f' hkept
  exact ⟨merged, f', hmerged, hgeneral.1, hgeneral.2⟩

end Batpak.Store
