/-
Module: Batpak.Store.Segment
Purpose: Segment files as the writer produces them: frames, the bytes a failed write leaves
  behind, the part covered by the last fsync, and the footer.
Trusted boundary: the platform file system (fault points decide which calls fail)
Main exports: Chunk, SidxEntry
-/
import Batpak.Store.Types

namespace Batpak.Store

/-- One SIDX footer row. The footer stores the global sequence the writer assigned. -/
structure SidxEntry where
  eventId : Nat
  coord : Coordinate
  kind : EventKind
  wallMs : Nat
  clock : Nat
  dagLane : Nat
  dagDepth : Nat
  hashChain : HashChain
  frameOffset : Nat
  frameLength : Nat
  globalSequence : Nat
  correlationId : Nat
  causationId : Option Nat
  provenance : Option Provenance
  deriving Repr, Inhabited, DecidableEq

/-- What one write call put into the file: a complete frame, or the leading bytes of
one whose write failed. -/
inductive Chunk where
  | frame (f : Frame) (length : Nat)
  | torn (length : Nat)
  deriving Repr, Inhabited, DecidableEq

/-- Bytes the chunk occupies in the file. -/
def Chunk.length : Chunk → Nat
  | .frame _ length => length
  | .torn length => length

/-- A segment file: its header, then the chunks one after another. `synced` counts the
leading chunks covered by the last successful fsync; `writtenBytes` is the writer's own
count, which a failed write does not move. -/
structure Segment where
  id : Nat
  headerBytes : Nat
  chunks : List Chunk
  synced : Nat
  writtenBytes : Nat
  footer : Option (List SidxEntry)
  deriving Repr, Inhabited, DecidableEq

namespace Segment

/-- A fresh segment holds only its (already synced) header. -/
def create (id headerBytes : Nat) : Segment where
  id := id
  headerBytes := headerBytes
  chunks := []
  synced := 0
  writtenBytes := headerBytes
  footer := none

/-- The complete frames of the file, in file order. -/
def frames (s : Segment) : List Frame :=
  s.chunks.filterMap fun
    | .frame f _ => some f
    | .torn _ => none

/-- The frames that lie entirely inside the fsynced bytes. -/
def syncedFrames (s : Segment) : List Frame :=
  (s.chunks.take s.synced).filterMap fun
    | .frame f _ => some f
    | .torn _ => none

/-- Append the bytes of a frame. A failing write stops after `torn` bytes and leaves
them in the file; the written-bytes counter moves only on success. -/
def writeFrame (s : Segment) (f : Frame) (length : Nat) (fails : Option Nat) :
    Except StoreError Nat × Segment :=
  match fails with
  | some torn => (.error (.io "write_all"), { s with chunks := s.chunks ++ [.torn torn] })
  | none =>
      (.ok s.writtenBytes,
        { s with
          chunks := s.chunks ++ [.frame f length]
          writtenBytes := s.writtenBytes + length })

def needsRotation (s : Segment) (maxBytes : Nat) : Bool :=
  maxBytes ≤ s.writtenBytes

/-- A successful fsync covers everything in the file. -/
def sync (s : Segment) : Segment :=
  { s with synced := s.chunks.length }

def writeSidxFooter (s : Segment) (entries : List SidxEntry) : Segment :=
  { s with footer := some entries }

@[simp] theorem sync_syncedFrames (s : Segment) : s.sync.syncedFrames = s.frames := by
  simp [syncedFrames, frames, sync]

theorem syncedFrames_subset_frames (s : Segment) : s.syncedFrames ⊆ s.frames :=
  fun _ hf => (((List.take_sublist _ _).filterMap _).mem hf)

/-- Whatever a write does, the frames already in the file stay in it. -/
theorem frames_subset_writeFrame (s : Segment) (f : Frame) (length : Nat) (fails : Option Nat) :
    s.frames ⊆ (s.writeFrame f length fails).2.frames := by
  intro g hg
  cases fails with
  | none => simp only [writeFrame, frames, List.filterMap_append]; exact List.mem_append_left _ hg
  | some n => simp only [writeFrame, frames, List.filterMap_append]; exact List.mem_append_left _ hg

/-- Whatever a write does, the fsynced frames stay fsynced. -/
theorem syncedFrames_subset_writeFrame (s : Segment) (f : Frame) (length : Nat)
    (fails : Option Nat) : s.syncedFrames ⊆ (s.writeFrame f length fails).2.syncedFrames := by
  intro g hg
  cases fails with
  | none =>
      simp only [writeFrame, syncedFrames, List.take_append, List.filterMap_append] at hg ⊢
      exact List.mem_append_left _ hg
  | some n =>
      simp only [writeFrame, syncedFrames, List.take_append, List.filterMap_append] at hg ⊢
      exact List.mem_append_left _ hg

theorem mem_frames_of_writeFrame_ok {s s' : Segment} {f : Frame} {length offset : Nat}
    {fails : Option Nat} (h : s.writeFrame f length fails = (.ok offset, s')) :
    f ∈ s'.frames := by
  cases fails with
  | some n => simp [writeFrame] at h
  | none =>
      simp only [writeFrame, Prod.mk.injEq] at h
      obtain ⟨-, rfl⟩ := h
      simp [frames]

end Segment

end Batpak.Store
