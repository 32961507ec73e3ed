/-
Module: Batpak.Store.Ancestry
Purpose: The two walks over hash-chain parents: the ancestor walk and the chain-walk evidence.
  Both look a parent up by the payload hash its child names.
Trusted boundary: the reader of frames; the canonical encoding and hash behind the digests
  of a report
Main exports: EventReader, readEntry
-/
import Batpak.Store.Projection
import Batpak.Store.Recovery

namespace Batpak.Store

/-- The frame at a disk position, or why it cannot be read. -/
abbrev EventReader := DiskPos → Except StoreError Frame

/-- `Reader::read_entry` over intact files. -/
def readEntry (segments : List Segment) : EventReader := fun pos =>
  match (segments.flatMap Segment.located).find? fun found => found.2 = pos with
  | some found => .ok found.1
  | none => .error (.corruptFrame pos.segmentId pos.offset "unreadable frame")

/-- `StoreIndex::stream`: what readers see of an entity, in clock-key order. -/
def StoreIndex.visibleStream (ix : StoreIndex) (entity : String) : List IndexEntry :=
  (ix.stream entity).filter fun e => ix.gate.isVisible e.globalSequence

/-! ### Ancestors -/

/-- Follow a cursor until the limit is reached, there is no next one, a read fails, or an
event comes up a second time. -/
def collectAncestors {γ : Type} (step : γ → Option (Frame × Option γ)) :
    Nat → List Nat → Option γ → List Frame
  | 0, _, _ => []
  | _ + 1, _, none => []
  | limit + 1, visited, some current =>
      match step current with
      | none => []
      | some (stored, next) =>
          if visited.contains stored.eventId then []
          else stored :: collectAncestors step limit (stored.eventId :: visited) next

def readEntryAndEvent (ix : StoreIndex) (read : EventReader) (eventId : Nat) :
    Option (IndexEntry × Frame) :=
  match ix.getById eventId with
  | none => none
  | some entry =>
      match read entry.diskPos with
      | .ok stored => some (entry, stored)
      | .error _ => none

/-- The first event of the stream with the given hash. -/
def parentEventIdByHash (entityStream : List IndexEntry) (parentHash : Digest) : Option Nat :=
  (entityStream.find? fun candidate => candidate.hashChain.eventHash == parentHash).map
    (·.eventId)

/-- One hop: the event itself and where its parent is found. The zero hash has no parent. -/
def ancestorStep (ix : StoreIndex) (read : EventReader) (entityStream : List IndexEntry)
    (currentId : Nat) : Option (Frame × Option Nat) :=
  (readEntryAndEvent ix read currentId).map fun found =>
    let prev := found.1.hashChain.prevHash
    (found.2, if prev = 0 then none else parentEventIdByHash entityStream prev)

/-- `walk_ancestors_by_hash`: the stream of the start event's entity is loaded once. -/
def walkAncestors (ix : StoreIndex) (read : EventReader) (eventId limit : Nat) : List Frame :=
  match ix.getById eventId with
  | none => []
  | some start =>
      collectAncestors (ancestorStep ix read (ix.visibleStream start.coord.entity)) limit []
        (some eventId)

/-! ### Chain-walk evidence -/

inductive ChainWalkStartRef where
  | eventId (id : Nat)
  | receipt (id : Nat) (contentHash : Digest)
  deriving Repr, Inhabited, DecidableEq

def ChainWalkStartRef.target : ChainWalkStartRef → Nat
  | .eventId id => id
  | .receipt id _ => id

def ChainWalkStartRef.expectedHash : ChainWalkStartRef → Option Digest
  | .eventId _ => none
  | .receipt _ contentHash => some contentHash

structure ChainWalkRequest where
  start : ChainWalkStartRef
  endEventId : Option Nat
  limit : Nat
  deriving Repr, Inhabited, DecidableEq

inductive ChainWalkFinding where
  | invalidLimit (limit : Nat)
  | missingStart (eventId : Nat)
  | missingChainEntry (eventId : Nat)
  | startHashMismatch (eventId : Nat) (expected observed : Digest)
  | entryHashMismatch (eventId : Nat) (expected observed : Digest)
  | missingParentLink (childEventId : Nat) (expectedParentHash : Digest)
  | parentHashAmbiguous (childEventId : Nat) (expectedParentHash : Digest)
      (selectedParentEventId matchingParentCount : Nat)
  | orderingRegression (childEventId parentEventId childSequence parentSequence : Nat)
  | cycleDetected (eventId : Nat)
  | stoppedEarlyReadFailure (eventId : Nat) (reason : StoreError)
  | truncatedByLimit (limit : Nat) (nextParentHash : Digest)
  | endNotReached (expectedEndEventId : Nat)
  deriving Repr, Inhabited, DecidableEq

/-- Rank of the variant and its fields, as the derived order compares them. A walk has at
most one read failure, so its reason decides nothing. -/
def ChainWalkFinding.key : ChainWalkFinding → List Nat
  | .invalidLimit limit => [0, limit]
  | .missingStart eventId => [1, eventId]
  | .missingChainEntry eventId => [2, eventId]
  | .startHashMismatch eventId expected observed => [3, eventId, expected, observed]
  | .entryHashMismatch eventId expected observed => [4, eventId, expected, observed]
  | .missingParentLink child parentHash => [5, child, parentHash]
  | .parentHashAmbiguous child parentHash selected count => [6, child, parentHash, selected, count]
  | .orderingRegression child parent childSequence parentSequence =>
      [7, child, parent, childSequence, parentSequence]
  | .cycleDetected eventId => [8, eventId]
  | .stoppedEarlyReadFailure eventId _ => [9, eventId]
  | .truncatedByLimit limit parentHash => [10, limit, parentHash]
  | .endNotReached eventId => [11, eventId]

def sortFindings (findings : List ChainWalkFinding) : List ChainWalkFinding :=
  findings.insertionSort fun a b => a.key ≤ b.key

structure ParentHashResolution where
  eventId : Nat
  matchingParentCount : Nat
  deriving Repr, Inhabited, DecidableEq

/-- Keep the candidate with the higher sequence. -/
def laterCandidate (selected : Option IndexEntry) (candidate : IndexEntry) : Option IndexEntry :=
  match selected with
  | none => some candidate
  | some current =>
      if current.globalSequence < candidate.globalSequence then some candidate else some current

/-- The nearest earlier event of the stream with the given hash, whatever its lane, and how
many there are. -/
def resolveParentEventIdByHash (entityStream : List IndexEntry) (parentHash : Digest)
    (childSequence : Nat) : Option ParentHashResolution :=
  let candidates := entityStream.filter fun candidate =>
    candidate.hashChain.eventHash == parentHash && candidate.globalSequence < childSequence
  (candidates.foldl laterCandidate none).map fun selected =>
    ⟨selected.eventId, candidates.length⟩

/-- What the loop of a walk carries from round to round. -/
structure ChainWalk where
  checked : List (Nat × Digest)
  visited : List Nat
  findings : List ChainWalkFinding
  cursor : Option Nat
  reachedEnd : Bool
  pendingParentHash : Option Digest
  deriving Repr, Inhabited, DecidableEq

namespace ChainWalk

def start (eventId : Nat) : ChainWalk :=
  ⟨[], [], [], some eventId, false, none⟩

def report (finding : ChainWalkFinding) (w : ChainWalk) : ChainWalk :=
  { w with findings := w.findings ++ [finding] }

/-- A receipt names the hash the first entry has to have. -/
def checkStart (request : ChainWalkRequest) (currentId : Nat) (eventHash : Digest)
    (w : ChainWalk) : ChainWalk :=
  match request.start.expectedHash with
  | some expected =>
      if w.checked.isEmpty && expected != eventHash then
        w.report (.startHashMismatch currentId expected eventHash)
      else w
  | none => w

/-- The hop to the parent of a checked entry. -/
def hop (ix : StoreIndex) (entityStream : List IndexEntry) (currentId : Nat) (entry : IndexEntry)
    (w : ChainWalk) : ChainWalk :=
  let parentHash := entry.hashChain.prevHash
  let w := { w with pendingParentHash := some parentHash }
  match resolveParentEventIdByHash entityStream parentHash entry.globalSequence with
  | none => w.report (.missingParentLink currentId parentHash)
  | some parent =>
      let w := if 1 < parent.matchingParentCount then
          w.report (.parentHashAmbiguous currentId parentHash parent.eventId
            parent.matchingParentCount)
        else w
      match ix.getById parent.eventId with
      | some parentEntry =>
          if entry.globalSequence ≤ parentEntry.globalSequence then
            w.report (.orderingRegression currentId parent.eventId entry.globalSequence
              parentEntry.globalSequence)
          else { w with cursor := some parent.eventId }
      | none => { w with cursor := some parent.eventId }

/-- One round, for the event the cursor was taken from. A round that does not set the cursor
again is the last one. -/
def round (rt : Runtime) (ix : StoreIndex) (read : EventReader) (entityStream : List IndexEntry)
    (request : ChainWalkRequest) (currentId : Nat) (w : ChainWalk) : ChainWalk :=
  let w := { w with cursor := none }
  if w.visited.contains currentId then w.report (.cycleDetected currentId)
  else
    let w := { w with visited := currentId :: w.visited }
    match ix.getById currentId with
    | none => w.report (.missingChainEntry currentId)
    | some entry =>
        match read entry.diskPos with
        | .error e => w.report (.stoppedEarlyReadFailure currentId e)
        | .ok stored =>
            let eventHash := entry.hashChain.eventHash
            let w := w.checkStart request currentId eventHash
            let computed := rt.computeHash stored.payload
            let checked := w.checked ++ [(currentId, eventHash)]
            if computed ≠ eventHash then
              { w.report (.entryHashMismatch currentId eventHash computed) with checked := checked }
            else
              let w := { w with checked := checked }
              if request.endEventId = some currentId then { w with reachedEnd := true }
              else if entry.hashChain.prevHash = 0 then w
              else w.hop ix entityStream currentId entry

/-- The loop. Every round but the last one checks one entry, so `limit` rounds are what the
bound on the checked entries allows. -/
def rounds (rt : Runtime) (ix : StoreIndex) (read : EventReader) (entityStream : List IndexEntry)
    (request : ChainWalkRequest) : Nat → ChainWalk → ChainWalk
  | 0, w => w
  | n + 1, w =>
      match w.cursor with
      | none => w
      | some currentId =>
          rounds rt ix read entityStream request n
            (w.round rt ix read entityStream request currentId)

/-- The findings with the one about the limit, which a walk without any other may have. -/
def truncation (request : ChainWalkRequest) (w : ChainWalk) : List ChainWalkFinding :=
  if w.findings.isEmpty && w.checked.length == request.limit then
    match w.pendingParentHash with
    | some nextParentHash => [.truncatedByLimit request.limit nextParentHash]
    | none => []
  else w.findings

/-- The findings of the finished walk. One without any may still have missed its end. -/
def conclude (request : ChainWalkRequest) (w : ChainWalk) : List ChainWalkFinding :=
  let findings := w.truncation request
  if findings.isEmpty && !w.reachedEnd then
    match request.endEventId with
    | some expected =>
        if w.checked.getLast?.map Prod.fst = some expected then [] else [.endNotReached expected]
    | none => []
  else findings

end ChainWalk

/-- The body of a report. The digest is taken over the checked events and their hashes. -/
structure ChainWalkReportBody where
  checkedCount : Nat
  firstRef : Option Nat
  lastRef : Option Nat
  walkDigest : Digest
  findings : List ChainWalkFinding
  deriving Repr, Inhabited, DecidableEq

def buildReport (walkDigest : List (Nat × Digest) → Except String Digest)
    (checked : List (Nat × Digest)) (findings : List ChainWalkFinding) :
    Except String ChainWalkReportBody := do
  let digest ← walkDigest checked
  return {
    checkedCount := checked.length
    firstRef := checked.head?.map Prod.fst
    lastRef := checked.getLast?.map Prod.fst
    walkDigest := digest
    findings := sortFindings findings }

def chainWalkEvidence (rt : Runtime) (walkDigest : List (Nat × Digest) → Except String Digest)
    (ix : StoreIndex) (read : EventReader) (request : ChainWalkRequest) :
    Except String ChainWalkReportBody :=
  if request.limit = 0 then buildReport walkDigest [] [.invalidLimit 0]
  else
    match ix.getById request.start.target with
    | none => buildReport walkDigest [] [.missingStart request.start.target]
    | some startEntry =>
        let w := ChainWalk.rounds rt ix read (ix.visibleStream startEntry.coord.entity) request
          request.limit (.start request.start.target)
        buildReport walkDigest w.checked (w.conclude request)

end Batpak.Store
