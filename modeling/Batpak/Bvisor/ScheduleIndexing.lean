/-
Module: Batpak.Bvisor.ScheduleIndexing
Purpose: The schedule check with every index expression written out: an access past the end of
  the declarations or of the position table has no value, as it panics in the source.
Trusted boundary: none
Main exports: Verified.buildIndexed, scheduleRefusalIndexed
-/
import Batpak.Bvisor.Schedule

namespace Batpak.Bvisor

open Batpak.Util

namespace Verified

/-- The loop over the slots, with `pos[p] = i` in range or a panic. -/
def placeIndexed : Nat → List ScheduleSlotInputs → BitVec 64 → List Nat →
    Option (Except ScheduleRefusal (BitVec 64 × List Nat))
  | _, [], present, pos => some (.ok (present, pos))
  | i, slot :: rest, present, pos =>
      let p := slotIndex slot
      if present &&& bit p ≠ 0 then some (.error .duplicatePrimitive)
      else if p < pos.length then placeIndexed (i + 1) rest (present ||| bit p) (pos.set p i)
      else none

def buildIndexed (inputs : ScheduleInputs) : Option (Except ScheduleRefusal Verified) :=
  let n := inputs.declarations.length
  if inputs.schedule.any fun slot => n ≤ slot.primitive.toNat then some (.error .indexOutOfRange)
  else
    (placeIndexed 0 inputs.schedule 0 (List.replicate n usizeMax)).map fun placed =>
      placed.map fun (present, pos) =>
        ⟨inputs.declarations, inputs.schedule, inputs.required, present, pos⟩

/-- `prereqs_before` -/
def prereqsBeforeIndexed (v : Verified) (prereqs : BitVec 64) (before : Nat) : Option Bool :=
  (setBits prereqs).allM fun r => (v.pos[r]?).map fun at' => decide (at' < before)

def declIntegrityIndexed (v : Verified) : Option Bool :=
  v.schedule.anyM fun slot => (v.decls[slotIndex slot]?).map fun decl =>
    slot.claimedDeclDigest ≠ decl.declDigest || slot.claimedParamDigest ≠ decl.paramDigest

def prereqClosureIndexed (v : Verified) : Option Bool :=
  v.schedule.anyM fun slot => (v.decls[slotIndex slot]?).map fun decl =>
    decide (decl.prerequisites &&& ~~~v.present ≠ 0)

def conflictFreedomIndexed (v : Verified) : Option Bool :=
  v.schedule.anyM fun slot => (v.decls[slotIndex slot]?).map fun decl =>
    decide (decl.conflicts &&& (v.present &&& ~~~bit (slotIndex slot)) ≠ 0)

def prereqOrderIndexed (v : Verified) : Option Bool :=
  v.schedule.zipIdx.anyM fun (slot, i) => do
    let decl ← v.decls[slotIndex slot]?
    let before ← v.prereqsBeforeIndexed (decl.prerequisites &&& v.present) i
    return !before

def phaseOrderIndexed (v : Verified) : Option Bool :=
  (v.schedule.zip v.schedule.tail).anyM fun (a, b) => do
    let first ← v.decls[slotIndex a]?
    let second ← v.decls[slotIndex b]?
    return decide (second.phase.toNat < first.phase.toNat)

def coverageIndexed (v : Verified) : Option Bool := do
  let covered ← v.schedule.foldlM (fun acc slot => (v.decls[slotIndex slot]?).map fun decl =>
    acc ||| decl.covers) (0 : BitVec 64)
  return decide (v.required &&& ~~~covered ≠ 0)

def passedOverIndexed (v : Verified) (chosen i : Nat) : Option Bool := do
  let chosenDecl ← v.decls[chosen]?
  (setBits v.present).anyM fun q => do
    let at' ← v.pos[q]?
    if at' ≤ i then return false
    else do
      let decl ← v.decls[q]?
      let ready ← v.prereqsBeforeIndexed (decl.prerequisites &&& v.present) i
      return decide (toLex (decl.phase.toNat, q) < toLex (chosenDecl.phase.toNat, chosen)) && ready

def canonicalityIndexed (v : Verified) : Option Bool :=
  v.schedule.zipIdx.anyM fun (slot, i) => v.passedOverIndexed (slotIndex slot) i

/-- One check; the later ones run when it passes. -/
def refuseIf (check : Option Bool) (reason : ScheduleRefusal)
    (later : Option (Option ScheduleRefusal)) : Option (Option ScheduleRefusal) := do
  if ← check then return some reason else later

/-- The checks in priority order. -/
def firstRefusalIndexed (v : Verified) : Option (Option ScheduleRefusal) :=
  refuseIf v.declIntegrityIndexed .declIntegrity <|
  refuseIf v.prereqClosureIndexed .missingPrerequisite <|
  refuseIf v.conflictFreedomIndexed .conflictCoPresent <|
  refuseIf v.prereqOrderIndexed .prereqOutOfOrder <|
  refuseIf v.phaseOrderIndexed .phaseOutOfOrder <|
  refuseIf v.coverageIndexed .requirementUncovered <|
  refuseIf v.canonicalityIndexed .nonCanonical <|
  some none

end Verified

def scheduleRefusalIndexed (inputs : ScheduleInputs) : Option (Option ScheduleRefusal) :=
  match Verified.buildIndexed inputs with
  | none => none
  | some (.error reason) => some (some reason)
  | some (.ok v) => v.firstRefusalIndexed

end Batpak.Bvisor
