/-
Module: Batpak.Bvisor.Schedule
Purpose: The schedule membrane of the admission object: a supplied lowering order is checked
  against the trusted declarations, and the first failing check is the refusal.
Trusted boundary: none
Main exports: PrimitiveDeclInputs, ScheduleSlotInputs
-/
import Batpak.Util.Bits
import Mathlib.Data.Prod.Lex

namespace Batpak.Bvisor

open Batpak.Util

/-! ### Inputs -/

/-- Universe size the 64-bit sets support. -/
def maxPrimitives : Nat := 64

/-- A trusted declaration; its position is the index of the primitive. -/
structure PrimitiveDeclInputs where
  phase : BitVec 8
  covers : BitVec 64
  prerequisites : BitVec 64
  conflicts : BitVec 64
  declDigest : BitVec 64
  paramDigest : BitVec 64
  deriving Repr, Inhabited, DecidableEq

/-- A slot of the supplied schedule with the digests it claims. -/
structure ScheduleSlotInputs where
  primitive : BitVec 64
  claimedDeclDigest : BitVec 64
  claimedParamDigest : BitVec 64
  deriving Repr, Inhabited, DecidableEq

structure ScheduleInputs where
  declarations : List PrimitiveDeclInputs
  schedule : List ScheduleSlotInputs
  required : BitVec 64
  deriving Repr, Inhabited, DecidableEq

/-! ### Refusals -/

inductive ScheduleRefusal where
  | indexOutOfRange
  | duplicatePrimitive
  | declIntegrity
  | missingPrerequisite
  | conflictCoPresent
  | prereqOutOfOrder
  | phaseOutOfOrder
  | requirementUncovered
  | nonCanonical
  deriving Repr, Inhabited, DecidableEq

namespace ScheduleRefusal

def code : ScheduleRefusal → Nat
  | indexOutOfRange => 1
  | duplicatePrimitive => 2
  | declIntegrity => 3
  | missingPrerequisite => 4
  | conflictCoPresent => 5
  | prereqOutOfOrder => 6
  | phaseOutOfOrder => 7
  | requirementUncovered => 8
  | nonCanonical => 9

end ScheduleRefusal

/-! ### The verified view -/

/-- `1 << i`, zero past the word. -/
def bit (i : Nat) : BitVec 64 :=
  1#64 <<< i

def usizeMax : Nat := 2 ^ 64 - 1

def slotIndex (slot : ScheduleSlotInputs) : Nat :=
  slot.primitive.toNat

/-- A schedule that is in range and without repetition: the set of scheduled primitives and
the slot each of them is placed in, `usizeMax` for the others. -/
structure Verified where
  decls : List PrimitiveDeclInputs
  schedule : List ScheduleSlotInputs
  required : BitVec 64
  present : BitVec 64
  pos : List Nat

namespace Verified

/-- The loop over the slots from slot `i` on. -/
def place : Nat → List ScheduleSlotInputs → BitVec 64 → List Nat →
    Except ScheduleRefusal (BitVec 64 × List Nat)
  | _, [], present, pos => .ok (present, pos)
  | i, slot :: rest, present, pos =>
      let p := slotIndex slot
      if present &&& bit p ≠ 0 then .error .duplicatePrimitive
      else place (i + 1) rest (present ||| bit p) (pos.set p i)

def build (inputs : ScheduleInputs) : Except ScheduleRefusal Verified :=
  let n := inputs.declarations.length
  if inputs.schedule.any fun slot => n ≤ slot.primitive.toNat then .error .indexOutOfRange
  else
    (place 0 inputs.schedule 0 (List.replicate n usizeMax)).map fun (present, pos) =>
      ⟨inputs.declarations, inputs.schedule, inputs.required, present, pos⟩

/-- `self.decls[p]`; every index that is looked up is in range. -/
def decl (v : Verified) (p : Nat) : PrimitiveDeclInputs :=
  v.decls.getD p default

def posOf (v : Verified) (p : Nat) : Nat :=
  v.pos.getD p usizeMax

/-- Whether every member of a set of primitives is placed before the given slot. -/
def prereqsBefore (v : Verified) (prereqs : BitVec 64) (before : Nat) : Bool :=
  (setBits prereqs).all fun r => v.posOf r < before

/-- The canonical key. -/
def key (v : Verified) (p : Nat) : Nat ×ₗ Nat :=
  toLex ((v.decl p).phase.toNat, p)

/-! ### The checks -/

def declIntegrity (v : Verified) : Option ScheduleRefusal :=
  if v.schedule.any fun slot =>
      slot.claimedDeclDigest ≠ (v.decl (slotIndex slot)).declDigest ||
        slot.claimedParamDigest ≠ (v.decl (slotIndex slot)).paramDigest
  then some .declIntegrity else none

def prereqClosure (v : Verified) : Option ScheduleRefusal :=
  if v.schedule.any fun slot => (v.decl (slotIndex slot)).prerequisites &&& ~~~v.present ≠ 0
  then some .missingPrerequisite else none

def conflictFreedom (v : Verified) : Option ScheduleRefusal :=
  if v.schedule.any fun slot =>
      (v.decl (slotIndex slot)).conflicts &&& (v.present &&& ~~~bit (slotIndex slot)) ≠ 0
  then some .conflictCoPresent else none

def prereqOrder (v : Verified) : Option ScheduleRefusal :=
  if v.schedule.zipIdx.any fun (slot, i) =>
      !v.prereqsBefore ((v.decl (slotIndex slot)).prerequisites &&& v.present) i
  then some .prereqOutOfOrder else none

def phaseOrder (v : Verified) : Option ScheduleRefusal :=
  if (v.schedule.zip v.schedule.tail).any fun (a, b) =>
      (v.decl (slotIndex b)).phase.toNat < (v.decl (slotIndex a)).phase.toNat
  then some .phaseOutOfOrder else none

def covered (v : Verified) : BitVec 64 :=
  v.schedule.foldl (fun acc slot => acc ||| (v.decl (slotIndex slot)).covers) 0

def coverage (v : Verified) : Option ScheduleRefusal :=
  if v.required &&& ~~~v.covered ≠ 0 then some .requirementUncovered else none

/-- Some primitive that is not selected up to slot `i` has a smaller key than the one chosen
there and was ready. -/
def passedOverAReadySmaller (v : Verified) (chosen i : Nat) : Bool :=
  (setBits v.present).any fun q =>
    if v.posOf q ≤ i then false
    else
      v.key q < v.key chosen &&
        v.prereqsBefore ((v.decl q).prerequisites &&& v.present) i

def canonicality (v : Verified) : Option ScheduleRefusal :=
  if v.schedule.zipIdx.any fun (slot, i) => v.passedOverAReadySmaller (slotIndex slot) i
  then some .nonCanonical else none

end Verified

/-- The first failing check in priority order. -/
def scheduleRefusal (inputs : ScheduleInputs) : Option ScheduleRefusal :=
  match Verified.build inputs with
  | .error reason => some reason
  | .ok v =>
      v.declIntegrity.or <| v.prereqClosure.or <| v.conflictFreedom.or <| v.prereqOrder.or <|
        v.phaseOrder.or <| v.coverage.or v.canonicality

end Batpak.Bvisor
