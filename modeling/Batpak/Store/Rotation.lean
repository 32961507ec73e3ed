/-
Module: Batpak.Store.Rotation
Purpose: Segment rotation together with the directory: the steps at which maybe_rotate_segment can
  fail, and what the next attempt makes of the file left behind.
Trusted boundary: the platform file system (a rotation fault says which call fails)
Main exports: RotationFault, RotatingWriter
-/
import Batpak.Store.WriterLoop

namespace Batpak.Store

open Batpak.Util

/-- The call of a rotation that fails: the exclusive creation of the new file; writing or
syncing the header of the file just created, or syncing its directory entry; the sync of the
old segment. -/
inductive RotationFault where
  | createNew
  | header
  | oldSync
  deriving Repr, DecidableEq

/-- The new file exists when the later calls fail. -/
def RotationFault.leavesFile : RotationFault → Bool
  | .createNew => false
  | .header => true
  | .oldSync => true

/-- The writer and its directory: `successor` says that there is a file with the id after the
active segment's. -/
structure RotatingWriter where
  core : WriterCore
  successor : Bool

namespace RotatingWriter

/-- The rotation calls as they come out for the writer: an existing file refuses the exclusive
creation whatever else happens. -/
def rotationFaults (w : RotatingWriter) (fault : Option RotationFault) (flt : Faults) : Faults :=
  { flt with
    rotateCreate := w.successor || fault == some .createNew || fault == some .header
    rotateSync := fault == some .oldSync }

/-- The directory after the writer went on to `core`. `attempted` says that it came to create
the next file. -/
def leave (w : RotatingWriter) (attempted : Bool) (fault : Option RotationFault)
    (core : WriterCore) : RotatingWriter where
  core := core
  successor :=
    if core.segmentId = w.core.segmentId then
      w.successor || (attempted && fault.any RotationFault.leavesFile)
    else false

end RotatingWriter

/-- No call of a rotation fails. -/
def Faults.rotationFree (flt : Faults) : Faults :=
  { flt with rotateCreate := false, rotateSync := false }

/-! ### Appends -/

inductive AppendAction where
  | single (req : AppendRequest) (fenced : Bool)
  | batch (nowUs : Int) (items : List BatchAppendItem) (fenced : Bool)

def AppendAction.perform (cfg : StoreConfig) (rt : Runtime) (flt : Faults) :
    AppendAction → WriterM (List AppendReceipt)
  | .single req fenced => do
      let receipt ← handleAppend cfg rt flt req fenced
      return [receipt]
  | .batch nowUs items fenced => handleAppendBatch cfg rt flt nowUs items fenced

namespace RotatingWriter

/-- The append comes to maybe_rotate_segment with a full segment: it rotates where nothing is
in the way. -/
def attempts (cfg : StoreConfig) (rt : Runtime) (flt : Faults) (w : RotatingWriter)
    (action : AppendAction) : Bool :=
  (finalState (action.perform cfg rt flt.rotationFree w.core)).segmentId != w.core.segmentId

def append (cfg : StoreConfig) (rt : Runtime) (flt : Faults) (fault : Option RotationFault)
    (action : AppendAction) (w : RotatingWriter) :
    Except StoreError (List AppendReceipt) × RotatingWriter :=
  let attempted := w.attempts cfg rt flt action
  match action.perform cfg rt (w.rotationFaults fault flt) w.core with
  | .ok receipts core => (.ok receipts, w.leave attempted fault core)
  | .error e core => (.error e, w.leave attempted fault core)

end RotatingWriter

/-! ### Commands -/

/-- A step of the writer with the fault of its rotation, if it comes to one. -/
structure RotatingStep where
  step : WriterStep
  fault : Option RotationFault

/-- The faults of the commands of a step, changed. -/
def WriterStep.mapFaults (f : Faults → Faults) : WriterStep → WriterStep
  | .command phase q => .command phase { q with faults := f q.faults }
  | .periodicSync fails => .periodicSync fails
  | .completeShutdown respond flt => .completeShutdown respond flt

def rotatingStep (cfg : StoreConfig) (rt : Runtime) (w : RotatingWriter) (m : RotatingStep) :
    RotatingWriter :=
  let free := writerStep cfg rt w.core (m.step.mapFaults Faults.rotationFree)
  w.leave (free.segmentId != w.core.segmentId) m.fault
    (writerStep cfg rt w.core (m.step.mapFaults (w.rotationFaults m.fault)))

end Batpak.Store
