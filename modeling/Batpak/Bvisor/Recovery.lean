/-
Module: Batpak.Bvisor.Recovery
Purpose: Startup reconciliation of one attempt: the view folded from its durable events, the
  independently probed reality, and the decision over the two.
Trusted boundary: the probe is data the host fills
Main exports: BoundaryEvent, RunView
-/
import Mathlib.Data.Finset.Basic

namespace Batpak.Bvisor

abbrev ArtifactId := BitVec 256

abbrev AttemptId := BitVec 256

abbrev BoundaryPlanHash := BitVec 256

/-! ### The durable events and their fold -/

inductive DispositionAction where
  | promote
  | retain
  | discard
  | refuse
  deriving Repr, Inhabited, DecidableEq

inductive DispositionPhase where
  | decided (action : DispositionAction)
  | applied
  | failed (reason : String)
  deriving Repr, Inhabited, DecidableEq

/-- The events of one attempt, as far as the fold reads them. -/
inductive BoundaryEvent where
  | started
  | report
  | recovery
  | disposition (artifact : ArtifactId) (phase : DispositionPhase)
  deriving Repr, Inhabited, DecidableEq

structure DispositionState where
  decided : Option DispositionAction := none
  applied : Bool := false
  failed : Bool := false
  deriving Repr, Inhabited, DecidableEq

structure RunView where
  attempt : AttemptId
  planId : BoundaryPlanHash
  started : Bool := false
  reported : Bool := false
  recoveryRecorded : Bool := false
  dispositions : Std.TreeMap ArtifactId DispositionState compare := ∅

def DispositionState.observe (state : DispositionState) : DispositionPhase → DispositionState
  | .decided action => { state with decided := some action }
  | .applied => { state with applied := true }
  | .failed _ => { state with failed := true }

namespace RunView

def new (attempt : AttemptId) (planId : BoundaryPlanHash) : RunView where
  attempt := attempt
  planId := planId

def observeDisposition (view : RunView) (artifact : ArtifactId) (phase : DispositionPhase) :
    RunView :=
  let state := view.dispositions.getD artifact {}
  { view with dispositions := view.dispositions.insert artifact (state.observe phase) }

def observe (view : RunView) : BoundaryEvent → RunView
  | .started => { view with started := true }
  | .report => { view with reported := true }
  | .recovery => { view with recoveryRecorded := true }
  | .disposition artifact phase => view.observeDisposition artifact phase

/-- The view of an attempt, folded in stream order. -/
def fold (attempt : AttemptId) (planId : BoundaryPlanHash) (events : List BoundaryEvent) :
    RunView :=
  events.foldl observe (new attempt planId)

end RunView

/-! ### The probed reality -/

structure QuarantineRecord where
  kind : String
  reference : String
  deriving Repr, Inhabited, DecidableEq

structure ArtifactReality where
  quarantinedBytesPresent : Bool := false
  promotedBytesPresent : Bool := false
  deriving Repr, Inhabited, DecidableEq

structure RecoveryProbe where
  orphans : List QuarantineRecord := []
  tornReport : Bool := false
  artifacts : Std.TreeMap ArtifactId ArtifactReality compare := ∅

namespace RecoveryProbe

def anyPromoted (probe : RecoveryProbe) : Bool :=
  probe.artifacts.toList.any fun entry => entry.2.promotedBytesPresent

/-- An artifact that was not probed has no bytes anywhere. -/
def forArtifact (probe : RecoveryProbe) (artifact : ArtifactId) : ArtifactReality :=
  probe.artifacts.getD artifact {}

end RecoveryProbe

/-! ### The decision -/

structure ArtifactFix where
  artifact : ArtifactId
  action : DispositionAction
  deriving Repr, Inhabited, DecidableEq

inductive RecoveryAction where
  | absent
  | completed
  | rollBack (orphans : List QuarantineRecord)
  | finishDisposition (artifacts : List ArtifactFix)
  | canonicalRefusal (reason : String)
  deriving Repr, Inhabited, DecidableEq

inductive DispositionOutcome where
  | settled
  | finish (action : DispositionAction)
  | refuse (reason : String)
  deriving Repr, Inhabited, DecidableEq

/-- One artifact's folded disposition against its bytes. -/
def reconcileDisposition (state : DispositionState) (reality : ArtifactReality) :
    DispositionOutcome :=
  match state.decided with
  | none =>
      if reality.promotedBytesPresent then
        .refuse "artifact promoted with no durable disposition decision"
      else .settled
  | some action =>
      -- a recorded failure settles the artifact before its bytes are looked at
      if state.failed then .settled
      else
        match action with
        | .promote =>
            if state.applied && reality.promotedBytesPresent then .settled
            else .finish .promote
        | .discard =>
            if reality.promotedBytesPresent then
              .refuse "artifact promoted but disposition decided Discard"
            else if state.applied then .settled
            else .finish .discard
        | .retain | .refuse =>
            if reality.promotedBytesPresent then
              .refuse "artifact promoted but disposition decided Retain/Refuse"
            else .settled

/-- The walk over the dispositions in artifact order, with the fixes found so far. -/
def reconcileDispositions (probe : RecoveryProbe) :
    List (ArtifactId × DispositionState) → List ArtifactFix → RecoveryAction
  | [], fixes => if fixes.isEmpty then .completed else .finishDisposition fixes
  | (artifact, state) :: rest, fixes =>
      match reconcileDisposition state (probe.forArtifact artifact) with
      | .settled => reconcileDispositions probe rest fixes
      | .finish action => reconcileDispositions probe rest (fixes ++ [⟨artifact, action⟩])
      | .refuse reason => .canonicalRefusal reason

def reconcile (view : RunView) (probe : RecoveryProbe) : RecoveryAction :=
  if !view.started then .absent
  else if probe.tornReport then .canonicalRefusal "torn report frame on disk"
  else if !view.reported then
    if probe.anyPromoted then
      .canonicalRefusal "promoted bytes with no sealed report (sacred window)"
    else .rollBack probe.orphans
  else reconcileDispositions probe view.dispositions.toList []

inductive RecoveryClassification where
  | completed
  | rolledBack
  | canonicalRefusal
  deriving Repr, Inhabited, DecidableEq

/-- The verdict to record once the action is applied. -/
def RecoveryAction.classification : RecoveryAction → Option RecoveryClassification
  | absent => none
  | completed => some .completed
  | finishDisposition _ => some .completed
  | rollBack _ => some .rolledBack
  | canonicalRefusal _ => some .canonicalRefusal

/-! ### Carrying the decision out -/

/-- What the host does for an action, one durable effect after the other. -/
inductive RecoveryEffect where
  | sweep (orphan : QuarantineRecord)
  | move (fix : ArtifactFix)
  | recordApplied (artifact : ArtifactId)
  | recordRecovery
  deriving Repr, Inhabited, DecidableEq

/-- An interrupted disposition is carried to its end before its phase is recorded, and the
verdict is recorded last. -/
def RecoveryAction.effects (action : RecoveryAction) : List RecoveryEffect :=
  let work : List RecoveryEffect := match action with
    | rollBack orphans => orphans.map .sweep
    | finishDisposition fixes => fixes.flatMap fun fix => [.move fix, .recordApplied fix.artifact]
    | absent => []
    | completed => []
    | canonicalRefusal _ => []
  if action.classification.isSome then work ++ [.recordRecovery] else work

/-- Promoted bytes have left the quarantine, and discarded ones are gone. -/
def ArtifactReality.moved (reality : ArtifactReality) : DispositionAction → ArtifactReality
  | .promote => ⟨false, true⟩
  | .discard => { reality with quarantinedBytesPresent := false }
  | .retain => reality
  | .refuse => reality

/-- The durable events and the host's reality, as both stand. -/
structure RecoveryWorld where
  view : RunView
  probe : RecoveryProbe

namespace RecoveryWorld

def step (w : RecoveryWorld) : RecoveryEffect → RecoveryWorld
  | .sweep orphan =>
      { w with probe := { w.probe with orphans := w.probe.orphans.filter (· ≠ orphan) } }
  | .move fix =>
      let reality := (w.probe.forArtifact fix.artifact).moved fix.action
      { w with probe := { w.probe with artifacts := w.probe.artifacts.insert fix.artifact reality } }
  | .recordApplied artifact => { w with view := w.view.observe (.disposition artifact .applied) }
  | .recordRecovery => { w with view := w.view.observe .recovery }

def decision (w : RecoveryWorld) : RecoveryAction :=
  reconcile w.view w.probe

/-- Reconcile and apply. -/
def recover (w : RecoveryWorld) : RecoveryWorld :=
  w.decision.effects.foldl step w

/-- The same, up to a crash after some of the effects. -/
def crashed (w : RecoveryWorld) (done : Nat) : RecoveryWorld :=
  (w.decision.effects.take done).foldl step w

end RecoveryWorld

end Batpak.Bvisor
