/-
Module: Batpak.Store.LoopMachine
Purpose: The writer loop one command at a time; commands arrive and fences are begun at any point.
Trusted boundary: as for the writer commands
Main exports: LoopMode, LoopMachine
-/
import Batpak.Store.WriterLoop
import Batpak.Util.Run

namespace Batpak.Store

open Batpak.Util

/-- The response channel of a command. -/
def WriterCommand.respond : WriterCommand → Nat
  | .beginVisibilityFence _ respond => respond
  | .append _ respond => respond
  | .fenceAppend _ _ respond => respond
  | .appendBatch _ _ respond => respond
  | .fenceAppendBatch _ _ _ respond => respond
  | .commitVisibilityFence _ respond => respond
  | .cancelVisibilityFence _ respond => respond
  | .sync respond => respond
  | .shutdown respond => respond

/-- Where the loop stands between two commands. A drain remembers the faults of the command
that began it: its last sync runs under them. -/
inductive LoopMode where
  | main
  | draining (drained : Nat) (flt : Faults)
  | shuttingDown (respond : Nat) (flt : Faults) (drained : Nat)
  | exited

/-- `taken` lists the response channels of the commands taken from the queue, newest
first. -/
structure LoopMachine where
  core : WriterCore
  queue : List QueuedCommand
  eventsSinceSync : Nat
  mode : LoopMode
  taken : List Nat

namespace LoopMachine

def start (core : WriterCore) : LoopMachine :=
  ⟨core, [], 0, .main, []⟩

/-- Back to the main loop, with the periodic sync that ends every command of it. -/
def resume (cfg : StoreConfig) (flt : Faults) (m : LoopMachine) : LoopMachine :=
  let st := periodicSync cfg flt ⟨m.core, m.queue, m.eventsSinceSync⟩
  { m with core := st.core, eventsSinceSync := st.eventsSinceSync, mode := .main }

/-- The main loop drives a command, up to the drain it may trigger. -/
def takeMain (cfg : StoreConfig) (rt : Runtime) (q : QueuedCommand) (m : LoopMachine) :
    LoopMachine :=
  let (result, core) := executeCommand cfg rt q.faults .main q.command m.core
  match result.shutdownDrainRespond with
  | some respond => { m with core := core, mode := .shuttingDown respond q.faults 0 }
  | none =>
      let events := m.eventsSinceSync + result.syncEventDelta
      let m := { m with
        core := settle q.faults result core
        eventsSinceSync := if result.mustSyncBeforeContinue then 0 else events }
      if result.exitWriter then { m with mode := .exited }
      else if result.enterGroupCommitDrain then { m with mode := .draining 0 q.faults }
      else m.resume cfg q.faults

/-- The group-commit drain takes a command. -/
def takeDraining (cfg : StoreConfig) (rt : Runtime) (drained : Nat) (flt : Faults)
    (q : QueuedCommand) (m : LoopMachine) : LoopMachine :=
  let (result, core, events) := stepCommand cfg rt .groupCommitDrain q m.core m.eventsSinceSync
  let m := { m with core := core, eventsSinceSync := events }
  if result.exitWriter then { m with mode := .exited }
  else if result.breakAfterReply then m.resume cfg flt
  else { m with mode := .draining (drained + result.syncEventDelta) flt }

/-- The shutdown drain takes a command. -/
def takeShuttingDown (cfg : StoreConfig) (rt : Runtime) (respond : Nat) (flt : Faults)
    (drained : Nat) (q : QueuedCommand) (m : LoopMachine) : LoopMachine :=
  { m with
    core := runCommand cfg rt q.faults .shutdownDrain q.command m.core
    mode := .shuttingDown respond flt (drained + 1) }

/-- Take the head of the queue. -/
def pop (q : QueuedCommand) (rest : List QueuedCommand) (m : LoopMachine) : LoopMachine :=
  { m with queue := rest, taken := q.command.respond :: m.taken }

/-- One move of the writer: a command taken in the current mode, or the end of a drain that
finds no command or has used up its budget. -/
def next (cfg : StoreConfig) (rt : Runtime) (m : LoopMachine) : LoopMachine :=
  match m.mode, m.queue with
  | .main, [] => m
  | .main, q :: rest => takeMain cfg rt q (m.pop q rest)
  | .draining _ flt, [] => m.resume cfg flt
  | .draining drained flt, q :: rest =>
      if drained < cfg.groupCommitDrainBudget then takeDraining cfg rt drained flt q (m.pop q rest)
      else m.resume cfg flt
  | .shuttingDown respond flt _, [] =>
      { m with core := completeShutdown respond flt m.core, mode := .exited }
  | .shuttingDown respond flt drained, q :: rest =>
      if drained < cfg.shutdownDrainLimit then
        takeShuttingDown cfg rt respond flt drained q (m.pop q rest)
      else { m with core := completeShutdown respond flt m.core, mode := .exited }
  | .exited, _ => m

end LoopMachine

/-- A command is queued, a caller begins a fence at the gate, or the writer moves. -/
inductive LoopStep where
  | enqueue (q : QueuedCommand)
  | beginFence
  | next

def loopStep (cfg : StoreConfig) (rt : Runtime) (m : LoopMachine) : LoopStep → LoopMachine
  | .enqueue q => { m with queue := m.queue ++ [q] }
  | .beginFence =>
      { m with core := { m.core with
          index := { m.core.index with gate := m.core.index.gate.beginFence.2 } } }
  | .next => m.next cfg rt

end Batpak.Store
