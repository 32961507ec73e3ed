/-
Module: Batpak.Store.Visibility
Purpose: The gated publish boundary for reader visibility: sequence allocator,
  global and per-lane visible bounds, the active fence and the cancelled ranges.
Trusted boundary: none
Main exports: SequenceGate, isVisible
-/
import Batpak.Store.Types
import Batpak.Util.Ranges

namespace Batpak.Store

open Batpak.Util

/-- Cancelled ranges as the visibility side file keeps them. A lane without an entry
has no cancelled range. -/
structure CancelledVisibilityRanges where
  global : List Range
  lanes : Nat → List Range

/-- Gated publish boundary. `visible` is exclusive, `activeFence` is `0` when no fence
is active, and `activeFenceStart` is `none` until the fence has staged an entry. -/
structure SequenceGate where
  allocated : Nat
  visible : Nat
  laneVisible : Nat → Nat
  activeFence : Nat
  activeFenceStart : Option Nat
  activeFenceEnd : Nat
  nextFenceToken : Nat
  cancelledRanges : List Range
  laneCancelledRanges : Nat → List Range

namespace SequenceGate

def new : SequenceGate where
  allocated := 0
  visible := 0
  laneVisible := fun _ => 0
  activeFence := 0
  activeFenceStart := none
  activeFenceEnd := 0
  nextFenceToken := 1
  cancelledRanges := []
  laneCancelledRanges := fun _ => []

/-- A clear returns every counter, fence and range to its initial value. -/
def clear (_ : SequenceGate) : SequenceGate := new

def isVisible (g : SequenceGate) (sequence : Nat) : Bool :=
  sequence < g.visible && !rangeContains g.cancelledRanges sequence

def isVisibleOnLane (g : SequenceGate) (sequence lane : Nat) : Bool :=
  sequence < g.laneVisible lane && !rangeContains g.cancelledRanges sequence &&
    !rangeContains (g.laneCancelledRanges lane) sequence

/-- Reserve `n` sequences; the caller owns `[allocated, allocated + n)`. -/
def reserve (g : SequenceGate) (n : Nat) : SequenceGate :=
  { g with allocated := g.allocated + n }

def advance (g : SequenceGate) : SequenceGate :=
  g.reserve 1

def restoreAllocator (g : SequenceGate) (value : Nat) : SequenceGate :=
  { g with allocated := value }

def restoreLaneVisible (g : SequenceGate) (lanes : Nat → Nat) : SequenceGate :=
  { g with laneVisible := lanes }

def publish (g : SequenceGate) (upTo : Nat) (operation : String) :
    Except StoreError SequenceGate :=
  if g.allocated < upTo ∨ upTo < g.visible then
    .error (.sequenceGateViolation operation upTo g.allocated g.visible)
  else
    .ok { g with visible := upTo }

/-- First lane bound a publish must refuse: past the allocator or regressing. -/
def laneViolation (g : SequenceGate) : List (Nat × Nat) → Option (Nat × Nat)
  | [] => none
  | (lane, upTo) :: rest =>
      if g.allocated < upTo ∨ upTo < g.laneVisible lane then some (lane, upTo)
      else laneViolation g rest

/-- Install the given lane bounds, later pairs overriding earlier ones. -/
def installLanes (lanes : Nat → Nat) (points : List (Nat × Nat)) : Nat → Nat :=
  points.foldl (fun bound p => Function.update bound p.1 p.2) lanes

def publishOnLanes (g : SequenceGate) (globalUpTo : Nat) (lanes : List (Nat × Nat))
    (operation : String) : Except StoreError SequenceGate :=
  if g.allocated < globalUpTo ∨ globalUpTo < g.visible then
    .error (.sequenceGateViolation operation globalUpTo g.allocated g.visible)
  else
    match g.laneViolation lanes with
    | some (lane, upTo) =>
        .error (.sequenceGateViolation operation upTo g.allocated (g.laneVisible lane))
    | none => .ok { g with visible := globalUpTo, laneVisible := installLanes g.laneVisible lanes }

def activeFenceToken (g : SequenceGate) : Option Nat :=
  if g.activeFence = 0 then none else some g.activeFence

/-- The token counter moves even when the fence is refused. -/
def beginFence (g : SequenceGate) : Except StoreError Nat × SequenceGate :=
  let token := g.nextFenceToken
  let g := { g with nextFenceToken := token + 1 }
  if g.activeFence = 0 then
    (.ok token, { g with activeFence := token, activeFenceStart := none, activeFenceEnd := 0 })
  else
    (.error .visibilityFenceActive, g)

@[simp] theorem beginFence_allocated (g : SequenceGate) :
    g.beginFence.2.allocated = g.allocated := by
  unfold beginFence
  dsimp only
  split <;> rfl

/-- The hull of everything staged under the active fence, when it is not empty. -/
def activeFenceRange (g : SequenceGate) : Option Range :=
  if g.activeFence = 0 then none
  else
    match g.activeFenceStart with
    | some start => if start < g.activeFenceEnd then some (start, g.activeFenceEnd) else none
    | none => none

def noteFenceProgress (g : SequenceGate) (token start stop : Nat) :
    Except StoreError SequenceGate :=
  if g.activeFence = token then
    .ok { g with
      activeFenceStart := some (match g.activeFenceStart with
        | some current => min current start
        | none => start)
      activeFenceEnd := max g.activeFenceEnd stop }
  else
    .error .visibilityFenceNotActive

def closeFence (g : SequenceGate) : SequenceGate :=
  { g with activeFence := 0, activeFenceStart := none, activeFenceEnd := 0 }

def finishFenceOnLanes (g : SequenceGate) (token : Nat) (publishTo : Option Nat)
    (lanes : List (Nat × Nat)) : Except StoreError SequenceGate :=
  if g.activeFence = token then
    match publishTo with
    | some upTo =>
        match g.publishOnLanes upTo lanes "finish_visibility_fence" with
        | .ok g' => .ok g'.closeFence
        | .error e => .error e
    | none => .ok g.closeFence
  else
    .error .visibilityFenceNotActive

/-- Add the single-event ranges of the cancelled fence to their lanes. -/
def cancelOnLanes (laneRanges : Nat → List Range) (points : List (Nat × Range)) :
    Nat → List Range :=
  points.foldl
    (fun lanes p => Function.update lanes p.1 (insertRange (lanes p.1) p.2.1 p.2.2)) laneRanges

def cancelFence (g : SequenceGate) (token : Nat) (lanePoints : List (Nat × Range)) :
    Except StoreError SequenceGate :=
  if g.activeFence = token then
    .ok { g.closeFence with
      cancelledRanges :=
        match g.activeFenceStart with
        | some start =>
            if start < g.activeFenceEnd then insertRange g.cancelledRanges start g.activeFenceEnd
            else g.cancelledRanges
        | none => g.cancelledRanges
      laneCancelledRanges := cancelOnLanes g.laneCancelledRanges lanePoints }
  else
    .error .visibilityFenceNotActive

def cancelledRangesSnapshot (g : SequenceGate) : CancelledVisibilityRanges :=
  ⟨g.cancelledRanges, g.laneCancelledRanges⟩

/-- Rebuild a sorted, coalesced list by inserting the ranges one by one. -/
def rebuildRanges (ranges : List Range) : List Range :=
  ranges.foldl (fun built r => insertRange built r.1 r.2) []

def restoreCancelledRanges (g : SequenceGate) (ranges : CancelledVisibilityRanges) :
    SequenceGate :=
  { g with
    cancelledRanges := rebuildRanges ranges.global
    laneCancelledRanges := fun lane => rebuildRanges (ranges.lanes lane) }

/-! ### What the range operations denote -/

theorem rangeContains_foldl_insertRange (built ranges : List Range) (x : Nat) :
    rangeContains (ranges.foldl (fun acc r => insertRange acc r.1 r.2) built) x =
      (rangeContains built x || rangeContains ranges x) := by
  induction ranges generalizing built with
  | nil => simp
  | cons r rest ih =>
      rw [List.foldl_cons, ih, rangeContains_insertRange, rangeContains_cons, Bool.or_assoc]

@[simp] theorem rangeContains_rebuildRanges (ranges : List Range) (x : Nat) :
    rangeContains (rebuildRanges ranges) x = rangeContains ranges x := by
  rw [rebuildRanges, rangeContains_foldl_insertRange, rangeContains_nil, Bool.false_or]

theorem rangeContains_cancelOnLanes (lanes : Nat → List Range) (points : List (Nat × Range))
    (lane x : Nat) :
    rangeContains (cancelOnLanes lanes points lane) x =
      (rangeContains (lanes lane) x ||
        points.any fun p => p.1 == lane && (p.2.1 ≤ x && x < p.2.2)) := by
  induction points generalizing lanes with
  | nil => simp [cancelOnLanes]
  | cons p rest ih =>
      change rangeContains (cancelOnLanes
        (Function.update lanes p.1 (insertRange (lanes p.1) p.2.1 p.2.2)) rest lane) x = _
      rw [ih, List.any_cons]
      by_cases hlane : p.1 = lane
      · subst hlane
        simp [rangeContains_insertRange, Bool.or_assoc]
      · have hne : lane ≠ p.1 := fun h => hlane h.symm
        have hbeq : (p.1 == lane) = false := beq_eq_false_iff_ne.mpr hlane
        simp [Function.update_of_ne hne, hbeq]

/-! ### What the publishing operations install -/

theorem publishOnLanes_ok {g g' : SequenceGate} {upTo : Nat} {lanes : List (Nat × Nat)}
    {operation : String} (h : g.publishOnLanes upTo lanes operation = .ok g') :
    upTo ≤ g.allocated ∧ g.visible ≤ upTo ∧
      g' = { g with visible := upTo, laneVisible := installLanes g.laneVisible lanes } := by
  unfold publishOnLanes at h
  split at h
  · cases h
  · rename_i hbound
    split at h
    · cases h
    · cases h
      exact ⟨by omega, by omega, rfl⟩

theorem publishOnLanes_lane_ok {g g' : SequenceGate} {upTo : Nat} {lanes : List (Nat × Nat)}
    {operation : String} (h : g.publishOnLanes upTo lanes operation = .ok g') :
    ∀ p ∈ lanes, g.laneVisible p.1 ≤ p.2 ∧ p.2 ≤ g.allocated := by
  have hnone : g.laneViolation lanes = none := by
    unfold publishOnLanes at h
    split at h
    · cases h
    · split at h
      · cases h
      · assumption
  clear h
  induction lanes with
  | nil => simp
  | cons p rest ih =>
      unfold laneViolation at hnone
      split at hnone
      · cases hnone
      · rename_i hok
        intro q hq
        rcases List.mem_cons.mp hq with rfl | hq
        · omega
        · exact ih hnone q hq

theorem installLanes_of_not_mem (lanes : Nat → Nat) (points : List (Nat × Nat)) (lane : Nat)
    (h : ∀ p ∈ points, p.1 ≠ lane) : installLanes lanes points lane = lanes lane := by
  induction points generalizing lanes with
  | nil => rfl
  | cons p rest ih =>
      change installLanes (Function.update lanes p.1 p.2) rest lane = lanes lane
      rw [ih _ fun q hq => h q (List.mem_cons_of_mem _ hq)]
      exact Function.update_of_ne (fun he => h p List.mem_cons_self he.symm) _ _

/-- With one bound per lane, an installed lane shows exactly its bound. -/
theorem installLanes_of_mem (lanes : Nat → Nat) (points : List (Nat × Nat))
    (hnodup : (points.map Prod.fst).Nodup) {p : Nat × Nat} (hp : p ∈ points) :
    installLanes lanes points p.1 = p.2 := by
  induction points generalizing lanes with
  | nil => cases hp
  | cons q rest ih =>
      rw [List.map_cons, List.nodup_cons] at hnodup
      change installLanes (Function.update lanes q.1 q.2) rest p.1 = p.2
      rcases List.mem_cons.mp hp with rfl | hp
      · rw [installLanes_of_not_mem _ rest p.1]
        · exact Function.update_self ..
        · intro r hr he
          exact hnodup.1 (List.mem_map.mpr ⟨r, hr, he⟩)
      · exact ih _ hnodup.2 hp

end SequenceGate

end Batpak.Store
