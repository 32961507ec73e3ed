/-
Module: Batpak.Proofs.BatchStaging
Purpose: What a batch and a single append stage for an item, in closed form over the chain heads
  and the items before it.
Trusted boundary: none
Main exports: stagedItems, precomputeBatchItems_eq
-/
import Batpak.Proofs.BatchEffects

namespace Batpak.Store

open Batpak.Util

variable {earlier : List BatchAppendItem} {item : BatchAppendItem}

/-! ### Lanes -/

/-- What the next event of a lane continues, given the lane's chain head. -/
def headView (head : Option IndexEntry) : BatchEntityState where
  prevHash := (head.map (·.hashChain.eventHash)).getD 0
  nextClock := (head.map (·.clock + 1)).getD 0
  lastWallMs := (head.map (·.wallMs)).getD 0

theorem checkedNextClock_headView (head : Option IndexEntry) (entity : String) :
    checkedNextClock (head.map (·.clock)) entity =
      if (headView head).nextClock ≤ u32Max then .ok (headView head).nextClock
      else .error (.entityClockOverflow entity) := by
  cases head with
  | none => simp [checkedNextClock, headView]
  | some e => rfl

def BatchAppendItem.onLane (item : BatchAppendItem) (entity : String) (lane : Nat) : Bool :=
  item.coord.entity == entity && item.dagLane == lane

/-- The lane state after one more item of the lane. -/
def laneAfter (rt : Runtime) (nowMs : Nat) (state : BatchEntityState) (item : BatchAppendItem) :
    BatchEntityState where
  prevHash := rt.computeHash item.payload
  nextClock := state.nextClock + 1
  lastWallMs := max nowMs state.lastWallMs

/-- What the next event of a lane continues, with the earlier items in. -/
def laneBefore (rt : Runtime) (nowMs : Nat) (ix : StoreIndex) (earlier : List BatchAppendItem)
    (entity : String) (lane : Nat) : BatchEntityState :=
  earlier.foldl (fun state item =>
    if item.onLane entity lane then laneAfter rt nowMs state item else state)
    (headView (ix.getLatestCommitted entity lane))

@[simp] theorem laneBefore_nil (rt : Runtime) (nowMs : Nat) (ix : StoreIndex) (entity : String)
    (lane : Nat) :
    laneBefore rt nowMs ix [] entity lane = headView (ix.getLatestCommitted entity lane) := rfl

theorem laneBefore_append (rt : Runtime) (nowMs : Nat) (ix : StoreIndex)
    (earlier : List BatchAppendItem) (item : BatchAppendItem) (entity : String) (lane : Nat) :
    laneBefore rt nowMs ix (earlier ++ [item]) entity lane =
      if item.onLane entity lane then
        laneAfter rt nowMs (laneBefore rt nowMs ix earlier entity lane) item
      else laneBefore rt nowMs ix earlier entity lane := by
  simp [laneBefore, List.foldl_append]

/-- The clock an item takes: the lane's next one, plus the earlier items of the lane. -/
def itemClock (ix : StoreIndex) (earlier : List BatchAppendItem) (item : BatchAppendItem) : Nat :=
  (headView (ix.getLatestCommitted item.coord.entity item.dagLane)).nextClock +
    earlier.countP (·.onLane item.coord.entity item.dagLane)

theorem laneBefore_nextClock (rt : Runtime) (nowMs : Nat) (ix : StoreIndex)
    (earlier : List BatchAppendItem) (item : BatchAppendItem) :
    (laneBefore rt nowMs ix earlier item.coord.entity item.dagLane).nextClock =
      itemClock ix earlier item := by
  induction earlier using List.reverseRecOn with
  | nil => simp [itemClock]
  | append_singleton earlier last ih =>
      rw [laneBefore_append]
      unfold itemClock at ih ⊢
      rw [List.countP_append, List.countP_singleton]
      by_cases hlane : last.onLane item.coord.entity item.dagLane = true
      · simp only [hlane, if_true, laneAfter, ih]
        omega
      · simp only [hlane, Bool.false_eq_true, if_false, ih]
        omega

/-! ### Causation -/

/-- The cause an item names. A reference to an item that does not come earlier names none. -/
def itemCausation (earlier : List BatchAppendItem) (item : BatchAppendItem) : Option Nat :=
  match item.causation with
  | .none => item.causationId
  | .absolute id => if id = 0 then none else some id
  | .priorItem prior => earlier[prior]?.map (·.eventId)

/-- The item refers to earlier items only. -/
def refersBack (earlier : List BatchAppendItem) (item : BatchAppendItem) : Bool :=
  match item.causation with
  | .priorItem prior => prior < earlier.length
  | _ => true

/-- Resolution depends on the ids of the earlier events only. -/
theorem resolveCausation_eq {staged : List StagedCommittedEvent}
    (hids : staged.map (·.frame.eventId) = earlier.map (·.eventId)) (item : BatchAppendItem) :
    (refersBack earlier item = true ∧
      resolveCausation item staged.length staged = .ok (itemCausation earlier item)) ∨
    (refersBack earlier item = false ∧
      ∃ e, resolveCausation item staged.length staged = .error e) := by
  have hlength : staged.length = earlier.length := by
    simpa using congrArg List.length hids
  unfold resolveCausation refersBack itemCausation
  cases item.causation with
  | none => exact Or.inl ⟨rfl, rfl⟩
  | absolute id => exact Or.inl ⟨rfl, rfl⟩
  | priorItem prior =>
      by_cases hprior : prior < earlier.length
      · have hnot : ¬staged.length ≤ prior := by omega
        have hid : staged[prior]?.map (·.frame.eventId) = earlier[prior]?.map (·.eventId) := by
          rw [← List.getElem?_map, ← List.getElem?_map, hids]
        exact Or.inl ⟨decide_eq_true hprior, by simp only [hnot, if_false, hid]⟩
      · have hle : staged.length ≤ prior := by omega
        exact Or.inr ⟨decide_eq_false hprior, _, by simp only [hle, if_true]; rfl⟩

/-! ### Conditions on every item of a batch -/

/-- The condition holds of every item with the items before it. -/
def AllSplits (P : List BatchAppendItem → BatchAppendItem → Prop)
    (earlier items : List BatchAppendItem) : Prop :=
  ∀ before item after, items = before ++ item :: after → P (earlier ++ before) item

theorem allSplits_nil (P : List BatchAppendItem → BatchAppendItem → Prop)
    (earlier : List BatchAppendItem) : AllSplits P earlier [] := by
  intro before item after h
  simp at h

theorem allSplits_cons {P : List BatchAppendItem → BatchAppendItem → Prop}
    {earlier rest : List BatchAppendItem} :
    AllSplits P earlier (item :: rest) ↔ P earlier item ∧ AllSplits P (earlier ++ [item]) rest := by
  constructor
  · intro h
    constructor
    · simpa using h [] item rest rfl
    · intro before next after heq
      have hnext := h (item :: before) next after (by rw [heq]; rfl)
      simpa using hnext
  · rintro ⟨hitem, hrest⟩ before next after heq
    cases before with
    | nil =>
        simp only [List.nil_append, List.cons.injEq] at heq
        rw [List.append_nil, ← heq.1]
        exact hitem
    | cons first before =>
        simp only [List.cons_append, List.cons.injEq] at heq
        have hnext := hrest before next after heq.2
        rw [← heq.1]
        simpa using hnext

/-! ### The batch -/

/-- What the batch stages for an item. -/
def stagedItem (rt : Runtime) (ctx : BatchContext) (ix : StoreIndex)
    (earlier : List BatchAppendItem) (item : BatchAppendItem) : StagedCommittedEvent :=
  stageItem rt ctx earlier.length item
    (laneBefore rt ctx.nowMs ix earlier item.coord.entity item.dagLane)
    (itemCausation earlier item)

/-- What the batch stages for the items behind the earlier ones. -/
def stagedItems (rt : Runtime) (ctx : BatchContext) (ix : StoreIndex)
    (earlier : List BatchAppendItem) : List BatchAppendItem → List StagedCommittedEvent
  | [] => []
  | item :: rest => stagedItem rt ctx ix earlier item :: stagedItems rt ctx ix (earlier ++ [item]) rest

theorem stagedItems_append (rt : Runtime) (ctx : BatchContext) (ix : StoreIndex)
    (earlier items : List BatchAppendItem) (last : BatchAppendItem) :
    stagedItems rt ctx ix earlier (items ++ [last]) =
      stagedItems rt ctx ix earlier items ++ [stagedItem rt ctx ix (earlier ++ items) last] := by
  induction items generalizing earlier with
  | nil => simp [stagedItems]
  | cons item rest ih => simp [stagedItems, ih]

theorem stagedItems_ids (rt : Runtime) (ctx : BatchContext) (ix : StoreIndex)
    (earlier items : List BatchAppendItem) :
    (stagedItems rt ctx ix earlier items).map (·.frame.eventId) = items.map (·.eventId) := by
  induction items generalizing earlier with
  | nil => rfl
  | cons item rest ih =>
      simp only [stagedItems, List.map_cons, ih]
      rfl

theorem stagedItems_length (rt : Runtime) (ctx : BatchContext) (ix : StoreIndex)
    (earlier items : List BatchAppendItem) :
    (stagedItems rt ctx ix earlier items).length = items.length := by
  simpa using congrArg List.length (stagedItems_ids rt ctx ix earlier items)

/-- The lane state a batch continues is the closed form. -/
theorem entityState_eq (rt : Runtime) (ctx : BatchContext) (ix : StoreIndex)
    (hclocks : AllSplits (fun before item => itemClock ix before item < u32Max) [] earlier)
    (item : BatchAppendItem) :
    entityState ix (batchStates (stagedItems rt ctx ix [] earlier)) item =
      if itemClock ix earlier item ≤ u32Max then
        .ok (laneBefore rt ctx.nowMs ix earlier item.coord.entity item.dagLane)
      else .error (.entityClockOverflow item.coord.entity) := by
  induction earlier using List.reverseRecOn with
  | nil =>
      have hclock : itemClock ix [] item =
          (headView (ix.getLatestCommitted item.coord.entity item.dagLane)).nextClock := by
        simp [itemClock]
      unfold entityState
      simp only [stagedItems, batchStates, List.reverse_nil, List.map_nil, List.lookup_nil, hclock,
        checkedNextClock_headView, laneBefore_nil]
      split
      · rfl
      · rfl
  | append_singleton earlier last ih =>
      have hsplit : AllSplits (fun before item => itemClock ix before item < u32Max) []
          earlier := by
        intro before next after heq
        exact hclocks before next (after ++ [last]) (by rw [heq]; simp)
      have hlast : itemClock ix earlier last < u32Max := by
        simpa using hclocks earlier last [] rfl
      rw [stagedItems_append, List.nil_append, batchStates_append]
      unfold entityState
      rw [List.lookup_cons]
      by_cases hlane : last.onLane item.coord.entity item.dagLane = true
      · -- the lane continues the last staged item
        have hkey : ((item.coord.entity, item.dagLane) ==
            ((stagedItem rt ctx ix earlier last).frame.coord.entity,
              (stagedItem rt ctx ix earlier last).frame.dagLane)) = true := by
          simp only [BatchAppendItem.onLane, Bool.and_eq_true, beq_iff_eq] at hlane
          simp only [stagedItem, stageItem, hlane, beq_self_eq_true]
        obtain ⟨hentity, hnumber⟩ : last.coord.entity = item.coord.entity ∧
            last.dagLane = item.dagLane := by
          simpa [BatchAppendItem.onLane] using hlane
        have hclock : itemClock ix (earlier ++ [last]) item = itemClock ix earlier last + 1 := by
          unfold itemClock
          rw [List.countP_append, List.countP_singleton, hlane, if_pos rfl, hentity, hnumber]
          omega
        have hle : itemClock ix (earlier ++ [last]) item ≤ u32Max := by omega
        rw [hkey, if_pos hle, laneBefore_append, if_pos hlane]
        simp only [stagedItem, stageItem, laneAfter]
        rw [hentity, hnumber]
      · have hkey : ((item.coord.entity, item.dagLane) ==
            ((stagedItem rt ctx ix earlier last).frame.coord.entity,
              (stagedItem rt ctx ix earlier last).frame.dagLane)) = false := by
          rw [beq_eq_false_iff_ne]
          intro heq
          apply hlane
          obtain ⟨hentity, hnumber⟩ := Prod.mk.inj heq
          simp only [BatchAppendItem.onLane, Bool.and_eq_true, beq_iff_eq]
          exact ⟨hentity.symm, hnumber.symm⟩
        have hclock : itemClock ix (earlier ++ [last]) item = itemClock ix earlier item := by
          unfold itemClock
          rw [List.countP_append, List.countP_singleton]
          simp only [hlane, Bool.false_eq_true, if_false, Nat.add_zero]
        rw [hkey, hclock, laneBefore_append, if_neg hlane]
        exact ih hsplit

/-- What makes the batch accept an item: its clock is not the last one, and it refers to
earlier items only. -/
def BatchAccepts (ix : StoreIndex) (earlier : List BatchAppendItem) (item : BatchAppendItem) :
    Prop :=
  itemClock ix earlier item < u32Max ∧ refersBack earlier item = true

section Precompute

variable (rt : Runtime) (ctx : BatchContext) {s : WriterCore}

/-- An accepted item is staged in closed form, on top of the earlier ones. -/
theorem precomputeBatchItems_accepts
    (hearlier : AllSplits (fun before item => itemClock s.index before item < u32Max) [] earlier)
    (haccepts : BatchAccepts s.index earlier item) (rest : List BatchAppendItem) :
    ∃ w, precomputeBatchItems rt ctx (item :: rest) (stagedItems rt ctx s.index [] earlier)
        (batchStates (stagedItems rt ctx s.index [] earlier)) s =
      precomputeBatchItems rt ctx rest (stagedItems rt ctx s.index [] (earlier ++ [item]))
        (batchStates (stagedItems rt ctx s.index [] (earlier ++ [item])))
        { s with watermark := w } := by
  obtain ⟨hlast, hback⟩ := haccepts
  have hstate := entityState_eq rt ctx s.index hearlier item
  rw [if_pos (Nat.le_of_lt hlast)] at hstate
  have hclock := laneBefore_nextClock rt ctx.nowMs s.index earlier item
  have hnext : checkedNextClock (some (laneBefore rt ctx.nowMs s.index earlier
      item.coord.entity item.dagLane).nextClock) item.coord.entity =
      .ok (itemClock s.index earlier item + 1) := by
    rw [hclock]
    exact if_pos hlast
  have hresolve : resolveCausation item (stagedItems rt ctx s.index [] earlier).length
      (stagedItems rt ctx s.index [] earlier) = .ok (itemCausation earlier item) := by
    rcases resolveCausation_eq (stagedItems_ids rt ctx s.index [] earlier) item with
      ⟨-, hresolve⟩ | ⟨hnot, -⟩
    · exact hresolve
    · rw [hback] at hnot
      cases hnot
  have hstaged : stageItem rt ctx (stagedItems rt ctx s.index [] earlier).length item
      (laneBefore rt ctx.nowMs s.index earlier item.coord.entity item.dagLane)
      (itemCausation earlier item) = stagedItem rt ctx s.index earlier item := by
    rw [stagedItems_length]
    rfl
  refine ⟨s.watermark.advanceAcceptedOnLane item.dagLane
    (stagedItem rt ctx s.index earlier item).point, ?_⟩
  have hget : (MonadState.get : WriterM WriterCore) s = .ok s s := rfl
  conv_lhs => unfold precomputeBatchItems
  rw [bind_of_ok hget, bind_of_ok (liftExcept_of_ok hstate s),
    bind_of_ok (liftExcept_of_ok (by rw [hresolve]) s), bind_of_ok (liftExcept_of_ok hnext s),
    hstaged, stagedItems_append, List.nil_append, batchStates_append]
  have hframe : (stagedItem rt ctx s.index earlier item).frame.clock =
      itemClock s.index earlier item := hclock
  rw [hframe]
  rfl

/-- An item that is not accepted ends the staging. -/
theorem precomputeBatchItems_rejects
    (hearlier : AllSplits (fun before item => itemClock s.index before item < u32Max) [] earlier)
    (hrejects : ¬BatchAccepts s.index earlier item) (rest : List BatchAppendItem) :
    ∃ e, precomputeBatchItems rt ctx (item :: rest) (stagedItems rt ctx s.index [] earlier)
        (batchStates (stagedItems rt ctx s.index [] earlier)) s = .error e s := by
  have hget : (MonadState.get : WriterM WriterCore) s = .ok s s := rfl
  unfold precomputeBatchItems
  rw [bind_of_ok hget]
  have hstate := entityState_eq rt ctx s.index hearlier item
  by_cases hbound : itemClock s.index earlier item ≤ u32Max
  swap
  · rw [if_neg hbound] at hstate
    exact ⟨_, bind_eq_error.mpr (Or.inl (liftExcept_of_error hstate s))⟩
  rw [if_pos hbound] at hstate
  rw [bind_of_ok (liftExcept_of_ok hstate s)]
  rcases resolveCausation_eq (stagedItems_ids rt ctx s.index [] earlier) item with
    ⟨hback, hresolve⟩ | ⟨-, e, hresolve⟩
  swap
  · exact ⟨_, bind_eq_error.mpr (Or.inl (liftExcept_of_error (by rw [hresolve]) s))⟩
  rw [bind_of_ok (liftExcept_of_ok (by rw [hresolve]) s)]
  have hlast : ¬itemClock s.index earlier item < u32Max := fun hlt => hrejects ⟨hlt, hback⟩
  have hnext : checkedNextClock (some (laneBefore rt ctx.nowMs s.index earlier
      item.coord.entity item.dagLane).nextClock) item.coord.entity =
      .error (.entityClockOverflow item.coord.entity) := by
    rw [laneBefore_nextClock]
    exact if_neg hlast
  exact ⟨_, bind_eq_error.mpr (Or.inl (liftExcept_of_error hnext s))⟩

end Precompute

theorem AllSplits.snoc {P : List BatchAppendItem → BatchAppendItem → Prop}
    {items : List BatchAppendItem} {last : BatchAppendItem} (h : AllSplits P [] items)
    (hlast : P items last) : AllSplits P [] (items ++ [last]) := by
  intro before item after heq
  rcases List.eq_nil_or_concat' after with rfl | ⟨after, final, rfl⟩
  · obtain ⟨rfl, hitem⟩ := List.append_inj' heq rfl
    cases hitem
    exact hlast
  · rw [← List.cons_append, ← List.append_assoc] at heq
    obtain ⟨hitems, -⟩ := List.append_inj' heq rfl
    exact h before item after hitems

/-- Staging either succeeds on every item, with the closed form, or fails; it touches the
watermarks only. -/
theorem precomputeBatchItems_eq (rt : Runtime) (ctx : BatchContext)
    (items : List BatchAppendItem) {s : WriterCore}
    (hearlier : AllSplits (fun before item => itemClock s.index before item < u32Max) [] earlier) :
    ∃ w, (AllSplits (BatchAccepts s.index) earlier items ∧
        precomputeBatchItems rt ctx items (stagedItems rt ctx s.index [] earlier)
          (batchStates (stagedItems rt ctx s.index [] earlier)) s =
          .ok (stagedItems rt ctx s.index [] (earlier ++ items)) { s with watermark := w }) ∨
      (¬AllSplits (BatchAccepts s.index) earlier items ∧
        ∃ e, precomputeBatchItems rt ctx items (stagedItems rt ctx s.index [] earlier)
          (batchStates (stagedItems rt ctx s.index [] earlier)) s =
          .error e { s with watermark := w }) := by
  induction items generalizing earlier s with
  | nil =>
      refine ⟨s.watermark, Or.inl ⟨allSplits_nil _ _, ?_⟩⟩
      rw [List.append_nil]
      rfl
  | cons item rest ih =>
      by_cases haccepts : BatchAccepts s.index earlier item
      · obtain ⟨w, hstep⟩ := precomputeBatchItems_accepts rt ctx hearlier haccepts rest
        obtain ⟨w', hrest⟩ := @ih (earlier ++ [item]) { s with watermark := w }
          (hearlier.snoc haccepts.1)
        have happend : earlier ++ item :: rest = (earlier ++ [item]) ++ rest := by simp
        refine ⟨w', ?_⟩
        rw [hstep, allSplits_cons, happend]
        rcases hrest with ⟨hall, hok⟩ | ⟨hnot, e, herror⟩
        · exact Or.inl ⟨⟨haccepts, hall⟩, hok⟩
        · exact Or.inr ⟨fun hall => hnot hall.2, e, herror⟩
      · obtain ⟨e, herror⟩ := precomputeBatchItems_rejects rt ctx hearlier haccepts rest
        exact ⟨s.watermark, Or.inr ⟨fun hall => haccepts (allSplits_cons.mp hall).1, e, herror⟩⟩

/-- The batch's own context. -/
def batchContext (nowUs : Int) (nowMs : Nat) (fenced : Bool) (s : WriterCore) : BatchContext :=
  ⟨nowUs, nowMs, s.index.globalSequence, s.segmentId, fenceIdentity s fenced⟩

/-- Every staged event is one of the items behind those before it. -/
theorem exists_stagedItem {rt : Runtime} {items : List BatchAppendItem} {ctx : BatchContext}
    {ix : StoreIndex} {earlier : List BatchAppendItem} :
    ∀ st ∈ stagedItems rt ctx ix earlier items,
      ∃ before item, st = stagedItem rt ctx ix before item := by
  induction items generalizing earlier with
  | nil =>
      intro st hst
      cases hst
  | cons item rest ih =>
      intro st hst
      rcases List.mem_cons.mp hst with rfl | hst
      · exact ⟨_, _, rfl⟩
      · exact ih st hst

theorem stagedItems_kind {rt : Runtime} {items : List BatchAppendItem} (ctx : BatchContext)
    (ix : StoreIndex) (earlier : List BatchAppendItem) :
    ∀ st ∈ stagedItems rt ctx ix earlier items, st.frame.kind.isBatchMarker = false := by
  intro st hst
  obtain ⟨before, item, rfl⟩ := exists_stagedItem st hst
  exact item.kind_appendable

/-- Staging reads the index through its chain heads only. -/
theorem stagedItems_index {rt : Runtime} {items : List BatchAppendItem} {ctx : BatchContext}
    {ix ix' : StoreIndex} (h : ix'.latest = ix.latest) (earlier : List BatchAppendItem) :
    stagedItems rt ctx ix' earlier items = stagedItems rt ctx ix earlier items := by
  have hlane : ∀ earlier entity lane, laneBefore rt ctx.nowMs ix' earlier entity lane =
      laneBefore rt ctx.nowMs ix earlier entity lane := by
    intro earlier entity lane
    unfold laneBefore StoreIndex.getLatestCommitted
    rw [h]
  induction items generalizing earlier with
  | nil => rfl
  | cons item rest ih => simp only [stagedItems, stagedItem, hlane, ih]

theorem batchAccepts_index {ix ix' : StoreIndex} (h : ix'.latest = ix.latest) :
    BatchAccepts ix' = BatchAccepts ix := by
  funext earlier item
  unfold BatchAccepts itemClock StoreIndex.getLatestCommitted
  rw [h]

/-! ### One item as a single append -/

/-- The single append of a batch item, with its cause resolved by the caller. -/
def BatchAppendItem.asRequest (item : BatchAppendItem) (nowUs : Int) (causation : Option Nat) :
    AppendRequest where
  coord := item.coord
  eventId := item.eventId
  kind := item.kind
  payload := item.payload
  timestampUs := nowUs
  correlationId := item.correlationId.getD item.eventId
  causationId := causation
  expectedSequence := item.expectedSequence
  idempotencyKey := item.idempotencyKey
  dagLane := item.dagLane
  dagDepth := item.dagDepth
  dagBranchRoot := item.dagBranchRoot
  flags := item.flags
  payloadVersion := 0
  extensions := item.extensions
  kind_appendable := item.kind_appendable
  keyed_id := by
    unfold BatchAppendItem.eventId
    cases item.idempotencyKey with
    | none => rfl
    | some key => simp

/-- What the single append of an item stages: the batch's event with the item's flags, and
without a zero cause in the frame. -/
def singleStaged (rt : Runtime) (ctx : BatchContext) (ix : StoreIndex)
    (earlier : List BatchAppendItem) (item : BatchAppendItem) : StagedCommittedEvent :=
  let st := stagedItem rt ctx ix earlier item
  { st with frame := { st.frame with
      flags := item.flags
      causationId := st.causationId.filter (· ≠ 0) } }

def singlesStaged (rt : Runtime) (ctx : BatchContext) (ix : StoreIndex)
    (earlier : List BatchAppendItem) : List BatchAppendItem → List StagedCommittedEvent
  | [] => []
  | item :: rest =>
      singleStaged rt ctx ix earlier item :: singlesStaged rt ctx ix (earlier ++ [item]) rest

/-- On a chain head that agrees with the closed form, the single append stages the closed
form or runs out of clocks. -/
theorem stageSingle_eq (rt : Runtime) (ctx : BatchContext) {ix : StoreIndex}
    {head : Option IndexEntry} (hwall : wallMsFromTimestampUs ctx.nowUs = .ok ctx.nowMs)
    (hhead : headView head = laneBefore rt ctx.nowMs ix earlier item.coord.entity item.dagLane) :
    stageAppend rt (item.asRequest ctx.nowUs (itemCausation earlier item)) head ctx.segmentId
        (ctx.firstSeq + earlier.length) ctx.fence =
      if itemClock ix earlier item ≤ u32Max then .ok (singleStaged rt ctx ix earlier item)
      else .error (.entityClockOverflow item.coord.entity) := by
  have hclock : checkedNextClock (head.map (·.clock)) item.coord.entity =
      if itemClock ix earlier item ≤ u32Max then .ok (itemClock ix earlier item)
      else .error (.entityClockOverflow item.coord.entity) := by
    rw [checkedNextClock_headView, hhead, laneBefore_nextClock]
  have hprev := congrArg BatchEntityState.prevHash hhead
  have hlast := congrArg BatchEntityState.lastWallMs hhead
  have hnext := laneBefore_nextClock rt ctx.nowMs ix earlier item
  simp only [headView] at hprev hlast
  unfold stageAppend
  simp only [BatchAppendItem.asRequest, hclock, hwall]
  by_cases hbound : itemClock ix earlier item ≤ u32Max
  · simp only [hbound, if_true, hprev, hlast]
    simp only [singleStaged, stagedItem, stageItem, hnext]
    rfl
  · simp only [hbound, if_false]
    rfl

end Batpak.Store
