/-
Module: Batpak.Proofs.CasUniqueness
Purpose: Compare-and-swap appends: an expected clock that has been passed cannot be met again,
  except on the empty stream.
Trusted boundary: none
Main exports: writerStep_clocksAdvance, cas_at_most_one_iff
-/
import Batpak.Proofs.BatchEffects

namespace Batpak.Store

open Batpak.Util

variable {lane e : Nat} {rt : Runtime} {req : AppendRequest} {cfg : StoreConfig} {s : WriterCore}

/-! ### Lane clocks -/

/-- Clock of the chain head of an entity lane. -/
def laneClock (heads : List IndexEntry) (entity : String) (lane : Nat) : Option Nat :=
  (heads.find? fun e => e.coord.entity == entity && e.dagLane == lane).map (·.clock)

/-- Every lane that has a chain head keeps one, with a clock at least as high. -/
def ClocksAdvance (heads heads' : List IndexEntry) : Prop :=
  ∀ entity lane c, laneClock heads entity lane = some c →
    ∃ c', c ≤ c' ∧ laneClock heads' entity lane = some c'

theorem ClocksAdvance.refl (heads : List IndexEntry) : ClocksAdvance heads heads :=
  fun _ _ c h => ⟨c, Nat.le_refl c, h⟩

theorem ClocksAdvance.trans {a b c : List IndexEntry} (h : ClocksAdvance a b)
    (h' : ClocksAdvance b c) : ClocksAdvance a c := by
  intro entity lane x hx
  obtain ⟨y, hxy, hy⟩ := h entity lane x hx
  obtain ⟨z, hyz, hz⟩ := h' entity lane y hy
  exact ⟨z, Nat.le_trans hxy hyz, hz⟩

theorem laneClock_cons (e : IndexEntry) (heads : List IndexEntry) (entity : String)
    (lane : Nat) :
    laneClock (e :: heads) entity lane =
      if e.coord.entity = entity ∧ e.dagLane = lane then some e.clock
      else laneClock heads entity lane := by
  unfold laneClock
  rw [List.find?_cons]
  by_cases h : e.coord.entity = entity ∧ e.dagLane = lane
  · simp [h]
  · rw [if_neg h]
    have hmiss : (e.coord.entity == entity && e.dagLane == lane) = false := by
      rw [Bool.and_eq_false_iff, beq_eq_false_iff_ne, beq_eq_false_iff_ne]
      by_contra hc
      rw [not_or, not_not, not_not] at hc
      exact h hc
    rw [hmiss]

/-- The next clock of a lane: zero on an empty lane, one more otherwise. -/
def NextClock (heads : List IndexEntry) (entity : String) (lane clock : Nat) : Prop :=
  (laneClock heads entity lane = none ∧ clock = 0) ∨
    ∃ c, laneClock heads entity lane = some c ∧ clock = c + 1

/-- Pushing an event with the next clock of its lane advances the clocks. -/
theorem clocksAdvance_cons {e : IndexEntry} {heads : List IndexEntry}
    (h : NextClock heads e.coord.entity e.dagLane e.clock) : ClocksAdvance heads (e :: heads) := by
  intro entity lane c hc
  rw [laneClock_cons]
  by_cases hlane : e.coord.entity = entity ∧ e.dagLane = lane
  · rw [if_pos hlane]
    obtain ⟨rfl, rfl⟩ := hlane
    rcases h with ⟨hnone, -⟩ | ⟨c', hsome, hclock⟩
    · rw [hnone] at hc
      cases hc
    · rw [hsome] at hc
      cases hc
      exact ⟨e.clock, by omega, rfl⟩
  · rw [if_neg hlane]
    exact ⟨c, Nat.le_refl c, hc⟩

theorem nextClock_of_checkedNextClock {heads : List IndexEntry} {entity : String} {clock : Nat}
    (h : checkedNextClock (laneClock heads entity lane) entity = .ok clock) :
    NextClock heads entity lane clock := by
  cases hc : laneClock heads entity lane with
  | none =>
      rw [hc] at h
      cases h
      exact .inl ⟨hc, rfl⟩
  | some c =>
      rw [hc] at h
      exact .inr ⟨c, hc, (checkedNextClock_some h).2⟩

/-! ### One append, one batch -/

theorem latest_clock (req : AppendRequest) (ix : StoreIndex) :
    (req.latest ix).map (·.clock) = laneClock ix.latest req.coord.entity req.dagLane :=
  rfl

/-- Entries of a written batch repeat the staged coordinates, lanes and clocks. -/
theorem laneClock_batchEntries (staged : List StagedCommittedEvent)
    (receipts : List AppendReceipt) (heads : List IndexEntry) (entity : String) (lane : Nat) :
    laneClock ((batchEntries staged receipts).reverse ++ heads) entity lane =
      laneClock (((staged.take receipts.length).map fun st => st.indexEntry default).reverse ++
        heads) entity lane := by
  -- positions play no role: compare the two lists head by head
  suffices ∀ (xs ys : List IndexEntry),
      xs.map (fun e => (e.coord.entity, e.dagLane, e.clock)) =
        ys.map (fun e => (e.coord.entity, e.dagLane, e.clock)) →
      laneClock (xs ++ heads) entity lane = laneClock (ys ++ heads) entity lane by
    apply this
    rw [List.map_reverse, List.map_reverse]
    congr 1
    unfold batchEntries
    induction staged generalizing receipts with
    | nil => simp
    | cons st rest ih =>
        cases receipts with
        | nil => simp
        | cons r rs => simpa [StagedCommittedEvent.indexEntry] using ih rs
  intro xs
  induction xs with
  | nil =>
      intro ys h
      rw [List.map_nil] at h
      rw [List.map_eq_nil_iff.mp h.symm]
  | cons x xs ih =>
      intro ys h
      cases ys with
      | nil => simp at h
      | cons y ys =>
          rw [List.map_cons, List.map_cons, List.cons.injEq, Prod.mk.injEq, Prod.mk.injEq] at h
          obtain ⟨⟨hentity, hlane, hclock⟩, htail⟩ := h
          rw [List.cons_append, List.cons_append, laneClock_cons, laneClock_cons, hentity, hlane,
            hclock, ih ys htail]

/-- The lane state an item continues is the chain head with the earlier items in. -/
theorem entityState_nextClock {ix : StoreIndex} {prev : List StagedCommittedEvent}
    {item : BatchAppendItem} {state : BatchEntityState}
    (h : entityState ix (batchStates prev) item = .ok state) :
    NextClock ((prev.map fun st => st.indexEntry default).reverse ++ ix.latest)
      item.coord.entity item.dagLane state.nextClock := by
  induction prev using List.reverseRecOn with
  | nil =>
      have hlookup : List.lookup (item.coord.entity, item.dagLane) (batchStates []) = none := rfl
      unfold entityState at h
      rw [hlookup] at h
      simp only at h
      cases hnext : checkedNextClock ((ix.getLatestCommitted item.coord.entity item.dagLane).map
          (·.clock)) item.coord.entity with
      | error e =>
          rw [hnext] at h
          cases h
      | ok next =>
          rw [hnext] at h
          cases h
          exact nextClock_of_checkedNextClock hnext
  | append_singleton prev st ih =>
      have hhead : ((prev ++ [st]).map fun st => st.indexEntry default).reverse ++ ix.latest =
          st.indexEntry default ::
            ((prev.map fun st => st.indexEntry default).reverse ++ ix.latest) := by
        simp
      rw [hhead]
      unfold entityState at h
      rw [batchStates_append, List.lookup_cons] at h
      by_cases hkey : (item.coord.entity, item.dagLane) =
          (st.frame.coord.entity, st.frame.dagLane)
      · rw [hkey, beq_self_eq_true] at h
        cases h
        rw [Prod.mk.injEq] at hkey
        refine .inr ⟨st.frame.clock, ?_, rfl⟩
        rw [laneClock_cons, if_pos ⟨hkey.1.symm, hkey.2.symm⟩]
        rfl
      · rw [beq_eq_false_iff_ne.mpr hkey] at h
        have hmiss : ¬((st.indexEntry default).coord.entity = item.coord.entity ∧
            (st.indexEntry default).dagLane = item.dagLane) := by
          rintro ⟨h1, h2⟩
          exact hkey (Prod.ext h1.symm h2.symm)
        have hsame : laneClock (st.indexEntry default ::
            ((prev.map fun st => st.indexEntry default).reverse ++ ix.latest))
              item.coord.entity item.dagLane =
            laneClock ((prev.map fun st => st.indexEntry default).reverse ++ ix.latest)
              item.coord.entity item.dagLane := by
          rw [laneClock_cons, if_neg hmiss]
        rcases ih h with ⟨hnone, hzero⟩ | ⟨c, hsome, hclock⟩
        · exact .inl ⟨hsame.trans hnone, hzero⟩
        · exact .inr ⟨c, hsame.trans hsome, hclock⟩

/-- Staging a batch advances the clocks item by item. -/
theorem stagedFrom_clocksAdvance {ctx : BatchContext} {ix : StoreIndex}
    {prev new : List StagedCommittedEvent} {items : List BatchAppendItem}
    (h : StagedFrom rt ctx ix prev items new) :
    ∀ n, ClocksAdvance ((prev.map fun st => st.indexEntry default).reverse ++ ix.latest)
      (((prev ++ new.take n).map fun st => st.indexEntry default).reverse ++ ix.latest) := by
  induction h with
  | nil prev =>
      intro n
      rw [List.take_nil, List.append_nil]
      exact ClocksAdvance.refl _
  | cons prev item rest state causation more lane bounded tail ih =>
      intro n
      cases n with
      | zero =>
          rw [List.take_zero, List.append_nil]
          exact ClocksAdvance.refl _
      | succ n =>
          have hpush := clocksAdvance_cons (e := (stageItem rt ctx prev.length item state
            causation).indexEntry default) (entityState_nextClock lane)
          have hrest := ih n
          rw [List.map_append, List.reverse_append] at hrest
          refine hpush.trans ?_
          simpa using hrest

theorem handleAppend_clocksAdvance (cfg : StoreConfig) (rt : Runtime) (flt : Faults)
    (req : AppendRequest) (fenced : Bool) (s : WriterCore) :
    ClocksAdvance s.index.latest
      (finalState (handleAppend cfg rt flt req fenced s)).index.latest := by
  have h := handleAppend_cases cfg rt flt req fenced s
  generalize handleAppend cfg rt flt req fenced s = r at h
  cases h with
  | failed e s' quiet =>
      rw [finalState_error, quiet.latest]
      exact ClocksAdvance.refl _
  | replayed key receipt keyed guarded known => exact ClocksAdvance.refl _
  | committed st pos s₀ s₁ quiet guarded fresh sameSegment prepared =>
      have hlatest : s₁.index.latest = s.index.latest := by
        rw [prepared.diskOnly.index, quiet.latest]
      obtain ⟨hclock, hcoord, hlane, -⟩ := stageAppend_ok prepared.staged
      rw [(publishAppend_publishOnly fenced st pos _).latest]
      change ClocksAdvance s.index.latest (st.indexEntry pos :: s₁.index.latest)
      rw [hlatest]
      apply clocksAdvance_cons
      change NextClock _ st.frame.coord.entity st.frame.dagLane st.frame.clock
      rw [hcoord, hlane]
      rw [latest_clock] at hclock
      exact nextClock_of_checkedNextClock hclock

theorem publishBatch_latest (fenced : Bool) (firstSeq count : Nat)
    (staged : List StagedCommittedEvent) (receipts : List AppendReceipt) (s : WriterCore) :
    PublishOnly s (finalState (publishBatch fenced firstSeq count staged receipts s)) := by
  have h := publishCommitted_publishOnly fenced firstSeq (firstSeq + count) (batchFrontier staged)
    (staged.map (·.notification)) s
  unfold publishBatch
  cases hp : publishCommitted fenced firstSeq (firstSeq + count) (batchFrontier staged)
      (staged.map (·.notification)) s with
  | ok u s' =>
      rw [hp] at h
      rw [bind_of_ok hp]
      exact h
  | error e s' =>
      rw [hp] at h
      rw [bind_eq_error.mpr (.inl hp)]
      exact h

theorem handleAppendBatch_clocksAdvance (cfg : StoreConfig) (rt : Runtime) (flt : Faults)
    (nowUs : Int) (items : List BatchAppendItem) (fenced : Bool) (s : WriterCore) :
    ClocksAdvance s.index.latest
      (finalState (handleAppendBatch cfg rt flt nowUs items fenced s)).index.latest := by
  have h := handleAppendBatch_cases cfg rt flt nowUs items fenced s
  generalize handleAppendBatch cfg rt flt nowUs items fenced s = r at h
  cases h with
  | failed e n s' quiet =>
      rw [finalState_error, quiet.latest]
      exact ClocksAdvance.refl _
  | replayed receipts known => exact ClocksAdvance.refl _
  | committed staged receipts s₀ s₁ nonempty fresh homogeneous quiet prepared =>
      obtain ⟨ctx, -, -, hstaged⟩ := prepared.stagedFrom
      rw [(publishBatch_latest fenced _ _ staged receipts _).latest]
      change ClocksAdvance s.index.latest (StoreIndex.insertBatch _ _).latest
      rw [StoreIndex.insertBatch_latest]
      have hadvance := stagedFrom_clocksAdvance hstaged receipts.length
      rw [quiet.latest] at hadvance
      intro entity lane c hc
      obtain ⟨c', hle, hc'⟩ := hadvance entity lane c hc
      refine ⟨c', hle, ?_⟩
      rw [laneClock_batchEntries]
      change laneClock (_ ++ s₁.index.latest) entity lane = some c'
      rw [prepared.diskOnly.index, quiet.latest]
      simpa using hc'

/-- No writer command takes a lane's clock back. -/
theorem runCommand_clocksAdvance (cfg : StoreConfig) (rt : Runtime) (flt : Faults)
    (phase : WriterLoopPhase) (cmd : WriterCommand) (s : WriterCore) :
    ClocksAdvance s.index.latest (runCommand cfg rt flt phase cmd s).index.latest := by
  have hsettle : ∀ result s', ClocksAdvance s.index.latest s'.index.latest →
      ClocksAdvance s.index.latest (settle flt result s').index.latest := by
    intro result s' h
    rw [(settle_sameEntries flt result s').latest]
    exact h
  have hrespond : ∀ {α : Type} (respond : Nat) (mk : Except StoreError α → Reply) (m : WriterM α),
      ClocksAdvance s.index.latest (finalState (m s)).index.latest →
      ClocksAdvance s.index.latest (respondWith respond mk m s).index.latest := by
    intro α respond mk m h
    rw [respondWith_index]
    exact h
  have hfence : ∀ {α : Type} (token respond : Nat) (mk : Except StoreError α → Reply)
      (pending : α → PendingFenceResponse) (m : WriterM α),
      ClocksAdvance s.index.latest (finalState (m s)).index.latest →
      ClocksAdvance s.index.latest (underFence token respond mk pending m s).2.index.latest := by
    intro α token respond mk pending m h
    rcases underFence_index token respond mk pending m s with heq | heq
    · rw [heq]
      exact ClocksAdvance.refl _
    · rw [heq]
      exact h
  have hsame : ∀ s' : WriterCore, SameEntries s s' →
      ClocksAdvance s.index.latest s'.index.latest := by
    intro s' h
    rw [h.latest]
    exact ClocksAdvance.refl _
  apply hsettle
  cases cmd with
  | append req respond =>
      exact hrespond _ _ _ (handleAppend_clocksAdvance cfg rt flt req false s)
  | fenceAppend token req respond =>
      exact hfence _ _ _ _ _ (handleAppend_clocksAdvance cfg rt flt req true s)
  | appendBatch nowUs items respond =>
      exact hrespond _ _ _ (handleAppendBatch_clocksAdvance cfg rt flt nowUs items false s)
  | fenceAppendBatch token nowUs items respond =>
      exact hfence _ _ _ _ _ (handleAppendBatch_clocksAdvance cfg rt flt nowUs items true s)
  | beginVisibilityFence token respond =>
      cases phase with
      | groupCommitDrain => exact ClocksAdvance.refl _
      | main => exact hrespond _ _ _ (hsame _ (beginVisibilityFence_sameEntries token s))
      | shutdownDrain => exact hrespond _ _ _ (hsame _ (beginVisibilityFence_sameEntries token s))
  | commitVisibilityFence token respond =>
      cases phase with
      | shutdownDrain => exact hrespond _ _ _ (hsame _ (commitVisibilityFence_sameEntries token s))
      | main => exact ClocksAdvance.refl _
      | groupCommitDrain => exact ClocksAdvance.refl _
  | cancelVisibilityFence token respond =>
      exact hrespond _ _ _ (hsame _ (cancelVisibilityFence_sameEntries flt token s))
  | sync respond =>
      cases phase with
      | shutdownDrain =>
          exact hrespond _ _ _ (hsame _ ((@syncActiveSegment_diskOnly s flt).finalState
            (DiskOnly.refl s)).sameEntries)
      | main => exact ClocksAdvance.refl _
      | groupCommitDrain => exact ClocksAdvance.refl _
  | shutdown respond => cases phase <;> exact ClocksAdvance.refl _

theorem completeShutdown_sameEntries (respond : Nat) (flt : Faults) (s : WriterCore) :
    SameEntries s (completeShutdown respond flt s) := by
  have hcancel := autoCancelFenceOnShutdown_sameEntries flt s
  have hfooter : ∀ s' : WriterCore, SameEntries s' (if flt.footer then s' else
      { s' with active := s'.active.writeSidxFooter s'.sidxCollector }) := by
    intro s'
    split <;> exact ⟨rfl, rfl⟩
  have hsync := (syncOutcome_diskOnly flt (if flt.footer then autoCancelFenceOnShutdown flt s else
    { autoCancelFenceOnShutdown flt s with
      active := (autoCancelFenceOnShutdown flt s).active.writeSidxFooter
        (autoCancelFenceOnShutdown flt s).sidxCollector })).sameEntries
  exact (hcancel.trans (hfooter _)).trans ⟨hsync.inserted, hsync.latest⟩

/-- No action of the writer takes a lane's clock back. -/
theorem writerStep_clocksAdvance (cfg : StoreConfig) (rt : Runtime) (s : WriterCore)
    (step : WriterStep) :
    ClocksAdvance s.index.latest (writerStep cfg rt s step).index.latest := by
  cases step with
  | command phase q => exact runCommand_clocksAdvance cfg rt q.faults phase q.command s
  | periodicSync fails =>
      rw [writerStep, (syncOutcome_diskOnly _ s).sameEntries.latest]
      exact ClocksAdvance.refl _
  | completeShutdown respond flt =>
      rw [writerStep, (completeShutdown_sameEntries respond flt s).latest]
      exact ClocksAdvance.refl _

/-! ### Compare-and-swap commits -/

/-- The compare-and-swap request carried by a step, if any. -/
def WriterStep.request : WriterStep → Option AppendRequest
  | .command _ q =>
      match q.command with
      | .append req _ => some req
      | .fenceAppend _ req _ => some req
      | _ => none
  | _ => none

/-- The step is an append to the entity lane that expects clock `e`. -/
def WriterStep.isCas (entity : String) (lane e : Nat) (step : WriterStep) : Bool :=
  match step.request with
  | some req =>
      req.coord.entity == entity && req.dagLane == lane && req.expectedSequence == some e
  | none => false

/-- A step commits when it puts a new event into the index. -/
def commits (cfg : StoreConfig) (rt : Runtime) (s : WriterCore) (step : WriterStep) : Bool :=
  s.index.inserted.length < (writerStep cfg rt s step).index.inserted.length

/-- How many appends of the run with expected clock `e` on the entity lane commit. -/
def casCommits (cfg : StoreConfig) (rt : Runtime) (entity : String) (lane e : Nat) :
    WriterCore → List WriterStep → Nat
  | _, [] => 0
  | s, step :: rest =>
      (if step.isCas entity lane e && commits cfg rt s step then 1 else 0) +
        casCommits cfg rt entity lane e (writerStep cfg rt s step) rest

/-- A guard that passed saw exactly the expected clock. -/
theorem checkExpectedSequence_actual {latest : Option IndexEntry}
    (hexpected : req.expectedSequence = some e) (h : checkExpectedSequence req latest = .ok ()) :
    (latest.map (·.clock)).getD 0 = e := by
  unfold checkExpectedSequence at h
  rw [hexpected] at h
  by_contra hne
  simp only [if_neg hne] at h
  cases h

/-- An append can only commit when its guard accepts the lane's clock, and then it moves
that clock past the expected one unless the lane was empty. -/
theorem handleAppend_commit_clock {flt : Faults} {fenced : Bool}
    (hexpected : req.expectedSequence = some e)
    (hgrow : s.index.inserted.length <
      (finalState (handleAppend cfg rt flt req fenced s)).index.inserted.length) :
    (laneClock s.index.latest req.coord.entity req.dagLane).getD 0 = e ∧
      ∃ c, NextClock s.index.latest req.coord.entity req.dagLane c ∧
        laneClock (finalState (handleAppend cfg rt flt req fenced s)).index.latest
          req.coord.entity req.dagLane = some c := by
  have h := handleAppend_cases cfg rt flt req fenced s
  generalize handleAppend cfg rt flt req fenced s = r at h hgrow
  cases h with
  | failed err s' quiet =>
      rw [finalState_error, quiet.inserted] at hgrow
      omega
  | replayed key receipt keyed guarded known =>
      rw [finalState_ok] at hgrow
      omega
  | committed st pos s₀ s₁ quiet guarded fresh sameSegment prepared =>
      have hlatest : s₁.index.latest = s.index.latest := by
        rw [prepared.diskOnly.index, quiet.latest]
      obtain ⟨hclock, hcoord, hlane, -⟩ := stageAppend_ok prepared.staged
      rw [latest_clock] at hclock
      constructor
      · exact checkExpectedSequence_actual hexpected guarded
      · refine ⟨st.frame.clock, nextClock_of_checkedNextClock hclock, ?_⟩
        rw [(publishAppend_publishOnly fenced st pos _).latest]
        change laneClock (st.indexEntry pos :: s₁.index.latest) _ _ = _
        rw [laneClock_cons, if_pos]
        · rfl
        · exact ⟨congrArg Coordinate.entity hcoord, hlane⟩

/-- The same, for a whole writer step. -/
theorem casStep_commit_clock {entity : String} {step : WriterStep}
    (hcas : step.isCas entity lane e = true) (hcommit : commits cfg rt s step = true) :
    (laneClock s.index.latest entity lane).getD 0 = e ∧
      ∃ c, NextClock s.index.latest entity lane c ∧
        laneClock (writerStep cfg rt s step).index.latest entity lane = some c := by
  unfold commits at hcommit
  rw [decide_eq_true_eq] at hcommit
  cases step with
  | periodicSync fails => simp [WriterStep.isCas, WriterStep.request] at hcas
  | completeShutdown respond flt => simp [WriterStep.isCas, WriterStep.request] at hcas
  | command phase q =>
      obtain ⟨command, faults⟩ := q
      have hsettle := settle_sameEntries faults
        (executeCommand cfg rt faults phase command s).1
        (executeCommand cfg rt faults phase command s).2
      simp only [writerStep, runCommand] at hcommit ⊢
      rw [hsettle.inserted] at hcommit
      rw [hsettle.latest]
      cases command with
      | append req respond =>
          simp only [WriterStep.isCas, WriterStep.request, Bool.and_eq_true, beq_iff_eq] at hcas
          obtain ⟨⟨rfl, rfl⟩, hexpected⟩ := hcas
          simp only [executeCommand, respondWith_index] at hcommit ⊢
          exact handleAppend_commit_clock hexpected hcommit
      | fenceAppend token req respond =>
          simp only [WriterStep.isCas, WriterStep.request, Bool.and_eq_true, beq_iff_eq] at hcas
          obtain ⟨⟨rfl, rfl⟩, hexpected⟩ := hcas
          simp only [executeCommand] at hcommit ⊢
          rcases underFence_index token respond .receipt (.single respond)
            (handleAppend cfg rt faults req true) s with heq | heq
          · rw [heq] at hcommit
            omega
          · rw [heq] at hcommit ⊢
            exact handleAppend_commit_clock hexpected hcommit
      | _ => simp [WriterStep.isCas, WriterStep.request] at hcas

/-- Once a lane's clock has passed `e`, no append expecting `e` commits any more. -/
theorem casCommits_eq_zero_of_past (cfg : StoreConfig) (rt : Runtime) (entity : String)
    (lane e : Nat) (steps : List WriterStep) :
    ∀ (s : WriterCore) (c : Nat), laneClock s.index.latest entity lane = some c → e < c →
      casCommits cfg rt entity lane e s steps = 0 := by
  induction steps with
  | nil => exact fun s c _ _ => rfl
  | cons step rest ih =>
      intro s c hc hlt
      obtain ⟨c', hle, hc'⟩ := writerStep_clocksAdvance cfg rt s step entity lane c hc
      have hno : (step.isCas entity lane e && commits cfg rt s step) = false := by
        by_contra hyes
        rw [Bool.not_eq_false, Bool.and_eq_true] at hyes
        obtain ⟨hactual, -⟩ := casStep_commit_clock hyes.1 hyes.2
        rw [hc] at hactual
        simp only [Option.getD_some] at hactual
        omega
      unfold casCommits
      rw [hno, ih _ c' hc' (by omega)]
      rfl

/-- With a non-zero expected clock or a non-empty lane, at most one append wins. -/
theorem casCommits_le_one (cfg : StoreConfig) (rt : Runtime) (entity : String)
    (lane e : Nat) (steps : List WriterStep) :
    ∀ s : WriterCore, (e ≠ 0 ∨ (laneClock s.index.latest entity lane).isSome) →
      casCommits cfg rt entity lane e s steps ≤ 1 := by
  induction steps with
  | nil => exact fun s _ => Nat.zero_le 1
  | cons step rest ih =>
      intro s hs
      unfold casCommits
      cases hwin : (step.isCas entity lane e && commits cfg rt s step) with
      | false =>
          -- the lane cannot become empty, so the condition carries over
          have hnext : e ≠ 0 ∨
              (laneClock (writerStep cfg rt s step).index.latest entity lane).isSome := by
            rcases hs with hne | hsome
            · exact .inl hne
            · obtain ⟨c, hc⟩ := Option.isSome_iff_exists.mp hsome
              obtain ⟨c', -, hc'⟩ := writerStep_clocksAdvance cfg rt s step entity lane c hc
              exact .inr (by rw [hc']; rfl)
          have := ih _ hnext
          simpa using this
      | true =>
          rw [Bool.and_eq_true] at hwin
          obtain ⟨hactual, c, hnext, hc⟩ := casStep_commit_clock hwin.1 hwin.2
          have hpast : e < c := by
            rcases hnext with ⟨hnone, -⟩ | ⟨c₀, hsome, rfl⟩
            · rw [hnone] at hs hactual
              rcases hs with hne | hcontra
              · exact absurd hactual.symm hne
              · cases hcontra
            · rw [hsome] at hactual
              simp only [Option.getD_some] at hactual
              omega
          rw [casCommits_eq_zero_of_past cfg rt entity lane e rest _ c hc hpast]
          decide

/-! ### The empty lane -/

/-- Without faults, a staged event whose frame fits always reaches its commit point. -/
theorem commitAppend_commits (cfg : StoreConfig) {latest : Option IndexEntry} {fenced : Bool}
    {st : StagedCommittedEvent}
    (hstage : stageAppend rt req latest s.segmentId s.index.globalSequence
      (fenceIdentity s fenced) = .ok st) (hfits : rt.frameLength st.frame ≤ u32Max) :
    ∃ pos s₁, DiskOnly s s₁ ∧ commitAppend cfg rt .none req latest fenced s =
      publishAppend fenced st pos (commitState req.idempotencyKey.isSome st pos s₁) := by
  have haccept : ∃ s₁, acceptAppend rt req latest fenced s = .ok st s₁ := by
    unfold acceptAppend
    rw [hstage]
    exact ⟨_, rfl⟩
  obtain ⟨s₁, haccept⟩ := haccept
  have hencode : liftExcept (frameEncode rt (Faults.none.encode 0) st.frame) s₁ =
      .ok (rt.frameLength st.frame) s₁ := by
    have : ¬u32Max < rt.frameLength st.frame - 8 := by omega
    simp [frameEncode, Faults.none, this, liftExcept, pure, EStateM.pure]
  have hrotate : ∃ b s₂, maybeRotateSegment cfg .none s₁ = .ok b s₂ := by
    unfold maybeRotateSegment
    split
    · exact ⟨_, _, rfl⟩
    · exact ⟨_, _, rfl⟩
  obtain ⟨b, s₂, hrotate⟩ := hrotate
  have hwrite : ∃ offset s₃, writeStaged .none 0 st (rt.frameLength st.frame) s₂ =
      .ok offset s₃ := ⟨_, _, rfl⟩
  obtain ⟨offset, s₃, hwrite⟩ := hwrite
  have hlen : liftExcept (ensure (rt.frameLength st.frame ≤ u32Max)
      (.serialization "encoded frame length exceeds u32::MAX")) s₃ = .ok () s₃ := by
    simp [ensure, hfits, liftExcept, pure, EStateM.pure]
  have hprepare : prepareAppend cfg rt .none req latest fenced s =
      .ok (st, ⟨s₃.segmentId, offset, rt.frameLength st.frame⟩) s₃ := by
    unfold prepareAppend
    rw [bind_of_ok haccept, bind_of_ok hencode, bind_of_ok hrotate, bind_of_ok hwrite,
      bind_of_ok hlen]
    rfl
  have hdisk := @prepareAppend_triple s cfg rt .none req latest fenced s rfl
  rw [hprepare] at hdisk
  refine ⟨⟨s₃.segmentId, offset, rt.frameLength st.frame⟩, s₃, hdisk.diskOnly, ?_⟩
  unfold commitAppend
  rw [bind_of_ok hprepare]
  exact bind_of_ok rfl

theorem data_appendable : EventKind.data.isBatchMarker = false := by
  decide

/-- An event without payload that expects clock zero. -/
def zeroCasRequest (coord : Coordinate) (lane eventId : Nat) : AppendRequest where
  coord := coord
  eventId := eventId
  kind := .data
  payload := []
  timestampUs := 0
  correlationId := eventId
  causationId := none
  expectedSequence := some 0
  idempotencyKey := none
  dagLane := lane
  dagDepth := 0
  dagBranchRoot := false
  flags := 0
  payloadVersion := 0
  extensions := []
  kind_appendable := data_appendable
  keyed_id := rfl

def zeroCasStep (coord : Coordinate) (lane eventId : Nat) : WriterStep :=
  .command .main ⟨.append (zeroCasRequest coord lane eventId) eventId, .none⟩

/-- The frame of an event without extensions stores none, or the note that signing leaves when
it downgrades the receipt. -/
def StoresNone (rt : Runtime) (f : Frame) : Prop :=
  f.receiptExtensions = [] ∨ ∃ body, rt.downgradeBody = some body ∧
    f.receiptExtensions = insertExtension "batpak.signing.downgrade" body []

/-- On an empty lane and on a lane holding only its first event, expecting zero commits. -/
theorem zeroCasStep_commits {coord : Coordinate} {eventId : Nat}
    (hfits : ∀ f : Frame, f.coord = coord → f.payload = [] → StoresNone rt f →
      rt.frameLength f ≤ u32Max)
    (hclock : (laneClock s.index.latest coord.entity lane).getD 0 = 0) :
    commits cfg rt s (zeroCasStep coord lane eventId) = true := by
  have hget : (MonadState.get : WriterM WriterCore) s = .ok s s := rfl
  have hguard : checkExpectedSequence (zeroCasRequest coord lane eventId)
      (s.index.getLatestCommitted coord.entity lane) = .ok () := by
    unfold checkExpectedSequence zeroCasRequest
    have : ((s.index.getLatestCommitted coord.entity lane).map (·.clock)).getD 0 = 0 := hclock
    simp [this]
  have hstage : ∃ st, stageAppend rt (zeroCasRequest coord lane eventId)
      (s.index.getLatestCommitted coord.entity lane) s.segmentId s.index.globalSequence
      (fenceIdentity s false) = .ok st := by
    have hnext : ∃ c, checkedNextClock ((s.index.getLatestCommitted coord.entity lane).map
        (·.clock)) coord.entity = .ok c := by
      change ∃ c, checkedNextClock (laneClock s.index.latest coord.entity lane) coord.entity = .ok c
      cases hlane : laneClock s.index.latest coord.entity lane with
      | none => exact ⟨0, rfl⟩
      | some c =>
          rw [hlane, Option.getD_some] at hclock
          subst hclock
          exact ⟨1, rfl⟩
    obtain ⟨c, hc⟩ := hnext
    unfold stageAppend
    simp only [zeroCasRequest, hc]
    exact ⟨_, rfl⟩
  obtain ⟨st, hst⟩ := hstage
  have hframe : st.frame.coord = coord ∧ st.frame.payload = [] ∧ StoresNone rt st.frame := by
    have := hst
    unfold stageAppend at this
    cases hc : checkedNextClock ((s.index.getLatestCommitted coord.entity lane).map (·.clock))
        coord.entity with
    | error e => simp only [zeroCasRequest, hc] at this; cases this
    | ok c =>
        simp only [zeroCasRequest, hc] at this
        cases this
        exact ⟨rfl, rfl, signAppendReceipt_extensions ..⟩
  obtain ⟨pos, s₁, hdisk, hcommit⟩ := commitAppend_commits cfg hst
    (hfits st.frame hframe.1 hframe.2.1 hframe.2.2)
  have hhandle : handleAppend cfg rt .none (zeroCasRequest coord lane eventId) false s =
      publishAppend false st pos (commitState false st pos s₁) := by
    unfold handleAppend
    rw [bind_of_ok hget]
    have hlift : liftExcept (checkExpectedSequence (zeroCasRequest coord lane eventId)
        (s.index.getLatestCommitted (zeroCasRequest coord lane eventId).coord.entity
          (zeroCasRequest coord lane eventId).dagLane)) s = .ok () s := by
      rw [show checkExpectedSequence (zeroCasRequest coord lane eventId)
        (s.index.getLatestCommitted (zeroCasRequest coord lane eventId).coord.entity
          (zeroCasRequest coord lane eventId).dagLane) = .ok () from hguard]
      rfl
    rw [bind_of_ok hlift]
    exact hcommit
  have hindex : (writerStep cfg rt s (zeroCasStep coord lane eventId)).index =
      (finalState (handleAppend cfg rt .none (zeroCasRequest coord lane eventId) false s)).index := by
    -- an unfenced append has no sync barrier to settle
    change (respondWith eventId .receipt (handleAppend cfg rt .none
      (zeroCasRequest coord lane eventId) false) s).index = _
    exact respondWith_index ..
  unfold commits
  rw [hindex, hhandle, (publishAppend_publishOnly false st pos _).inserted]
  change decide (_ < (st.indexEntry pos :: s₁.index.inserted).length) = true
  rw [hdisk.index]
  simp

/-- If every run of the writer commits at most one append with the expected clock, the clock is
not zero or the lane has an event: the guard reads the clock of an empty lane as zero, which is
also the clock of its first event. -/
theorem nonzero_or_nonempty_of_unique {coord : Coordinate}
    (hfits : ∀ f : Frame, f.coord = coord → f.payload = [] → StoresNone rt f →
      rt.frameLength f ≤ u32Max)
    (hall : ∀ steps : List WriterStep, casCommits cfg rt coord.entity lane e s steps ≤ 1) :
    e ≠ 0 ∨ (laneClock s.index.latest coord.entity lane).isSome := by
  by_contra hcon
  rw [not_or, not_not] at hcon
  obtain ⟨rfl, hempty⟩ := hcon
  have hnone : laneClock s.index.latest coord.entity lane = none := by
    rw [← Option.not_isSome_iff_eq_none]
    exact hempty
  -- two appends that both expect zero, one after the other
  let s' := writerStep cfg rt s (zeroCasStep coord lane 1)
  have hcas : ∀ id, (zeroCasStep coord lane id).isCas coord.entity lane 0 = true := by
    intro id
    simp [zeroCasStep, WriterStep.isCas, WriterStep.request, zeroCasRequest]
  have hfirst : commits cfg rt s (zeroCasStep coord lane 1) = true :=
    zeroCasStep_commits hfits (by rw [hnone]; rfl)
  have hclock : (laneClock s'.index.latest coord.entity lane).getD 0 = 0 := by
    obtain ⟨-, c, hnext, hc⟩ := casStep_commit_clock (hcas 1) hfirst
    rcases hnext with ⟨-, rfl⟩ | ⟨c₀, hsome, -⟩
    · rw [hc]
      rfl
    · rw [hnone] at hsome
      cases hsome
  have hsecond : commits cfg rt s' (zeroCasStep coord lane 2) = true :=
    zeroCasStep_commits hfits hclock
  have htwo := hall [zeroCasStep coord lane 1, zeroCasStep coord lane 2]
  unfold casCommits at htwo
  rw [hcas 1, hfirst] at htwo
  unfold casCommits at htwo
  rw [hcas 2, hsecond] at htwo
  simp [casCommits] at htwo

/-- At most one of the appends with the same expected clock commits, in every run of the
writer, when the expected clock is not zero or the lane already has an event; and, where the
frame of an event without payload and extensions can be encoded, only then. -/
theorem cas_at_most_one_iff (cfg : StoreConfig) (rt : Runtime) (coord : Coordinate)
    (lane e : Nat) (s : WriterCore) :
    ((e ≠ 0 ∨ (s.index.getLatestCommitted coord.entity lane).isSome) →
      ∀ steps : List WriterStep, casCommits cfg rt coord.entity lane e s steps ≤ 1) ∧
    ((∀ f : Frame, f.coord = coord → f.payload = [] → StoresNone rt f →
        rt.frameLength f ≤ u32Max) →
      ((∀ steps : List WriterStep, casCommits cfg rt coord.entity lane e s steps ≤ 1) ↔
        (e ≠ 0 ∨ (s.index.getLatestCommitted coord.entity lane).isSome))) := by
  have hlatest : (laneClock s.index.latest coord.entity lane).isSome =
      (s.index.getLatestCommitted coord.entity lane).isSome := Option.isSome_map
  rw [← hlatest]
  have hunique : (e ≠ 0 ∨ (laneClock s.index.latest coord.entity lane).isSome) →
      ∀ steps, casCommits cfg rt coord.entity lane e s steps ≤ 1 := by
    intro h steps
    exact casCommits_le_one cfg rt coord.entity lane e steps s h
  refine ⟨hunique, ?_⟩
  intro hfits
  exact ⟨nonzero_or_nonempty_of_unique hfits, hunique⟩

/-- On a fresh store two appends that both expect clock zero commit. -/
theorem cas_zero_commits_twice :
    ¬∀ (cfg : StoreConfig) (rt : Runtime) (entity : String) (lane e : Nat) (s : WriterCore)
      (steps : List WriterStep), casCommits cfg rt entity lane e s steps ≤ 1 := by
  intro h
  have htwo := h .small .unsigned "account:7" 0 0
    (.spawn .small (.new .unbounded .warn) [] none 1)
    [zeroCasStep ⟨"account:7", "ledger"⟩ 0 1, zeroCasStep ⟨"account:7", "ledger"⟩ 0 2]
  exact absurd htwo (by decide +kernel)

/-- The frame of an empty event fits in a store without a signing key. -/
theorem unsigned_fits (f : Frame) (h : f.payload = []) :
    Runtime.unsigned.frameLength f ≤ u32Max := by
  change 160 + f.payload.length ≤ u32Max
  rw [h]
  decide

/-- Both at a fresh store and expected clock five. -/
theorem cas_at_most_one_five :
    (∀ steps : List WriterStep, casCommits .small .unsigned "account:7" 0 5
        (.spawn .small (.new .unbounded .warn) [] none 1) steps ≤ 1) ∧
      ((∀ steps : List WriterStep, casCommits .small .unsigned "account:7" 0 5
        (.spawn .small (.new .unbounded .warn) [] none 1) steps ≤ 1) ↔
      ((5 : Nat) ≠ 0 ∨ ((WriterCore.spawn .small (.new .unbounded .warn) [] none
        1).index.getLatestCommitted "account:7" 0).isSome)) :=
  ⟨(cas_at_most_one_iff .small .unsigned ⟨"account:7", "ledger"⟩ 0 5 _).1 (.inl (by decide)),
    (cas_at_most_one_iff .small .unsigned ⟨"account:7", "ledger"⟩ 0 5 _).2
      fun f _ hpayload _ => unsigned_fits f hpayload⟩

end Batpak.Store
