/-
Module: Batpak.Proofs.CursorWorker
Purpose: The cursor worker is at-least-once over every sequence of handler outcomes, failed
  checkpoint writes, panics, crashes and restarts.
Trusted boundary: none (fully proved)
Main exports: Working, checkpoint_behind_handled
-/
import Batpak.Proofs.CursorDelivery

namespace Batpak.Store

open Batpak.Util

variable {s : CursorRunState}

variable {config : CursorWorkerConfig}

/-! ### The account of the worker -/

/-- The sequence a position has passed, if it has passed any. -/
def passed (checkpoint : Nat × Bool) : Option Nat :=
  if checkpoint.2 then some checkpoint.1 else none

theorem mem_passed {checkpoint : Nat × Bool} {b : Nat} :
    b ∈ passed checkpoint ↔ checkpoint.2 = true ∧ checkpoint.1 = b := by
  unfold passed
  cases checkpoint.2 <;> simp

def WorkerSystem.hits (w : WorkerSystem) : List QueryHit :=
  (w.worker.map fun s => s.reader.pending).getD []

/-- Where the completed batches end and where the running worker stands. -/
def WorkerSystem.marks (w : WorkerSystem) : List Nat :=
  (passed w.completed).toList ++ (w.worker.map fun s => s.reader.marks).getD []

/-- The index changes as the worker can bear at its positions, and no hit is upgraded while
the index is cleared for a swap. Handlers, checkpoint writes, panics, crashes and restarts
are free. -/
def Quiet (config : CursorWorkerConfig) (w : WorkerSystem) : WorkerStep → Prop
  | .feed step => FeedOk config.region w.marks w.hits w.feed step
  | .upgrade => w.feed.incoming.isNone = true
  | _ => True

instance decidableQuiet (w : WorkerSystem) (step : WorkerStep) :
    Decidable (Quiet config w step) :=
  match step with
  | .feed step => decidableFeedOk _ _ _ _ step
  | .upgrade => inferInstanceAs (Decidable (_ = true))
  | .start _ | .poll _ | .handle _ | .halt | .crash => inferInstanceAs (Decidable True)

/-- Every wanted event up to the completed position has been handled. -/
def HandledUpTo (region : Region) (ix : ScannedIndex) (handled : List (Nat × Nat))
    (completed : Nat × Bool) : Prop :=
  completed.2 = true → ∀ e, Wants region ix e → e.globalSequence ≤ completed.1 →
    (e.eventId, e.globalSequence) ∈ handled

/-- A running worker reads past the completed position. -/
structure RunsFrom (config : CursorWorkerConfig) (ix : ScannedIndex) (completed : Nat × Bool)
    (s : CursorRunState) : Prop where
  reads : s.reader.cursor.region = config.region
  committed : s.committed = completed
  reading : Reading (passed completed) ix s.reader

/-- The file holds the completed position, everything up to it has been handled, and a
running worker reads past it. -/
structure Working (config : CursorWorkerConfig) (w : WorkerSystem) : Prop where
  queryable : Queryable config.region w.feed.settled
  file : (w.file = none ∧ w.completed = (0, false)) ∨
    w.file = some (.fromCheckpoint w.completed config.region.checkpointIdentity)
  bound : w.completed.2 = true → w.completed.1 < config.region.bound w.feed.settled.index.gate
  handled : HandledUpTo config.region w.feed.settled w.handled w.completed
  worker : ∀ s ∈ w.worker, RunsFrom config w.feed.settled w.completed s

namespace Working

variable {w : WorkerSystem}

theorem stopped (h : Working config w) : Working config { w with worker := none } :=
  ⟨h.queryable, h.file, h.bound, h.handled, fun s hs => by cases hs⟩

theorem feed (h : Working config w) {step : FeedStep} (hok : Quiet config w (.feed step)) :
    Working config (workerStep config w (.feed step)) := by
  have hmoves := feed_moves h.queryable hok
  have hmark : ∀ {b : Nat}, b ∈ passed w.completed → b ∈ w.marks := by
    intro b hb
    exact List.mem_append_left _ (Option.mem_toList.mpr hb)
  refine ⟨hmoves.served, h.file, ?_, ?_, ?_⟩
  · intro hstarted
    exact hmoves.bound _ (hmark (mem_passed.mpr ⟨hstarted, rfl⟩)) (h.bound hstarted)
  · intro hstarted e he hle
    obtain ⟨e', he', hid, hseq⟩ := hmoves.past _ (hmark (mem_passed.mpr ⟨hstarted, rfl⟩))
      (h.bound hstarted) e he hle
    rw [← hid, ← hseq]
    rw [← hseq] at hle
    exact h.handled hstarted e' he' hle
  · intro s hs
    obtain ⟨hreads, hcommitted, hreading⟩ := h.worker s hs
    have hmarks : ∀ m ∈ s.reader.marks, m ∈ w.marks := by
      intro m hm
      apply List.mem_append_right
      rw [show w.worker = some s from hs]
      exact hm
    have hhits : w.hits = s.reader.pending := by
      unfold WorkerSystem.hits
      rw [show w.worker = some s from hs]
      rfl
    refine ⟨hreads, hcommitted, ?_⟩
    rw [← hreads] at hmoves
    apply hreading.moves hmoves hmarks
    · intro x hx
      rw [hhits]
      exact hx
    · rw [hhits]
      exact hreading.agree

/-- A worker that stands at the completed position, with nothing under way. -/
theorem runsFrom_idle (h : Working config w) {c : Cursor} (hregion : c.region = config.region)
    (hposition : c.checkpoint = w.completed) (restarts : Nat) (windowStartNs : Int) :
    RunsFrom config w.feed.settled w.completed
      ⟨.idle c, w.completed, restarts, windowStartNs⟩ := by
  refine ⟨hregion, rfl, .idle ?_ ?_⟩
  · rw [← hposition]
    rfl
  · intro hstarted
    have hbound := h.bound
    rw [← hposition] at hbound
    rw [hregion]
    exact hbound hstarted

theorem start (h : Working config w) (nowNs : Int) :
    Working config (workerStep config w (.start nowNs)) := by
  unfold workerStep
  dsimp only
  cases hworker : w.worker with
  | some s => exact h
  | none =>
      have hcursor : ∃ c : Cursor, Cursor.newWithCheckpoint config.region w.file = some c ∧
          c.region = config.region ∧ c.checkpoint = w.completed := by
        rcases h.file with ⟨hfile, hcompleted⟩ | hfile
        · rw [hfile, hcompleted]
          exact ⟨.new config.region, rfl, rfl, rfl⟩
        · rw [hfile]
          exact ⟨⟨config.region, w.completed.1, w.completed.2⟩, if_pos rfl, rfl, rfl⟩
      obtain ⟨c, hnew, hregion, hposition⟩ := hcursor
      rw [hnew]
      refine ⟨h.queryable, h.file, h.bound, h.handled, ?_⟩
      intro s hs
      cases hs
      dsimp only
      rw [hposition]
      exact h.runsFrom_idle hregion hposition 0 nowNs

/-- What the running worker does to its reader, its position and file untouched. -/
theorem reader (h : Working config w) (hs : w.worker = some s) {r : Reader}
    (hregion : r.cursor.region = s.reader.cursor.region)
    (hreading : Reading (passed w.completed) w.feed.settled r) :
    Working config { w with worker := some { s with reader := r } } := by
  obtain ⟨hreads, hcommitted, -⟩ := h.worker s hs
  refine ⟨h.queryable, h.file, h.bound, h.handled, ?_⟩
  intro s' hs'
  cases hs'
  exact ⟨hregion.trans hreads, hcommitted, hreading⟩

theorem settled_eq {f : Feed} (h : f.incoming.isNone = true) : f.settled = f.index := by
  unfold Feed.settled
  cases hin : f.incoming with
  | none => rfl
  | some _ =>
      rw [hin] at h
      cases h

theorem poll (h : Working config w) (walk : Walk) :
    Working config (workerStep config w (.poll walk)) := by
  unfold workerStep
  dsimp only
  cases hworker : w.worker with
  | none => exact h
  | some s =>
      dsimp only
      split
      · exact h
      · rename_i hfree
        simp only [Bool.or_eq_true, not_or, Bool.not_eq_true, Bool.not_eq_false'] at hfree
        obtain ⟨⟨hincoming, hpending⟩, -⟩ := hfree
        have hsettled : w.feed.settled = w.feed.index := by
          apply settled_eq
          rw [Option.isNone_iff_eq_none, ← Option.not_isSome_iff_eq_none, hincoming]
          exact Bool.false_ne_true
        obtain ⟨hreads, -, hreading⟩ := h.worker s hworker
        have hqueryable := h.queryable
        rw [← hreads] at hqueryable
        have hquery := hreading.query hqueryable (List.isEmpty_iff.mp hpending) walk
          config.batchSize
        rw [hsettled] at hquery
        refine h.reader hworker (Delivering.region_query ..) ?_
        rw [hsettled]
        exact hquery

theorem upgrade (h : Working config w) (hok : Quiet config w .upgrade) :
    Working config (workerStep config w .upgrade) := by
  unfold workerStep
  dsimp only
  cases hworker : w.worker with
  | none => exact h
  | some s =>
      have hsettled : w.feed.settled = w.feed.index := settled_eq hok
      obtain ⟨hreads, -, hreading⟩ := h.worker s hworker
      have hqueryable := h.queryable
      rw [← hreads] at hqueryable
      have hupgrade := hreading.upgrade hqueryable
      rw [hsettled] at hupgrade
      refine h.reader hworker (Delivering.region_upgrade ..) ?_
      rw [hsettled]
      exact hupgrade

/-! ### Completing a batch -/

/-- The events of a batch, by id and sequence. -/
def batchEvents (s : CursorRunState) : List (Nat × Nat) :=
  s.reader.taken.map fun e => (e.eventId, e.globalSequence)

/-- With the batch handled, everything up to the position of the cursor is. -/
theorem handledUpTo_cursor (h : Working config w) (hs : w.worker = some s)
    (hpending : s.reader.pending = []) :
    HandledUpTo config.region w.feed.settled (w.handled ++ batchEvents s)
      s.reader.cursor.checkpoint := by
  obtain ⟨hreads, -, hreading⟩ := h.worker s hs
  intro hstarted e he hle
  apply List.mem_append.mpr
  by_cases hnew : ∀ b ∈ passed w.completed, b < e.globalSequence
  · rw [← hreads] at he
    rcases hreading.complete hstarted e he hle hnew with ⟨x, hx, hid, hseq⟩ | ⟨x, hx, -⟩
    · refine .inr (List.mem_map.mpr ⟨x, hx, ?_⟩)
      rw [hid, hseq]
    · rw [hpending] at hx
      cases hx
  · simp only [not_forall, Nat.not_lt] at hnew
    obtain ⟨b, hb, hle'⟩ := hnew
    obtain ⟨hdone, rfl⟩ := mem_passed.mp hb
    exact .inl (h.handled hdone e he hle')

/-- The handler returned for the batch, and its checkpoint reached the file or did not. The
worker is left out: it goes on from there or stops. -/
theorem persisted (h : Working config w) (hs : w.worker = some s) (hpending : s.reader.pending = [])
    (result : PersistResult) :
    Working config { ({ w with handled := w.handled ++ batchEvents s }.persist s.reader.cursor
      result) with worker := none } := by
  obtain ⟨hreads, -, hreading⟩ := h.worker s hs
  unfold WorkerSystem.persist
  cases result.recorded with
  | true =>
      refine ⟨h.queryable, ?_, ?_, h.handledUpTo_cursor hs hpending, fun s hs => by cases hs⟩
      · rw [← hreads]
        exact .inr rfl
      · rw [← hreads]
        exact hreading.bound
  | false =>
      refine ⟨h.queryable, h.file, h.bound, ?_, fun s hs => by cases hs⟩
      intro hstarted e he hle
      exact List.mem_append_left _ (h.handled hstarted e he hle)

theorem handleAction (h : Working config w) (hs : w.worker = some s)
    (hpending : s.reader.pending = []) (action : CursorWorkerAction) (result : PersistResult) :
    Working config (w.handleAction s action result) := by
  have hpersisted := h.persisted hs hpending result
  cases action with
  | stopWithRollback => exact h.stopped
  | stop => exact hpersisted
  | «continue» =>
      cases result with
      | failed renamed => exact hpersisted
      | saved =>
          refine ⟨hpersisted.queryable, hpersisted.file, hpersisted.bound, hpersisted.handled, ?_⟩
          intro s' hs'
          cases hs'
          exact hpersisted.runsFrom_idle (c := s.reader.cursor) (h.worker s hs).reads rfl
            s.restarts s.windowStartNs

/-- Consuming a restart slot leaves the committed position. -/
theorem committed_restartBudgetOk {s' : CursorRunState} {policy : RestartPolicy} {nowNs : Int}
    (h : s.restartBudgetOk policy nowNs = some s') : s'.committed = s.committed := by
  unfold CursorRunState.restartBudgetOk at h
  cases policy with
  | once =>
      dsimp only at h
      split at h
      · cases h
      · cases h
        rfl
  | bounded maxRestarts withinMs =>
      dsimp only at h
      by_cases hwindow : withinMs < max (nowNs - s.windowStartNs) 0 / 1000000
      · rw [if_pos hwindow] at h
        split at h
        · cases h
        · cases h
          rfl
      · rw [if_neg hwindow] at h
        split at h
        · cases h
        · cases h
          rfl

theorem handlePanic (h : Working config w) (hs : w.worker = some s) (nowNs : Int) :
    Working config (w.handlePanic config s nowNs) := by
  unfold WorkerSystem.handlePanic
  cases hbudget : s.restartBudgetOk config.restart nowNs with
  | none => exact h.stopped
  | some s' =>
      have hcommitted : s'.committed = w.completed :=
        (committed_restartBudgetOk hbudget).trans (h.worker s hs).committed
      refine ⟨h.queryable, h.file, h.bound, h.handled, ?_⟩
      intro s'' hs''
      cases hs''
      dsimp only
      rw [hcommitted]
      exact h.runsFrom_idle (c := (Cursor.new config.region).restoreCheckpoint w.completed)
        rfl rfl s'.restarts s'.windowStartNs

theorem step (w : WorkerSystem) (step : WorkerStep) (h : Working config w)
    (hok : Quiet config w step) : Working config (workerStep config w step) := by
  cases step with
  | feed step => exact h.feed hok
  | start nowNs => exact h.start nowNs
  | poll walk => exact h.poll walk
  | upgrade => exact h.upgrade hok
  | handle outcome =>
      unfold workerStep
      dsimp only
      cases hworker : w.worker with
      | none => exact h
      | some s =>
          dsimp only
          split
          · exact h
          · rename_i hready
            simp only [Bool.or_eq_true, not_or, Bool.not_eq_true, Bool.not_eq_false'] at hready
            have hpending := List.isEmpty_iff.mp hready.1
            cases outcome with
            | action action result => exact h.handleAction hworker hpending action result
            | panic nowNs => exact h.handlePanic hworker nowNs
  | halt =>
      unfold workerStep
      dsimp only
      cases hworker : w.worker with
      | none => exact h
      | some s =>
          dsimp only
          split
          · exact h.stopped
          · exact h
  | crash => exact h.stopped

end Working

/-! ### Where the events of a batch come from -/

/-- What the reader has taken and what is pending, by id and sequence. -/
def Reader.keys (r : Reader) : List (Nat × Nat) :=
  r.taken.map (fun e => (e.eventId, e.globalSequence)) ++
    r.pending.map fun h => (h.eventId, h.globalSequence)

/-- The running worker has taken the event or has its hit pending. -/
def WorkerSystem.Holds (w : WorkerSystem) (key : Nat × Nat) : Prop :=
  ∃ s ∈ w.worker, key ∈ s.reader.keys

/-- The step is a poll that finds the event in the index and visible to the region. -/
def Polls (config : CursorWorkerConfig) (w : WorkerSystem) (step : WorkerStep)
    (key : Nat × Nat) : Prop :=
  (∃ walk, step = .poll walk) ∧
    ∃ e, Wants config.region w.feed.index e ∧ (e.eventId, e.globalSequence) = key

section Origin

variable {w : WorkerSystem} {key : Nat × Nat}

theorem Reader.mem_keys_query {r : Reader} {ix : ScannedIndex} {walk : Walk} {max : Nat}
    (hserved : Queryable r.cursor.region ix) (h : key ∈ (r.query walk ix max).keys) :
    key ∈ r.keys ∨ ∃ e, Wants r.cursor.region ix e ∧ (e.eventId, e.globalSequence) = key := by
  unfold Reader.query at h
  dsimp only at h
  cases hlast : (ix.queryHitsAfter walk r.cursor.region r.cursor.position r.cursor.started
      max).getLast? with
  | none =>
      rw [hlast] at h
      exact .inl h
  | some last =>
      rw [hlast] at h
      rcases List.mem_append.mp h with htaken | hpending
      · exact .inl (List.mem_append_left _ htaken)
      · obtain ⟨hit, hhit, rfl⟩ := List.mem_map.mp hpending
        obtain ⟨e, he, rfl, -⟩ := Reading.hit_entry hserved hhit
        exact .inr ⟨e, he, rfl⟩

/-- An upgraded hit becomes the entry it was made from. -/
theorem Reader.mem_keys_upgrade {r : Reader} {ix : ScannedIndex}
    (hagree : Agree r.cursor.region r.pending ix.index.inserted)
    (h : key ∈ (r.upgrade ix).keys) : key ∈ r.keys := by
  unfold Reader.upgrade at h
  cases hpending : r.pending with
  | nil =>
      rw [hpending] at h
      exact h
  | cons hit rest =>
      rw [hpending] at h hagree
      unfold Reader.keys at h ⊢
      rw [hpending, List.map_cons]
      rcases List.mem_append.mp h with htaken | hrest
      · rw [List.map_append] at htaken
        rcases List.mem_append.mp htaken with htaken | hnew
        · exact List.mem_append_left _ htaken
        · obtain ⟨e, he, rfl⟩ := List.mem_map.mp hnew
          obtain ⟨hmem, hid⟩ := Reading.mem_of_upgradeHit (Option.mem_toList.mp he)
          obtain ⟨hseq, -⟩ := hagree hit List.mem_cons_self e hmem hid
          rw [hid, hseq]
          exact List.mem_append_right _ List.mem_cons_self
      · exact List.mem_append_right _ (List.mem_cons_of_mem _ hrest)

theorem handleAction_holds_nothing {action : CursorWorkerAction} {result : PersistResult} :
    ¬(w.handleAction s action result).Holds key := by
  rintro ⟨s', hs', hkey⟩
  cases action with
  | stopWithRollback => cases hs'
  | stop => cases hs'
  | «continue» =>
      cases result with
      | failed renamed => cases hs'
      | saved =>
          cases hs'
          cases hkey

theorem handlePanic_holds_nothing {nowNs : Int} : ¬(w.handlePanic config s nowNs).Holds key := by
  unfold WorkerSystem.handlePanic
  rintro ⟨s', hs', hkey⟩
  cases hbudget : s.restartBudgetOk config.restart nowNs with
  | none =>
      rw [hbudget] at hs'
      cases hs'
  | some s'' =>
      rw [hbudget] at hs'
      cases hs'
      cases hkey

/-- Only a poll brings events into the hands of a worker. -/
theorem Working.origin (h : Working config w) {step : WorkerStep} (hok : Quiet config w step)
    (hholds : (workerStep config w step).Holds key) : w.Holds key ∨ Polls config w step key := by
  cases step with
  | feed step => exact .inl hholds
  | start nowNs =>
      left
      unfold workerStep at hholds
      dsimp only at hholds
      split at hholds
      · obtain ⟨s, hs, hkey⟩ := hholds
        cases hs
        cases hkey
      · exact hholds
  | poll walk =>
      unfold workerStep at hholds
      dsimp only at hholds
      cases hworker : w.worker with
      | none =>
          rw [hworker] at hholds
          exact .inl hholds
      | some s =>
          rw [hworker] at hholds
          dsimp only at hholds
          split at hholds
          · exact .inl hholds
          · rename_i hfree
            simp only [Bool.or_eq_true, not_or, Bool.not_eq_true] at hfree
            have hsettled : w.feed.settled = w.feed.index := by
              apply settled_eq
              rw [Option.isNone_iff_eq_none, ← Option.not_isSome_iff_eq_none, hfree.1.1]
              exact Bool.false_ne_true
            have hserved := h.queryable
            have hreads := (h.worker s hworker).reads
            rw [hsettled, ← hreads] at hserved
            obtain ⟨s', hs', hkey⟩ := hholds
            cases hs'
            rcases Reader.mem_keys_query hserved hkey with hold | ⟨e, he, rfl⟩
            · exact .inl ⟨s, hworker, hold⟩
            · rw [hreads] at he
              exact .inr ⟨⟨walk, rfl⟩, e, he, rfl⟩
  | upgrade =>
      left
      unfold workerStep at hholds
      dsimp only at hholds
      cases hworker : w.worker with
      | none =>
          rw [hworker] at hholds
          exact hholds
      | some s =>
          rw [hworker] at hholds
          obtain ⟨s', hs', hkey⟩ := hholds
          cases hs'
          have hagree := (h.worker s hworker).reading.agree
          rw [settled_eq hok] at hagree
          exact ⟨s, hworker, Reader.mem_keys_upgrade hagree hkey⟩
  | handle outcome =>
      left
      unfold workerStep at hholds
      dsimp only at hholds
      cases hworker : w.worker with
      | none =>
          rw [hworker] at hholds
          exact hholds
      | some s =>
          rw [hworker] at hholds
          dsimp only at hholds
          split at hholds
          · exact hholds
          · cases outcome with
            | action action result => exact absurd hholds handleAction_holds_nothing
            | panic nowNs => exact absurd hholds handlePanic_holds_nothing
  | halt =>
      left
      unfold workerStep at hholds
      dsimp only at hholds
      cases hworker : w.worker with
      | none =>
          rw [hworker] at hholds
          exact hholds
      | some s =>
          rw [hworker] at hholds
          dsimp only at hholds
          split at hholds
          · obtain ⟨s', hs', -⟩ := hholds
            cases hs'
          · exact hholds
  | crash =>
      obtain ⟨s, hs, -⟩ := hholds
      cases hs

end Origin

/-! ### At least once -/

/-- The batch in the hands of the handler begins with the first wanted event past the position:
the region covers it, a poll found it in the index and visible, and no wanted event lies
between. -/
structure BeginsPast (region : Region) (ix : ScannedIndex) (completed : Nat × Bool)
    (polled : Nat × Nat → Prop) (first : IndexEntry) : Prop where
  past : completed.2 = true → completed.1 < first.globalSequence
  covered : region.covers first = true
  polled : polled (first.eventId, first.globalSequence)
  least : ∀ e, Wants region ix e → (completed.2 = true → completed.1 < e.globalSequence) →
    first.globalSequence ≤ e.globalSequence

/-- A poll of the run found the event in the index and visible to the region. -/
def Polled (config : CursorWorkerConfig) (w : WorkerSystem) (steps : List WorkerStep)
    (key : Nat × Nat) : Prop :=
  ∃ before walk after, steps = before ++ .poll walk :: after ∧
    ∃ e, Wants config.region (run (workerStep config) w before).feed.index e ∧
      (e.eventId, e.globalSequence) = key

theorem RunsFrom.beginsPast {ix : ScannedIndex} {completed : Nat × Bool}
    {polled : Nat × Nat → Prop} (h : RunsFrom config ix completed s)
    (hpolled : ∀ key ∈ s.reader.keys, polled key) (hpending : s.reader.pending = [])
    {first : IndexEntry} (hfirst : first ∈ s.reader.taken.head?) :
    BeginsPast config.region ix completed polled first := by
  obtain ⟨hreads, -, hreading⟩ := h
  obtain ⟨rest, htaken⟩ : ∃ rest, s.reader.taken = first :: rest := by
    cases htaken : s.reader.taken with
    | nil =>
        rw [htaken] at hfirst
        cases hfirst
    | cons x rest =>
        rw [htaken] at hfirst
        cases hfirst
        exact ⟨rest, rfl⟩
  have hin : first ∈ s.reader.taken := by
    rw [htaken]
    exact List.mem_cons_self
  obtain ⟨hstarted, hle, hpast⟩ := hreading.reached _
    (List.mem_append_left _ (List.mem_map_of_mem hin))
  refine ⟨fun hdone => hpast _ (mem_passed.mpr ⟨hdone, rfl⟩), ?_,
    hpolled _ (List.mem_append_left _ (List.mem_map_of_mem hin)), ?_⟩
  · rw [← hreads]
    exact hreading.covered first hin
  intro e he hnew
  by_cases hreached : e.globalSequence ≤ s.reader.cursor.position
  · rw [← hreads] at he
    have hnew' : ∀ b ∈ passed completed, b < e.globalSequence := by
      intro b hb
      obtain ⟨hdone, rfl⟩ := mem_passed.mp hb
      exact hnew hdone
    rcases hreading.complete hstarted e he hreached hnew' with ⟨x, hx, -, hseq⟩ | ⟨x, hx, -⟩
    · have hascending := (List.pairwise_append.mp hreading.ascending).1
      rw [htaken] at hx
      rw [htaken, List.map_cons, List.pairwise_cons] at hascending
      rw [← hseq]
      rcases List.mem_cons.mp hx with rfl | hx
      · exact Nat.le_refl _
      · exact Nat.le_of_lt (hascending.1 _ (List.mem_map.mpr ⟨x, hx, rfl⟩))
    · rw [hpending] at hx
      cases hx
  · exact hle.trans (Nat.le_of_lt (Nat.lt_of_not_le hreached))

/-- A store before the first worker with the checkpoint id. -/
def firstStart (ix : ScannedIndex) : WorkerSystem :=
  ⟨⟨ix, none⟩, none, none, [], (0, false)⟩

/-- Along every run of handler outcomes, failed checkpoint writes, panics, crashes and
restarts whose index steps leave the worker undisturbed: the saved position has passed only
events that were handled, a running worker rolls back to the last completed position, and
every batch begins with the first wanted event past it. -/
theorem checkpoint_behind_handled (config : CursorWorkerConfig) (topology : IndexTopology)
    (retention : IdempotencyRetention) (overflow : OverflowPolicy)
    (filled : List ScannedIndex.ScanStep)
    (hfilled : Guarded ScannedIndex.scanStep FreshIds (.new topology retention overflow) filled)
    (ix : ScannedIndex)
    (hix : ix = run ScannedIndex.scanStep (.new topology retention overflow) filled)
    (hsequences : (ix.index.inserted.map (·.globalSequence)).Nodup)
    (hlane : LaneBelow config.region ix.index.gate) (steps : List WorkerStep)
    (hsteps : Guarded (workerStep config) (Quiet config) (firstStart ix) steps) :
    let w := run (workerStep config) (firstStart ix) steps
    (∀ checkpoint ∈ w.file, checkpoint.started = true → ∀ e,
        Wants config.region w.feed.settled e → e.globalSequence ≤ checkpoint.position →
        (e.eventId, e.globalSequence) ∈ w.handled) ∧
      ∀ s ∈ w.worker, s.committed = w.completed ∧
        (s.reader.pending = [] → ∀ first ∈ s.reader.taken.head?,
          BeginsPast config.region w.feed.settled w.completed
            (Polled config (firstStart ix) steps) first) := by
  intro w
  have hscanned : Scanned ix := by
    rw [hix]
    exact run_invariant (fun _ _ => scanned_step) filled _ (scanned_new _ _ _) hfilled
  have hstart : Working config (firstStart ix) := by
    refine ⟨⟨hscanned, hsequences, hlane⟩, .inl ⟨rfl, rfl⟩, ?_, ?_, ?_⟩
    · intro h
      cases h
    · intro h
      cases h
    · intro s hs
      cases hs
  have hw : Working config w := run_invariant Working.step steps _ hstart hsteps
  constructor
  · intro checkpoint hfile hstarted e he hle
    rcases hw.file with ⟨hnone, -⟩ | hsome
    · rw [hnone] at hfile
      cases hfile
    · rw [hsome] at hfile
      cases hfile
      exact hw.handled hstarted e he hle
  · intro s hs
    refine ⟨(hw.worker s hs).committed, fun hpending first hfirst =>
      (hw.worker s hs).beginsPast ?_ hpending hfirst⟩
    intro key hkey
    have horigin : ∀ w' step, Working config w' → Quiet config w' step →
        (workerStep config w' step).Holds key → w'.Holds key ∨ Polls config w' step key :=
      fun _ _ hworking hok hholds => hworking.origin hok hholds
    rcases run_origin Working.step horigin steps _ hstart hsteps ⟨s, hs, hkey⟩ with
      ⟨s', hs', -⟩ | ⟨before, step, after, hsplit, ⟨walk, rfl⟩, e, he, hid⟩
    · cases hs'
    · exact ⟨before, walk, after, hsplit, e, he, hid⟩

/-! ### A restart, and a swap inside a poll -/

def twoAtATime : CursorWorkerConfig :=
  ⟨.all, 2, .once⟩

/-- Two visible events. -/
def twoEvents : List WorkerStep :=
  [.feed (.insert (laneEvent 7 0 0 0)), .feed (.insert (laneEvent 8 1 0 1)), .feed (publishTo 2)]

/-- The handler panics on the batch, gets it again and completes it; the checkpoint write
fails after its rename, and the worker is started again. -/
def panicThenRestart : List WorkerStep :=
  twoEvents ++ [.start 0, .poll .inOrder, .upgrade, .upgrade, .handle (.panic 1),
    .poll .inOrder, .upgrade, .upgrade, .handle (.action .continue (.failed true)), .start 2]

theorem restart_resumes_past_handled :
    (7, 0) ∈ (run (workerStep twoAtATime) (firstStart emptyIndex) panicThenRestart).handled := by
  have hsteps : Guarded (workerStep twoAtATime) (Quiet twoAtATime) (firstStart emptyIndex)
      panicThenRestart := by
    decide +kernel
  have hbehind := (checkpoint_behind_handled twoAtATime everyOverlay .unbounded .warn [] trivial
    emptyIndex rfl (by decide) (by decide +kernel) panicThenRestart hsteps).1
  exact hbehind (.fromCheckpoint (1, true) Region.all.checkpointIdentity) (by decide +kernel) rfl
    (laneEvent 7 0 0 0) ⟨by decide +kernel, by decide +kernel⟩ (by decide +kernel)

/-- The compaction of both events. -/
def rebuiltTwo : StoreIndex :=
  (StoreIndex.new .unbounded .warn).restoreSortedEntries
    [laneEvent 7 0 0 0, laneEvent 8 1 0 1] 2

/-- The first hit of the batch is upgraded while the index is cleared for the swap. -/
def swapInsideBatch : List WorkerStep :=
  twoEvents ++ [.start 0, .poll .inOrder, .feed (.swapBegin rebuiltTwo .inOrder), .upgrade,
    .feed .swapFinish, .upgrade, .handle (.action .continue .saved)]

/-- The saved position is past an event that is in the store and visible and was never
handed to the handler. -/
theorem checkpoint_passes_dropped_event :
    let w := run (workerStep twoAtATime) (firstStart emptyIndex) swapInsideBatch
    w.file = some (.fromCheckpoint (1, true) Region.all.checkpointIdentity) ∧
      w.feed.incoming.isNone = true ∧
      (laneEvent 7 0 0 0 ∈ w.feed.index.index.inserted ∧
        ScannedIndex.wanted .all w.feed.index.index.gate (laneEvent 7 0 0 0) = true) ∧
      w.handled = [(8, 1)] := by
  decide +kernel

end Batpak.Store
