/-
Module: Batpak.Proofs.ChangeDetection
Purpose: What the generation of an entity counts, and when equal generations stand for equal
  visible histories over a run of inserts, gate steps, compaction swaps and calls.
Trusted boundary: a call of `project_if_changed` is one step
Main exports: Steady, change_detected
-/
import Batpak.Proofs.ReplayAnswers
import Batpak.Proofs.ReplayOrder

namespace Batpak.Store

open Batpak.Util OverlaidIndex

variable {ε σ : Type}

/-! ### Histories -/

/-- The indexed events of an entity in clock-key order, each with its kind and whether a
projection sees it. -/
def indexedEvents (ix : StoreIndex) (entity : String) : List (Nat × EventKind × Bool) :=
  (ix.stream entity).map fun e =>
    (e.eventId, e.kind, ix.gate.isVisibleOnLane e.globalSequence e.dagLane)

/-- The visible events of an entity that a projection takes. -/
def visibleHistory (ix : StoreIndex) (entity : String) (kinds : List EventKind) : List Nat :=
  (relevantVisible ix entity kinds).map (·.eventId)

theorem visibleHistory_eq (ix : StoreIndex) (entity : String) (kinds : List EventKind) :
    visibleHistory ix entity kinds =
      (((indexedEvents ix entity).filter fun e => projectionKindMatches kinds e.2.1).filter
        fun e => e.2.2).map (·.1) := by
  unfold visibleHistory relevantVisible indexedEvents
  simp only [List.filter_map, List.map_map]
  rfl

theorem length_indexedEvents (ix : StoreIndex) (entity : String) :
    (indexedEvents ix entity).length = (ix.stream entity).length :=
  List.length_map ..

theorem indexedEvents_insert_of_ne {ix : StoreIndex} {entry : IndexEntry} {entity : String}
    (h : entry.coord.entity ≠ entity) :
    indexedEvents (ix.insertInner entry) entity = indexedEvents ix entity := by
  have hstream : (ix.insertInner entry).stream entity = ix.stream entity := by
    unfold StoreIndex.stream StoreIndex.insertInner
    simp [h]
  unfold indexedEvents
  rw [hstream]
  rfl

/-- An insert under a new clock key lengthens the stream by one. -/
theorem length_stream_insert {ix : StoreIndex} {entry : IndexEntry}
    (h : ∀ e ∈ ix.inserted, e.coord.entity = entry.coord.entity → e.clockKey ≠ entry.clockKey) :
    ((ix.insertInner entry).stream entry.coord.entity).length =
      (ix.stream entry.coord.entity).length + 1 := by
  unfold StoreIndex.stream StoreIndex.insertInner
  simp only [List.length_insertionSort, List.filter_cons, beq_self_eq_true, if_true,
    List.find?_cons_of_pos, List.length_cons]
  congr 2
  apply List.filter_congr
  intro e he
  obtain ⟨hmem, hentity⟩ := List.mem_filter.mp he
  have hkey : (entry.clockKey == e.clockKey) = false := by
    rw [beq_eq_false_iff_ne]
    exact (h e hmem (beq_iff_eq.mp hentity)).symm
  rw [List.find?_cons, hkey]

/-! ### What the generation counts -/

/-- The group of the entity, when there are groups, counts the events of its stream. -/
def Counted (ix : OverlaidIndex) (entity : String) : Prop :=
  ∀ groups ∈ ix.groups, ((groups entity).map (·.generation)).getD 0 = (ix.index.stream entity).length

section Counts

variable {ix : OverlaidIndex} {entity : String}

theorem entityGeneration_eq (h : Counted ix entity) :
    (ix.entityGeneration entity).getD 0 = (ix.index.stream entity).length := by
  unfold OverlaidIndex.entityGeneration
  cases hgroup : ix.groupOf entity with
  | none =>
      dsimp only
      split
      · rename_i hempty
        rw [List.isEmpty_iff.mp hempty]
        rfl
      · rfl
  | some group =>
      obtain ⟨groups, hgroups, hentity⟩ := Option.bind_eq_some_iff.mp hgroup
      have := h groups hgroups
      rw [hentity] at this
      exact this

theorem plan_generation_eq (h : Counted ix entity) {kinds : List EventKind}
    {plan : ProjectionReplayPlan} (hplan : ix.projectionReplayPlan entity kinds = some plan) :
    plan.generation = (ix.index.stream entity).length := by
  unfold OverlaidIndex.projectionReplayPlan at hplan
  split at hplan
  · rename_i watermark generation hits hcandidates
    cases hplan
    obtain ⟨group, hgroup, hfound⟩ := Option.bind_eq_some_iff.mp hcandidates
    obtain ⟨groups, hgroups, hentity⟩ := Option.bind_eq_some_iff.mp hgroup
    obtain ⟨last, -, heq⟩ := Option.map_eq_some_iff.mp hfound
    cases heq
    have := h groups hgroups
    rw [hentity] at this
    exact this
  · obtain ⟨last, -, rfl⟩ := Option.map_eq_some_iff.mp hplan
    rfl

theorem counted_new (entityGroups : Bool) (retention : IdempotencyRetention)
    (overflow : OverflowPolicy) : Counted (.new entityGroups retention overflow) entity := by
  intro groups hgroups
  cases entityGroups with
  | true =>
      cases hgroups
      rfl
  | false => cases hgroups

theorem counted_insert {entry : IndexEntry} (h : Counted ix entity)
    (hkey : entry.coord.entity = entity →
      ∀ e ∈ ix.index.inserted, e.coord.entity = entity → e.clockKey ≠ entry.clockKey) :
    Counted (ix.insertInner entry) entity := by
  intro groups hgroups
  obtain ⟨before, hbefore, rfl⟩ := Option.map_eq_some_iff.mp hgroups
  have hcount := h before hbefore
  change (((before.push entry) entity).map _).getD 0 =
    ((ix.index.insertInner entry).stream entity).length
  by_cases hentity : entry.coord.entity = entity
  · subst hentity
    rw [length_stream_insert (hkey rfl), ← hcount, Groups.push, Function.update_self]
    cases before entry.coord.entity with
    | none => rfl
    | some group => rfl
  · rw [← length_indexedEvents, indexedEvents_insert_of_ne hentity, length_indexedEvents, ← hcount,
      Groups.push, Function.update_of_ne (Ne.symm hentity)]

/-- A walk of the swap counts the events of an entity as it pushes them. -/
theorem generation_walk (groups : Groups) (walk : List IndexEntry) :
    (((walk.foldl Groups.push groups) entity).map (·.generation)).getD 0 =
      ((groups entity).map (·.generation)).getD 0 +
        (walk.filter fun e => e.coord.entity == entity).length := by
  induction walk generalizing groups with
  | nil => rfl
  | cons e walk ih =>
      rw [List.foldl_cons, ih, List.filter_cons, Groups.push]
      by_cases hentity : e.coord.entity = entity
      · subst hentity
        rw [Function.update_self]
        cases groups e.coord.entity with
        | none => simp [EntityGroup.push, EntityGroup.empty, Nat.add_comm]
        | some group =>
            simp [EntityGroup.push]
            omega
      · simp [Function.update_of_ne (Ne.symm hentity), hentity]

theorem counted_swap {fresh : StoreIndex} {walk : List IndexEntry}
    (hwalk : ix.groups.isSome →
      (walk.filter fun e => e.coord.entity == entity).Perm (fresh.stream entity)) :
    Counted (ix.replaceContentsFromFresh fresh walk) entity := by
  intro groups hgroups
  obtain ⟨before, hbefore, rfl⟩ := Option.map_eq_some_iff.mp hgroups
  rw [generation_walk]
  have hlength := (hwalk (by rw [hbefore]; rfl)).length_eq
  change 0 + _ = (fresh.stream entity).length
  rw [Nat.zero_add, hlength]

/-- Keeping a cached state touches neither the streams nor the counts. -/
theorem counted_storeCachedProjection {typeId watermark : Nat} {bytes : Bytes} {other : String}
    (h : Counted ix entity) :
    Counted (ix.storeCachedProjection other typeId bytes watermark) entity := by
  intro groups hgroups
  obtain ⟨before, hbefore, rfl⟩ := Option.map_eq_some_iff.mp hgroups
  have hcount := h before hbefore
  change _ = (ix.index.stream entity).length
  rw [← hcount]
  by_cases hentity : entity = other
  · subst hentity
    rw [Function.update_self]
    cases before entity with
    | none => rfl
    | some group => rfl
  · rw [Function.update_of_ne hentity]

end Counts

/-! ### Calls -/

section Calls

variable {p : Projection ε σ} {faults : CacheFaults} {entity : String} {st : ProjectionStore ε}

theorem projectInner_generation {o : ProjectionOutcome σ} (hcounted : Counted st.index entity)
    (ho : (projectInner p faults entity st).1 = .ok o) :
    o.returnedGeneration = (st.index.index.stream entity).length := by
  obtain ⟨generation, sequence, hanswer, hgeneration⟩ := projectInner_answer p faults entity st
  rw [hanswer, answerFor_ok] at ho
  rw [ho.2.2.1, hgeneration]
  cases hplan : st.index.projectionReplayPlan entity p.relevantEventKinds with
  | none => exact entityGeneration_eq hcounted
  | some plan => exact plan_generation_eq hcounted hplan

end Calls

/-! ### A caller that feeds back its generation -/

/-- The store, the generation the caller was last given and the history it was last given a
state for. -/
structure Watched (ε : Type) where
  store : ProjectionStore ε
  lastSeen : Nat
  received : List Nat

/-- A single append inserts and then publishes by a gate step; a batch inserts its entries
one by one. A fence commit is a gate step, a compaction ends with the swap. -/
inductive WatchStep where
  | insert (entry : IndexEntry)
  | batchEntry (entry : IndexEntry)
  | gate (gate : SequenceGate)
  | swap (fresh : StoreIndex) (walk : List IndexEntry)
  | call (faults : CacheFaults)

section Watch

variable (p : Projection ε σ) (entity : String)

/-- A failed call and one that reports no change leave the caller as it was. -/
def watchStep (w : Watched ε) : WatchStep → Watched ε
  | .insert entry => { w with store := { w.store with index := w.store.index.insert entry } }
  | .batchEntry entry => { w with store := { w.store with index := w.store.index.insertInner entry } }
  | .gate gate => { w with store := { w.store with index := w.store.index.withGate gate } }
  | .swap fresh walk =>
      { w with store := { w.store with index := w.store.index.replaceContentsFromFresh fresh walk } }
  | .call faults =>
      let (answer, store) := projectIfChanged p faults entity w.lastSeen w.store
      match answer with
      | .ok (some (generation, _)) =>
          ⟨store, generation, visibleHistory w.store.index.index entity p.relevantEventKinds⟩
      | _ => { w with store := store }

/-- The step does not make the count of an older history that of a newer one. An insert of
the entity has a new clock key and finds no fewer events than the caller was told of. A gate
step shows and hides no event of the entity while their number is the one the caller was
told. A swap pushes the events of the entity once each, and keeps them as they are or leaves
fewer than the caller was told of. -/
def Steady (w : Watched ε) : WatchStep → Prop
  | .insert entry | .batchEntry entry => entry.coord.entity = entity →
      (∀ e ∈ w.store.index.index.inserted, e.coord.entity = entity → e.clockKey ≠ entry.clockKey) ∧
        w.lastSeen ≤ (indexedEvents w.store.index.index entity).length
  | .gate gate =>
      indexedEvents (w.store.index.withGate gate).index entity =
          indexedEvents w.store.index.index entity ∨
        (indexedEvents w.store.index.index entity).length ≠ w.lastSeen
  | .swap fresh walk =>
      (w.store.index.groups.isSome →
        (walk.filter fun e => e.coord.entity == entity).Perm (fresh.stream entity)) ∧
      let swapped := (w.store.index.replaceContentsFromFresh fresh walk).index
      (indexedEvents swapped entity = indexedEvents w.store.index.index entity ∨
        (indexedEvents swapped entity).length < w.lastSeen)
  | .call _ => True

instance decidableSteady (w : Watched ε) (step : WatchStep) : Decidable (Steady entity w step) :=
  match step with
  | .insert _ | .batchEntry _ => inferInstanceAs (Decidable (_ → _ ∧ _))
  | .gate _ => inferInstanceAs (Decidable (_ ∨ _))
  | .swap _ _ => inferInstanceAs (Decidable (_ ∧ (_ ∨ _)))
  | .call _ => inferInstanceAs (Decidable True)

/-- The generation counts the indexed events, and a history the caller was not given a state
for has another number of them than the generation it holds. -/
structure Watching (w : Watched ε) : Prop where
  counted : Counted w.store.index entity
  seen : (indexedEvents w.store.index.index entity).length = w.lastSeen →
    visibleHistory w.store.index.index entity p.relevantEventKinds = w.received

variable {p entity}

theorem Watching.insert {w : Watched ε} {entry : IndexEntry} (h : Watching p entity w)
    (hok : Steady entity w (.batchEntry entry)) :
    Watching p entity (watchStep p entity w (.batchEntry entry)) := by
  refine ⟨counted_insert h.counted fun hentity => (hok hentity).1, ?_⟩
  intro hlength
  change (indexedEvents (w.store.index.index.insertInner entry) entity).length = _ at hlength
  change visibleHistory (w.store.index.index.insertInner entry) entity _ = _
  by_cases hentity : entry.coord.entity = entity
  · exfalso
    obtain ⟨hkey, hseen⟩ := hok hentity
    subst hentity
    rw [length_indexedEvents, length_stream_insert hkey, ← length_indexedEvents] at hlength
    change _ = w.lastSeen at hlength
    omega
  · rw [indexedEvents_insert_of_ne hentity] at hlength
    rw [visibleHistory_eq, indexedEvents_insert_of_ne hentity, ← visibleHistory_eq]
    exact h.seen hlength

theorem Watching.gate {w : Watched ε} {gate : SequenceGate} (h : Watching p entity w)
    (hok : Steady entity w (.gate gate)) :
    Watching p entity (watchStep p entity w (.gate gate)) := by
  refine ⟨h.counted, ?_⟩
  intro hlength
  change (indexedEvents (w.store.index.withGate gate).index entity).length = w.lastSeen at hlength
  change visibleHistory (w.store.index.withGate gate).index entity _ = w.received
  rcases hok with hsame | hne
  · rw [hsame] at hlength
    rw [visibleHistory_eq, hsame, ← visibleHistory_eq]
    exact h.seen hlength
  · exfalso
    rw [length_indexedEvents] at hlength hne
    exact hne hlength

theorem Watching.swap {w : Watched ε} {fresh : StoreIndex} {walk : List IndexEntry}
    (h : Watching p entity w) (hok : Steady entity w (.swap fresh walk)) :
    Watching p entity (watchStep p entity w (.swap fresh walk)) := by
  obtain ⟨hwalk, hkept⟩ := hok
  refine ⟨counted_swap hwalk, ?_⟩
  intro hlength
  change (indexedEvents (w.store.index.replaceContentsFromFresh fresh walk).index entity).length =
    w.lastSeen at hlength
  change visibleHistory (w.store.index.replaceContentsFromFresh fresh walk).index entity _ = w.received
  rcases hkept with hsame | hfewer
  · rw [hsame] at hlength
    rw [visibleHistory_eq, hsame, ← visibleHistory_eq]
    exact h.seen hlength
  · omega

/-- A call leaves the events alone and gives the caller the current count. -/
theorem Watching.call {w : Watched ε} {faults : CacheFaults} (h : Watching p entity w) :
    Watching p entity (watchStep p entity w (.call faults)) := by
  have hcounted : Counted (projectIfChanged p faults entity w.lastSeen w.store).2.index entity :=
    KeptByCaches.projectIfChanged (I := fun ix => Counted ix entity)
      ⟨fun _ _ _ => counted_storeCachedProjection⟩ _ h.counted
  have hindex : (projectIfChanged p faults entity w.lastSeen w.store).2.index.index =
      w.store.index.index :=
    KeptByCaches.projectIfChanged (I := fun ix => ix.index = w.store.index.index)
      ⟨fun _ _ _ h => h⟩ _ rfl
  unfold watchStep
  dsimp only
  split
  · rename_i generation state hanswer
    refine ⟨hcounted, ?_⟩
    intro _
    dsimp only
    rw [hindex]
  · refine ⟨hcounted, ?_⟩
    dsimp only
    rw [hindex]
    exact h.seen

theorem Watching.step (w : Watched ε) (step : WatchStep) (h : Watching p entity w)
    (hok : Steady entity w step) : Watching p entity (watchStep p entity w step) := by
  cases step with
  | insert entry =>
      have hinserted : Watching p entity (watchStep p entity w (.batchEntry entry)) := h.insert hok
      exact ⟨hinserted.counted, hinserted.seen⟩
  | batchEntry entry => exact h.insert hok
  | gate gate => exact h.gate hok
  | swap fresh walk => exact h.swap hok
  | call faults => exact h.call

/-- A caller before its first call, over an empty store. -/
def Watched.start (entityGroups : Bool) (retention : IdempotencyRetention)
    (overflow : OverflowPolicy) (cache : Option (List (Bytes × CacheRow)))
    (incrementalProjection : Bool) (read : DiskPos → Except StoreError ε) (kindOf : ε → EventKind) :
    Watched ε where
  store := ⟨.new entityGroups retention overflow, cache, incrementalProjection, read, kindOf⟩
  lastSeen := 0
  received := []

/-- A call reports a change, under a generation the caller does not hold yet. -/
def Reports (lastSeen : Nat) : Except ProjectionError (Option (Nat × Option σ)) → Prop
  | .ok none => False
  | .ok (some (generation, _)) => generation ≠ lastSeen
  | .error _ => True

/-- In a run whose steps are all steady, a call reports every change of the visible relevant
history since the history the caller was last given a state for. -/
theorem change_detected (p : Projection ε σ) (entity : String) (start : Watched ε)
    (hstart : ∃ entityGroups retention overflow cache incremental read kindOf,
      start = .start entityGroups retention overflow cache incremental read kindOf)
    (steps : List WatchStep) (hsteps : Guarded (watchStep p entity) (Steady entity) start steps)
    (faults : CacheFaults) :
    let w := run (watchStep p entity) start steps
    visibleHistory w.store.index.index entity p.relevantEventKinds ≠ w.received →
      Reports w.lastSeen (projectIfChanged p faults entity w.lastSeen w.store).1 := by
  intro w hchanged
  have hw : Watching p entity w := by
    apply run_invariant Watching.step steps start _ hsteps
    obtain ⟨entityGroups, retention, overflow, _, _, _, _, rfl⟩ := hstart
    exact ⟨counted_new entityGroups retention overflow, fun _ => rfl⟩
  have hne : (w.store.index.index.stream entity).length ≠ w.lastSeen := by
    intro hsame
    rw [← length_indexedEvents] at hsame
    exact hchanged (hw.seen hsame)
  unfold projectIfChanged
  rw [entityGeneration_eq hw.counted, if_neg hne]
  dsimp only
  cases ho : (projectInner p faults entity w.store).1 with
  | error e => trivial
  | ok o =>
      change o.returnedGeneration ≠ w.lastSeen
      rw [projectInner_generation hw.counted ho]
      exact hne

end Watch

/-! ### Runs of a caller -/

/-- Counts the events of every kind. -/
def countEvents : Projection Nat Nat where
  name := "count"
  typeId := 0
  relevantEventKinds := []
  fromEvents := fun events => some events.length
  applyEvent := fun count _ => count + 1
  supportsIncrementalApply := true
  stateContract := .unboundedDeclared "count" "store" "never"
  stateExtent := fun _ => ⟨some 1, .constantTime⟩
  encode := fun count => some [count.toUInt8]
  decode := fun bytes => bytes.head?.map (·.toNat)
  cacheKey := fun _ => []

def countingCaller : Watched Nat :=
  .start true default default none true (fun pos => .ok pos.offset) fun _ => default

/-- Everything below the sequence is visible on lane 0. -/
def shownBelow (sequence : Nat) : SequenceGate :=
  { SequenceGate.new with
    allocated := sequence
    visible := sequence
    laneVisible := fun _ => sequence }

/-- A call, a second append and its publication. -/
def appendAfterCall : List WatchStep :=
  [.insert (laneEvent 1 0 0 0), .gate (shownBelow 1), .call ⟨false, false⟩,
    .insert (laneEvent 2 1 0 1), .gate (shownBelow 2)]

theorem append_reported :
    visibleHistory (run (watchStep countEvents "order") countingCaller appendAfterCall).store.index.index
        "order" [] = [1, 2] ∧
      (run (watchStep countEvents "order") countingCaller appendAfterCall).received = [1] ∧
      Reports (run (watchStep countEvents "order") countingCaller appendAfterCall).lastSeen
        (projectIfChanged countEvents ⟨false, false⟩ "order"
          (run (watchStep countEvents "order") countingCaller appendAfterCall).lastSeen
          (run (watchStep countEvents "order") countingCaller appendAfterCall).store).1 :=
  ⟨by decide +kernel, by decide +kernel,
    change_detected countEvents "order" countingCaller ⟨_, _, _, _, _, _, _, rfl⟩ appendAfterCall
      (by decide +kernel) ⟨false, false⟩ (by decide +kernel)⟩

/-- An append under a fence, a call, and the commit of the fence. -/
def commitAfterCall : List WatchStep :=
  [.insert (laneEvent 1 0 0 0), .call ⟨false, false⟩, .gate (shownBelow 1)]

/-- What a compaction that drops the first event leaves. -/
def retained : StoreIndex :=
  { (StoreIndex.new default default).insertInner (laneEvent 2 1 0 1) with gate := shownBelow 2 }

/-- A call between two appends and a compaction that drops the first of them; then a third
append. -/
def regrowAfterCall : List WatchStep :=
  [.insert (laneEvent 1 0 0 0), .insert (laneEvent 2 1 0 1), .gate (shownBelow 2),
    .call ⟨false, false⟩, .swap retained [laneEvent 2 1 0 1],
    .insert (laneEvent 3 2 0 2), .gate (shownBelow 3)]

/-- The caller received a state for another history, and the next call reports no change. -/
def Missed (w : Watched Nat) : Prop :=
  visibleHistory w.store.index.index "order" [] ≠ w.received ∧
    (projectIfChanged countEvents ⟨false, false⟩ "order" w.lastSeen w.store).1 = .ok none

theorem fence_commit_and_retention_missed :
    Missed (run (watchStep countEvents "order") countingCaller commitAfterCall) ∧
      Missed (run (watchStep countEvents "order") countingCaller regrowAfterCall) :=
  ⟨⟨by decide +kernel, rfl⟩, by decide +kernel, rfl⟩

end Batpak.Store
