/-
Module: Batpak.Proofs.ReplayOrder
Purpose: In which order a projection replays the events of an entity: the stream fallback
  always in clock-key order, the entity groups in the order in which they were filled.
Trusted boundary: none
Main exports: replayItems_eq, replay_order_stable
-/
import Batpak.Store.Overlay
import Batpak.Proofs.RestoredIndex
import Batpak.Util.Run

namespace Batpak.Store

open Batpak.Util

variable {a b e : IndexEntry} {entries : List IndexEntry} {ix : OverlaidIndex}

/-! ### Clock-key order -/

theorem clockKeyLe_iff : clockKeyLe a b = true ↔
    a.wallMs < b.wallMs ∨ a.wallMs = b.wallMs ∧
      (a.clock < b.clock ∨ a.clock = b.clock ∧ a.eventId ≤ b.eventId) := by
  simp [clockKeyLe]

instance clockKeyLe_total : Std.Total fun a b : IndexEntry => clockKeyLe a b = true where
  total a b := by
    simp only [clockKeyLe_iff]
    omega

instance clockKeyLe_trans : IsTrans IndexEntry fun a b => clockKeyLe a b = true where
  trans a b c := by
    simp only [clockKeyLe_iff]
    omega

/-- The first entry comes before the second one in clock-key order. -/
def Before (a b : IndexEntry) : Prop :=
  clockKeyLe a b = true ∧ a.eventId ≠ b.eventId

instance : DecidableRel Before := fun a b =>
  inferInstanceAs (Decidable (clockKeyLe a b = true ∧ a.eventId ≠ b.eventId))

instance : Std.Irrefl Before where
  irrefl _ h := h.2 rfl

instance : Std.Antisymm Before where
  antisymm a b hab hba := by
    exfalso
    have h₁ := clockKeyLe_iff.mp hab.1
    have h₂ := clockKeyLe_iff.mp hba.1
    have hne := hab.2
    omega

/-- Sorting entries with distinct ids lists them strictly in clock-key order. -/
theorem pairwise_before_sort (hids : (entries.map (·.eventId)).Nodup) :
    (entries.insertionSort fun a b => clockKeyLe a b).Pairwise Before := by
  have hsorted := List.pairwise_insertionSort (fun a b : IndexEntry => clockKeyLe a b = true) entries
  have hperm := List.perm_insertionSort (fun a b : IndexEntry => clockKeyLe a b = true) entries
  have hnodup : ((entries.insertionSort fun a b => clockKeyLe a b).map (·.eventId)).Nodup :=
    (hperm.map _).nodup_iff.mpr hids
  rw [List.Nodup, List.pairwise_map] at hnodup
  exact hsorted.and hnodup

theorem entityOrder_iff : StoreIndex.entityOrder a b = true ↔
    a.coord.entity < b.coord.entity ∨ a.coord.entity = b.coord.entity ∧ clockKeyLe a b = true := by
  simp [StoreIndex.entityOrder, clockKeyLe]

instance entityOrder_total : Std.Total fun a b : IndexEntry => StoreIndex.entityOrder a b = true where
  total a b := by
    simp only [entityOrder_iff]
    rcases lt_trichotomy a.coord.entity b.coord.entity with h | h | h
    · exact .inl (.inl h)
    · rcases clockKeyLe_total.total a b with hle | hle
      · exact .inl (.inr ⟨h, hle⟩)
      · exact .inr (.inr ⟨h.symm, hle⟩)
    · exact .inr (.inl h)

instance entityOrder_trans : IsTrans IndexEntry fun a b => StoreIndex.entityOrder a b = true where
  trans a b c := by
    simp only [entityOrder_iff]
    rintro (hab | ⟨hab, hle⟩) (hbc | ⟨hbc, hle'⟩)
    · exact .inl (hab.trans hbc)
    · exact .inl (hbc ▸ hab)
    · exact .inl (hab ▸ hbc)
    · exact .inr ⟨hab.trans hbc, clockKeyLe_trans.trans a b c hle hle'⟩

/-! ### The stream -/

section Stream

variable {ix : StoreIndex}

theorem find?_of_nodup {p : IndexEntry → Bool} (hunique : ∀ a ∈ entries, p a = true → a = e)
    (he : e ∈ entries) (hp : p e = true) :
    entries.find? p = some e := by
  cases hfind : entries.find? p with
  | none =>
      have := List.find?_eq_none.mp hfind e he
      exact absurd hp this
  | some a => rw [hunique a (List.mem_of_find?_eq_some hfind) (List.find?_some hfind)]

theorem eq_of_eventId (hids : (entries.map (·.eventId)).Nodup) (ha : a ∈ entries) (hb : b ∈ entries)
    (h : a.eventId = b.eventId) :
    a = b :=
  List.inj_on_of_nodup_map hids ha hb h

theorem byId_of_mem (hids : (ix.inserted.map (·.eventId)).Nodup) (he : e ∈ ix.inserted) :
    ix.byId e.eventId = some e := by
  apply find?_of_nodup (p := fun a => a.eventId == e.eventId) _ he (beq_self_eq_true _)
  intro a ha hkey
  exact eq_of_eventId hids ha he (beq_iff_eq.mp hkey)

/-- With distinct ids the stream is the entries of the entity in clock-key order. -/
theorem stream_eq (hids : (ix.inserted.map (·.eventId)).Nodup) (entity : String) :
    ix.stream entity = (ix.inserted.filter fun e => e.coord.entity == entity).insertionSort
      fun a b => clockKeyLe a b := by
  unfold StoreIndex.stream
  dsimp only
  congr 1
  apply List.filter_eq_self.mpr
  intro e he
  rw [beq_iff_eq]
  apply find?_of_nodup (p := fun a => a.clockKey == e.clockKey) _ he (beq_self_eq_true _)
  intro a ha hkey
  apply eq_of_eventId hids (List.mem_of_mem_filter ha) (List.mem_of_mem_filter he)
  have := beq_iff_eq.mp hkey
  unfold IndexEntry.clockKey at this
  simp only [Prod.mk.injEq] at this
  exact this.2.2

theorem pairwise_stream (hids : (ix.inserted.map (·.eventId)).Nodup) (entity : String) :
    (ix.stream entity).Pairwise Before := by
  rw [stream_eq hids]
  apply pairwise_before_sort
  exact hids.sublist (List.filter_sublist.map _)

theorem mem_stream (hids : (ix.inserted.map (·.eventId)).Nodup) {entity : String} :
    e ∈ ix.stream entity ↔ e ∈ ix.inserted ∧ e.coord.entity = entity := by
  rw [stream_eq hids, List.mem_insertionSort, List.mem_filter, beq_iff_eq]

end Stream

/-! ### Ordered groups -/

/-- The entries of the group of an entity. -/
def Groups.entriesOf (groups : Groups) (entity : String) : List IndexEntry :=
  ((groups entity).map (·.entries)).getD []

/-- No id is indexed twice, an event that is visible on its lane is visible, and the groups
list the indexed events of their entity in clock-key order. -/
structure Ordered (ix : OverlaidIndex) : Prop where
  ids : (ix.index.inserted.map (·.eventId)).Nodup
  visible : ∀ e ∈ ix.index.inserted, ix.index.gate.isVisibleOnLane e.globalSequence e.dagLane →
    ix.index.gate.isVisible e.globalSequence
  sorted : ∀ groups ∈ ix.groups, ∀ entity, (groups.entriesOf entity).Pairwise Before
  members : ∀ groups ∈ ix.groups, ∀ entity e,
    e ∈ groups.entriesOf entity ↔ e ∈ ix.index.inserted ∧ e.coord.entity = entity

/-- What a projection replays, as entries. -/
def relevantVisible (ix : StoreIndex) (entity : String) (kinds : List EventKind) :
    List IndexEntry :=
  ((ix.stream entity).filter fun e => projectionKindMatches kinds e.kind).filter
    fun e => ix.gate.isVisibleOnLane e.globalSequence e.dagLane

section Replay

variable {ix : OverlaidIndex} {entity : String} {kinds : List EventKind}

theorem upgrade_of_mem (h : Ordered ix) (he : e ∈ ix.index.inserted) :
    ix.upgradeHitVisibleOnLane e =
      if ix.index.gate.isVisibleOnLane e.globalSequence e.dagLane then some e else none := by
  unfold OverlaidIndex.upgradeHitVisibleOnLane
  rw [byId_of_mem h.ids he, Option.filter_some]
  by_cases hlane : ix.index.gate.isVisibleOnLane e.globalSequence e.dagLane = true
  · simp [hlane, h.visible e he hlane]
  · simp [hlane]

theorem filterMap_upgrade (h : Ordered ix) {hits : List IndexEntry}
    (hhits : ∀ e ∈ hits, e ∈ ix.index.inserted) :
    hits.filterMap ix.upgradeHitVisibleOnLane =
      hits.filter fun e => ix.index.gate.isVisibleOnLane e.globalSequence e.dagLane := by
  rw [← List.filterMap_eq_filter]
  apply List.filterMap_congr
  intro e he
  rw [upgrade_of_mem h (hhits e he)]
  rfl

/-- In an ordered index the group of an entity is its stream. -/
theorem entriesOf_eq (h : Ordered ix) {groups : Groups} (hgroups : groups ∈ ix.groups) :
    groups.entriesOf entity = ix.index.stream entity := by
  apply (h.sorted groups hgroups entity).eq_of_mem_iff (pairwise_stream h.ids entity)
  intro e
  rw [h.members groups hgroups, mem_stream h.ids]

theorem stream_items (index : StoreIndex) :
    ((OverlaidIndex.streamReplayPlan index entity kinds).map (·.items)).getD [] =
      (relevantVisible index entity kinds).map .fromEntry := by
  unfold OverlaidIndex.streamReplayPlan relevantVisible
  dsimp only
  generalize (index.stream entity).filter (fun e => projectionKindMatches kinds e.kind) = relevant
  cases hlast : relevant.getLast? with
  | none =>
      rw [List.getLast?_eq_none_iff.mp hlast]
      rfl
  | some e => rfl

/-- A projection replays the visible relevant events in clock-key order. -/
theorem replayItems_eq (h : Ordered ix) :
    ix.replayItems entity kinds = (relevantVisible ix.index entity kinds).map .fromEntry := by
  unfold OverlaidIndex.replayItems OverlaidIndex.projectionReplayPlan
  cases hcandidates : (ix.groupOf entity).bind
      fun group => group.projectionCandidates kinds with
  | none => exact stream_items ix.index
  | some found =>
      obtain ⟨group, hgroup, hfound⟩ := Option.bind_eq_some_iff.mp hcandidates
      obtain ⟨groups, hgroups, hentity⟩ := Option.bind_eq_some_iff.mp hgroup
      obtain ⟨last, -, rfl⟩ := Option.map_eq_some_iff.mp hfound
      have hentries : group.entries = ix.index.stream entity := by
        rw [← entriesOf_eq h hgroups, Groups.entriesOf, hentity]
        rfl
      dsimp only [Option.map_some, Option.getD_some]
      rw [filterMap_upgrade h, hentries]
      · rfl
      · intro e he
        rw [hentries] at he
        exact ((mem_stream h.ids).mp (List.mem_of_mem_filter he)).1

end Replay

/-! ### Runs -/

section Runs

/-- A step keeps the groups in clock-key order: an insert comes after the events of its
entity, the swap walks the events of every entity in clock-key order, and what is visible
on a lane stays visible. Without entity groups the order of the inserts does not matter. -/
def InOrder (ix : OverlaidIndex) : OverlaidIndex.IndexStep → Prop
  | .insert entry | .batchEntry entry =>
      (∀ e ∈ ix.index.inserted, e.eventId ≠ entry.eventId) ∧
      (ix.groups.isSome → ∀ e ∈ ix.index.inserted,
        e.coord.entity = entry.coord.entity → Before e entry) ∧
      (ix.index.gate.isVisibleOnLane entry.globalSequence entry.dagLane →
        ix.index.gate.isVisible entry.globalSequence)
  | .restore entries _ =>
      (entries.map (·.eventId)).Nodup ∧
        entries.Pairwise fun a b => a.globalSequence ≤ b.globalSequence
  | .swap fresh walk =>
      (fresh.inserted.map (·.eventId)).Nodup ∧ walk.Perm fresh.inserted ∧
      (ix.groups.isSome → walk.Pairwise fun a b => a.coord.entity = b.coord.entity → Before a b) ∧
      let gate := (ix.index.replaceContentsFromFresh fresh).gate
      ∀ e ∈ fresh.inserted,
        gate.isVisibleOnLane e.globalSequence e.dagLane → gate.isVisible e.globalSequence
  | .gate gate => ∀ e ∈ ix.index.inserted,
      gate.isVisibleOnLane e.globalSequence e.dagLane → gate.isVisible e.globalSequence

instance decidableInOrder (ix : OverlaidIndex) (step : OverlaidIndex.IndexStep) :
    Decidable (InOrder ix step) :=
  match step with
  | .insert _ | .batchEntry _ => inferInstanceAs (Decidable (_ ∧ _ ∧ _))
  | .restore _ _ => inferInstanceAs (Decidable (_ ∧ _))
  | .swap _ _ => inferInstanceAs (Decidable (_ ∧ _ ∧ _ ∧ _))
  | .gate _ => inferInstanceAs (Decidable (∀ _, _))

theorem ordered_new (entityGroups : Bool) (retention : IdempotencyRetention)
    (overflow : OverflowPolicy) : Ordered (.new entityGroups retention overflow) := by
  have hempty : ∀ groups ∈ (OverlaidIndex.new entityGroups retention overflow).groups, ∀ entity,
      groups.entriesOf entity = [] := by
    intro groups hgroups entity
    cases entityGroups with
    | true =>
        cases hgroups
        rfl
    | false => cases hgroups
  refine ⟨List.nodup_nil, ?_, ?_, ?_⟩
  · intro e he
    cases he
  · intro groups hgroups entity
    rw [hempty groups hgroups]
    exact .nil
  · intro groups hgroups entity e
    rw [hempty groups hgroups]
    constructor
    · intro he
      cases he
    · intro he
      cases he.1

theorem entriesOf_push (groups : Groups) (entry : IndexEntry) (entity : String) :
    (groups.push entry).entriesOf entity =
      if entity = entry.coord.entity then groups.entriesOf entity ++ [entry]
      else groups.entriesOf entity := by
  unfold Groups.entriesOf Groups.push
  by_cases h : entity = entry.coord.entity
  · subst h
    rw [if_pos rfl, Function.update_self]
    cases groups entry.coord.entity with
    | none => rfl
    | some group => rfl
  · rw [if_neg h, Function.update_of_ne h]

theorem entriesOf_walk (groups : Groups) (walk : List IndexEntry) (entity : String) :
    (walk.foldl Groups.push groups).entriesOf entity =
      groups.entriesOf entity ++ walk.filter fun e => e.coord.entity == entity := by
  induction walk generalizing groups with
  | nil => simp
  | cons e walk ih =>
      rw [List.foldl_cons, ih, entriesOf_push, List.filter_cons]
      by_cases h : entity = e.coord.entity
      · simp [h]
      · have hne : (e.coord.entity == entity) = false := by
          rw [beq_eq_false_iff_ne]
          exact fun heq => h heq.symm
        simp [h, hne]

theorem members_push {groups : Groups} {inserted : List IndexEntry} {entry : IndexEntry}
    (h : ∀ entity e, e ∈ groups.entriesOf entity ↔ e ∈ inserted ∧ e.coord.entity = entity)
    (entity : String) (e : IndexEntry) :
    e ∈ (groups.push entry).entriesOf entity ↔ e ∈ entry :: inserted ∧ e.coord.entity = entity := by
  rw [entriesOf_push, List.mem_cons]
  split
  · rename_i hentity
    rw [List.mem_append, h, List.mem_singleton]
    constructor
    · rintro (⟨he, hentity'⟩ | rfl)
      · exact ⟨.inr he, hentity'⟩
      · exact ⟨.inl rfl, hentity.symm⟩
    · rintro ⟨rfl | he, hentity'⟩
      · exact .inr rfl
      · exact .inl ⟨he, hentity'⟩
  · rename_i hentity
    rw [h]
    constructor
    · rintro ⟨he, hentity'⟩
      exact ⟨.inr he, hentity'⟩
    · rintro ⟨rfl | he, hentity'⟩
      · exact absurd hentity'.symm hentity
      · exact ⟨he, hentity'⟩

theorem ordered_insert {entry : IndexEntry} {gate : SequenceGate} (h : Ordered ix)
    (hvisible : ∀ s lane, gate.isVisible s = ix.index.gate.isVisible s ∧
      gate.isVisibleOnLane s lane = ix.index.gate.isVisibleOnLane s lane)
    (hok : InOrder ix (.insert entry)) :
    Ordered ((ix.insertInner entry).withGate gate) := by
  obtain ⟨hfresh, hafter, hvis⟩ := hok
  refine ⟨?_, ?_, ?_, ?_⟩
  · change ((entry :: ix.index.inserted).map (·.eventId)).Nodup
    rw [List.map_cons, List.nodup_cons]
    refine ⟨?_, h.ids⟩
    intro hmem
    obtain ⟨e, he, hid⟩ := List.mem_map.mp hmem
    exact hfresh e he hid
  · intro e he
    change gate.isVisibleOnLane _ _ = true → gate.isVisible _ = true
    rw [(hvisible _ 0).1, (hvisible _ _).2]
    rcases List.mem_cons.mp he with rfl | he
    · exact hvis
    · exact h.visible e he
  · intro groups hgroups entity
    obtain ⟨before, hbefore, rfl⟩ := Option.map_eq_some_iff.mp hgroups
    rw [entriesOf_push]
    split
    · rename_i hentity
      rw [List.pairwise_append]
      refine ⟨h.sorted before hbefore entity, List.pairwise_singleton _ _, ?_⟩
      intro a ha b hb
      obtain ⟨ha, haentity⟩ := (h.members before hbefore entity a).mp ha
      rw [List.mem_singleton.mp hb]
      exact hafter (by rw [hbefore]; rfl) a ha (haentity.trans hentity)
    · exact h.sorted before hbefore entity
  · intro groups hgroups entity e
    obtain ⟨before, hbefore, rfl⟩ := Option.map_eq_some_iff.mp hgroups
    exact members_push (h.members before hbefore) entity e

theorem entriesOf_ofSorted (entries : List IndexEntry) (entity : String) :
    (Groups.ofSorted entries).entriesOf entity =
      (entries.insertionSort fun a b => StoreIndex.entityOrder a b).filter
        fun e => e.coord.entity == entity := by
  unfold Groups.entriesOf Groups.ofSorted
  dsimp only
  split
  · rename_i hempty
    rw [List.isEmpty_iff.mp hempty]
    rfl
  · rfl

/-- A restore lists the events of every entity in clock-key order. -/
theorem pairwise_ofSorted (hids : (entries.map (·.eventId)).Nodup) (entity : String) :
    ((Groups.ofSorted entries).entriesOf entity).Pairwise Before := by
  have hsorted := List.pairwise_insertionSort
    (fun a b : IndexEntry => StoreIndex.entityOrder a b = true) entries
  have hperm := List.perm_insertionSort
    (fun a b : IndexEntry => StoreIndex.entityOrder a b = true) entries
  have hnodup := (hperm.map (·.eventId)).nodup_iff.mpr hids
  rw [List.Nodup, List.pairwise_map] at hnodup
  rw [entriesOf_ofSorted, List.pairwise_filter]
  apply (hsorted.and hnodup).imp
  rintro a b ⟨horder, hne⟩ ha hb
  rw [beq_iff_eq] at ha hb
  rcases entityOrder_iff.mp horder with hlt | ⟨-, hle⟩
  · rw [ha, hb] at hlt
    exact absurd hlt (lt_irrefl entity)
  · exact ⟨hle, hne⟩

theorem members_ofSorted (entries : List IndexEntry) (entity : String) (e : IndexEntry) :
    e ∈ (Groups.ofSorted entries).entriesOf entity ↔
      e ∈ entries.reverse ∧ e.coord.entity = entity := by
  rw [entriesOf_ofSorted, List.mem_filter, List.mem_insertionSort, beq_iff_eq, List.mem_reverse]

theorem members_walk {walk inserted : List IndexEntry} (h : walk.Perm inserted) (entity : String)
    (e : IndexEntry) : e ∈ (walk.foldl Groups.push fun _ => none).entriesOf entity ↔
      e ∈ inserted ∧ e.coord.entity = entity := by
  rw [entriesOf_walk]
  change e ∈ walk.filter _ ↔ _
  rw [List.mem_filter, h.mem_iff, beq_iff_eq]

theorem ordered_restore {hint : Nat} (hok : InOrder ix (.restore entries hint)) :
    Ordered (ix.restoreSortedEntries entries hint) := by
  obtain ⟨hids, hsorted⟩ := hok
  refine ⟨?_, ?_, ?_, ?_⟩
  · change (entries.reverse.map (·.eventId)).Nodup
    rw [List.map_reverse, List.nodup_reverse]
    exact hids
  · intro e he _
    have hlt := lt_nextSequence hint hsorted (List.mem_reverse.mp he)
    change (decide (e.globalSequence < StoreIndex.nextSequence entries hint) &&
      !rangeContains [] e.globalSequence) = true
    rw [decide_eq_true hlt]
    rfl
  · intro groups hgroups entity
    obtain ⟨_, _, rfl⟩ := Option.map_eq_some_iff.mp hgroups
    exact pairwise_ofSorted hids entity
  · intro groups hgroups entity e
    obtain ⟨_, _, rfl⟩ := Option.map_eq_some_iff.mp hgroups
    exact members_ofSorted entries entity e

theorem ordered_swap {fresh : StoreIndex} {walk : List IndexEntry}
    (hok : InOrder ix (.swap fresh walk)) : Ordered (ix.replaceContentsFromFresh fresh walk) := by
  obtain ⟨hids, hwalk, horder, hvisible⟩ := hok
  refine ⟨hids, hvisible, ?_, ?_⟩
  · intro groups hgroups entity
    obtain ⟨before, hbefore, rfl⟩ := Option.map_eq_some_iff.mp hgroups
    rw [entriesOf_walk]
    change (walk.filter _).Pairwise Before
    rw [List.pairwise_filter]
    apply (horder (by rw [hbefore]; rfl)).imp
    intro a b hab ha hb
    exact hab ((beq_iff_eq.mp ha).trans (beq_iff_eq.mp hb).symm)
  · intro groups hgroups entity e
    obtain ⟨_, _, rfl⟩ := Option.map_eq_some_iff.mp hgroups
    exact members_walk hwalk entity e

theorem ordered_step {step : OverlaidIndex.IndexStep} (h : Ordered ix) (hok : InOrder ix step) :
    Ordered (ix.indexStep step) := by
  cases step with
  | insert entry => exact ordered_insert h (fun _ _ => ⟨rfl, rfl⟩) hok
  | batchEntry entry => exact ordered_insert h (fun _ _ => ⟨rfl, rfl⟩) hok
  | restore entries hint => exact ordered_restore hok
  | swap fresh walk => exact ordered_swap hok
  | gate gate => exact ⟨h.ids, hok, h.sorted, h.members⟩

/-- The index was filled, from empty and under some topology, by steps that all keep the
groups in clock-key order. -/
def FilledInOrder (ix : OverlaidIndex) : Prop :=
  ∃ topology retention overflow steps,
    Guarded OverlaidIndex.indexStep InOrder (.new topology retention overflow) steps ∧
      run OverlaidIndex.indexStep (.new topology retention overflow) steps = ix

theorem FilledInOrder.ordered (h : FilledInOrder ix) : Ordered ix := by
  obtain ⟨topology, retention, overflow, steps, hsteps, rfl⟩ := h
  exact run_invariant (fun _ _ => ordered_step) steps _
    (ordered_new topology retention overflow) hsteps

/-- The part of an entry that decides whether and when a replay reads it: neither its place on
disk nor what a restore may store differently. -/
def IndexEntry.replayed (e : IndexEntry) : IndexEntry :=
  { (default : IndexEntry) with
    eventId := e.eventId
    coord := { (default : Coordinate) with entity := e.coord.entity }
    kind := e.kind
    wallMs := e.wallMs
    clock := e.clock
    dagLane := e.dagLane
    globalSequence := e.globalSequence }

/-- An item without its place on disk. -/
def ProjectionReplayItem.unplaced (item : ProjectionReplayItem) : ProjectionReplayItem :=
  { item with diskPos := default }

theorem mem_stream_replayed (h : Ordered ix) {entity : String} :
    e ∈ (ix.index.stream entity).map IndexEntry.replayed ↔
      e ∈ ix.index.inserted.map IndexEntry.replayed ∧ e.coord.entity = entity := by
  simp only [List.mem_map, mem_stream h.ids]
  constructor
  · rintro ⟨x, ⟨hx, hentity⟩, rfl⟩
    exact ⟨⟨x, hx, rfl⟩, hentity⟩
  · rintro ⟨⟨x, hx, rfl⟩, hentity⟩
    exact ⟨x, ⟨hx, hentity⟩, rfl⟩

/-- The order and the filters of a replay look at nothing else. -/
theorem unplaced_replayItems (h : Ordered ix) (entity : String) (kinds : List EventKind) :
    (ix.replayItems entity kinds).map ProjectionReplayItem.unplaced =
      ((((ix.index.stream entity).map IndexEntry.replayed).filter
        fun e => projectionKindMatches kinds e.kind).filter
          fun e => ix.index.gate.isVisibleOnLane e.globalSequence e.dagLane).map
            ProjectionReplayItem.fromEntry := by
  rw [replayItems_eq h, List.filter_map, List.filter_map, List.map_map, List.map_map]
  rfl

/-- Two indexes that hold the same events with the same visibility replay every entity in the
same order, whatever their topologies, whether they were filled live, restored or swapped in and
wherever the events lie on disk, when no step brought the groups out of clock-key order. -/
theorem replay_order_stable {ix ix' : OverlaidIndex} (hfilled : FilledInOrder ix)
    (hfilled' : FilledInOrder ix')
    (hsame : ∀ e, e ∈ ix.index.inserted.map IndexEntry.replayed ↔
      e ∈ ix'.index.inserted.map IndexEntry.replayed)
    (hvisible : ∀ e ∈ ix.index.inserted, ix.index.gate.isVisibleOnLane e.globalSequence e.dagLane =
      ix'.index.gate.isVisibleOnLane e.globalSequence e.dagLane)
    (entity : String) (kinds : List EventKind) :
    (ix.replayItems entity kinds).map ProjectionReplayItem.unplaced =
      (ix'.replayItems entity kinds).map ProjectionReplayItem.unplaced := by
  have h := hfilled.ordered
  have h' := hfilled'.ordered
  have hbefore : ∀ {index : OverlaidIndex}, Ordered index →
      ((index.index.stream entity).map IndexEntry.replayed).Pairwise Before := by
    intro index hindex
    exact List.pairwise_map.mpr (pairwise_stream hindex.ids entity)
  have hstream : (ix.index.stream entity).map IndexEntry.replayed =
      (ix'.index.stream entity).map IndexEntry.replayed := by
    apply (hbefore h).eq_of_mem_iff (hbefore h')
    intro e
    rw [mem_stream_replayed h, mem_stream_replayed h', hsame]
  rw [unplaced_replayItems h, unplaced_replayItems h', ← hstream]
  congr 1
  apply List.filter_congr
  intro e he
  obtain ⟨x, hx, rfl⟩ := List.mem_map.mp
    ((mem_stream_replayed h).mp (List.mem_of_mem_filter he)).1
  exact hvisible x hx

/-- An event of one entity, written in the first millisecond. -/
def laneEvent (eventId clock dagLane globalSequence : Nat) : IndexEntry :=
  { (default : IndexEntry) with
    eventId := eventId
    coord := { (default : Coordinate) with entity := "order" }
    wallMs := 1
    clock := clock
    dagLane := dagLane
    globalSequence := globalSequence }

/-- The two events of lane 0, appended under entity groups. -/
def appendedInOrder : OverlaidIndex :=
  run OverlaidIndex.indexStep (.new true default default)
    [.insert (laneEvent 1 0 0 0), .insert (laneEvent 2 1 0 1),
      .gate { SequenceGate.new with
        allocated := 2
        visible := 2
        laneVisible := StoreIndex.laneVisibleFromEntries [laneEvent 1 0 0 0, laneEvent 2 1 0 1] }]

/-- The same events behind one another in a merged segment. -/
def mergedEvents : List IndexEntry :=
  [{ laneEvent 1 0 0 0 with diskPos := ⟨7, 49, 40⟩ },
    { laneEvent 2 1 0 1 with diskPos := ⟨7, 89, 40⟩ }]

/-- The same events after a restart and a compaction, without entity groups. -/
def compactedInOrder : OverlaidIndex :=
  run OverlaidIndex.indexStep (.new false default default)
    [.restore [laneEvent 1 0 0 0, laneEvent 2 1 0 1] 0,
      .swap ((StoreIndex.new default default).restoreSortedEntries mergedEvents 0) mergedEvents]

theorem one_lane_replays_alike :
    (appendedInOrder.replayItems "order" []).map ProjectionReplayItem.unplaced =
        (compactedInOrder.replayItems "order" []).map ProjectionReplayItem.unplaced ∧
      (compactedInOrder.replayItems "order" []).map
        (fun item => (item.globalSequence, item.diskPos.segmentId)) = [(0, 7), (1, 7)] :=
  ⟨replay_order_stable ⟨true, default, default, _, by decide +kernel, rfl⟩
    ⟨false, default, default, _, by decide +kernel, rfl⟩ (fun _ => Iff.rfl) (by decide +kernel)
    _ _, by decide +kernel⟩

/-- Everything below the third sequence is visible on both lanes. -/
def bothLanesVisible : SequenceGate :=
  { SequenceGate.new with
    allocated := 3
    visible := 3
    laneVisible := fun _ => 3 }

/-- Two events on lane 0, then one on lane 1, all in one millisecond. -/
def threeAppends : List OverlaidIndex.IndexStep :=
  [.insert (laneEvent 1 0 0 0), .insert (laneEvent 2 1 0 1), .insert (laneEvent 3 0 1 2),
    .gate bothLanesVisible]

def filledLive (entityGroups : Bool) : OverlaidIndex :=
  run OverlaidIndex.indexStep (.new entityGroups default default) threeAppends

/-- The groups replay the three events as they were appended; the stream, which a restore or
another topology replays, has the event of lane 1 before the second one of lane 0. -/
theorem lanes_in_one_millisecond_reorder :
    (filledLive true).index = (filledLive false).index ∧
    ((filledLive true).replayItems "order" []).map (·.globalSequence) = [0, 1, 2] ∧
    ((filledLive false).replayItems "order" []).map (·.globalSequence) = [0, 2, 1] :=
  ⟨rfl, by decide +kernel, by decide +kernel⟩

end Runs

end Batpak.Store
