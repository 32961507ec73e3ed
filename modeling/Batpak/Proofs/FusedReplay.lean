/-
Module: Batpak.Proofs.FusedReplay
Purpose: When the fused replay of two or three projections returns what their separate calls
  return.
Trusted boundary: none
Main exports: Fusable, fused_replay_agrees
-/
import Batpak.Proofs.ReplayAnswers
import Batpak.Proofs.ReplayOrder

namespace Batpak.Store

open Batpak.Util OverlaidIndex

variable {ε σ : Type}

/-! ### The union of the kinds -/

theorem mem_collected {kind : EventKind} (flat acc : List EventKind) :
    kind ∈ flat.foldl (fun kinds kind =>
      if kinds.contains kind then kinds else kinds ++ [kind]) acc ↔ kind ∈ acc ∨ kind ∈ flat := by
  induction flat generalizing acc with
  | nil => simp
  | cons k flat ih =>
      rw [List.foldl_cons, ih]
      split
      · rename_i hmem
        have := List.contains_iff_mem.mp hmem
        constructor
        · rintro (h | h)
          · exact .inl h
          · exact .inr (List.mem_cons_of_mem k h)
        · rintro (h | h)
          · exact .inl h
          · rcases List.mem_cons.mp h with rfl | h
            · exact .inl this
            · exact .inr h
      · simp [or_assoc]

/-- The union takes every kind that one of the projections takes. -/
theorem collected_matches {slices : List (List EventKind)} {kinds : List EventKind}
    (hkinds : kinds ∈ slices) {kind : EventKind} (h : projectionKindMatches kinds kind = true) :
    projectionKindMatches (collectRelevantKinds slices) kind = true := by
  unfold collectRelevantKinds
  split
  · rfl
  · rename_i hempty
    have hne : kinds.isEmpty = false := by
      by_contra hall
      rw [Bool.not_eq_false] at hall
      exact hempty (List.any_eq_true.mpr ⟨kinds, hkinds, hall⟩)
    have hmem : kind ∈ kinds := by simpa [projectionKindMatches, hne] using h
    have : kind ∈ slices.flatten := List.mem_flatten.mpr ⟨kinds, hkinds, hmem⟩
    unfold projectionKindMatches
    rw [Bool.or_eq_true]
    right
    rw [List.contains_iff_mem, mem_collected]
    exact .inr this

/-! ### What a plan draws from -/

/-- Every indexed event of an entity by its kind, with its position when a projection sees
it: from the group of the entity, from its stream without one. -/
def planSource (ix : OverlaidIndex) (entity : String) : List (EventKind × Option DiskPos) :=
  match ix.groupOf entity with
  | some group => group.entries.map fun e =>
      (e.kind, (ix.upgradeHitVisibleOnLane e).map (·.diskPos))
  | none => (ix.index.stream entity).map fun e =>
      (e.kind, if ix.index.gate.isVisibleOnLane e.globalSequence e.dagLane then some e.diskPos
        else none)

def sourceOf (ix : OverlaidIndex) (entity : String) (kinds : List EventKind) :
    List (EventKind × Option DiskPos) :=
  (planSource ix entity).filter fun s => projectionKindMatches kinds s.1

/-- The index describes the events of an entity: the kinds of its stream occur in its group,
and the frame of an event carries the kind under which the event is indexed. -/
structure Described (st : ProjectionStore ε) (entity : String) : Prop where
  grouped : ∀ group, st.index.groupOf entity = some group →
    ∀ e ∈ st.index.index.stream entity, ∃ e' ∈ group.entries, e'.kind = e.kind
  frames : ∀ kind pos, (kind, some pos) ∈ planSource st.index entity →
    ∀ event, st.read pos = .ok event → st.kindOf event = kind

/-! ### Indexes that describe their events -/

/-- No id is indexed twice, and a group holds the indexed events of its entity. -/
structure Grouped (ix : OverlaidIndex) : Prop where
  ids : (ix.index.inserted.map (·.eventId)).Nodup
  members : ∀ groups ∈ ix.groups, ∀ entity e,
    e ∈ groups.entriesOf entity ↔ e ∈ ix.index.inserted ∧ e.coord.entity = entity

/-- A step indexes no id twice, and a swap walks every adopted entry. -/
def NewIds (ix : OverlaidIndex) : IndexStep → Prop
  | .insert entry | .batchEntry entry => ∀ e ∈ ix.index.inserted, e.eventId ≠ entry.eventId
  | .restore entries _ => (entries.map (·.eventId)).Nodup
  | .swap fresh walk => (fresh.inserted.map (·.eventId)).Nodup ∧ walk.Perm fresh.inserted
  | .gate _ => True

theorem Grouped.insertInner {ix : OverlaidIndex} {entry : IndexEntry} (h : Grouped ix)
    (hfresh : ∀ e ∈ ix.index.inserted, e.eventId ≠ entry.eventId) :
    Grouped (ix.insertInner entry) := by
  constructor
  · change ((entry :: ix.index.inserted).map (·.eventId)).Nodup
    rw [List.map_cons, List.nodup_cons]
    refine ⟨?_, h.ids⟩
    intro hmem
    obtain ⟨e, he, hid⟩ := List.mem_map.mp hmem
    exact hfresh e he hid
  · intro groups hgroups entity e
    obtain ⟨before, hbefore, rfl⟩ := Option.map_eq_some_iff.mp hgroups
    exact members_push (h.members before hbefore) entity e

theorem Grouped.step {ix : OverlaidIndex} {step : IndexStep} (h : Grouped ix)
    (hok : NewIds ix step) : Grouped (ix.indexStep step) := by
  cases step with
  | insert entry =>
      have hinserted := h.insertInner hok
      exact ⟨hinserted.ids, hinserted.members⟩
  | batchEntry entry => exact h.insertInner hok
  | restore entries hint =>
      constructor
      · change (entries.reverse.map (·.eventId)).Nodup
        rw [List.map_reverse, List.nodup_reverse]
        exact hok
      · intro groups hgroups entity e
        obtain ⟨_, _, rfl⟩ := Option.map_eq_some_iff.mp hgroups
        exact members_ofSorted entries entity e
  | swap fresh walk =>
      obtain ⟨hids, hwalk⟩ := hok
      refine ⟨hids, ?_⟩
      intro groups hgroups entity e
      obtain ⟨_, _, rfl⟩ := Option.map_eq_some_iff.mp hgroups
      exact members_walk hwalk entity e
  | gate gate => exact ⟨h.ids, h.members⟩

/-- Every index filled from empty with distinct ids holds its events in its groups. -/
theorem grouped_run (entityGroups : Bool) (retention : IdempotencyRetention)
    (overflow : OverflowPolicy) (steps : List IndexStep)
    (hsteps : Guarded indexStep NewIds (.new entityGroups retention overflow) steps) :
    Grouped (run indexStep (.new entityGroups retention overflow) steps) := by
  apply run_invariant (fun _ _ => Grouped.step) steps _ _ hsteps
  have hnew := ordered_new entityGroups retention overflow
  exact ⟨hnew.ids, hnew.members⟩

/-- Such an index describes the events of every entity when each frame carries the kind its
entry has. -/
theorem Grouped.described {st : ProjectionStore ε} (h : Grouped st.index)
    (hframes : ∀ e ∈ st.index.index.inserted, ∀ event, st.read e.diskPos = .ok event →
      st.kindOf event = e.kind) (entity : String) : Described st entity := by
  have hgroup : ∀ group, st.index.groupOf entity = some group → ∀ e,
      e ∈ group.entries ↔ e ∈ st.index.index.inserted ∧ e.coord.entity = entity := by
    intro group hgroup e
    obtain ⟨groups, hgroups, hentity⟩ := Option.bind_eq_some_iff.mp hgroup
    rw [← h.members groups hgroups, Groups.entriesOf, hentity]
    rfl
  constructor
  · intro group hsome e he
    exact ⟨e, (hgroup group hsome e).mpr ((mem_stream h.ids).mp he), rfl⟩
  · intro kind pos hmem event hread
    unfold planSource at hmem
    split at hmem
    · rename_i group hsome
      obtain ⟨e, he, heq⟩ := List.mem_map.mp hmem
      have hin := ((hgroup group hsome e).mp he).1
      obtain ⟨rfl, hshown⟩ := Prod.mk.inj heq
      obtain ⟨e', hupgrade, rfl⟩ := Option.map_eq_some_iff.mp hshown
      unfold upgradeHitVisibleOnLane at hupgrade
      rw [byId_of_mem h.ids hin] at hupgrade
      obtain ⟨hsame, -⟩ := Option.filter_eq_some_iff.mp hupgrade
      cases hsame
      exact hframes e hin event hread
    · obtain ⟨e, he, heq⟩ := List.mem_map.mp hmem
      obtain ⟨rfl, hshown⟩ := Prod.mk.inj heq
      split at hshown
      · cases hshown
        exact hframes e ((mem_stream h.ids).mp he).1 event hread
      · cases hshown

section Source

variable {st : ProjectionStore ε} {entity : String}

theorem filterMap_shown (entries : List IndexEntry) (shown : IndexEntry → Bool) :
    entries.filterMap (fun e => if shown e then some e.diskPos else none) =
      (entries.filter shown).map (·.diskPos) := by
  induction entries with
  | nil => rfl
  | cons e rest ih =>
      rw [List.filterMap_cons, List.filter_cons]
      split
      · rename_i hhidden
        have : shown e = false := by
          by_contra hshown
          rw [Bool.not_eq_false] at hshown
          rw [if_pos hshown] at hhidden
          cases hhidden
        simp [this, ih]
      · rename_i pos hpos
        split at hpos
        · rename_i hshown
          cases hpos
          simp [hshown, ih]
        · cases hpos

theorem stream_positions (hgroup : st.index.groupOf entity = none) (kinds : List EventKind) :
    (streamReplayPlan st.index.index entity kinds).map (fun plan => plan.items.map (·.diskPos)) =
      if (sourceOf st.index entity kinds).isEmpty then none
      else some ((sourceOf st.index entity kinds).filterMap (·.2)) := by
  unfold streamReplayPlan sourceOf planSource
  rw [hgroup]
  dsimp only
  rw [List.filter_map, List.isEmpty_map, List.filterMap_map]
  change _ = if ((st.index.index.stream entity).filter
      fun e => projectionKindMatches kinds e.kind).isEmpty then none else some
    (((st.index.index.stream entity).filter
      fun e => projectionKindMatches kinds e.kind).filterMap fun e =>
        if st.index.index.gate.isVisibleOnLane e.globalSequence e.dagLane then some e.diskPos
        else none)
  rw [filterMap_shown]
  generalize (st.index.index.stream entity).filter
    (fun e => projectionKindMatches kinds e.kind) = relevant
  cases hlast : relevant.getLast? with
  | none =>
      rw [List.getLast?_eq_none_iff.mp hlast]
      rfl
  | some last =>
      have hne : relevant.isEmpty = false := by
        cases relevant with
        | nil => cases hlast
        | cons _ _ => rfl
      rw [hne]
      dsimp only [Option.map_some]
      rw [List.map_map]
      rfl

theorem group_positions {group : EntityGroup} (hgroup : st.index.groupOf entity = some group)
    (kinds : List EventKind) :
    (group.projectionCandidates kinds).map (fun found =>
        ((found.2.2.filterMap st.index.upgradeHitVisibleOnLane).map
          ProjectionReplayItem.fromEntry).map (·.diskPos)) =
      if (sourceOf st.index entity kinds).isEmpty then none
      else some ((sourceOf st.index entity kinds).filterMap (·.2)) := by
  unfold EntityGroup.projectionCandidates sourceOf planSource
  rw [hgroup]
  dsimp only
  rw [List.filter_map, List.isEmpty_map, List.filterMap_map]
  change _ = if (group.entries.filter fun e => projectionKindMatches kinds e.kind).isEmpty
    then none else some ((group.entries.filter fun e => projectionKindMatches kinds e.kind).filterMap
      fun e => (st.index.upgradeHitVisibleOnLane e).map (·.diskPos))
  generalize group.entries.filter (fun e => projectionKindMatches kinds e.kind) = relevant
  cases hlast : relevant.getLast? with
  | none =>
      rw [List.getLast?_eq_none_iff.mp hlast]
      rfl
  | some last =>
      have hne : relevant.isEmpty = false := by
        cases relevant with
        | nil => cases hlast
        | cons _ _ => rfl
      rw [hne, Option.map_some, Option.map_some, List.map_map, List.map_filterMap]
      rfl

/-- There is a plan when the source has an event of the kinds, and it reads the positions
among them. -/
theorem plan_positions (h : Described st entity) (kinds : List EventKind) :
    (st.index.projectionReplayPlan entity kinds).map (fun plan => plan.items.map (·.diskPos)) =
      if (sourceOf st.index entity kinds).isEmpty then none
      else some ((sourceOf st.index entity kinds).filterMap (·.2)) := by
  unfold projectionReplayPlan
  cases hgroup : st.index.groupOf entity with
  | none => exact stream_positions hgroup kinds
  | some group =>
      rw [← group_positions hgroup kinds, Option.bind_some]
      cases hcandidates : group.projectionCandidates kinds with
      | some found => rfl
      | none =>
          -- the group has no event of the kinds, so its stream has none either
          have hnone : ∀ e ∈ group.entries, projectionKindMatches kinds e.kind = false := by
            intro e he
            rw [EntityGroup.projectionCandidates, Option.map_eq_none_iff,
              List.getLast?_eq_none_iff, List.filter_eq_nil_iff] at hcandidates
            exact Bool.not_eq_true _ ▸ hcandidates e he
          have hempty : (st.index.index.stream entity).filter
              (fun e => projectionKindMatches kinds e.kind) = [] := by
            rw [List.filter_eq_nil_iff]
            intro e he
            obtain ⟨e', he', hkind⟩ := h.grouped group hgroup e he
            rw [← hkind, hnone e' he']
            exact Bool.false_ne_true
          dsimp only
          unfold streamReplayPlan
          dsimp only
          rw [hempty]
          rfl

/-! ### Reading the views -/

theorem readBatch_positions (items : List ProjectionReplayItem) :
    st.readBatch items = (items.map (·.diskPos)).mapM st.read := by
  rw [List.mapM_map]
  rfl

theorem mapM_cons_ok {read : DiskPos → Except StoreError ε} {pos : DiskPos}
    {rest : List DiskPos} {events : List ε} : (pos :: rest).mapM read = .ok events ↔
      ∃ event events', read pos = .ok event ∧ rest.mapM read = .ok events' ∧
        events = event :: events' := by
  rw [List.mapM_cons]
  cases read pos with
  | error e =>
      constructor
      · intro h
        cases h
      · rintro ⟨_, _, h, -⟩
        cases h
  | ok event =>
      cases rest.mapM read with
      | error e =>
          constructor
          · intro h
            cases h
          · rintro ⟨_, _, -, h, -⟩
            cases h
      | ok events' =>
          constructor
          · intro h
            cases h
            exact ⟨event, events', rfl, rfl, rfl⟩
          · rintro ⟨_, _, h₁, h₂, rfl⟩
            cases h₁
            cases h₂
            rfl

/-- Reading the part of a source with the kinds of one projection gives the events of these
kinds among those of the whole. -/
theorem read_view {read : DiskPos → Except StoreError ε} {kindOf : ε → EventKind}
    {narrow wide : List EventKind} {source : List (EventKind × Option DiskPos)}
    (hnarrow : ∀ kind, projectionKindMatches narrow kind = true →
      projectionKindMatches wide kind = true)
    (hframes : ∀ kind pos, (kind, some pos) ∈ source →
      ∀ event, read pos = .ok event → kindOf event = kind)
    {events : List ε}
    (hread : ((source.filter fun s => projectionKindMatches wide s.1).filterMap (·.2)).mapM read =
      .ok events) :
    ((source.filter fun s => projectionKindMatches narrow s.1).filterMap (·.2)).mapM read =
      .ok (events.filter fun event => projectionKindMatches narrow (kindOf event)) := by
  induction source generalizing events with
  | nil =>
      cases hread
      rfl
  | cons s rest ih =>
      obtain ⟨kind, shown⟩ := s
      have hrest := fun kind pos hmem => hframes kind pos (List.mem_cons_of_mem _ hmem)
      rw [List.filter_cons] at hread ⊢
      dsimp only at hread ⊢
      by_cases hwide : projectionKindMatches wide kind = true
      · rw [if_pos hwide] at hread
        cases shown with
        | none =>
            rw [List.filterMap_cons_none rfl] at hread
            have := ih hrest hread
            split
            · rw [List.filterMap_cons_none rfl]
              exact this
            · exact this
        | some pos =>
            have hsome : (fun s : EventKind × Option DiskPos => s.2) (kind, some pos) = some pos := rfl
            rw [List.filterMap_cons_some hsome] at hread
            obtain ⟨event, events', hevent, hevents', rfl⟩ := mapM_cons_ok.mp hread
            have hkind := hframes kind pos List.mem_cons_self event hevent
            have := ih hrest hevents'
            rw [List.filter_cons, hkind]
            split
            · rw [List.filterMap_cons_some hsome]
              exact mapM_cons_ok.mpr ⟨event, _, hevent, this, rfl⟩
            · exact this
      · have hn : ¬ projectionKindMatches narrow kind = true := fun h => hwide (hnarrow kind h)
        rw [if_neg hwide] at hread
        rw [if_neg hn]
        exact ih hrest hread

end Source

/-! ### One component -/

section Component

variable {p : Projection ε σ} {faults : CacheFaults} {entity : String} {st : ProjectionStore ε}
  {kinds : List EventKind}

/-- The fold of the visible events of a projection; no state without an indexed event of its
kinds. -/
def foldedState (p : Projection ε σ) (entity : String) (st : ProjectionStore ε) :
    Except StoreError (Option σ) :=
  match st.index.projectionReplayPlan entity p.relevantEventKinds with
  | none => .ok none
  | some plan => (st.readBatch plan.items).map p.fromEvents

/-- What the fused replay over the given kinds makes of a projection. -/
def fusedState (p : Projection ε σ) (kinds : List EventKind) (entity : String)
    (st : ProjectionStore ε) : Except StoreError (Option σ) :=
  match st.index.projectionReplayPlan entity kinds with
  | none => .ok none
  | some plan => (st.readBatch plan.items).map fun events =>
      p.fromEvents (filteredProjectionEvents p st.kindOf events)

/-- The events of the given kinds can all be read. -/
def UnionReadable (kinds : List EventKind) (entity : String) (st : ProjectionStore ε) : Prop :=
  ∀ plan, st.index.projectionReplayPlan entity kinds = some plan →
    ∀ item ∈ plan.items, ∃ event, st.read item.diskPos = .ok event

theorem readBatch_ok_iff {items : List ProjectionReplayItem} :
    (∃ events, st.readBatch items = .ok events) ↔
      ∀ item ∈ items, ∃ event, st.read item.diskPos = .ok event := by
  rw [readBatch_positions]
  induction items with
  | nil =>
      constructor
      · intro _ item hitem
        cases hitem
      · intro _
        exact ⟨[], rfl⟩
  | cons item rest ih =>
      rw [List.forall_mem_cons, ← ih, List.map_cons]
      constructor
      · rintro ⟨events, hevents⟩
        obtain ⟨event, events', hevent, hevents', -⟩ := mapM_cons_ok.mp hevents
        exact ⟨⟨event, hevent⟩, events', hevents'⟩
      · rintro ⟨⟨event, hevent⟩, events', hevents'⟩
        exact ⟨_, mapM_cons_ok.mpr ⟨event, events', hevent, hevents', rfl⟩⟩

/-- With the events of the union readable, a component without an indexed event of its kinds
is the fold of nothing, and every other one is the fold of its own events. -/
theorem fusedState_cases (h : Described st entity)
    (hsub : ∀ kind, projectionKindMatches p.relevantEventKinds kind = true →
      projectionKindMatches kinds kind = true) (hread : UnionReadable kinds entity st) :
    (st.index.projectionReplayPlan entity p.relevantEventKinds = none ∧
      foldedState p entity st = .ok none ∧
      fusedState p kinds entity st = .ok
        (if (st.index.projectionReplayPlan entity kinds).isSome then p.fromEvents [] else none)) ∨
    (∃ plan state, st.index.projectionReplayPlan entity p.relevantEventKinds = some plan ∧
      foldedState p entity st = .ok state ∧ fusedState p kinds entity st = .ok state) := by
  have hown := plan_positions h p.relevantEventKinds
  have hunion := plan_positions h kinds
  have hsource : (sourceOf st.index entity kinds).isEmpty = true →
      (sourceOf st.index entity p.relevantEventKinds).isEmpty = true := by
    intro hempty
    rw [List.isEmpty_iff, sourceOf, List.filter_eq_nil_iff] at hempty ⊢
    exact fun s hs hmatch => hempty s hs (hsub s.1 hmatch)
  unfold foldedState fusedState
  cases hplan : st.index.projectionReplayPlan entity kinds with
  | none =>
      rw [hplan] at hunion
      have hempty : (sourceOf st.index entity kinds).isEmpty = true := by
        by_contra hne
        rw [if_neg hne] at hunion
        cases hunion
      rw [if_pos (hsource hempty), Option.map_eq_none_iff] at hown
      rw [hown]
      exact .inl ⟨rfl, rfl, rfl⟩
  | some union =>
      obtain ⟨events, hevents⟩ := readBatch_ok_iff.mpr (hread union hplan)
      rw [hplan] at hunion
      have hne : ¬ (sourceOf st.index entity kinds).isEmpty = true := by
        intro hempty
        rw [if_pos hempty] at hunion
        cases hunion
      rw [if_neg hne, Option.map_some, Option.some.injEq] at hunion
      have hview := @read_view _ st.read st.kindOf _ kinds _ hsub h.frames events (by
        change ((sourceOf st.index entity kinds).filterMap _).mapM st.read = _
        rw [← hunion, ← readBatch_positions]
        exact hevents)
      change ((sourceOf st.index entity p.relevantEventKinds).filterMap _).mapM st.read =
        .ok (filteredProjectionEvents p st.kindOf events) at hview
      dsimp only
      rw [hevents]
      cases hplan' : st.index.projectionReplayPlan entity p.relevantEventKinds with
      | none =>
          rw [hplan'] at hown
          have hempty : sourceOf st.index entity p.relevantEventKinds = [] := by
            by_contra hne
            rw [if_neg (fun h => hne (List.isEmpty_iff.mp h))] at hown
            cases hown
          rw [hempty] at hview
          have hnil : filteredProjectionEvents p st.kindOf events = [] := (Except.ok.inj hview).symm
          refine .inl ⟨rfl, rfl, ?_⟩
          change Except.ok (p.fromEvents (filteredProjectionEvents p st.kindOf events)) = _
          rw [hnil]
          rfl
      | some plan =>
          rw [hplan'] at hown
          have hne : ¬ (sourceOf st.index entity p.relevantEventKinds).isEmpty = true := by
            intro hempty
            rw [if_pos hempty] at hown
            cases hown
          rw [if_neg hne, Option.map_some, Option.some.injEq] at hown
          rw [← hown, ← readBatch_positions] at hview
          refine .inr ⟨plan, _, rfl, ?_, rfl⟩
          dsimp only
          rw [hview]
          rfl

/-- What a component must meet for the fused replay to agree with its separate call: its
contract accepts the fold of its events, it folds nothing to no state when it has no indexed
event of its kinds but another component has, and a remembered state that the separate call
starts from is brought up to that fold. -/
structure Fusable (p : Projection ε σ) (faults : CacheFaults) (kinds : List EventKind)
    (entity : String) (st : ProjectionStore ε) : Prop where
  accepted : ∀ state, foldedState p entity st = .ok state →
    validateProjectionState p entity state = .ok ()
  emptyView : st.index.projectionReplayPlan entity p.relevantEventKinds = none →
    (st.index.projectionReplayPlan entity kinds).isSome → p.fromEvents [] = none
  remembered : ∀ plan, st.index.projectionReplayPlan entity p.relevantEventKinds = some plan →
    ∀ cached items, startingPoint p faults entity plan st = some (cached, items) →
      (bringUp p st cached items).map some = foldedState p entity st

/-- The separate call of a component returns: its contract accepts the state it computes. -/
def Answers (p : Projection ε σ) (faults : CacheFaults) (entity : String)
    (st : ProjectionStore ε) : Prop :=
  ∃ state, separateState p faults entity st = .ok state ∧
    validateProjectionState p entity state = .ok ()

/-- The separate call returns what the fused replay returns for a component exactly when the
component meets the condition. -/
theorem project_eq_fusedState (h : Described st entity)
    (hsub : ∀ kind, projectionKindMatches p.relevantEventKinds kind = true →
      projectionKindMatches kinds kind = true) (hread : UnionReadable kinds entity st)
    {state : Option σ} (hstate : fusedState p kinds entity st = .ok state) :
    (project p faults entity st).1 = .ok state ↔ Fusable p faults kinds entity st := by
  rw [project_ok]
  unfold separateState
  rcases fusedState_cases h hsub hread with ⟨hplan, hfolded, hfused⟩ |
    ⟨plan, folded, hplan, hfolded, hfused⟩
  · rw [hstate, Except.ok.injEq] at hfused
    rw [hplan]
    constructor
    · rintro ⟨hnone, hvalid⟩
      cases hnone
      refine ⟨?_, ?_, ?_⟩
      · intro state hok
        rw [hfolded] at hok
        cases hok
        exact hvalid
      · intro _ hsome
        rw [hsome] at hfused
        exact hfused.symm
      · intro plan hsome
        rw [hplan] at hsome
        cases hsome
    · intro hfusable
      have hnone : state = none := by
        rw [hfused]
        split
        · rename_i hsome
          exact hfusable.emptyView hplan hsome
        · rfl
      subst hnone
      exact ⟨rfl, hfusable.accepted none hfolded⟩
  · rw [hstate, Except.ok.injEq] at hfused
    subst hfused
    have hfull : (st.readBatch plan.items).map p.fromEvents = .ok state := by
      rw [← hfolded, foldedState, hplan]
    rw [hplan]
    dsimp only
    unfold plannedState
    constructor
    · rintro ⟨hplanned, hvalid⟩
      refine ⟨?_, ?_, ?_⟩
      · intro state' hok
        rw [hfolded] at hok
        cases hok
        exact hvalid
      · intro hnone
        rw [hplan] at hnone
        cases hnone
      · intro plan' hplan' cached items hstart
        rw [hplan] at hplan'
        cases hplan'
        rw [hstart] at hplanned
        rw [hfolded]
        exact hplanned
    · intro hfusable
      refine ⟨?_, hfusable.accepted state hfolded⟩
      cases hstart : startingPoint p faults entity plan st with
      | none => exact hfull
      | some start =>
          obtain ⟨cached, items⟩ := start
          dsimp only
          rw [hfusable.remembered plan hplan cached items hstart, hfolded]

theorem answers_iff : Answers p faults entity st ↔
    ∃ state, (project p faults entity st).1 = .ok state := by
  unfold Answers
  simp only [project_ok]

end Component

/-! ### The fused replay -/

section Fused

variable {σ₁ σ₂ σ₃ : Type} {entity : String} {st : ProjectionStore ε}

theorem fusedState_error {p : Projection ε σ} {kinds : List EventKind}
    (hread : ¬ UnionReadable kinds entity st) : ∃ e, fusedState p kinds entity st = .error e := by
  unfold UnionReadable at hread
  simp only [not_forall] at hread
  obtain ⟨plan, hplan, hitems⟩ := hread
  unfold fusedState
  rw [hplan]
  dsimp only
  cases hbatch : st.readBatch plan.items with
  | error e => exact ⟨e, rfl⟩
  | ok events =>
      exfalso
      obtain ⟨item, hitem, hnone⟩ := hitems
      exact hnone (readBatch_ok_iff.mp ⟨events, hbatch⟩ item hitem)

theorem fusedState_ok {p : Projection ε σ} {kinds : List EventKind}
    (hread : UnionReadable kinds entity st) : ∃ state, fusedState p kinds entity st = .ok state := by
  unfold fusedState
  split
  · exact ⟨none, rfl⟩
  · rename_i plan hplan
    obtain ⟨events, hevents⟩ := readBatch_ok_iff.mpr (hread plan hplan)
    rw [hevents]
    exact ⟨_, rfl⟩

def kinds2 (left : Projection ε σ₁) (right : Projection ε σ₂) : List EventKind :=
  collectRelevantKinds [left.relevantEventKinds, right.relevantEventKinds]

def kinds3 (first : Projection ε σ₁) (second : Projection ε σ₂) (third : Projection ε σ₃) :
    List EventKind :=
  collectRelevantKinds
    [first.relevantEventKinds, second.relevantEventKinds, third.relevantEventKinds]

theorem projectFused2_ok {left : Projection ε σ₁} {right : Projection ε σ₂} {x : Option σ₁}
    {y : Option σ₂} : projectFused2 left right entity st = .ok (x, y) ↔
      fusedState left (kinds2 left right) entity st = .ok x ∧
        fusedState right (kinds2 left right) entity st = .ok y := by
  unfold projectFused2 fusedState kinds2
  dsimp only
  cases st.index.projectionReplayPlan entity
      (collectRelevantKinds [left.relevantEventKinds, right.relevantEventKinds]) with
  | none => simp
  | some plan =>
      cases hbatch : st.readBatch plan.items with
      | error e => simp [hbatch, Except.map]
      | ok events => simp [hbatch, Except.map]

theorem projectFused3_ok {first : Projection ε σ₁} {second : Projection ε σ₂}
    {third : Projection ε σ₃} {x : Option σ₁} {y : Option σ₂} {z : Option σ₃} :
    projectFused3 first second third entity st = .ok (x, y, z) ↔
      fusedState first (kinds3 first second third) entity st = .ok x ∧
      fusedState second (kinds3 first second third) entity st = .ok y ∧
      fusedState third (kinds3 first second third) entity st = .ok z := by
  unfold projectFused3 fusedState kinds3
  dsimp only
  cases st.index.projectionReplayPlan entity (collectRelevantKinds
      [first.relevantEventKinds, second.relevantEventKinds, third.relevantEventKinds]) with
  | none => simp
  | some plan =>
      cases hbatch : st.readBatch plan.items with
      | error e => simp [hbatch, Except.map]
      | ok events => simp [hbatch, Except.map]

/-- When the fused replay of two projections agrees with the separate calls. -/
structure Fusion2 (left : Projection ε σ₁) (right : Projection ε σ₂) (f₁ f₂ : CacheFaults)
    (entity : String) (st : ProjectionStore ε) : Prop where
  readable : UnionReadable (kinds2 left right) entity st →
    Fusable left f₁ (kinds2 left right) entity st ∧ Fusable right f₂ (kinds2 left right) entity st
  unreadable : ¬ UnionReadable (kinds2 left right) entity st →
    ¬ (Answers left f₁ entity st ∧ Answers right f₂ entity st)

structure Fusion3 (first : Projection ε σ₁) (second : Projection ε σ₂) (third : Projection ε σ₃)
    (f₁ f₂ f₃ : CacheFaults) (entity : String) (st : ProjectionStore ε) : Prop where
  readable : UnionReadable (kinds3 first second third) entity st →
    Fusable first f₁ (kinds3 first second third) entity st ∧
    Fusable second f₂ (kinds3 first second third) entity st ∧
    Fusable third f₃ (kinds3 first second third) entity st
  unreadable : ¬ UnionReadable (kinds3 first second third) entity st →
    ¬ (Answers first f₁ entity st ∧ Answers second f₂ entity st ∧ Answers third f₃ entity st)

theorem fused2_agrees (left : Projection ε σ₁) (right : Projection ε σ₂) (f₁ f₂ : CacheFaults)
    (h : Described st entity) :
    (∀ x y, projectFused2 left right entity st = .ok (x, y) ↔
      (project left f₁ entity st).1 = .ok x ∧ (project right f₂ entity st).1 = .ok y) ↔
      Fusion2 left right f₁ f₂ entity st := by
  have hsub : ∀ kinds ∈ [left.relevantEventKinds, right.relevantEventKinds], ∀ kind,
      projectionKindMatches kinds kind = true →
        projectionKindMatches (kinds2 left right) kind = true :=
    fun kinds hkinds _ => collected_matches hkinds
  simp only [projectFused2_ok]
  constructor
  · intro hall
    refine ⟨?_, ?_⟩
    · intro hread
      obtain ⟨x, hx⟩ := fusedState_ok (p := left) hread
      obtain ⟨y, hy⟩ := fusedState_ok (p := right) hread
      obtain ⟨hx', hy'⟩ := (hall x y).mp ⟨hx, hy⟩
      exact ⟨(project_eq_fusedState h (hsub _ (by simp)) hread hx).mp hx',
        (project_eq_fusedState h (hsub _ (by simp)) hread hy).mp hy'⟩
    · rintro hread ⟨hl, hr⟩
      obtain ⟨x, hx⟩ := answers_iff.mp hl
      obtain ⟨y, hy⟩ := answers_iff.mp hr
      obtain ⟨e, he⟩ := fusedState_error (p := left) hread
      have := ((hall x y).mpr ⟨hx, hy⟩).1
      rw [he] at this
      cases this
  · intro hf x y
    by_cases hread : UnionReadable (kinds2 left right) entity st
    · obtain ⟨hleft, hright⟩ := hf.readable hread
      obtain ⟨x', hx'⟩ := fusedState_ok (p := left) hread
      obtain ⟨y', hy'⟩ := fusedState_ok (p := right) hread
      rw [hx', hy', (project_eq_fusedState h (hsub _ (by simp)) hread hx').mpr hleft,
        (project_eq_fusedState h (hsub _ (by simp)) hread hy').mpr hright]
      simp only [Except.ok.injEq]
    · obtain ⟨e, he⟩ := fusedState_error (p := left) hread
      rw [he]
      constructor
      · rintro ⟨hx, -⟩
        cases hx
      · rintro ⟨hx, hy⟩
        exact absurd ⟨answers_iff.mpr ⟨x, hx⟩, answers_iff.mpr ⟨y, hy⟩⟩ (hf.unreadable hread)

theorem fused3_agrees (first : Projection ε σ₁) (second : Projection ε σ₂)
    (third : Projection ε σ₃) (f₁ f₂ f₃ : CacheFaults) (h : Described st entity) :
    (∀ x y z, projectFused3 first second third entity st = .ok (x, y, z) ↔
      (project first f₁ entity st).1 = .ok x ∧ (project second f₂ entity st).1 = .ok y ∧
        (project third f₃ entity st).1 = .ok z) ↔
      Fusion3 first second third f₁ f₂ f₃ entity st := by
  have hsub : ∀ kinds ∈ [first.relevantEventKinds, second.relevantEventKinds,
      third.relevantEventKinds], ∀ kind, projectionKindMatches kinds kind = true →
        projectionKindMatches (kinds3 first second third) kind = true :=
    fun kinds hkinds _ => collected_matches hkinds
  simp only [projectFused3_ok]
  constructor
  · intro hall
    refine ⟨?_, ?_⟩
    · intro hread
      obtain ⟨x, hx⟩ := fusedState_ok (p := first) hread
      obtain ⟨y, hy⟩ := fusedState_ok (p := second) hread
      obtain ⟨z, hz⟩ := fusedState_ok (p := third) hread
      obtain ⟨hx', hy', hz'⟩ := (hall x y z).mp ⟨hx, hy, hz⟩
      exact ⟨(project_eq_fusedState h (hsub _ (by simp)) hread hx).mp hx',
        (project_eq_fusedState h (hsub _ (by simp)) hread hy).mp hy',
        (project_eq_fusedState h (hsub _ (by simp)) hread hz).mp hz'⟩
    · rintro hread ⟨h₁, h₂, h₃⟩
      obtain ⟨x, hx⟩ := answers_iff.mp h₁
      obtain ⟨y, hy⟩ := answers_iff.mp h₂
      obtain ⟨z, hz⟩ := answers_iff.mp h₃
      obtain ⟨e, he⟩ := fusedState_error (p := first) hread
      have := ((hall x y z).mpr ⟨hx, hy, hz⟩).1
      rw [he] at this
      cases this
  · intro hf x y z
    by_cases hread : UnionReadable (kinds3 first second third) entity st
    · obtain ⟨h₁, h₂, h₃⟩ := hf.readable hread
      obtain ⟨x', hx'⟩ := fusedState_ok (p := first) hread
      obtain ⟨y', hy'⟩ := fusedState_ok (p := second) hread
      obtain ⟨z', hz'⟩ := fusedState_ok (p := third) hread
      rw [hx', hy', hz', (project_eq_fusedState h (hsub _ (by simp)) hread hx').mpr h₁,
        (project_eq_fusedState h (hsub _ (by simp)) hread hy').mpr h₂,
        (project_eq_fusedState h (hsub _ (by simp)) hread hz').mpr h₃]
      simp only [Except.ok.injEq]
    · obtain ⟨e, he⟩ := fusedState_error (p := first) hread
      rw [he]
      constructor
      · rintro ⟨hx, -⟩
        cases hx
      · rintro ⟨hx, hy, hz⟩
        exact absurd ⟨answers_iff.mpr ⟨x, hx⟩, answers_iff.mpr ⟨y, hy⟩, answers_iff.mpr ⟨z, hz⟩⟩
          (hf.unreadable hread)

/-- Over a store whose index describes the entity, the fused replay of two projections, and of
three, returns exactly the tuple of the separate calls, and fails exactly when one of them
does, if and only if its components meet the condition. -/
theorem fused_replay_agrees (first : Projection ε σ₁) (second : Projection ε σ₂)
    (third : Projection ε σ₃) (f₁ f₂ f₃ : CacheFaults) (entity : String) (st : ProjectionStore ε)
    (h : Described st entity) :
    ((∀ x y, projectFused2 first second entity st = .ok (x, y) ↔
      (project first f₁ entity st).1 = .ok x ∧ (project second f₂ entity st).1 = .ok y) ↔
        Fusion2 first second f₁ f₂ entity st) ∧
    ((∀ x y z, projectFused3 first second third entity st = .ok (x, y, z) ↔
      (project first f₁ entity st).1 = .ok x ∧ (project second f₂ entity st).1 = .ok y ∧
        (project third f₃ entity st).1 = .ok z) ↔
        Fusion3 first second third f₁ f₂ f₃ entity st) :=
  ⟨fused2_agrees first second f₁ f₂ h, fused3_agrees first second third f₁ f₂ f₃ h⟩

/-! ### Two counters over one event -/

/-- Counts the events of one kind, no more than the bound allows; `0` is a state. -/
def countKind (kind : EventKind) (bound : Nat) : Projection (Nat × EventKind) Nat where
  name := "count"
  typeId := 0
  relevantEventKinds := [kind]
  fromEvents := fun events => some events.length
  applyEvent := fun count _ => count + 1
  supportsIncrementalApply := true
  stateContract := .bounded "count" bound "" "" ""
  stateExtent := fun count => ⟨some count, .constantTime⟩
  encode := fun count => some [count.toUInt8]
  decode := fun bytes => bytes.head?.map (·.toNat)
  cacheKey := fun _ => []

/-- One visible event of the first kind. -/
def oneEventStore : ProjectionStore (Nat × EventKind) where
  index := run indexStep (.new true default default)
    [.insert { laneEvent 1 0 0 0 with kind := .data },
      .gate { SequenceGate.new with
        allocated := 1
        visible := 1
        laneVisible := fun _ => 1 }]
  cache := none
  incrementalProjection := false
  read := fun _ => .ok (1, .data)
  kindOf := (·.2)

theorem oneEventStore_described : Described oneEventStore "order" := by
  apply Grouped.described
  · apply grouped_run
    exact ⟨fun _ h => (by cases h), trivial, trivial⟩
  · intro e he event hread
    cases hread
    rcases List.mem_singleton.mp he with rfl
    rfl

theorem countKind_fusable : Fusable (countKind .data 5) ⟨false, false⟩
    (kinds2 (countKind .data 5) (countKind .data 5)) "order" oneEventStore := by
  refine ⟨?_, ?_, ?_⟩
  · intro state hstate
    cases hstate
    rfl
  · intro hnone
    cases hnone
  · intro plan hplan cached items hstart
    cases hplan
    cases hstart

/-- Counting the one event twice, within the bound, is the same fused and separate. -/
theorem fused_counts_agree :
    projectFused2 (countKind .data 5) (countKind .data 5) "order" oneEventStore =
        .ok (some 1, some 1) ∧
      (project (countKind .data 5) ⟨false, false⟩ "order" oneEventStore).1 = .ok (some 1) := by
  have hagree := (fused_replay_agrees (countKind .data 5) (countKind .data 5) (countKind .data 5)
    ⟨false, false⟩ ⟨false, false⟩ ⟨false, false⟩ "order" oneEventStore
    oneEventStore_described).1.mpr
      ⟨fun _ => ⟨countKind_fusable, countKind_fusable⟩,
        fun hread => absurd (fun _ _ _ _ => ⟨(1, .data), rfl⟩) hread⟩
  exact ⟨rfl, ((hagree (some 1) (some 1)).mp rfl).1⟩

/-- A kind no event has. -/
def otherKind : EventKind := ⟨0x1001⟩

/-- A component without events is a state of its own fused and none separately; a state past
its bound is returned fused and refused separately. -/
theorem fused_replay_diverges :
    (projectFused2 (countKind .data 5) (countKind otherKind 5) "order" oneEventStore =
        .ok (some 1, some 0) ∧
      (project (countKind otherKind 5) ⟨false, false⟩ "order" oneEventStore).1 = .ok none) ∧
    (projectFused2 (countKind .data 0) (countKind .data 0) "order" oneEventStore =
        .ok (some 1, some 1) ∧
      (project (countKind .data 0) ⟨false, false⟩ "order" oneEventStore).1 =
        .error (.stateBoundExceeded "count:order" (.bounded "count" 0 "" "" "")
          ⟨some 1, .constantTime⟩)) :=
  ⟨⟨rfl, rfl⟩, rfl, rfl⟩

end Fused

end Batpak.Store
