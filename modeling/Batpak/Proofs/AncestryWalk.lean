/-
Module: Batpak.Proofs.AncestryWalk
Purpose: What the ancestor walk returns: on intact chains the lane of the start event, as long as
  every parent hash leads to the predecessor.
Trusted boundary: none
Main exports: Reached, walk_follows_chain_iff
-/
import Batpak.Store.Ancestry
import Batpak.Proofs.LaneChains

namespace Batpak.Store

open Batpak.Util

/-! ### The chain behind an event -/

/-- The entry `i` clocks before `e` on its lane. -/
structure Behind (log : List IndexEntry) (e : IndexEntry) (i : Nat) (p : IndexEntry) : Prop where
  mem : p ∈ log
  lane : p.lane = e.lane
  clock : p.clock + i = e.clock

/-- What is read at the position of an indexed event is the frame of that event. -/
def EventReader.Honest (read : EventReader) (ix : StoreIndex) : Prop :=
  ∀ e ∈ ix.inserted, ∀ f, read e.diskPos = .ok f → Describes f e

/-- The reader of the segment files is honest where no frame lies at the position of an event
but its own. -/
theorem readEntry_honest {segments : List Segment}
    (h : ∀ e ∈ ix.inserted, ∀ p ∈ segments.flatMap Segment.located,
      p.2 = e.diskPos → Describes p.1 e) : (readEntry segments).Honest ix := by
  intro e he f hread
  unfold readEntry at hread
  split at hread
  · rename_i p hfind
    cases hread
    exact h e he p (List.mem_of_find?_eq_some hfind) (by simpa using List.find?_some hfind)
  · cases hread

/-- A reader that may fail but returns no other event than the one it is asked for. -/
structure HonestReader (ix : StoreIndex) where
  read : EventReader
  honest : read.Honest ix

/-- The walk is `e` and its predecessors, down to the limit or to the first event of the
lane. -/
structure FollowsChain (log : List IndexEntry) (e : IndexEntry) (limit : Nat)
    (walk : List Frame) : Prop where
  length : walk.length = min limit (e.clock + 1)
  events : ∀ i f, walk[i]? = some f → ∃ p, Behind log e i p ∧ Describes f p

/-- The events of an entity that a walk over its stream can find. -/
def InStream (ix : StoreIndex) (entity : String) (q : IndexEntry) : Prop :=
  q ∈ ix.inserted ∧ q.coord.entity = entity ∧ ix.gate.isVisible q.globalSequence = true

/-- The hash of `p` leads to `p`: it is not the zero hash, and no event of the stream with
the same hash comes before `p`. -/
def Reached (ix : StoreIndex) (p : IndexEntry) : Prop :=
  p.hashChain.eventHash ≠ 0 ∧
    ∀ q, InStream ix p.coord.entity q → q.hashChain.eventHash = p.hashChain.eventHash →
      clockKeyLe p q = true

/-- Every event to be returned can be read, and each one after the first is reached. -/
def Walkable (ix : StoreIndex) (read : EventReader) (e : IndexEntry) (limit : Nat) : Prop :=
  ∀ i p, i < min limit (e.clock + 1) → Behind ix.inserted e i p →
    (∃ f, read p.diskPos = .ok f) ∧ (0 < i → Reached ix p)

namespace Behind

variable {log : List IndexEntry} {e p q : IndexEntry} {i : Nat}

theorem refl (he : e ∈ log) : Behind log e 0 e :=
  ⟨he, rfl, rfl⟩

theorem eq (h : IntactLog log) (hp : Behind log e i p) (hq : Behind log e i q) : p = q := by
  apply h.unique hp.mem hq.mem (hp.lane.trans hq.lane.symm)
  have hp := hp.clock
  have hq := hq.clock
  omega

theorem eq_self (h : IntactLog log) (he : e ∈ log) (hp : Behind log e 0 p) : p = e :=
  hp.eq h (refl he)

/-- What is behind the predecessor is behind the event, one clock further. -/
theorem succ_iff (hlane : q.lane = e.lane) (hclock : e.clock = q.clock + 1) :
    Behind log e (i + 1) p ↔ Behind log q i p := by
  constructor
  · intro h
    have hbehind := h.clock
    exact ⟨h.mem, h.lane.trans hlane.symm, by omega⟩
  · intro h
    have hbehind := h.clock
    exact ⟨h.mem, h.lane.trans hlane, by omega⟩

end Behind

/-! ### One hop -/

section Hop

variable {ix : StoreIndex} (hlog : IntactLog ix.inserted)

include hlog

theorem mem_visibleStream {entity : String} {q : IndexEntry} :
    q ∈ ix.visibleStream entity ↔ InStream ix entity q := by
  unfold StoreIndex.visibleStream InStream
  rw [List.mem_filter, mem_stream hlog.ids, and_assoc]

theorem pairwise_visibleStream (entity : String) :
    (ix.visibleStream entity).Pairwise Before :=
  (pairwise_stream hlog.ids entity).sublist List.filter_sublist

theorem getById_of_visible {p : IndexEntry} (hp : p ∈ ix.inserted)
    (hvisible : ix.gate.isVisible p.globalSequence = true) : ix.getById p.eventId = some p := by
  unfold StoreIndex.getById
  rw [byId_of_mem hlog.ids hp, Option.filter_some, if_pos hvisible]

/-- The first event of the stream with the hash of `p` is `p` when `p` is reached. -/
theorem parentEventIdByHash_of_reached {p : IndexEntry} (hp : InStream ix p.coord.entity p)
    (h : Reached ix p) :
    parentEventIdByHash (ix.visibleStream p.coord.entity) p.hashChain.eventHash =
      some p.eventId := by
  have hmem := (mem_visibleStream hlog).mpr hp
  have hfind : (ix.visibleStream p.coord.entity).find?
      (fun candidate => candidate.hashChain.eventHash == p.hashChain.eventHash) = some p := by
    obtain ⟨before, after, hsplit⟩ := List.append_of_mem hmem
    rw [List.find?_eq_some_iff_append]
    refine ⟨beq_self_eq_true _, before, after, hsplit, ?_⟩
    intro q hq
    have hordered := pairwise_visibleStream hlog p.coord.entity
    rw [hsplit, List.pairwise_append] at hordered
    have hbefore : Before q p := hordered.2.2 q hq p (List.mem_cons_self ..)
    have hstream : InStream ix p.coord.entity q := by
      rw [← mem_visibleStream hlog, hsplit]
      exact List.mem_append_left _ hq
    rw [Bool.not_eq_true', beq_eq_false_iff_ne]
    intro hhash
    have hfirst : Before p q := ⟨h.2 q hstream hhash, hbefore.2.symm⟩
    have hsame : p = q := antisymm_of Before hfirst hbefore
    exact hfirst.2 (congrArg IndexEntry.eventId hsame)
  rw [parentEventIdByHash, hfind, Option.map_some]

/-- Otherwise it is another event. -/
theorem parentEventIdByHash_of_not_reached {p : IndexEntry} (hp : InStream ix p.coord.entity p)
    (hzero : p.hashChain.eventHash ≠ 0) (h : ¬Reached ix p) :
    ∃ q, q ∈ ix.inserted ∧ q ≠ p ∧
      parentEventIdByHash (ix.visibleStream p.coord.entity) p.hashChain.eventHash =
        some q.eventId := by
  have hmem := (mem_visibleStream hlog).mpr hp
  cases hfind : (ix.visibleStream p.coord.entity).find?
      (fun candidate => candidate.hashChain.eventHash == p.hashChain.eventHash) with
  | none =>
      have hnone := List.find?_eq_none.mp hfind p hmem
      simp at hnone
  | some q =>
      have hq := (mem_visibleStream hlog).mp (List.mem_of_find?_eq_some hfind)
      refine ⟨q, hq.1, ?_, ?_⟩
      · rintro rfl
        apply h
        refine ⟨hzero, ?_⟩
        intro r hr hhash
        obtain ⟨-, before, after, hsplit, hnone⟩ := List.find?_eq_some_iff_append.mp hfind
        have hordered := pairwise_visibleStream hlog q.coord.entity
        have hr := (mem_visibleStream hlog).mpr hr
        rw [hsplit, List.pairwise_append, List.pairwise_cons] at hordered
        rw [hsplit] at hr
        rcases List.mem_append.mp hr with hr | hr
        · have hother := hnone r hr
          simp [hhash] at hother
        · rcases List.mem_cons.mp hr with rfl | hr
          · exact clockKeyLe_iff.mpr (by omega)
          · exact (hordered.2.1.1 r hr).1
      · rw [parentEventIdByHash, hfind, Option.map_some]

end Hop

/-! ### The walk -/

section Walk

variable {ix : StoreIndex} {e p q : IndexEntry} {limit : Nat} {f : Frame} {walk : List Frame}

theorem FollowsChain.nil (log : List IndexEntry) (e : IndexEntry) : FollowsChain log e 0 [] where
  length := by rw [Nat.zero_min, List.length_nil]
  events i f hf := by
    rw [List.getElem?_nil] at hf
    cases hf

/-- An empty walk is one with limit zero. -/
theorem FollowsChain.limit_eq_zero {log : List IndexEntry} (h : FollowsChain log e limit []) :
    limit = 0 := by
  have hlength := h.length
  rw [List.length_nil] at hlength
  omega

theorem FollowsChain.genesis (he : e ∈ ix.inserted) (hclock : e.clock = 0) (hf : Describes f e) :
    FollowsChain ix.inserted e (limit + 1) [f] where
  length := by
    rw [List.length_singleton, hclock]
    omega
  events i g hg := by
    cases i with
    | zero =>
        rw [List.getElem?_cons_zero, Option.some.injEq] at hg
        exact ⟨e, .refl he, hg ▸ hf⟩
    | succ i =>
        rw [List.getElem?_cons_succ, List.getElem?_nil] at hg
        cases hg

/-- A walk follows the chain of an event when it starts with the event and goes on with the
chain of the predecessor. -/
theorem FollowsChain.cons_iff (he : e ∈ ix.inserted)
    (hlane : q.lane = e.lane) (hclock : e.clock = q.clock + 1) (hf : Describes f e) :
    FollowsChain ix.inserted e (limit + 1) (f :: walk) ↔
      FollowsChain ix.inserted q limit walk := by
  constructor
  · intro h
    constructor
    · have hlength := h.length
      rw [List.length_cons, hclock] at hlength
      omega
    · intro i g hg
      obtain ⟨p, hp, hdescribes⟩ := h.events (i + 1) g hg
      exact ⟨p, (Behind.succ_iff hlane hclock).mp hp, hdescribes⟩
  · intro h
    constructor
    · have hlength := h.length
      rw [List.length_cons, hclock]
      omega
    · intro i g hg
      cases i with
      | zero =>
          rw [List.getElem?_cons_zero, Option.some.injEq] at hg
          exact ⟨e, .refl he, hg ▸ hf⟩
      | succ i =>
          obtain ⟨p, hp, hdescribes⟩ := h.events i g hg
          exact ⟨p, (Behind.succ_iff hlane hclock).mpr hp, hdescribes⟩

theorem walkable_zero (ix : StoreIndex) (read : EventReader) (e : IndexEntry) :
    Walkable ix read e 0 := by
  intro i p hi
  rw [Nat.zero_min] at hi
  exact absurd hi (Nat.not_lt_zero i)

theorem walkable_genesis (h : IntactLog ix.inserted) {read : EventReader} (he : e ∈ ix.inserted)
    (hclock : e.clock = 0) (hread : read e.diskPos = .ok f) :
    Walkable ix read e (limit + 1) := by
  intro i p hi hp
  rw [hclock] at hi
  have hzero : i = 0 := by omega
  subst hzero
  obtain rfl := hp.eq_self h he
  exact ⟨⟨f, hread⟩, fun hpos => absurd hpos (Nat.lt_irrefl 0)⟩

/-- The first hop and the rest of the walk. -/
theorem walkable_succ_iff (h : IntactLog ix.inserted) {read : EventReader} (he : e ∈ ix.inserted)
    (hq : q ∈ ix.inserted) (hlane : q.lane = e.lane) (hclock : e.clock = q.clock + 1)
    (hread : read e.diskPos = .ok f) :
    Walkable ix read e (limit + 1) ↔
      (0 < limit → Reached ix q) ∧ Walkable ix read q limit := by
  constructor
  · intro hwalk
    constructor
    · intro hpos
      apply (hwalk 1 q _ ((Behind.succ_iff hlane hclock).mpr (.refl hq))).2 Nat.one_pos
      omega
    · intro i p hi hp
      obtain ⟨hreadable, hreached⟩ := hwalk (i + 1) p (by omega)
        ((Behind.succ_iff hlane hclock).mpr hp)
      exact ⟨hreadable, fun _ => hreached (Nat.succ_pos i)⟩
  · rintro ⟨hfirst, hrest⟩ i p hi hp
    cases i with
    | zero =>
        obtain rfl := hp.eq_self h he
        exact ⟨⟨f, hread⟩, fun hpos => absurd hpos (Nat.lt_irrefl 0)⟩
    | succ i =>
        have hbehind := (Behind.succ_iff hlane hclock).mp hp
        obtain ⟨hreadable, hreached⟩ := hrest i p (by omega) hbehind
        refine ⟨hreadable, fun _ => ?_⟩
        cases i with
        | zero =>
            obtain rfl := hbehind.eq_self h hq
            exact hfirst (by omega)
        | succ i => exact hreached (Nat.succ_pos i)

/-- Without cancelled ranges whatever comes before a visible event is visible. -/
theorem visible_of_earlier (hranges : ix.gate.cancelledRanges = [])
    (hvisible : ix.gate.isVisible e.globalSequence = true)
    (hlt : q.globalSequence < e.globalSequence) :
    ix.gate.isVisible q.globalSequence = true := by
  simp only [SequenceGate.isVisible, hranges, Bool.and_eq_true, decide_eq_true_eq] at hvisible ⊢
  exact ⟨Nat.lt_trans hlt hvisible.1, hvisible.2⟩

/-- The events a walk has left are later than the one it is at. -/
def LaterVisited (ix : StoreIndex) (visited : List Nat) (e : IndexEntry) : Prop :=
  ∀ q ∈ ix.inserted, q.lane = e.lane → q.clock ≤ e.clock → q.eventId ∉ visited

theorem LaterVisited.next (h : IntactLog ix.inserted) {visited : List Nat}
    (hvisited : LaterVisited ix visited e) (he : e ∈ ix.inserted) (hlane : q.lane = e.lane)
    (hclock : e.clock = q.clock + 1) : LaterVisited ix (e.eventId :: visited) q := by
  intro p hp hplane hple
  rw [List.mem_cons, not_or]
  constructor
  · intro hid
    obtain rfl := h.unique_id hp he hid
    omega
  · exact hvisited p hp (hplane.trans hlane) (by omega)

theorem collectAncestors_none {γ : Type} (step : γ → Option (Frame × Option γ)) (limit : Nat)
    (visited : List Nat) : collectAncestors step limit visited none = [] := by
  cases limit with
  | zero => rfl
  | succ limit => rfl

/-- A walk that goes on with another event does not follow the chain. -/
theorem not_followsChain_of_astray (h : IntactLog ix.inserted) (reader : HonestReader ix)
    (visited : List Nat) (entityStream : List IndexEntry) (hq : q ∈ ix.inserted)
    (hp : p ∈ ix.inserted) (hne : p ≠ q) :
    ¬FollowsChain ix.inserted q (limit + 1)
      (collectAncestors (ancestorStep ix reader.read entityStream) (limit + 1) visited
        (some p.eventId)) := by
  intro hfollows
  rw [collectAncestors] at hfollows
  cases hstep : ancestorStep ix reader.read entityStream p.eventId with
  | none =>
      rw [hstep] at hfollows
      exact Nat.succ_ne_zero limit hfollows.limit_eq_zero
  | some hop =>
      rw [hstep] at hfollows
      obtain ⟨f, next⟩ := hop
      dsimp only at hfollows
      split at hfollows
      · exact Nat.succ_ne_zero limit hfollows.limit_eq_zero
      · -- the first event of the walk is read at the position of `p`
        obtain ⟨r, hr, hdescribes⟩ := hfollows.events 0 f (List.getElem?_cons_zero ..)
        obtain rfl := hr.eq_self h hq
        obtain ⟨⟨entry, stored⟩, hread, hresult⟩ := Option.map_eq_some_iff.mp hstep
        obtain ⟨rfl, -⟩ := Prod.mk.inj hresult
        unfold readEntryAndEvent at hread
        cases hget : ix.getById p.eventId with
        | none =>
            rw [hget] at hread
            cases hread
        | some found =>
            rw [hget] at hread
            dsimp only at hread
            have hsame : found = p := by
              obtain ⟨hbyId, -⟩ := Option.filter_eq_some_iff.mp hget
              rw [byId_of_mem h.ids hp] at hbyId
              exact (Option.some.inj hbyId).symm
            cases hdisk : reader.read found.diskPos with
            | error err =>
                rw [hdisk] at hread
                cases hread
            | ok g =>
                rw [hdisk] at hread
                rw [Option.some.injEq, Prod.mk.injEq] at hread
                obtain ⟨-, rfl⟩ := hread
                have hat := reader.honest found (hsame ▸ hp) _ hdisk
                apply hne
                apply h.unique_id hp hq
                rw [← hdescribes.eventId, ← hsame, hat.eventId]

/-- From an event of a lane the walk follows the lane exactly when it is walkable. -/
theorem collect_follows_chain_iff (h : IntactLog ix.inserted)
    (hranges : ix.gate.cancelledRanges = []) (reader : HonestReader ix) (visited : List Nat)
    (he : e ∈ ix.inserted) (hvisible : ix.gate.isVisible e.globalSequence = true)
    (hvisited : LaterVisited ix visited e) :
    FollowsChain ix.inserted e limit
        (collectAncestors (ancestorStep ix reader.read (ix.visibleStream e.coord.entity)) limit
          visited (some e.eventId)) ↔
      Walkable ix reader.read e limit := by
  induction limit generalizing e visited with
  | zero => exact ⟨fun _ => walkable_zero ix _ e, fun _ => .nil _ e⟩
  | succ limit ih =>
      have hfound := getById_of_visible h he hvisible
      cases hread : reader.read e.diskPos with
      | error err =>
          have hstep : ancestorStep ix reader.read (ix.visibleStream e.coord.entity) e.eventId =
              none := by
            simp [ancestorStep, readEntryAndEvent, hfound, hread]
          rw [collectAncestors, hstep]
          constructor
          · intro hwalk
            exact absurd hwalk.limit_eq_zero (Nat.succ_ne_zero limit)
          · intro hwalk
            obtain ⟨⟨f, hf⟩, -⟩ := hwalk 0 e (by omega) (.refl he)
            rw [hread] at hf
            cases hf
      | ok f =>
          have hdescribes := reader.honest e he f hread
          have hunvisited : visited.contains f.eventId = false := by
            rw [hdescribes.eventId, List.contains_eq_mem, decide_eq_false_iff_not]
            exact hvisited e he rfl (Nat.le_refl _)
          have hstep : ancestorStep ix reader.read (ix.visibleStream e.coord.entity) e.eventId =
              some (f, if e.hashChain.prevHash = 0 then none else
                parentEventIdByHash (ix.visibleStream e.coord.entity) e.hashChain.prevHash) := by
            simp [ancestorStep, readEntryAndEvent, hfound, hread]
          rw [collectAncestors, hstep]
          dsimp only
          rw [hunvisited, if_neg Bool.false_ne_true, hdescribes.eventId]
          cases hclock : e.clock with
          | zero =>
              rw [h.genesis he hclock, if_pos rfl]
              have hnone : collectAncestors
                  (ancestorStep ix reader.read (ix.visibleStream e.coord.entity)) limit
                  (e.eventId :: visited) none = [] := by
                cases limit with
                | zero => rfl
                | succ limit => rfl
              rw [hnone]
              exact ⟨fun _ => walkable_genesis h he hclock hread,
                fun _ => .genesis he hclock hdescribes⟩
          | succ c =>
              obtain ⟨q, hq, hlane, hqc, hprev, -, hseq⟩ := h.predecessor he hclock
              rw [← hqc] at hclock
              rw [FollowsChain.cons_iff he hlane hclock hdescribes,
                walkable_succ_iff h he hq hlane hclock hread, hprev]
              have hentity : q.coord.entity = e.coord.entity := congrArg Prod.fst hlane
              have hqvisible := visible_of_earlier hranges hvisible hseq
              have hstream : InStream ix q.coord.entity q := ⟨hq, rfl, hqvisible⟩
              have hlater := hvisited.next h he hlane hclock
              cases limit with
              | zero =>
                  exact ⟨fun _ => ⟨fun hpos => absurd hpos (Nat.lt_irrefl 0), walkable_zero ix _ q⟩,
                    fun _ => .nil _ q⟩
              | succ limit =>
                  by_cases hreached : Reached ix q
                  · rw [if_neg hreached.1, ← hentity,
                      parentEventIdByHash_of_reached h hstream hreached,
                      ih (e.eventId :: visited) hq hqvisible hlater]
                    exact ⟨fun hwalk => ⟨fun _ => hreached, hwalk⟩, And.right⟩
                  · have hnot : ¬((0 < limit + 1 → Reached ix q) ∧
                        Walkable ix reader.read q (limit + 1)) :=
                      fun hwalk => hreached (hwalk.1 (Nat.succ_pos limit))
                    rw [iff_false_right hnot]
                    by_cases hzero : q.hashChain.eventHash = 0
                    · rw [if_pos hzero, collectAncestors_none]
                      intro hfollows
                      exact Nat.succ_ne_zero limit hfollows.limit_eq_zero
                    · obtain ⟨p, hp, hne, hparent⟩ :=
                        parentEventIdByHash_of_not_reached h hstream hzero hreached
                      rw [if_neg hzero, ← hentity, hparent]
                      exact not_followsChain_of_astray h reader _ _ hq hp hne

end Walk

/-! ### The ancestors of an event -/

/-- In every guarded life without cancelled ranges, and for every visible event and every
limit, the ancestor walk returns the event and its predecessors on its lane, `limit` of them
or all there are, exactly when each of them can be read and none after the first one shares
its payload hash with a visible event of the entity that comes before it. -/
theorem walk_follows_chain_iff (cfg : LifecycleConfig) (rt : Runtime) (steps : List LifecycleStep)
    (h : Guarded (lifecycleStep cfg rt) (chainGuards cfg rt).Allows .blank steps)
    {core : WriterCore} (hcore : (run (lifecycleStep cfg rt) .blank steps).core? = some core)
    (hranges : core.index.gate.cancelledRanges = []) (reader : HonestReader core.index)
    {e : IndexEntry} (he : core.index.getById e.eventId = some e) (limit : Nat) :
    FollowsChain core.index.inserted e limit
        (walkAncestors core.index reader.read e.eventId limit) ↔
      Walkable core.index reader.read e limit := by
  have hlog := (intact_of_guarded_life cfg rt steps h hcore).log
  obtain ⟨hbyId, hvisible⟩ := Option.filter_eq_some_iff.mp he
  have hmem : e ∈ core.index.inserted := List.mem_of_find?_eq_some hbyId
  unfold walkAncestors
  rw [he]
  apply collect_follows_chain_iff hlog hranges reader [] hmem hvisible
  intro q _ _ _
  exact List.not_mem_nil

/-! ### Repeated payloads -/

/-- Appends to one lane of an entity, with payloads of the given sizes. The payload decides
the event hash. -/
def sizedRun (sizes : List Nat) : List LifecycleStep :=
  .reopen ⟨1, [], 0, .none⟩ :: sizes.mapIdx fun i size =>
    .writer (.command .main ⟨.append (plainRequest "a" (10 + i) size) i, .none⟩)

instance (ix : StoreIndex) (entity : String) (q : IndexEntry) : Decidable (InStream ix entity q) :=
  inferInstanceAs (Decidable (_ ∧ _))

instance (ix : StoreIndex) (p : IndexEntry) : Decidable (Reached ix p) :=
  decidable_of_iff
    (p.hashChain.eventHash ≠ 0 ∧ ∀ q ∈ ix.inserted, InStream ix p.coord.entity q →
      q.hashChain.eventHash = p.hashChain.eventHash → clockKeyLe p q = true)
    ⟨fun ⟨hzero, h⟩ => ⟨hzero, fun q hq => h q hq.1 hq⟩,
      fun ⟨hzero, h⟩ => ⟨hzero, fun q _ hq => h q hq⟩⟩

instance (ix : StoreIndex) (read : EventReader) (e : IndexEntry) (limit : Nat) :
    Decidable (Walkable ix read e limit) :=
  decidable_of_iff
    (∀ i < min limit (e.clock + 1), ∀ p ∈ ix.inserted, p.lane = e.lane → p.clock + i = e.clock →
      (read p.diskPos).isOk = true ∧ (0 < i → Reached ix p))
    (by
      simp only [isOk_iff]
      exact ⟨fun h i p hi hp => h i hi p hp.mem hp.lane hp.clock,
        fun h i hi p hp hlane hclock => h i p hi ⟨hp, hlane, hclock⟩⟩)

/-- The third payload repeats the first one. The parent hash of the fourth event leads to the
first event, and the walk is over two events early. -/
theorem repeated_payload_cuts_walk :
    ¬∀ core ∈ (run (lifecycleStep .small .unsigned) .blank (sizedRun [4, 5, 4, 6])).core?,
      core.index.gate.cancelledRanges = [] → ∀ e ∈ core.index.getById 13,
        FollowsChain core.index.inserted e 4
          (walkAncestors core.index (readEntry core.segments) 13 4) := by
  intro h
  have hlengths : ∀ core ∈ (run (lifecycleStep .small .unsigned) .blank
      (sizedRun [4, 5, 4, 6])).core?, core.index.gate.cancelledRanges = [] →
        ∀ e ∈ core.index.getById 13,
          (walkAncestors core.index (readEntry core.segments) 13 4).length = min 4 (e.clock + 1) :=
    fun core hcore hranges e he => (h core hcore hranges e he).length
  exact absurd hlengths (by decide +kernel)

/-- Without repeated payloads the walk is complete. -/
theorem distinct_payloads_walk :
    ∃ core, (run (lifecycleStep .small .unsigned) .blank (sizedRun [4, 5, 7, 6])).core? =
        some core ∧ ∃ e, core.index.getById 13 = some e ∧
      FollowsChain core.index.inserted e 4
        (walkAncestors core.index (readEntry core.segments) 13 4) := by
  have hguarded : Guarded (lifecycleStep .small .unsigned) (chainGuards .small .unsigned).Allows
      .blank (sizedRun [4, 5, 7, 6]) := by
    decide +kernel
  have hready : ∃ core ∈ (run (lifecycleStep .small .unsigned) .blank
      (sizedRun [4, 5, 7, 6])).core?, ∃ e ∈ core.index.getById 13, e.eventId = 13 ∧
        core.index.gate.cancelledRanges = [] ∧
          (∀ e ∈ core.index.inserted, ∀ p ∈ core.segments.flatMap Segment.located,
            p.2 = e.diskPos → Describes p.1 e) ∧
          Walkable core.index (readEntry core.segments) e 4 := by
    decide +kernel
  obtain ⟨core, hcore, e, he, hid, hranges, hplaced, hwalkable⟩ := hready
  refine ⟨core, hcore, e, he, ?_⟩
  rw [← hid] at he ⊢
  exact (walk_follows_chain_iff .small .unsigned _ hguarded hcore hranges
    ⟨readEntry core.segments, readEntry_honest hplaced⟩ he 4).mpr hwalkable

/-! ### The clocks of a lane -/

/-- The clocks of linked entries, newest first, count down to zero. -/
theorem linked_clocks {log : List IndexEntry} (h : Linked Continues log) :
    log.map (·.clock) = (List.range log.length).reverse := by
  induction log with
  | nil => rfl
  | cons e log ih =>
      have hrest := ih h.2
      rw [List.map_cons, hrest, List.length_cons, List.range_succ, List.reverse_append]
      congr 1
      cases log with
      | nil => exact h.1.1
      | cons p log =>
          have hclock : p.clock = log.length := by
            simpa [List.range_succ] using congrArg List.head? hrest
          exact h.1.1.trans (congrArg (· + 1) hclock)

/-- In every guarded life each lane is one chain: every event carries the hash of the one
before it and no earlier wall clock, and by sequence their clocks count 0, 1, 2 and so on. -/
theorem lane_clocks_count (cfg : LifecycleConfig) (rt : Runtime) (steps : List LifecycleStep)
    (h : Guarded (lifecycleStep cfg rt) (chainGuards cfg rt).Allows .blank steps)
    {core : WriterCore} (hcore : (run (lifecycleStep cfg rt) .blank steps).core? = some core)
    (entity : String) (lane : Nat) :
    let chain := core.index.inserted.filter fun e => e.lane = (entity, lane)
    Linked Continues chain ∧ chain.map (·.clock) = (List.range chain.length).reverse ∧
      chain.Pairwise fun newer older => older.globalSequence < newer.globalSequence := by
  have hlog := (intact_of_guarded_life cfg rt steps h hcore).log
  have hlinked := hlog.chained.linked (entity, lane)
  exact ⟨hlinked, linked_clocks hlinked, hlog.sequences.sublist List.filter_sublist⟩

/-- Four events of a lane. -/
theorem lane_clocks_count_four :
    ∃ core ∈ (run (lifecycleStep .small .unsigned) .blank (sizedRun [4, 5, 4, 6])).core?,
      (core.index.inserted.filter fun e => e.lane = ("a", 0)).map (·.clock) = [3, 2, 1, 0] := by
  have hready : ∃ core ∈ (run (lifecycleStep .small .unsigned) .blank
      (sizedRun [4, 5, 4, 6])).core?,
        (core.index.inserted.filter fun e => e.lane = ("a", 0)).length = 4 := by
    decide +kernel
  obtain ⟨core, hcore, hfour⟩ := hready
  have hcount := lane_clocks_count .small .unsigned _ (by decide +kernel) hcore "a" 0
  exact ⟨core, hcore, by rw [hcount.2.1, hfour]; rfl⟩

end Batpak.Store
