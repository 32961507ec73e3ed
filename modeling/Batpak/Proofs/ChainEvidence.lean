/-
Module: Batpak.Proofs.ChainEvidence
Purpose: What the chain-walk evidence checks and reports on a healthy chain, where several earlier
  events may share a hash.
Trusted boundary: none
Main exports: rounds_exact, evidence_of_chain
-/
import Batpak.Proofs.AncestryWalk

namespace Batpak.Store

open Batpak.Util

/-! ### The chain to be checked -/

/-- The entry before `e` on its lane. -/
def predecessorOf (log : List IndexEntry) (e : IndexEntry) : Option IndexEntry :=
  log.find? fun p => p.lane = e.lane ∧ p.clock + 1 = e.clock

/-- The chain from `e` down to the limit, the end event or the first event of the lane. -/
def chainDown (log : List IndexEntry) (endEventId : Option Nat) :
    Nat → IndexEntry → List IndexEntry
  | 0, _ => []
  | limit + 1, e =>
      e :: if endEventId = some e.eventId then [] else
        match predecessorOf log e with
        | none => []
        | some p => chainDown log endEventId limit p

/-- The hops from the events of that chain to their predecessors. The last event has one too
unless the chain ends with it. -/
def chainHops (log : List IndexEntry) (endEventId : Option Nat) :
    Nat → IndexEntry → List (IndexEntry × IndexEntry)
  | 0, _ => []
  | limit + 1, e =>
      if endEventId = some e.eventId then [] else
        match predecessorOf log e with
        | none => []
        | some p => (e, p) :: chainHops log endEventId limit p

/-- The earlier events of the stream that carry the hash of the parent. -/
def parentCandidates (ix : StoreIndex) (hop : IndexEntry × IndexEntry) : List IndexEntry :=
  (ix.visibleStream hop.1.coord.entity).filter fun candidate =>
    candidate.hashChain.eventHash == hop.2.hashChain.eventHash &&
      candidate.globalSequence < hop.1.globalSequence

/-- The parent has no zero hash, and no candidate of another lane is nearer. -/
def Nearest (ix : StoreIndex) (hop : IndexEntry × IndexEntry) : Prop :=
  hop.2.hashChain.eventHash ≠ 0 ∧
    ∀ q ∈ parentCandidates ix hop, q.lane ≠ hop.1.lane →
      q.globalSequence ≤ hop.2.globalSequence

/-- The finding about a hop whose parent hash several earlier events share. -/
def ambiguity (ix : StoreIndex) (hop : IndexEntry × IndexEntry) : Option ChainWalkFinding :=
  if 1 < (parentCandidates ix hop).length then
    some (.parentHashAmbiguous hop.1.eventId hop.2.hashChain.eventHash hop.2.eventId
      (parentCandidates ix hop).length)
  else none

def ambiguities (ix : StoreIndex) (hops : List (IndexEntry × IndexEntry)) :
    List ChainWalkFinding :=
  hops.filterMap (ambiguity ix)

def checkedPair (e : IndexEntry) : Nat × Digest :=
  (e.eventId, e.hashChain.eventHash)

/-- The event can be read and its payload has the recorded hash. -/
def Sound (rt : Runtime) (read : EventReader) (e : IndexEntry) : Prop :=
  ∃ f, read e.diskPos = .ok f ∧ rt.computeHash f.payload = e.hashChain.eventHash

section Chain

variable {log : List IndexEntry} {e p : IndexEntry}

theorem predecessorOf_eq_some (h : IntactLog log) (hp : p ∈ log) (hlane : p.lane = e.lane)
    (hclock : e.clock = p.clock + 1) : predecessorOf log e = some p := by
  apply find?_of_nodup _ hp (by simp [hlane, hclock])
  intro q hq hkey
  simp only [decide_eq_true_eq] at hkey
  apply h.unique hq hp (hkey.1.trans hlane.symm)
  omega

theorem predecessorOf_eq_none (hclock : e.clock = 0) : predecessorOf log e = none := by
  unfold predecessorOf
  rw [List.find?_eq_none]
  intro p _
  simp [hclock]

variable {endEventId : Option Nat} {n : Nat}

/-- The chain ends with the end event and with the first event of the lane. -/
theorem chain_stop (hstop : endEventId = some e.eventId ∨ e.clock = 0) :
    chainDown log endEventId (n + 1) e = [e] ∧ chainHops log endEventId (n + 1) e = [] := by
  rw [chainDown, chainHops]
  rcases hstop with hend | hclock
  · rw [if_pos hend, if_pos hend]
    exact ⟨rfl, rfl⟩
  · rw [predecessorOf_eq_none hclock]
    simp

theorem chain_next (h : IntactLog log) (hend : endEventId ≠ some e.eventId) (hp : p ∈ log)
    (hlane : p.lane = e.lane) (hclock : e.clock = p.clock + 1) :
    chainDown log endEventId (n + 1) e = e :: chainDown log endEventId n p ∧
      chainHops log endEventId (n + 1) e = (e, p) :: chainHops log endEventId n p := by
  rw [chainDown, chainHops, if_neg hend, if_neg hend, predecessorOf_eq_some h hp hlane hclock]
  exact ⟨rfl, rfl⟩

end Chain

/-! ### Parents -/

/-- The scan for the nearest candidate finds the one with the highest sequence. -/
theorem foldl_laterCandidate (candidates : List IndexEntry) :
    candidates.foldl laterCandidate none = candidates.argmax (·.globalSequence) := by
  have hstep : laterCandidate =
      List.argAux fun a b : IndexEntry => b.globalSequence < a.globalSequence := by
    funext selected candidate
    cases selected with
    | none => rfl
    | some current => rfl
  rw [hstep]
  rfl

section Parent

variable {ix : StoreIndex} {x p : IndexEntry}

theorem mem_parentCandidates (h : IntactLog ix.inserted) {q : IndexEntry} :
    q ∈ parentCandidates ix (x, p) ↔ InStream ix x.coord.entity q ∧
      q.hashChain.eventHash = p.hashChain.eventHash ∧ q.globalSequence < x.globalSequence := by
  unfold parentCandidates
  rw [List.mem_filter, mem_visibleStream h]
  simp

/-- What a hop of the chain rests on. -/
structure Linked (ix : StoreIndex) (x p : IndexEntry) : Prop where
  mem : p ∈ ix.inserted
  lane : p.lane = x.lane
  clock : x.clock = p.clock + 1
  prevHash : x.hashChain.prevHash = p.hashChain.eventHash
  sequence : p.globalSequence < x.globalSequence
  visible : ix.gate.isVisible p.globalSequence = true

theorem Linked.entity (hlink : Linked ix x p) : p.coord.entity = x.coord.entity :=
  congrArg Prod.fst hlink.lane

theorem Linked.candidate (hlink : Linked ix x p) (h : IntactLog ix.inserted) :
    p ∈ parentCandidates ix (x, p) := by
  rw [mem_parentCandidates h]
  exact ⟨⟨hlink.mem, hlink.entity, hlink.visible⟩, rfl, hlink.sequence⟩

/-- No candidate of the lane itself is nearer than the predecessor. -/
theorem Nearest.highest (hnearest : Nearest ix (x, p)) (h : IntactLog ix.inserted)
    (hx : x ∈ ix.inserted) (hlink : Linked ix x p) :
    ∀ q ∈ parentCandidates ix (x, p), q.globalSequence ≤ p.globalSequence := by
  intro q hq
  by_cases hlane : q.lane = x.lane
  · by_contra hlater
    rw [mem_parentCandidates h] at hq
    have hbefore := h.clock_lt_of_sequence_lt hq.1.1 hx hlane hq.2.2
    have hafter := h.clock_lt_of_sequence_lt hlink.mem hq.1.1 (hlink.lane.trans hlane.symm)
      (Nat.lt_of_not_le hlater)
    have hnext := hlink.clock
    omega
  · exact hnearest.2 q hq hlane

/-- The candidate with the highest sequence is selected, and the candidates are counted. -/
theorem resolve_of_candidate (hp : p ∈ parentCandidates ix (x, p)) :
    ∃ m ∈ parentCandidates ix (x, p),
      (∀ q ∈ parentCandidates ix (x, p), q.globalSequence ≤ m.globalSequence) ∧
      resolveParentEventIdByHash (ix.visibleStream x.coord.entity) p.hashChain.eventHash
        x.globalSequence = some ⟨m.eventId, (parentCandidates ix (x, p)).length⟩ := by
  cases hfound : (parentCandidates ix (x, p)).argmax (·.globalSequence) with
  | none =>
      rw [List.argmax_eq_none.mp hfound] at hp
      cases hp
  | some m =>
      refine ⟨m, List.argmax_mem hfound, fun q hq => List.le_of_mem_argmax hq hfound, ?_⟩
      unfold resolveParentEventIdByHash
      dsimp only
      rw [foldl_laterCandidate]
      exact congrArg (Option.map _) hfound

/-- The nearest candidate is the predecessor. -/
theorem resolve_of_nearest (h : IntactLog ix.inserted) (hx : x ∈ ix.inserted)
    (hlink : Linked ix x p) (hnearest : Nearest ix (x, p)) :
    resolveParentEventIdByHash (ix.visibleStream x.coord.entity) p.hashChain.eventHash
      x.globalSequence = some ⟨p.eventId, (parentCandidates ix (x, p)).length⟩ := by
  have hp := hlink.candidate h
  obtain ⟨m, hm, hhighest, hresolve⟩ := resolve_of_candidate hp
  have hsame : m.globalSequence = p.globalSequence :=
    Nat.le_antisymm (hnearest.highest h hx hlink m hm) (hhighest p hp)
  rw [mem_parentCandidates h] at hm
  rw [hresolve, h.unique_sequence hm.1.1 hlink.mem hsame]

/-- Where the predecessor is not the nearest candidate there are several. -/
theorem one_lt_candidates (hp : p ∈ parentCandidates ix (x, p))
    (hzero : p.hashChain.eventHash ≠ 0) (hnot : ¬Nearest ix (x, p)) :
    1 < (parentCandidates ix (x, p)).length := by
  by_contra hle
  apply hnot
  refine ⟨hzero, ?_⟩
  intro q hq _
  obtain ⟨a, ha⟩ : ∃ a, parentCandidates ix (x, p) = [a] := by
    rw [← List.length_eq_one_iff]
    have hpos := List.length_pos_of_mem hp
    omega
  rw [ha, List.mem_singleton] at hq hp
  rw [hq, hp]

end Parent

/-! ### Rounds -/

section Rounds

variable {rt : Runtime} {ix : StoreIndex} {read : EventReader} {request : ChainWalkRequest}
  {x p : IndexEntry} {w : ChainWalk}

/-- Where a walk is when it is about to check `x`: everything visited is later on the lane,
and a start hash that was asked for is the hash of `x`. -/
structure AtEntry (ix : StoreIndex) (request : ChainWalkRequest) (x : IndexEntry)
    (w : ChainWalk) : Prop where
  mem : x ∈ ix.inserted
  visible : ix.gate.isVisible x.globalSequence = true
  cursor : w.cursor = some x.eventId
  later : LaterVisited ix w.visited x
  startHash : ∀ expected, request.start.expectedHash = some expected →
    w.checked = [] → expected = x.hashChain.eventHash

/-- The walk after an entry was checked, before the hop to its parent. -/
def ChainWalk.check (x : IndexEntry) (w : ChainWalk) : ChainWalk :=
  { w with
    cursor := none
    visited := x.eventId :: w.visited
    checked := w.checked ++ [checkedPair x] }

/-- A round over a sound entry checks it and goes on to the parent, if there is one and the
end is not reached. -/
theorem round_of_sound (h : IntactLog ix.inserted) (hat : AtEntry ix request x w)
    (hsound : Sound rt read x) (entityStream : List IndexEntry) :
    w.round rt ix read entityStream request x.eventId =
      if request.endEventId = some x.eventId then { w.check x with reachedEnd := true }
      else if x.hashChain.prevHash = 0 then w.check x
      else (w.check x).hop ix entityStream x.eventId x := by
  obtain ⟨f, hread, hhash⟩ := hsound
  have hunvisited : w.visited.contains x.eventId = false := by
    rw [List.contains_eq_mem, decide_eq_false_iff_not]
    exact hat.later x hat.mem rfl (Nat.le_refl _)
  have hfound := getById_of_visible h hat.mem hat.visible
  have hstart : ChainWalk.checkStart request x.eventId x.hashChain.eventHash
      { w with cursor := none, visited := x.eventId :: w.visited } =
        { w with cursor := none, visited := x.eventId :: w.visited } := by
    unfold ChainWalk.checkStart
    cases hexpected : request.start.expectedHash with
    | none => rfl
    | some expected =>
        have hmatches : (w.checked.isEmpty && expected != x.hashChain.eventHash) = false := by
          rw [Bool.and_eq_false_imp]
          intro hempty
          rw [bne_eq_false_iff_eq]
          exact hat.startHash expected hexpected (List.isEmpty_iff.mp hempty)
        simp only [hmatches, Bool.false_eq_true, if_false]
  unfold ChainWalk.round
  simp only [hunvisited, Bool.false_eq_true, if_false, hfound, hread, hstart, hhash, ne_eq,
    not_true_eq_false]
  rfl

theorem AtEntry.linked (hat : AtEntry ix request x w) (h : IntactLog ix.inserted)
    (hranges : ix.gate.cancelledRanges = []) {c : Nat} (hclock : x.clock = c + 1) :
    ∃ p, Linked ix x p := by
  obtain ⟨p, hp, hlane, hpc, hprev, -, hseq⟩ := h.predecessor hat.mem hclock
  exact ⟨p, hp, hlane, by rw [hpc, hclock], hprev, hseq,
    visible_of_earlier hranges hat.visible hseq⟩

/-- The walk after an entry was checked and its parent found. -/
def ChainWalk.descend (ix : StoreIndex) (x p : IndexEntry) (w : ChainWalk) : ChainWalk :=
  { w.check x with
    cursor := some p.eventId
    pendingParentHash := some p.hashChain.eventHash
    findings := w.findings ++ (ambiguity ix (x, p)).toList }

/-- The hop to the nearest candidate. -/
theorem hop_of_nearest (h : IntactLog ix.inserted) (hx : x ∈ ix.inserted)
    (hlink : Linked ix x p) (hnearest : Nearest ix (x, p)) (w : ChainWalk) :
    (w.check x).hop ix (ix.visibleStream x.coord.entity) x.eventId x = w.descend ix x p := by
  have hfound := getById_of_visible h hlink.mem hlink.visible
  unfold ChainWalk.hop
  simp only [hlink.prevHash, resolve_of_nearest h hx hlink hnearest, hfound,
    Nat.not_le.mpr hlink.sequence, if_false]
  unfold ChainWalk.descend ambiguity
  by_cases hshared : 1 < (parentCandidates ix (x, p)).length
  · simp only [hshared, if_true, Option.toList_some]
    rfl
  · simp only [hshared, if_false, Option.toList_none, List.append_nil]
    rfl

theorem AtEntry.descend (hat : AtEntry ix request x w) (h : IntactLog ix.inserted)
    (hlink : Linked ix x p) : AtEntry ix request p (w.descend ix x p) where
  mem := hlink.mem
  visible := hlink.visible
  cursor := rfl
  later := hat.later.next h hat.mem hlink.lane hlink.clock
  startHash _ _ hempty := by simp [ChainWalk.descend, ChainWalk.check] at hempty

theorem rounds_of_no_cursor (entityStream : List IndexEntry) (n : Nat)
    (hcursor : w.cursor = none) : w.rounds rt ix read entityStream request n = w := by
  cases n with
  | zero => rfl
  | succ n => rw [ChainWalk.rounds, hcursor]

/-- What the rounds of a walk have checked and found. -/
structure WalkedChain (ix : StoreIndex) (request : ChainWalkRequest) (n : Nat) (x : IndexEntry)
    (w w' : ChainWalk) : Prop where
  checked : w'.checked =
    w.checked ++ (chainDown ix.inserted request.endEventId n x).map checkedPair
  findings : w'.findings =
    w.findings ++ ambiguities ix (chainHops ix.inserted request.endEventId n x)
  reachedEnd : w'.reachedEnd = true ↔
    ∃ y ∈ chainDown ix.inserted request.endEventId n x, request.endEventId = some y.eventId
  pending : w'.pendingParentHash =
    ((chainHops ix.inserted request.endEventId n x).getLast?.map
      fun hop => hop.2.hashChain.eventHash).or w.pendingParentHash

theorem WalkedChain.zero (hend : w.reachedEnd = false) : WalkedChain ix request 0 x w w := by
  constructor
  · exact (List.append_nil _).symm
  · exact (List.append_nil _).symm
  · simp [chainDown, hend]
  · rfl

/-- The last round. -/
theorem WalkedChain.stop {n : Nat} {reached : Bool}
    (hstop : request.endEventId = some x.eventId ∨ x.clock = 0)
    (hreached : reached = true ↔ request.endEventId = some x.eventId) :
    WalkedChain ix request (n + 1) x w { w.check x with reachedEnd := reached } := by
  obtain ⟨hdown, hhops⟩ := @chain_stop ix.inserted x request.endEventId n hstop
  constructor
  · rw [hdown]
    rfl
  · rw [hhops]
    exact (List.append_nil _).symm
  · rw [hdown]
    simp [hreached]
  · rw [hhops]
    rfl

/-- A round that goes on to the predecessor. -/
theorem WalkedChain.step {n : Nat} {w' : ChainWalk} (h : IntactLog ix.inserted)
    (hlink : Linked ix x p) (hend : request.endEventId ≠ some x.eventId)
    (hrest : WalkedChain ix request n p (w.descend ix x p) w') :
    WalkedChain ix request (n + 1) x w w' := by
  obtain ⟨hdown, hhops⟩ := @chain_next ix.inserted x p request.endEventId n h hend hlink.mem
    hlink.lane hlink.clock
  constructor
  · rw [hrest.checked, hdown, List.map_cons, List.append_cons]
    rfl
  · rw [hrest.findings, hhops, ChainWalk.descend, List.append_assoc]
    unfold ambiguities
    rw [List.filterMap_cons]
    cases ambiguity ix (x, p) with
    | none => rfl
    | some finding => rfl
  · rw [hrest.reachedEnd, hdown]
    simp [hend]
  · rw [hrest.pending, hhops, List.getLast?_cons]
    cases (chainHops ix.inserted request.endEventId n p).getLast? with
    | none => rfl
    | some last => rfl

/-- The rounds over a sound chain, when every hop goes to the nearest candidate. -/
theorem rounds_exact (h : IntactLog ix.inserted) (hranges : ix.gate.cancelledRanges = [])
    (n : Nat) (hat : AtEntry ix request x w) (hend : w.reachedEnd = false)
    (hsound : ∀ y ∈ chainDown ix.inserted request.endEventId n x, Sound rt read y)
    (hnearest : ∀ hop ∈ chainHops ix.inserted request.endEventId n x, Nearest ix hop) :
    WalkedChain ix request n x w
      (w.rounds rt ix read (ix.visibleStream x.coord.entity) request n) := by
  induction n generalizing x w with
  | zero => exact .zero hend
  | succ n ih =>
      have hfirst : Sound rt read x := hsound x (List.mem_cons_self ..)
      rw [ChainWalk.rounds, hat.cursor]
      dsimp only
      rw [round_of_sound h hat hfirst]
      by_cases hstop : request.endEventId = some x.eventId
      · rw [if_pos hstop, rounds_of_no_cursor _ n rfl]
        exact .stop (.inl hstop) (iff_of_true rfl hstop)
      · rw [if_neg hstop]
        cases hclock : x.clock with
        | zero =>
            rw [if_pos (h.genesis hat.mem hclock), rounds_of_no_cursor _ n rfl]
            exact .stop (.inr hclock) (iff_of_false (by simp [hend]) hstop)
        | succ c =>
            obtain ⟨p, hlink⟩ := hat.linked h hranges hclock
            obtain ⟨hdown, hhops⟩ := @chain_next ix.inserted x p request.endEventId n h hstop
              hlink.mem hlink.lane hlink.clock
            rw [hdown] at hsound
            rw [hhops] at hnearest
            have hhop : Nearest ix (x, p) := hnearest _ (List.mem_cons_self ..)
            have hnonzero : x.hashChain.prevHash ≠ 0 := hlink.prevHash ▸ hhop.1
            rw [if_neg hnonzero, hop_of_nearest h hat.mem hlink hhop, ← hlink.entity]
            apply WalkedChain.step h hlink hstop
            apply ih (hat.descend h hlink) hend
            · exact fun y hy => hsound y (List.mem_cons_of_mem _ hy)
            · exact fun hop hhop => hnearest hop (List.mem_cons_of_mem _ hhop)

/-! ### Hops that go astray -/

theorem hop_findings (entityStream : List IndexEntry) (currentId : Nat) (entry : IndexEntry)
    (w : ChainWalk) : w.findings <+: (w.hop ix entityStream currentId entry).findings := by
  unfold ChainWalk.hop
  dsimp only
  split
  · exact List.prefix_append _ _
  · rename_i parent _
    by_cases hshared : 1 < parent.matchingParentCount
    · simp only [hshared, if_true]
      split
      · split
        · exact (List.prefix_append _ _).trans (List.prefix_append _ _)
        · exact List.prefix_append _ _
      · exact List.prefix_append _ _
    · simp only [hshared, if_false]
      split
      · split
        · exact List.prefix_append _ _
        · exact List.prefix_rfl
      · exact List.prefix_rfl

theorem checkStart_findings (request : ChainWalkRequest) (currentId : Nat) (eventHash : Digest)
    (w : ChainWalk) : w.findings <+: (w.checkStart request currentId eventHash).findings := by
  unfold ChainWalk.checkStart
  split
  · split
    · exact List.prefix_append _ _
    · exact List.prefix_rfl
  · exact List.prefix_rfl

theorem round_findings (entityStream : List IndexEntry) (currentId : Nat) (w : ChainWalk) :
    w.findings <+: (w.round rt ix read entityStream request currentId).findings := by
  unfold ChainWalk.round
  dsimp only
  split
  · exact List.prefix_append _ _
  · split
    · exact List.prefix_append _ _
    · rename_i entry _
      split
      · exact List.prefix_append _ _
      · apply (checkStart_findings request currentId entry.hashChain.eventHash
          { w with cursor := none, visited := currentId :: w.visited }).trans
        generalize ChainWalk.checkStart request currentId entry.hashChain.eventHash
          { w with cursor := none, visited := currentId :: w.visited } = started
        split
        · exact List.prefix_append _ _
        · split
          · exact List.prefix_rfl
          · split
            · exact List.prefix_rfl
            · exact hop_findings entityStream currentId entry
                { started with checked := started.checked ++
                  [(currentId, entry.hashChain.eventHash)] }

/-- A finding stays. -/
theorem rounds_findings (entityStream : List IndexEntry) (n : Nat) (w : ChainWalk) :
    w.findings <+: (w.rounds rt ix read entityStream request n).findings := by
  induction n generalizing w with
  | zero => exact List.prefix_rfl
  | succ n ih =>
      rw [ChainWalk.rounds]
      cases w.cursor with
      | none => exact List.prefix_rfl
      | some currentId => exact (round_findings entityStream currentId w).trans (ih _)

/-- A hop whose hash several candidates share is reported. -/
theorem hop_reports (hp : p ∈ parentCandidates ix (x, p))
    (hprev : x.hashChain.prevHash = p.hashChain.eventHash)
    (hshared : 1 < (parentCandidates ix (x, p)).length) (w : ChainWalk) :
    ∃ selected, .parentHashAmbiguous x.eventId p.hashChain.eventHash selected
      (parentCandidates ix (x, p)).length ∈
        (w.hop ix (ix.visibleStream x.coord.entity) x.eventId x).findings := by
  obtain ⟨m, -, -, hresolve⟩ := resolve_of_candidate hp
  refine ⟨m.eventId, ?_⟩
  unfold ChainWalk.hop
  simp only [hprev, hresolve, hshared, if_true]
  split
  · split
    · simp [ChainWalk.report]
    · simp [ChainWalk.report]
  · simp [ChainWalk.report]

/-- The first hop of a chain. -/
theorem hops_cons {n : Nat} {hop : IndexEntry × IndexEntry}
    {more : List (IndexEntry × IndexEntry)} (h : IntactLog ix.inserted)
    (hranges : ix.gate.cancelledRanges = []) (hat : AtEntry ix request x w)
    (hhops : chainHops ix.inserted request.endEventId n x = hop :: more) :
    ∃ m p, n = m + 1 ∧ request.endEventId ≠ some x.eventId ∧ Linked ix x p ∧ hop = (x, p) ∧
      more = chainHops ix.inserted request.endEventId m p := by
  cases n with
  | zero => cases hhops
  | succ m =>
      by_cases hstop : request.endEventId = some x.eventId
      · rw [(chain_stop (.inl hstop)).2] at hhops
        cases hhops
      · cases hclock : x.clock with
        | zero =>
            rw [(chain_stop (.inr hclock)).2] at hhops
            cases hhops
        | succ c =>
            obtain ⟨p, hlink⟩ := hat.linked h hranges hclock
            rw [(chain_next h hstop hlink.mem hlink.lane hlink.clock).2] at hhops
            obtain ⟨rfl, rfl⟩ := List.cons.inj hhops
            exact ⟨m, p, rfl, hstop, hlink, rfl, rfl⟩

/-- The first hop of a sound chain that does not go to the nearest candidate is reported. -/
theorem rounds_report_astray (h : IntactLog ix.inserted) (hranges : ix.gate.cancelledRanges = [])
    {before after : List (IndexEntry × IndexEntry)} {hop : IndexEntry × IndexEntry} {n : Nat}
    (hat : AtEntry ix request x w)
    (hsound : ∀ y ∈ chainDown ix.inserted request.endEventId n x, Sound rt read y)
    (hhops : chainHops ix.inserted request.endEventId n x = before ++ hop :: after)
    (hnearest : ∀ hop' ∈ before, Nearest ix hop') (hzero : hop.2.hashChain.eventHash ≠ 0)
    (hastray : ¬Nearest ix hop) :
    ∃ selected, .parentHashAmbiguous hop.1.eventId hop.2.hashChain.eventHash selected
      (parentCandidates ix hop).length ∈
        (w.rounds rt ix read (ix.visibleStream x.coord.entity) request n).findings := by
  induction before generalizing n x w with
  | nil =>
      obtain ⟨m, p, rfl, hstop, hlink, rfl, -⟩ := hops_cons h hranges hat hhops
      have hcandidate := hlink.candidate h
      have hshared := one_lt_candidates hcandidate hzero hastray
      obtain ⟨selected, hreport⟩ := hop_reports hcandidate hlink.prevHash hshared (w.check x)
      refine ⟨selected, ?_⟩
      rw [ChainWalk.rounds, hat.cursor]
      dsimp only
      have hnonzero : x.hashChain.prevHash ≠ 0 := hlink.prevHash ▸ hzero
      rw [round_of_sound h hat (hsound x (List.mem_cons_self ..)), if_neg hstop, if_neg hnonzero]
      exact (rounds_findings _ m _).subset hreport
  | cons first before ih =>
      obtain ⟨m, p, rfl, hstop, hlink, rfl, hmore⟩ := hops_cons h hranges hat hhops
      rw [(chain_next h hstop hlink.mem hlink.lane hlink.clock).1] at hsound
      have hhop : Nearest ix (x, p) := hnearest _ (List.mem_cons_self ..)
      have hnonzero : x.hashChain.prevHash ≠ 0 := hlink.prevHash ▸ hhop.1
      rw [ChainWalk.rounds, hat.cursor]
      dsimp only
      rw [round_of_sound h hat (hsound x (List.mem_cons_self ..)), if_neg hstop, if_neg hnonzero,
        hop_of_nearest h hat.mem hlink hhop, ← hlink.entity]
      apply ih (hat.descend h hlink)
      · exact fun y hy => hsound y (List.mem_cons_of_mem _ hy)
      · exact hmore.symm
      · exact fun hop' hhop' => hnearest hop' (List.mem_cons_of_mem _ hhop')

end Rounds

/-! ### The report -/

/-- The last event of a checked chain is not the end event and has a predecessor. -/
def Unvisited (endEventId : Option Nat) (chain : List IndexEntry) : Prop :=
  ∃ y, chain.getLast? = some y ∧ endEventId ≠ some y.eventId ∧ 0 < y.clock

/-- The findings for a chain that was checked down to the limit, the end event or the first
event of the lane. A walk that reaches its end with the last event the limit allows may
report a truncation or not. -/
structure ChainFindings (ix : StoreIndex) (request : ChainWalkRequest) (e : IndexEntry)
    (findings : List ChainWalkFinding) : Prop where
  shared : ambiguities ix (chainHops ix.inserted request.endEventId request.limit e) ≠ [] →
    findings = ambiguities ix (chainHops ix.inserted request.endEventId request.limit e)
  only : ambiguities ix (chainHops ix.inserted request.endEventId request.limit e) = [] →
    findings = [] ∨ (∃ parentHash, findings = [.truncatedByLimit request.limit parentHash]) ∨
      ∃ expected, findings = [.endNotReached expected]
  truncated : ambiguities ix (chainHops ix.inserted request.endEventId request.limit e) = [] →
    ¬((chainDown ix.inserted request.endEventId request.limit e).length = request.limit ∧
      ¬Unvisited request.endEventId
        (chainDown ix.inserted request.endEventId request.limit e)) →
    ((∃ parentHash, .truncatedByLimit request.limit parentHash ∈ findings) ↔
      Unvisited request.endEventId (chainDown ix.inserted request.endEventId request.limit e))
  endNotReached : ∀ expected, .endNotReached expected ∈ findings →
    request.endEventId = some expected ∧
      ∀ y ∈ chainDown ix.inserted request.endEventId request.limit e, y.eventId ≠ expected

section Report

variable {ix : StoreIndex} {request : ChainWalkRequest} {e : IndexEntry} {w : ChainWalk}

/-- A chain that has not come to its end has as many events and hops as the limit allows. -/
theorem lengths_of_unvisited {log : List IndexEntry} {endEventId : Option Nat}
    (h : IntactLog log) (n : Nat) (he : e ∈ log)
    (hlast : Unvisited endEventId (chainDown log endEventId n e)) :
    (chainDown log endEventId n e).length = n ∧ (chainHops log endEventId n e).length = n := by
  induction n generalizing e with
  | zero => exact ⟨rfl, rfl⟩
  | succ n ih =>
      obtain ⟨y, hy, hend, hclock⟩ := hlast
      by_cases hstop : endEventId = some e.eventId ∨ e.clock = 0
      · rw [(chain_stop hstop).1, List.getLast?_singleton, Option.some.injEq] at hy
        subst hy
        rcases hstop with hstop | hstop
        · exact absurd hstop hend
        · exact absurd hstop (Nat.ne_of_gt hclock)
      · rw [not_or] at hstop
        obtain ⟨c, hc⟩ := Nat.exists_eq_succ_of_ne_zero hstop.2
        obtain ⟨p, hp, hlane, hpc, -⟩ := h.predecessor he hc
        obtain ⟨hdown, hhops⟩ := @chain_next log e p endEventId n h hstop.1 hp hlane
          (by rw [hpc, hc])
        rw [hdown, hhops, List.length_cons, List.length_cons]
        cases n with
        | zero => exact ⟨rfl, rfl⟩
        | succ n =>
            have hrest : Unvisited endEventId (chainDown log endEventId (n + 1) p) := by
              refine ⟨y, ?_, hend, hclock⟩
              rw [hdown, chainDown, List.getLast?_cons_cons] at hy
              rw [chainDown]
              exact hy
            obtain ⟨hlength, hcount⟩ := ih hp hrest
            exact ⟨by rw [hlength], by rw [hcount]⟩

/-- The limit was reached with a parent hash pending. -/
theorem conclude_of_cut {parentHash : Digest} (hfindings : w.findings = [])
    (hlength : w.checked.length = request.limit)
    (hpending : w.pendingParentHash = some parentHash) :
    w.conclude request = [.truncatedByLimit request.limit parentHash] := by
  simp [ChainWalk.conclude, ChainWalk.truncation, hfindings, hlength, hpending]

/-- Otherwise only an end event that was not visited is reported. -/
theorem conclude_of_not_cut (hfindings : w.findings = [])
    (hcut : ∀ parentHash, w.checked.length = request.limit →
      w.pendingParentHash ≠ some parentHash) :
    w.conclude request = [] ∨ ∃ expected, w.conclude request = [.endNotReached expected] ∧
      request.endEventId = some expected ∧ w.reachedEnd = false := by
  have hnone : w.truncation request = [] := by
    unfold ChainWalk.truncation
    split
    · rename_i hfull
      rw [Bool.and_eq_true, beq_iff_eq] at hfull
      cases hpending : w.pendingParentHash with
      | none => rfl
      | some parentHash => exact absurd hpending (hcut parentHash hfull.2)
    · exact hfindings
  unfold ChainWalk.conclude
  rw [hnone]
  cases hreached : w.reachedEnd with
  | true => exact .inl rfl
  | false =>
      cases hend : request.endEventId with
      | none => exact .inl rfl
      | some expected =>
          by_cases hlast : w.checked.getLast?.map Prod.fst = some expected
          · simp [hlast]
          · simp [hlast]

theorem conclude_of_findings (hfindings : w.findings ≠ []) : w.conclude request = w.findings := by
  have hsome : w.findings.isEmpty = false := List.isEmpty_eq_false_iff.mpr hfindings
  simp [ChainWalk.conclude, ChainWalk.truncation, hsome]

/-- How a walk ends that has checked the whole chain. -/
theorem WalkedChain.conclude (h : IntactLog ix.inserted) (he : e ∈ ix.inserted)
    (hlimit : 0 < request.limit)
    (hwalked : WalkedChain ix request request.limit e (.start request.start.target) w) :
    ChainFindings ix request e (w.conclude request) := by
  have hfindings := hwalked.findings
  have hchecked := hwalked.checked
  have hpending := hwalked.pending
  simp only [ChainWalk.start, List.nil_append, Option.or_none] at hfindings hchecked hpending
  have hlength : w.checked.length =
      (chainDown ix.inserted request.endEventId request.limit e).length := by
    rw [hchecked, List.length_map]
  by_cases hambiguous :
      ambiguities ix (chainHops ix.inserted request.endEventId request.limit e) = []
  · rw [hambiguous] at hfindings
    by_cases hcut : ∃ parentHash, w.checked.length = request.limit ∧
        w.pendingParentHash = some parentHash
    · obtain ⟨parentHash, hfull, hhash⟩ := hcut
      have hconclude := conclude_of_cut hfindings hfull hhash
      constructor
      · exact fun hsome => absurd hambiguous hsome
      · exact fun _ => .inr (.inl ⟨parentHash, hconclude⟩)
      · intro _ hexact
        constructor
        · intro _
          by_contra hdone
          exact hexact ⟨hlength ▸ hfull, hdone⟩
        · intro _
          exact ⟨parentHash, by simp [hconclude]⟩
      · intro expected hmem
        rw [hconclude, List.mem_singleton] at hmem
        cases hmem
    · have hnotcut : ∀ parentHash, w.checked.length = request.limit →
          w.pendingParentHash ≠ some parentHash :=
        fun parentHash hfull hhash => hcut ⟨parentHash, hfull, hhash⟩
      have hvisited : ¬Unvisited request.endEventId
          (chainDown ix.inserted request.endEventId request.limit e) := by
        intro hunvisited
        obtain ⟨hfull, hhops⟩ := lengths_of_unvisited h request.limit he hunvisited
        have hsome : chainHops ix.inserted request.endEventId request.limit e ≠ [] := by
          rw [← List.length_pos_iff, hhops]
          exact hlimit
        rw [List.getLast?_eq_some_getLast hsome, Option.map_some] at hpending
        exact hnotcut _ (hlength.trans hfull) hpending
      rcases conclude_of_not_cut hfindings hnotcut with hnone | ⟨expected, hmissed, hend, hreached⟩
      · constructor
        · exact fun hsome => absurd hambiguous hsome
        · exact fun _ => .inl hnone
        · intro _ _
          rw [hnone]
          exact iff_of_false (by simp) hvisited
        · intro expected hmem
          rw [hnone] at hmem
          cases hmem
      · constructor
        · exact fun hsome => absurd hambiguous hsome
        · exact fun _ => .inr (.inr ⟨expected, hmissed⟩)
        · intro _ _
          rw [hmissed]
          exact iff_of_false (by simp) hvisited
        · intro other hmem
          rw [hmissed, List.mem_singleton] at hmem
          cases hmem
          refine ⟨hend, ?_⟩
          intro y hy heq
          have hend' := hwalked.reachedEnd.mpr ⟨y, hy, by rw [heq, hend]⟩
          rw [hreached] at hend'
          cases hend'
  · have hkept : w.conclude request =
        ambiguities ix (chainHops ix.inserted request.endEventId request.limit e) := by
      rw [conclude_of_findings (hfindings ▸ hambiguous), hfindings]
    constructor
    · exact fun _ => hkept
    · exact fun hnone => absurd hnone hambiguous
    · exact fun hnone => absurd hnone hambiguous
    · intro expected hmem
      rw [hkept] at hmem
      obtain ⟨hop, -, hfinding⟩ := List.mem_filterMap.mp hmem
      unfold ambiguity at hfinding
      split at hfinding
      · cases hfinding
      · cases hfinding

end Report

/-- The evidence for a walk of an intact index: its checked entries and its findings. -/
theorem chainWalkEvidence_eq (rt : Runtime)
    (walkDigest : List (Nat × Digest) → Except String Digest) {ix : StoreIndex}
    (read : EventReader) {request : ChainWalkRequest} (hlimit : 0 < request.limit)
    {e : IndexEntry} (he : ix.getById request.start.target = some e) :
    chainWalkEvidence rt walkDigest ix read request =
      buildReport walkDigest
        (ChainWalk.rounds rt ix read (ix.visibleStream e.coord.entity) request request.limit
          (.start request.start.target)).checked
        ((ChainWalk.rounds rt ix read (ix.visibleStream e.coord.entity) request request.limit
          (.start request.start.target)).conclude request) := by
  unfold chainWalkEvidence
  rw [if_neg (Nat.ne_of_gt hlimit), he]

/-- In every guarded life without cancelled ranges, and for every walk over events that can
be read and hash as recorded: as long as every hop goes to the nearest candidate the evidence
checks exactly the chain of the start event, and the first hop that does not is reported as
ambiguous. -/
theorem evidence_of_chain (cfg : LifecycleConfig) (rt : Runtime) (steps : List LifecycleStep)
    (h : Guarded (lifecycleStep cfg rt) (chainGuards cfg rt).Allows .blank steps)
    {core : WriterCore} (hcore : (run (lifecycleStep cfg rt) .blank steps).core? = some core)
    (hranges : core.index.gate.cancelledRanges = []) (read : EventReader)
    (walkDigest : List (Nat × Digest) → Except String Digest) (request : ChainWalkRequest)
    (hlimit : 0 < request.limit) {e : IndexEntry}
    (he : core.index.getById request.start.target = some e)
    (hstart : ∀ expected, request.start.expectedHash = some expected →
      expected = e.hashChain.eventHash)
    (hsound : ∀ y ∈ chainDown core.index.inserted request.endEventId request.limit e,
      Sound rt read y) :
    ((∀ hop ∈ chainHops core.index.inserted request.endEventId request.limit e,
        Nearest core.index hop) →
      ∃ findings, chainWalkEvidence rt walkDigest core.index read request =
          buildReport walkDigest
            ((chainDown core.index.inserted request.endEventId request.limit e).map checkedPair)
            findings ∧
        ChainFindings core.index request e findings) ∧
    ∀ before hop after,
      chainHops core.index.inserted request.endEventId request.limit e = before ++ hop :: after →
      (∀ hop' ∈ before, Nearest core.index hop') → hop.2.hashChain.eventHash ≠ 0 →
      ¬Nearest core.index hop →
      ∃ checked findings selected, chainWalkEvidence rt walkDigest core.index read request =
          buildReport walkDigest checked findings ∧
        .parentHashAmbiguous hop.1.eventId hop.2.hashChain.eventHash selected
          (parentCandidates core.index hop).length ∈ findings := by
  have hlog := (intact_of_guarded_life cfg rt steps h hcore).log
  obtain ⟨hbyId, hvisible⟩ := Option.filter_eq_some_iff.mp he
  have hmem : e ∈ core.index.inserted := List.mem_of_find?_eq_some hbyId
  have hid : e.eventId = request.start.target := by
    have hkey := List.find?_some hbyId
    exact beq_iff_eq.mp hkey
  have hat : AtEntry core.index request e (.start request.start.target) := {
    mem := hmem
    visible := hvisible
    cursor := congrArg some hid.symm
    later := fun q _ _ _ => List.not_mem_nil
    startHash := fun expected hexpected _ => hstart expected hexpected }
  rw [chainWalkEvidence_eq rt walkDigest read hlimit he]
  constructor
  · intro hnearest
    have hwalked := rounds_exact hlog hranges request.limit hat rfl hsound hnearest
    refine ⟨_, ?_, hwalked.conclude hlog hmem hlimit⟩
    rw [hwalked.checked]
    rfl
  · intro before hop after hhops hnearest hzero hastray
    obtain ⟨selected, hreport⟩ :=
      rounds_report_astray hlog hranges hat hsound hhops hnearest hzero hastray
    refine ⟨_, _, selected, rfl, ?_⟩
    have hsome := List.ne_nil_of_mem hreport
    rw [conclude_of_findings hsome]
    exact hreport

/-! ### Runs -/

instance decidableSound (rt : Runtime) (read : EventReader) (e : IndexEntry) :
    Decidable (Sound rt read e) :=
  match hread : read e.diskPos with
  | .ok f => decidable_of_iff (rt.computeHash f.payload = e.hashChain.eventHash)
      ⟨fun h => ⟨f, hread, h⟩, fun ⟨g, hg, h⟩ => by
        rw [hread] at hg
        cases hg
        exact h⟩
  | .error err => isFalse fun ⟨g, hg, _⟩ => by
      rw [hread] at hg
      cases hg

instance (ix : StoreIndex) (hop : IndexEntry × IndexEntry) : Decidable (Nearest ix hop) :=
  inferInstanceAs (Decidable (_ ∧ ∀ q ∈ parentCandidates ix hop, _ → _))

/-- A walk over more than is there. -/
def wholeChainOf (eventId : Nat) : ChainWalkRequest :=
  ⟨.eventId eventId, none, 10⟩

/-- The third payload repeats the first one: the walk goes to the third event all the same,
and reports that it could have gone to the first one. -/
theorem repeated_payload_is_reported :
    ¬∀ core ∈ (run (lifecycleStep .small .unsigned) .blank (sizedRun [4, 5, 4, 6])).core?,
      core.index.gate.cancelledRanges = [] →
        ∀ body, chainWalkEvidence .unsigned (fun checked => .ok checked.length) core.index
          (readEntry core.segments) (wholeChainOf 13) = .ok body → body.findings = [] := by
  decide +kernel

/-- Two of four events with distinct payloads are checked. -/
theorem distinct_payloads_evidence :
    ∃ core, (run (lifecycleStep .small .unsigned) .blank (sizedRun [4, 5, 7, 6])).core? =
        some core ∧ ∃ e, core.index.getById 13 = some e ∧
      ∃ findings, chainWalkEvidence .unsigned (fun checked => .ok checked.length) core.index
          (readEntry core.segments) ⟨.eventId 13, none, 2⟩ =
        buildReport (fun checked => .ok checked.length) [(13, 7), (12, 8)] findings ∧
      ChainFindings core.index ⟨.eventId 13, none, 2⟩ e findings := by
  have hguarded : Guarded (lifecycleStep .small .unsigned) (chainGuards .small .unsigned).Allows
      .blank (sizedRun [4, 5, 7, 6]) := by
    decide +kernel
  have hready : ∃ core ∈ (run (lifecycleStep .small .unsigned) .blank
      (sizedRun [4, 5, 7, 6])).core?, ∃ e ∈ core.index.getById 13,
        core.index.gate.cancelledRanges = [] ∧
        (∀ y ∈ chainDown core.index.inserted none 2 e,
          Sound .unsigned (readEntry core.segments) y) ∧
        (∀ hop ∈ chainHops core.index.inserted none 2 e, Nearest core.index hop) ∧
        (chainDown core.index.inserted none 2 e).map checkedPair = [(13, 7), (12, 8)] := by
    decide +kernel
  obtain ⟨core, hcore, e, he, hranges, hsound, hnearest, hchecked⟩ := hready
  refine ⟨core, hcore, e, he, ?_⟩
  rw [← hchecked]
  exact (evidence_of_chain .small .unsigned _ hguarded hcore hranges (readEntry core.segments)
    _ ⟨.eventId 13, none, 2⟩ (by decide) he nofun hsound).1 hnearest

end Batpak.Store
