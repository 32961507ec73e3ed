/-
Module: Batpak.Proofs.QueryExact
Purpose: A region query returns exactly the indexed entries that satisfy it, whatever the
  overlays, as long as no event id is indexed twice.
Trusted boundary: none (fully proved)
Main exports: supplies_query, queryHitsAfter_smallest
-/
import Batpak.Store.Query
import Batpak.Proofs.ReplayOrder

namespace Batpak.Store

open Batpak.Util

variable {α : Type} {entries' entries : List IndexEntry} {e : IndexEntry} {s : AoSoAInner}
  {hits : List QueryHit}

/-! ### Grouping by a key -/

/-- Collecting the elements of every key of a list collects the elements whose key is in the
list. -/
theorem perm_flatMap_groups {κ : Type} [DecidableEq κ] {keys : List κ} (hkeys : keys.Nodup)
    (f : α → κ) (l : List α) :
    (keys.flatMap fun k => l.filter fun a => f a == k).Perm
      (l.filter fun a => decide (f a ∈ keys)) := by
  induction keys with
  | nil => simp
  | cons k rest ih =>
      obtain ⟨hk, hrest⟩ := List.nodup_cons.mp hkeys
      let members := l.filter fun a => decide (f a ∈ k :: rest)
      have hfirst : members.filter (fun a => f a == k) = l.filter fun a => f a == k := by
        rw [List.filter_filter]
        apply List.filter_congr
        intro a _
        by_cases ha : f a = k
        · simp [ha]
        · simp [ha]
      have hlater : members.filter (fun a => !(f a == k)) =
          l.filter fun a => decide (f a ∈ rest) := by
        rw [List.filter_filter]
        apply List.filter_congr
        intro a _
        by_cases ha : f a = k
        · simp [ha, hk]
        · simp [ha]
      have hsplit := List.filter_append_perm (fun a => f a == k) members
      rw [hfirst, hlater] at hsplit
      rw [List.flatMap_cons]
      exact ((ih hrest).append_left _).trans hsplit

/-- The same for any way of listing the elements of a key. -/
theorem perm_collect {κ : Type} [DecidableEq κ] {keys : List κ} (hkeys : keys.Nodup) (f : α → κ)
    {l : List α} {v : κ → List α} (hview : ∀ k, (v k).Perm (l.filter fun a => f a == k)) :
    (keys.flatMap v).Perm (l.filter fun a => decide (f a ∈ keys)) :=
  (List.Perm.flatMap_left keys fun k _ => hview k).trans (perm_flatMap_groups hkeys f l)

/-- What every push extends by the pushed entry, pushing a list extends by the list. -/
theorem sound_foldl {σ : Type} {P : σ → List α → Prop} {push : σ → α → σ}
    (hpush : ∀ s held a, P s held → P (push s a) (a :: held)) (more : List α) {s : σ}
    {held : List α} (h : P s held) : P (more.foldl push s) (more.reverse ++ held) := by
  induction more generalizing s held with
  | nil => exact h
  | cons a rest ih =>
      rw [List.reverse_cons, List.append_assoc]
      exact ih (hpush s held a h)

/-! ### Scopes -/

/-- Every scope lists every entity that emitted in it, and no pair stands twice. -/
structure ScopesSound (scopes : ScopeEntities) (entries : List IndexEntry) : Prop where
  nodup : scopes.Nodup
  covers : ∀ e ∈ entries, (e.coord.scope, e.coord.entity) ∈ scopes

namespace ScopesSound

variable {scopes : ScopeEntities} {entries : List IndexEntry}

theorem nil : ScopesSound [] [] :=
  ⟨List.nodup_nil, by simp⟩

theorem note (h : ScopesSound scopes entries) (entry : IndexEntry) :
    ScopesSound (scopes.note entry) (entry :: entries) := by
  unfold ScopeEntities.note
  split
  · rename_i hmem
    refine ⟨h.nodup, ?_⟩
    intro e he
    rcases List.mem_cons.mp he with rfl | he
    · exact hmem
    · exact h.covers e he
  · rename_i hmem
    refine ⟨?_, ?_⟩
    · rw [List.nodup_append]
      refine ⟨h.nodup, List.nodup_singleton _, ?_⟩
      intro a ha b hb hab
      rw [List.mem_singleton] at hb
      subst hab hb
      exact hmem ha
    · intro e he
      rw [List.mem_append]
      rcases List.mem_cons.mp he with rfl | he
      · exact .inr List.mem_cons_self
      · exact .inl (h.covers e he)

theorem of_perm (h : ScopesSound scopes entries) (hperm : entries.Perm entries') :
    ScopesSound scopes entries' :=
  ⟨h.nodup, fun e he => h.covers e (hperm.mem_iff.mpr he)⟩

theorem foldl (more : List IndexEntry) :
    ScopesSound (more.foldl ScopeEntities.note []) more.reverse := by
  have hfold := sound_foldl (P := ScopesSound) (fun _ _ e h => h.note e) more .nil
  rwa [List.append_nil] at hfold

theorem nodup_entitySet (h : ScopesSound scopes entries) (scope : String) :
    (scopes.entitySet scope).Nodup := by
  apply List.Nodup.map_on _ (h.nodup.filter _)
  intro p hp q hq hpq
  have hp1 : p.1 = scope := beq_iff_eq.mp (List.mem_filter.mp hp).2
  have hq1 : q.1 = scope := beq_iff_eq.mp (List.mem_filter.mp hq).2
  exact Prod.ext (hp1.trans hq1.symm) hpq

theorem mem_entitySet (h : ScopesSound scopes entries) (he : e ∈ entries) :
    e.coord.entity ∈ scopes.entitySet e.coord.scope := by
  apply List.mem_map.mpr
  exact ⟨_, List.mem_filter.mpr ⟨h.covers e he, beq_self_eq_true _⟩, rfl⟩

end ScopesSound

/-! ### Flat arrays and entity groups -/

structure SoASound (s : SoAInner) (entries : List IndexEntry) : Prop where
  holds : s.entries.Perm entries
  scopes : ScopesSound s.scopeEntities entries

theorem SoASound.empty : SoASound .empty [] :=
  ⟨.nil, .nil⟩

theorem SoASound.push {s : SoAInner} (h : SoASound s entries) (entry : IndexEntry) :
    SoASound (s.push entry) (entry :: entries) where
  holds := (List.perm_append_singleton entry s.entries).trans (h.holds.cons entry)
  scopes := h.scopes.note entry

structure GroupsSound (s : SoAoSInner) (entries : List IndexEntry) : Prop where
  keys : s.keys.Nodup
  covers : ∀ e ∈ entries, e.coord.entity ∈ s.keys
  members : ∀ entity, (s.entriesOf entity).Perm (entries.filter fun e => e.coord.entity == entity)
  scopes : ScopesSound s.scopeEntities entries

theorem GroupsSound.empty : GroupsSound .empty [] :=
  ⟨List.nodup_nil, by simp, fun _ => .nil, .nil⟩

theorem GroupsSound.push {s : SoAoSInner} (h : GroupsSound s entries) (entry : IndexEntry) :
    GroupsSound (s.push entry) (entry :: entries) := by
  refine ⟨?_, ?_, ?_, h.scopes.note entry⟩
  · change (if entry.coord.entity ∈ s.keys then s.keys
      else s.keys ++ [entry.coord.entity]).Nodup
    split
    · exact h.keys
    · rename_i hnew
      rw [List.nodup_append]
      refine ⟨h.keys, List.nodup_singleton _, ?_⟩
      intro a ha b hb hab
      rw [List.mem_singleton] at hb
      subst hab hb
      exact hnew ha
  · intro e he
    change e.coord.entity ∈ if entry.coord.entity ∈ s.keys then s.keys
      else s.keys ++ [entry.coord.entity]
    rcases List.mem_cons.mp he with rfl | he
    · split
      · assumption
      · exact List.mem_append_right _ List.mem_cons_self
    · split
      · exact h.covers e he
      · exact List.mem_append_left _ (h.covers e he)
  · intro entity
    change ((s.groups.push entry).entriesOf entity).Perm _
    rw [entriesOf_push, List.filter_cons]
    by_cases hentity : entity = entry.coord.entity
    · subst hentity
      rw [if_pos rfl, if_pos (beq_self_eq_true _)]
      exact (List.perm_append_singleton entry _).trans ((h.members _).cons entry)
    · have hne : (entry.coord.entity == entity) = false := by
        rw [beq_eq_false_iff_ne]
        exact fun heq => hentity heq.symm
      rw [if_neg hentity, hne]
      exact h.members entity

theorem GroupsSound.restored (entries : List IndexEntry) :
    GroupsSound (.fromRestoreBase entries) entries := by
  have hperm := List.perm_insertionSort
    (fun a b : IndexEntry => StoreIndex.entityOrder a b = true) entries
  refine ⟨List.nodup_dedup _, ?_, ?_, ?_⟩
  · intro e he
    apply List.mem_dedup.mpr
    exact List.mem_map.mpr ⟨e, hperm.mem_iff.mpr he, rfl⟩
  · intro entity
    change ((Groups.ofSorted entries).entriesOf entity).Perm _
    rw [entriesOf_ofSorted]
    exact hperm.filter _
  · exact (ScopesSound.foldl _).of_perm ((List.reverse_perm _).trans hperm)

/-! ### Tiles -/

/-- Every tile holds entries of one kind, and the open tile of a kind has entries of it. -/
structure TilesSound (s : AoSoAInner) (entries : List IndexEntry) : Prop where
  holds : s.tiles.flatten.Perm entries
  uniform : ∀ tile ∈ s.tiles, ∀ a ∈ tile, ∀ b ∈ tile, a.kind = b.kind
  opened : ∀ kind idx, s.openTiles kind = some idx →
    ∃ tile, s.tiles[idx]? = some tile ∧ tile ≠ [] ∧ ∀ e ∈ tile, e.kind = kind
  scopes : ScopesSound s.scopeEntities entries

theorem perm_flatten_set {tiles : List (List IndexEntry)} {idx : Nat} {tile : List IndexEntry}
    (h : tiles[idx]? = some tile) (entry : IndexEntry) :
    (tiles.set idx (tile ++ [entry])).flatten.Perm (entry :: tiles.flatten) := by
  induction tiles generalizing idx with
  | nil => cases h
  | cons first rest ih =>
      cases idx with
      | zero =>
          cases h
          rw [List.set_cons_zero, List.flatten_cons, List.flatten_cons, List.append_assoc,
            List.singleton_append]
          exact List.perm_middle
      | succ idx =>
          rw [List.set_cons_succ, List.flatten_cons, List.flatten_cons]
          exact ((ih h).append_left first).trans List.perm_middle

theorem TilesSound.empty : TilesSound .empty [] :=
  ⟨.nil, by simp [AoSoAInner.empty], by simp [AoSoAInner.empty], .nil⟩

/-- An open tile takes the entry; it stays open unless it is full now. -/
theorem TilesSound.fill (h : TilesSound s entries) {entry : IndexEntry} {idx : Nat}
    (hopen : s.openTiles entry.kind = some idx) :
    TilesSound (s.push entry) (entry :: entries) := by
  obtain ⟨tile, htile, hne, hkind⟩ := h.opened _ idx hopen
  have hpush : s.push entry = ⟨s.tiles.set idx (tile ++ [entry]),
      if AoSoAInner.isFull (tile ++ [entry]) then Function.update s.openTiles entry.kind none
      else s.openTiles, s.scopeEntities.note entry⟩ := by
    unfold AoSoAInner.push
    rw [hopen]
    dsimp only
    rw [htile]
    rfl
  have hkinds : ∀ e ∈ tile ++ [entry], e.kind = entry.kind := by
    intro e he
    rcases List.mem_append.mp he with he | he
    · exact hkind e he
    · rw [List.mem_singleton.mp he]
  have hstill : ∀ kind idx', s.openTiles kind = some idx' →
      ∃ tile', (s.tiles.set idx (tile ++ [entry]))[idx']? = some tile' ∧ tile' ≠ [] ∧
        ∀ e ∈ tile', e.kind = kind := by
    intro kind idx' hopen'
    obtain ⟨tile', htile', hne', hkind'⟩ := h.opened kind idx' hopen'
    by_cases hidx : idx = idx'
    · subst hidx
      rw [htile] at htile'
      cases htile'
      obtain ⟨e, rest, rfl⟩ := List.exists_cons_of_ne_nil hne
      have heq : kind = entry.kind :=
        (hkind' e List.mem_cons_self).symm.trans (hkind e List.mem_cons_self)
      refine ⟨e :: rest ++ [entry], ?_, by simp, ?_⟩
      · exact List.getElem?_set_self (List.getElem?_eq_some_iff.mp htile).1
      · rw [heq]
        exact hkinds
    · exact ⟨tile', by rw [List.getElem?_set_ne hidx]; exact htile', hne', hkind'⟩
  rw [hpush]
  refine ⟨?_, ?_, ?_, h.scopes.note entry⟩
  · exact (perm_flatten_set htile entry).trans (h.holds.cons entry)
  · intro t ht a ha b hb
    rcases List.mem_or_eq_of_mem_set ht with ht | rfl
    · exact h.uniform t ht a ha b hb
    · exact (hkinds a ha).trans (hkinds b hb).symm
  · intro kind idx' hopen'
    dsimp only at hopen'
    split at hopen'
    · by_cases hkind' : kind = entry.kind
      · subst hkind'
        rw [Function.update_self] at hopen'
        cases hopen'
      · rw [Function.update_of_ne hkind'] at hopen'
        exact hstill kind idx' hopen'
    · exact hstill kind idx' hopen'

/-- Without an open tile of its kind the entry starts one. -/
theorem TilesSound.start (h : TilesSound s entries) {entry : IndexEntry}
    (hopen : s.openTiles entry.kind = none) :
    TilesSound (s.push entry) (entry :: entries) := by
  have hpush : s.push entry = ⟨s.tiles ++ [[entry]],
      Function.update s.openTiles entry.kind (some s.tiles.length),
      s.scopeEntities.note entry⟩ := by
    unfold AoSoAInner.push
    rw [hopen]
    rfl
  rw [hpush]
  refine ⟨?_, ?_, ?_, h.scopes.note entry⟩
  · change (s.tiles ++ [[entry]]).flatten.Perm _
    rw [List.flatten_append, List.flatten_singleton]
    exact (List.perm_append_singleton entry _).trans (h.holds.cons entry)
  · intro tile ht a ha b hb
    rcases List.mem_append.mp ht with ht | ht
    · exact h.uniform tile ht a ha b hb
    · rw [List.mem_singleton] at ht
      subst ht
      rw [List.mem_singleton.mp ha, List.mem_singleton.mp hb]
  · intro kind idx hopen'
    dsimp only at hopen' ⊢
    by_cases hkind : kind = entry.kind
    · subst hkind
      rw [Function.update_self] at hopen'
      cases hopen'
      refine ⟨[entry], List.getElem?_concat_length, by simp, ?_⟩
      intro e he
      rw [List.mem_singleton.mp he]
    · rw [Function.update_of_ne hkind] at hopen'
      obtain ⟨tile, htile, hrest⟩ := h.opened kind idx hopen'
      refine ⟨tile, ?_, hrest⟩
      rw [List.getElem?_append_left (List.getElem?_eq_some_iff.mp htile).1]
      exact htile

theorem TilesSound.push (h : TilesSound s entries) (entry : IndexEntry) :
    TilesSound (s.push entry) (entry :: entries) := by
  cases hopen : s.openTiles entry.kind with
  | none => exact h.start hopen
  | some idx => exact h.fill hopen

/-! ### The scan index -/

theorem SoASound.of_perm {s : SoAInner} (h : SoASound s entries) (hperm : entries.Perm entries') :
    SoASound s entries' :=
  ⟨h.holds.trans hperm, h.scopes.of_perm hperm⟩

theorem GroupsSound.of_perm {s : SoAoSInner} (h : GroupsSound s entries)
    (hperm : entries.Perm entries') : GroupsSound s entries' where
  keys := h.keys
  covers e he := h.covers e (hperm.mem_iff.mpr he)
  members entity := (h.members entity).trans (hperm.filter _)
  scopes := h.scopes.of_perm hperm

theorem TilesSound.of_perm (h : TilesSound s entries) (hperm : entries.Perm entries') :
    TilesSound s entries' :=
  ⟨h.holds.trans hperm, h.uniform, h.opened, h.scopes.of_perm hperm⟩

/-- The base maps and every configured overlay hold exactly the given entries. -/
structure ScanSound (s : ScanIndex) (entries : List IndexEntry) : Prop where
  byFact : s.byFact.Perm entries
  scopes : ScopesSound s.scopeEntities entries
  soa : ∀ idx ∈ s.soa, SoASound idx entries
  groups : ∀ idx ∈ s.entityGroups, GroupsSound idx entries
  tiles : ∀ idx ∈ s.tiles64, TilesSound idx entries

namespace ScanSound

variable {s : ScanIndex} {entries : List IndexEntry}

theorem of_perm (h : ScanSound s entries) (hperm : entries.Perm entries') :
    ScanSound s entries' where
  byFact := h.byFact.trans hperm
  scopes := h.scopes.of_perm hperm
  soa idx hidx := (h.soa idx hidx).of_perm hperm
  groups idx hidx := (h.groups idx hidx).of_perm hperm
  tiles idx hidx := (h.tiles idx hidx).of_perm hperm

theorem forConfig (topology : IndexTopology) : ScanSound (.forConfig topology) [] := by
  have hnone {α : Type} (b : Bool) (x y : α) (h : y ∈ if b then some x else none) : y = x := by
    cases b
    · cases h
    · exact (Option.some.inj h).symm
  refine ⟨.nil, .nil, ?_, ?_, ?_⟩
  · intro idx hidx
    rw [hnone _ _ _ hidx]
    exact .empty
  · intro idx hidx
    rw [hnone _ _ _ hidx]
    exact .empty
  · intro idx hidx
    rw [hnone _ _ _ hidx]
    exact .empty

theorem clear (s : ScanIndex) : ScanSound s.clear [] := by
  refine ⟨.nil, .nil, ?_, ?_, ?_⟩
  · intro idx hidx
    obtain ⟨_, _, rfl⟩ := Option.map_eq_some_iff.mp hidx
    exact .empty
  · intro idx hidx
    obtain ⟨_, _, rfl⟩ := Option.map_eq_some_iff.mp hidx
    exact .empty
  · intro idx hidx
    obtain ⟨_, _, rfl⟩ := Option.map_eq_some_iff.mp hidx
    exact .empty

theorem insert (h : ScanSound s entries) (entry : IndexEntry) :
    ScanSound (s.insert entry) (entry :: entries) := by
  refine ⟨h.byFact.cons entry, h.scopes.note entry, ?_, ?_, ?_⟩
  · intro idx hidx
    obtain ⟨before, hbefore, rfl⟩ := Option.map_eq_some_iff.mp hidx
    exact (h.soa before hbefore).push entry
  · intro idx hidx
    obtain ⟨before, hbefore, rfl⟩ := Option.map_eq_some_iff.mp hidx
    exact (h.groups before hbefore).push entry
  · intro idx hidx
    obtain ⟨before, hbefore, rfl⟩ := Option.map_eq_some_iff.mp hidx
    exact (h.tiles before hbefore).push entry

theorem foldl (h : ScanSound s entries) (more : List IndexEntry) :
    ScanSound (more.foldl ScanIndex.insert s) (more.reverse ++ entries) :=
  sound_foldl (fun _ _ e h => h.insert e) more h

theorem soa_fromEntries (entries : List IndexEntry) :
    SoASound (.fromEntries entries) entries.reverse := by
  have hfold := sound_foldl (P := SoASound) (fun _ _ e h => h.push e) entries .empty
  rwa [List.append_nil] at hfold

theorem tiles_fromEntries (entries : List IndexEntry) :
    TilesSound (.fromEntries entries) entries.reverse := by
  have hfold := sound_foldl (P := TilesSound) (fun _ _ e h => h.push e) entries .empty
  rwa [List.append_nil] at hfold

theorem rebuilt (s : ScanIndex) (entries : List IndexEntry) :
    ScanSound (s.rebuildFromRestoreBase entries) entries.reverse := by
  refine ⟨.refl _, ScopesSound.foldl entries, ?_, ?_, ?_⟩
  · intro idx hidx
    obtain ⟨_, _, rfl⟩ := Option.map_eq_some_iff.mp hidx
    exact soa_fromEntries entries
  · intro idx hidx
    obtain ⟨_, _, rfl⟩ := Option.map_eq_some_iff.mp hidx
    exact (GroupsSound.restored entries).of_perm (List.reverse_perm entries).symm
  · intro idx hidx
    obtain ⟨_, _, rfl⟩ := Option.map_eq_some_iff.mp hidx
    exact tiles_fromEntries entries

end ScanSound

/-! ### What each route supplies -/

theorem perm_sortHits (hits : List QueryHit) : (sortHits hits).Perm hits :=
  perm_sortByKey _ hits

/-- The hits are those of the entries that satisfy a predicate, in some order. -/
def Supplies (entries : List IndexEntry) (q : IndexEntry → Bool) (hits : List QueryHit) : Prop :=
  hits.Perm ((entries.filter q).map .fromEntry)

namespace Supplies

variable {entries : List IndexEntry} {q : IndexEntry → Bool}

theorem of_perm {xs : List IndexEntry} (h : xs.Perm (entries.filter q)) :
    Supplies entries q (xs.map .fromEntry) :=
  h.map _

theorem sorted (h : Supplies entries q hits) :
    Supplies entries q (sortHits hits) :=
  (perm_sortHits hits).trans h

theorem congr {q' : IndexEntry → Bool} (h : Supplies entries q hits)
    (hq : ∀ e ∈ entries, q e = q' e) : Supplies entries q' hits := by
  unfold Supplies at h ⊢
  rwa [← List.filter_congr hq]

end Supplies

section Routes

variable {entries : List IndexEntry}

/-- A kind query of the flat arrays, and a category query alike. -/
theorem SoASound.supplies {s : SoAInner} (h : SoASound s entries) (p : IndexEntry → Bool) :
    Supplies entries p ((s.entries.filter p).map .fromEntry) :=
  .of_perm (h.holds.filter p)

theorem GroupsSound.supplies {s : SoAoSInner} (h : GroupsSound s entries) (walk : Walk)
    (p : IndexEntry → Bool) :
    Supplies entries p (((walk.order s.keys).flatMap fun entity =>
      (s.entriesOf entity).filter p).map .fromEntry) := by
  have hkeys : (walk.order s.keys).Nodup := (walk.perm s.keys).nodup_iff.mpr h.keys
  apply Supplies.of_perm
  have hcollect := perm_collect hkeys (fun e : IndexEntry => e.coord.entity)
    (l := entries.filter p) (v := fun entity => (s.entriesOf entity).filter p)
    (fun entity => by
      rw [List.filter_comm]
      exact (h.members entity).filter p)
  refine hcollect.trans ?_
  rw [List.filter_eq_self.mpr]
  intro e he
  apply decide_eq_true
  exact (walk.perm s.keys).mem_iff.mpr (h.covers e (List.mem_of_mem_filter he))

theorem GroupsSound.supplies_scope {s : SoAoSInner} (h : GroupsSound s entries) (walk : Walk)
    (scope : String) :
    Supplies entries (fun e => decide (e.coord.entity ∈ s.scopeEntities.entitySet scope))
      (s.hitsCandidates walk (.scope scope)) := by
  have hperm := walk.perm (s.scopeEntities.entitySet scope)
  have hkeys := hperm.nodup_iff.mpr (h.scopes.nodup_entitySet scope)
  refine (Supplies.of_perm (perm_collect hkeys (fun e : IndexEntry => e.coord.entity)
    h.members)).congr ?_
  intro e _
  rw [decide_eq_decide]
  exact hperm.mem_iff

/-- A tile is taken or skipped as a whole, which is right since it has one kind. -/
theorem TilesSound.supplies (h : TilesSound s entries) (accepts : EventKind → Bool) :
    Supplies entries (fun e => accepts e.kind)
      ((s.queryHitsEntries accepts).map .fromEntry) := by
  apply Supplies.of_perm
  have htiles : s.queryHitsEntries accepts =
      s.tiles.flatMap fun tile => tile.filter fun e => accepts e.kind := by
    apply List.flatMap_congr
    intro tile htile
    cases tile with
    | nil => rfl
    | cons first rest =>
        have hkind : ∀ e ∈ first :: rest, accepts e.kind = accepts first.kind := by
          intro e he
          rw [h.uniform _ htile e he first List.mem_cons_self]
        change (if accepts first.kind then first :: rest else []) = _
        cases haccept : accepts first.kind with
        | true =>
            rw [if_pos rfl, List.filter_eq_self.mpr]
            intro e he
            rw [hkind e he, haccept]
        | false =>
            rw [if_neg Bool.false_ne_true, List.filter_eq_nil_iff.mpr]
            intro e he
            rw [hkind e he, haccept]
            exact Bool.false_ne_true
  rw [htiles, List.flatMap, ← List.filter_flatten]
  exact h.holds.filter _

theorem TilesSound.supplies_scope (h : TilesSound s entries) (scope : String) :
    Supplies entries (fun e => (s.scopeEntities.entitySet scope).contains e.coord.entity)
      (s.hitsCandidates (.scope scope)) := by
  apply Supplies.of_perm
  rw [List.flatMap, ← List.filter_flatten]
  exact h.holds.filter _

/-- With distinct ids no clock key is shared. -/
theorem perm_clockValues {l : List IndexEntry} (hids : (l.map (·.eventId)).Nodup) :
    (clockValues l).Perm l := by
  have hself : (l.filter fun e => l.find? (fun e' => e'.clockKey == e.clockKey) == some e) = l := by
    apply List.filter_eq_self.mpr
    intro e he
    rw [beq_iff_eq]
    apply find?_of_nodup (p := fun a => a.clockKey == e.clockKey) _ he (beq_self_eq_true _)
    intro a ha hkey
    have hkeys := beq_iff_eq.mp hkey
    unfold IndexEntry.clockKey at hkeys
    simp only [Prod.mk.injEq] at hkeys
    exact eq_of_eventId hids ha he hkeys.2.2
  unfold clockValues
  rw [hself]
  exact List.perm_insertionSort _ l

end Routes

theorem Supplies.filter {q : IndexEntry → Bool} (h : Supplies entries q hits)
    (keep : QueryHit → Bool) :
    Supplies entries (fun e => q e && keep (.fromEntry e)) (hits.filter keep) := by
  unfold Supplies at h ⊢
  refine (List.Perm.filter keep h).trans ?_
  rw [List.filter_map, List.filter_filter]
  exact .of_eq (congrArg _ (List.filter_congr fun e _ => Bool.and_comm _ _))

/-! ### Candidates -/

/-- No event id is indexed twice, and the overlays hold what is indexed. -/
structure Scanned (ix : ScannedIndex) : Prop where
  ids : (ix.index.inserted.map (·.eventId)).Nodup
  scan : ScanSound ix.scan ix.index.inserted

namespace Scanned

variable {ix : ScannedIndex}

theorem perm_stream (h : Scanned ix) (entity : String) :
    (ix.index.stream entity).Perm
      (ix.index.inserted.filter fun e => e.coord.entity == entity) := by
  rw [stream_eq h.ids]
  exact List.perm_insertionSort _ _

theorem supplies_streams (h : Scanned ix) {entities : List String} (hentities : entities.Nodup)
    (p : IndexEntry → Bool) :
    Supplies ix.index.inserted (fun e => decide (e.coord.entity ∈ entities) && p e)
      (ix.streamHits entities p) := by
  apply Supplies.of_perm
  have hcollect := perm_collect hentities (fun e : IndexEntry => e.coord.entity)
    (l := ix.index.inserted.filter p) (v := fun entity => (ix.index.stream entity).filter p)
    (fun entity => by
      rw [List.filter_comm]
      exact (h.perm_stream entity).filter p)
  rwa [List.filter_filter] at hcollect

theorem mem_entities (he : e ∈ ix.index.inserted) (walk : Walk) :
    e.coord.entity ∈ walk.order ix.entities :=
  (walk.perm _).mem_iff.mpr (List.mem_dedup.mpr (List.mem_map.mpr ⟨e, he, rfl⟩))

theorem nodup_entities (walk : Walk) : (walk.order ix.entities).Nodup :=
  (walk.perm _).nodup_iff.mpr (List.nodup_dedup _)

theorem supplies_all (h : Scanned ix) (walk : Walk) (p : IndexEntry → Bool) :
    Supplies ix.index.inserted p (ix.allStreamHitsWhere walk p) := by
  apply (h.supplies_streams (nodup_entities walk) p).congr
  intro e he
  rw [decide_eq_true (mem_entities he walk), Bool.true_and]

theorem supplies_kind (h : Scanned ix) (walk : Walk) (kind : EventKind) :
    Supplies ix.index.inserted (fun e => e.kind == kind) (ix.scan.queryHitsByKind walk kind) := by
  unfold ScanIndex.queryHitsByKind
  cases hsoa : ix.scan.soa with
  | some soa => exact ((h.scan.soa soa hsoa).supplies _).sorted
  | none =>
      cases htiles : ix.scan.tiles64 with
      | some tiles => exact ((h.scan.tiles tiles htiles).supplies fun k => k == kind).sorted
      | none =>
          cases hgroups : ix.scan.entityGroups with
          | some groups => exact ((h.scan.groups groups hgroups).supplies walk _).sorted
          | none =>
              apply Supplies.sorted
              apply Supplies.of_perm
              have hids : (ix.scan.byFact.map (·.eventId)).Nodup :=
                (h.scan.byFact.map _).nodup_iff.mpr h.ids
              exact (perm_clockValues (hids.sublist (List.filter_sublist.map _))).trans
                (h.scan.byFact.filter _)

theorem supplies_base (h : Scanned ix) (walk : Walk) (category : Nat) :
    Supplies ix.index.inserted (fun e => e.kind.category == category)
      (ix.scan.queryBaseHitsByCategory walk category) := by
  have hids : (ix.scan.byFact.map (·.eventId)).Nodup :=
    (h.scan.byFact.map _).nodup_iff.mpr h.ids
  have hkinds := walk.perm (ix.scan.byFact.map (·.kind)).dedup
  have hnodup := (hkinds.nodup_iff.mpr (List.nodup_dedup _)).filter
    fun k => k.category == category
  apply Supplies.sorted
  have hcollect := perm_collect hnodup (fun e : IndexEntry => e.kind)
    (v := fun kind => clockValues (ix.scan.byFact.filter fun e => e.kind == kind))
    (fun kind => (perm_clockValues (hids.sublist (List.filter_sublist.map _))).trans
      (h.scan.byFact.filter _))
  apply (Supplies.of_perm hcollect).congr
  intro e he
  have hkind : e.kind ∈ walk.order (ix.scan.byFact.map (·.kind)).dedup :=
    hkinds.mem_iff.mpr (List.mem_dedup.mpr
      (List.mem_map.mpr ⟨e, h.scan.byFact.mem_iff.mpr he, rfl⟩))
  simp only [List.mem_filter, hkind, true_and, Bool.decide_eq_true]

theorem supplies_category (h : Scanned ix) (walk : Walk) (category : Nat) :
    Supplies ix.index.inserted (fun e => e.kind.category == category)
      (ix.scan.queryHitsByCategory walk category) := by
  unfold ScanIndex.queryHitsByCategory
  cases hsoa : ix.scan.soa with
  | some soa => exact ((h.scan.soa soa hsoa).supplies _).sorted
  | none =>
      cases htiles : ix.scan.tiles64 with
      | some tiles =>
          exact ((h.scan.tiles tiles htiles).supplies fun k => k.category == category).sorted
      | none =>
          cases hgroups : ix.scan.entityGroups with
          | some groups => exact ((h.scan.groups groups hgroups).supplies walk _).sorted
          | none => exact h.supplies_base walk category

/-- Whatever the overlay, its scope candidates include every entry of the scope. -/
theorem supplies_scope (h : Scanned ix) (walk : Walk) (scope : String)
    (hsome : (ix.scan.queryHitsByScope walk scope).isEmpty = false) :
    ∃ q, Supplies ix.index.inserted q (ix.scan.queryHitsByScope walk scope) ∧
      ∀ e ∈ ix.index.inserted, e.coord.scope = scope → q e = true := by
  unfold ScanIndex.queryHitsByScope at hsome ⊢
  cases hgroups : ix.scan.entityGroups with
  | some groups =>
      have hsound := h.scan.groups groups hgroups
      refine ⟨_, (hsound.supplies_scope walk scope).sorted, ?_⟩
      rintro e he rfl
      exact decide_eq_true (hsound.scopes.mem_entitySet he)
  | none =>
      cases hsoa : ix.scan.soa with
      | some soa =>
          have hsound := h.scan.soa soa hsoa
          refine ⟨_, (hsound.supplies _).sorted, ?_⟩
          rintro e he rfl
          exact List.contains_iff_mem.mpr (hsound.scopes.mem_entitySet he)
      | none =>
          cases htiles : ix.scan.tiles64 with
          | some tiles =>
              have hsound := h.scan.tiles tiles htiles
              refine ⟨_, (hsound.supplies_scope scope).sorted, ?_⟩
              rintro e he rfl
              exact List.contains_iff_mem.mpr (hsound.scopes.mem_entitySet he)
          | none =>
              rw [hgroups, hsoa, htiles] at hsome
              cases hsome

/-- The entry satisfies the region, on its own lane. -/
def inRegion (region : Region) (e : IndexEntry) : Bool :=
  region.matchesEventOnLane e.coord.entity e.coord.scope e.kind (some e.dagLane)

/-- The candidates lie in the requested namespace and leave out no included entry of the
region. -/
theorem supplies_candidates (h : Scanned ix) (walk : Walk) (region : Region)
    (p : IndexEntry → Bool) :
    ∃ q, Supplies ix.index.inserted q (ix.queryCandidateHits walk region p) ∧
      (∀ e, q e = true → region.matchesEntity e.coord.entity = true) ∧
      ∀ e ∈ ix.index.inserted, p e = true → inRegion region e = true → q e = true := by
  obtain ⟨entityPrefix, scope, fact, clockRange, lane⟩ := region
  unfold ScannedIndex.queryCandidateHits inRegion Region.matchesEventOnLane
  cases entityPrefix with
  | some name =>
      have hnodup := (@nodup_entities ix walk).filter
        (namespacePrefixMatches name)
      refine ⟨_, h.supplies_streams hnodup p, ?_, ?_⟩
      · intro e he
        rw [Bool.and_eq_true, decide_eq_true_eq] at he
        exact (List.mem_filter.mp he.1).2
      · intro e he hp hregion
        simp only [Bool.and_eq_true] at hregion
        have hmem : e.coord.entity ∈
            (walk.order ix.entities).filter (namespacePrefixMatches name) :=
          List.mem_filter.mpr ⟨mem_entities he walk, hregion.1.1.1⟩
        rw [decide_eq_true hmem, hp]
        rfl
  | none =>
      cases scope with
      | some scope =>
          dsimp only
          split
          · have hperm := walk.perm (ix.scan.scopeEntities.entitySet scope)
            have hnodup := hperm.nodup_iff.mpr (h.scan.scopes.nodup_entitySet scope)
            refine ⟨_, h.supplies_streams hnodup p, fun _ _ => rfl, ?_⟩
            intro e he hp hregion
            simp only [Bool.and_eq_true, beq_iff_eq] at hregion
            have hmem : e.coord.entity ∈ walk.order (ix.scan.scopeEntities.entitySet scope) := by
              rw [hperm.mem_iff, ← hregion.1.2]
              exact h.scan.scopes.mem_entitySet he
            rw [decide_eq_true hmem, hp]
            rfl
          · rename_i hsome
            obtain ⟨q, hq, hall⟩ := h.supplies_scope walk scope (Bool.eq_false_iff.mpr hsome)
            refine ⟨q, hq, fun _ _ => rfl, ?_⟩
            intro e he _ hregion
            simp only [Bool.and_eq_true, beq_iff_eq] at hregion
            exact hall e he hregion.1.2
      | none =>
          cases fact with
          | none => exact ⟨p, h.supplies_all walk p, fun _ _ => rfl, fun _ _ hp _ => hp⟩
          | some fact =>
              cases fact with
              | exact kind =>
                  refine ⟨_, h.supplies_kind walk kind, fun _ _ => rfl, ?_⟩
                  intro e _ _ hregion
                  simp only [Bool.and_eq_true] at hregion
                  exact hregion.2
              | category category =>
                  refine ⟨_, h.supplies_category walk category, fun _ _ => rfl, ?_⟩
                  intro e _ _ hregion
                  simp only [Bool.and_eq_true] at hregion
                  exact hregion.2
              | any => exact ⟨p, h.supplies_all walk p, fun _ _ => rfl, fun _ _ hp _ => hp⟩

/-! ### Queries -/

/-- With distinct ids the point lookup of a hit gives the entry it was made from. -/
theorem hitInScope_fromEntry (h : Scanned ix) (region : Region) (he : e ∈ ix.index.inserted) :
    ix.hitInScope region (.fromEntry e) = match region.scope with
      | some expected => e.coord.scope == expected
      | none => true := by
  have hid : ix.index.byId (QueryHit.fromEntry e).eventId = some e := byId_of_mem h.ids he
  unfold ScannedIndex.hitInScope
  cases region.scope with
  | none => rfl
  | some scope => simp only [hid]

/-- The filter asks everything of an indexed entry but its namespace. -/
theorem wanted_eq_keepsHit (h : Scanned ix) (region : Region) (visibility : SequenceGate)
    (he : e ∈ ix.index.inserted) :
    ScannedIndex.wanted region visibility e = (region.matchesEntity e.coord.entity &&
      ix.keepsHit region visibility (.fromEntry e)) := by
  unfold ScannedIndex.wanted ScannedIndex.keepsHit Region.matchesEventOnLane
  rw [h.hitInScope_fromEntry region he]
  change _ = (_ && (region.shows visibility e.globalSequence e.dagLane && _ &&
    region.acceptsKind e.kind && region.inClockRange e.clock))
  cases hlane : region.lane with
  | none => grind
  | some lane =>
      have himplies : region.shows visibility e.globalSequence e.dagLane = true →
          (some e.dagLane == some lane) = true := by
        intro hshows
        unfold Region.shows at hshows
        rw [hlane] at hshows
        exact (Bool.and_eq_true_iff.mp hshows).1
      grind

/-- What a filtered query keeps of its candidates. -/
theorem supplies_filtered (h : Scanned ix) (walk : Walk) (region : Region)
    (visibility : SequenceGate) (p : IndexEntry → Bool) :
    ∃ q, Supplies ix.index.inserted q (ix.filterRegionHits region visibility
        (ix.queryCandidateHits walk region p)) ∧
      ∀ e ∈ ix.index.inserted,
        (q e = true → ScannedIndex.wanted region visibility e = true) ∧
        (p e = true → ScannedIndex.wanted region visibility e = true → q e = true) := by
  obtain ⟨q, hq, hentity, hall⟩ := h.supplies_candidates walk region p
  refine ⟨_, hq.filter _, ?_⟩
  intro e he
  rw [h.wanted_eq_keepsHit region visibility he, Bool.and_eq_true, Bool.and_eq_true]
  constructor
  · rintro ⟨hqe, hkeep⟩
    exact ⟨hentity e hqe, hkeep⟩
  · rintro hp ⟨hmatch, hkeep⟩
    refine ⟨hall e he hp ?_, hkeep⟩
    have hwanted : ScannedIndex.wanted region visibility e = true := by
      rw [h.wanted_eq_keepsHit region visibility he, hmatch, hkeep]
      rfl
    unfold ScannedIndex.wanted at hwanted
    rw [Bool.and_eq_true, Bool.and_eq_true] at hwanted
    exact hwanted.1.1

theorem supplies_query (h : Scanned ix) (walk : Walk) (region : Region)
    (visibility : SequenceGate) :
    Supplies ix.index.inserted (ScannedIndex.wanted region visibility)
      (ix.queryHitsWithVisibility walk region visibility) := by
  obtain ⟨q, hq, hiff⟩ := h.supplies_filtered walk region visibility fun _ => true
  apply hq.sorted.congr
  intro e he
  exact Bool.eq_iff_iff.mpr ⟨(hiff e he).1, (hiff e he).2 rfl⟩

/-- The wanted entries past a position. -/
def wantedAfter (ix : ScannedIndex) (region : Region) (afterSeq : Nat) (started : Bool) :
    List IndexEntry :=
  ix.index.inserted.filter fun e =>
    ScannedIndex.wanted region ix.index.gate e && (!started || afterSeq < e.globalSequence)

/-- The bounded query selects the wanted entries with the smallest sequences past the
position. -/
theorem queryHitsAfter_smallest (h : Scanned ix) (walk : Walk) (region : Region)
    (afterSeq : Nat) (started : Bool) (limit : Nat) :
    Smallest QueryHit.globalSequence limit
      (ix.queryHitsAfter walk region afterSeq started limit)
      ((wantedAfter ix region afterSeq started).map .fromEntry) := by
  unfold ScannedIndex.queryHitsAfter
  dsimp only
  split
  · rename_i hany
    refine (smallest_scanTrimmed _ _).of_perm ?_
    refine ((h.supplies_all walk _).congr ?_ : Supplies _ (fun e =>
      ScannedIndex.wanted region ix.index.gate e &&
        (!started || decide (afterSeq < e.globalSequence))) _)
    intro e _
    obtain ⟨entityPrefix, scope, fact, clockRange, lane⟩ := region
    obtain ⟨rfl, rfl, rfl⟩ := hany
    unfold ScannedIndex.wanted Region.matchesEventOnLane Region.shows
    cases lane with
    | none => grind [Region.matchesEntity, Region.acceptsKind, KindFilter.accepts]
    | some lane =>
        have hlane : (some e.dagLane == some lane) = (e.dagLane == lane) := rfl
        dsimp only
        rw [hlane]
        grind [Region.matchesEntity, Region.acceptsKind, KindFilter.accepts]
  · refine smallest_trim ((covers_self _).of_perm ?_)
    obtain ⟨q, hq, hiff⟩ := h.supplies_filtered walk region ix.index.gate
      fun e => !started || decide (afterSeq < e.globalSequence)
    have hafter : Supplies ix.index.inserted
        (fun e => q e && (!started || decide (afterSeq < e.globalSequence)))
        (if started then (ix.filterRegionHits region ix.index.gate
            (ix.queryCandidateHits walk region fun e =>
              !started || decide (afterSeq < e.globalSequence))).filter
              fun h => afterSeq < h.globalSequence
          else ix.filterRegionHits region ix.index.gate
            (ix.queryCandidateHits walk region fun e =>
              !started || decide (afterSeq < e.globalSequence))) := by
      cases started with
      | false => simpa using hq
      | true =>
          have hfiltered := hq.filter fun h => decide (afterSeq < h.globalSequence)
          simp only [Bool.not_true, Bool.false_or, if_true] at hfiltered ⊢
          exact hfiltered
    apply hafter.congr
    intro e he
    by_cases hahead : (!started || decide (afterSeq < e.globalSequence)) = true
    · rw [hahead, Bool.and_true, Bool.and_true]
      exact Bool.eq_iff_iff.mpr ⟨(hiff e he).1, (hiff e he).2 hahead⟩
    · rw [Bool.not_eq_true] at hahead
      rw [hahead, Bool.and_false, Bool.and_false]

end Scanned

/-! ### Filling -/

/-- The step indexes no event id twice. -/
def FreshIds (ix : ScannedIndex) : ScannedIndex.ScanStep → Prop
  | .insert entry => entry.eventId ∉ ix.index.inserted.map (·.eventId)
  | .insertBatch entries => ((entries.reverse ++ ix.index.inserted).map (·.eventId)).Nodup
  | .restore entries _ => (entries.map (·.eventId)).Nodup
  | .swap fresh _ => (fresh.inserted.map (·.eventId)).Nodup
  | .gate _ => True

instance decidableFreshIds (ix : ScannedIndex) (step : ScannedIndex.ScanStep) :
    Decidable (FreshIds ix step) :=
  match step with
  | .insert entry => inferInstanceAs (Decidable (entry.eventId ∉ _))
  | .insertBatch _ => inferInstanceAs (Decidable (List.Nodup _))
  | .restore _ _ => inferInstanceAs (Decidable (List.Nodup _))
  | .swap _ _ => inferInstanceAs (Decidable (List.Nodup _))
  | .gate _ => inferInstanceAs (Decidable True)

theorem scanned_new (topology : IndexTopology) (retention : IdempotencyRetention)
    (overflow : OverflowPolicy) : Scanned (.new topology retention overflow) :=
  ⟨List.nodup_nil, .forConfig topology⟩

theorem insertBatch_eq (ix : ScannedIndex) (entries : List IndexEntry) :
    ix.insertBatch entries = ⟨ix.index.insertBatch entries,
      entries.foldl ScanIndex.insert ix.scan⟩ := by
  induction entries generalizing ix with
  | nil => rfl
  | cons e rest ih => exact ih (ix.insertInner e)

theorem allEntries_of_nodup {ix : StoreIndex} (hids : (ix.inserted.map (·.eventId)).Nodup) :
    ix.allEntries = ix.inserted := by
  apply List.filter_eq_self.mpr
  intro e he
  rw [byId_of_mem hids he, beq_iff_eq]

theorem scanned_step {ix : ScannedIndex} {step : ScannedIndex.ScanStep} (h : Scanned ix)
    (hok : FreshIds ix step) : Scanned (ix.scanStep step) := by
  cases step with
  | insert entry => exact ⟨List.nodup_cons.mpr ⟨hok, h.ids⟩, h.scan.insert entry⟩
  | insertBatch entries =>
      change Scanned (ix.insertBatch entries)
      rw [insertBatch_eq]
      have hinserted := StoreIndex.insertBatch_inserted ix.index entries
      refine ⟨?_, ?_⟩
      · dsimp only
        rw [hinserted]
        exact hok
      · dsimp only
        rw [hinserted]
        exact h.scan.foldl entries
  | restore entries hint =>
      refine ⟨?_, ScanSound.rebuilt ix.scan entries⟩
      change (entries.reverse.map (·.eventId)).Nodup
      rw [List.map_reverse, List.nodup_reverse]
      exact hok
  | swap fresh walk =>
      refine ⟨hok, ?_⟩
      have hscan := (ScanSound.clear ix.scan).foldl (walk.order fresh.allEntries)
      rw [List.append_nil] at hscan
      refine hscan.of_perm ((List.reverse_perm _).trans ((walk.perm _).trans ?_))
      rw [allEntries_of_nodup hok]
      exact .refl _
  | gate gate => exact ⟨h.ids, h.scan⟩

/-- Neither the index nor the condition looks at the overlays. -/
theorem index_run {ix ix' : ScannedIndex} (h : ix.index = ix'.index)
    (steps : List ScannedIndex.ScanStep) :
    (run ScannedIndex.scanStep ix steps).index = (run ScannedIndex.scanStep ix' steps).index ∧
      (Guarded ScannedIndex.scanStep FreshIds ix steps →
        Guarded ScannedIndex.scanStep FreshIds ix' steps) := by
  induction steps generalizing ix ix' with
  | nil => exact ⟨h, fun _ => trivial⟩
  | cons step rest ih =>
      have hstep : (ix.scanStep step).index = (ix'.scanStep step).index := by
        cases step with
        | insertBatch entries =>
            change (ix.insertBatch entries).index = (ix'.insertBatch entries).index
            rw [insertBatch_eq, insertBatch_eq, h]
        | insert entry => exact congrArg (fun index => StoreIndex.insert index entry) h
        | restore entries hint =>
            exact congrArg (fun index => StoreIndex.restoreSortedEntries index entries hint) h
        | swap fresh walk =>
            exact congrArg (fun index => StoreIndex.replaceContentsFromFresh index fresh) h
        | gate gate => exact congrArg (fun index => ({ index with gate := gate } : StoreIndex)) h
      have hok : FreshIds ix step → FreshIds ix' step := by
        unfold FreshIds
        rw [h]
        exact id
      obtain ⟨hindex, hguarded⟩ := ih hstep
      exact ⟨hindex, fun hg => ⟨hok hg.1, hguarded hg.2⟩⟩

/-- Whatever fills the index, a query returns exactly the entries that satisfy the region,
the clock range and visibility, each once and in sequence order, and the same under every
topology. -/
theorem query_hits_exact (topology other : IndexTopology) (retention : IdempotencyRetention)
    (overflow : OverflowPolicy) (steps : List ScannedIndex.ScanStep)
    (hsteps : Guarded ScannedIndex.scanStep FreshIds (.new topology retention overflow) steps)
    (walk walk' : Walk) (region : Region) :
    let ix := run ScannedIndex.scanStep (.new topology retention overflow) steps
    let ix' := run ScannedIndex.scanStep (.new other retention overflow) steps
    let hits := (ix.queryHitsWithSnapshot walk region).1
    hits.Perm ((ix.index.inserted.filter
        (ScannedIndex.wanted region ix.index.gate)).map .fromEntry) ∧
      (hits.map (·.eventId)).Nodup ∧
      hits.Pairwise (fun a b => a.globalSequence ≤ b.globalSequence) ∧
      hits.Perm (ix'.queryHitsWithSnapshot walk' region).1 := by
  intro ix ix' hits
  obtain ⟨hindex, hguarded⟩ := @index_run (.new topology retention overflow)
    (.new other retention overflow) rfl steps
  have hstep : ∀ (ix : ScannedIndex) (step : ScannedIndex.ScanStep), Scanned ix →
      FreshIds ix step → Scanned (ix.scanStep step) := fun _ _ => scanned_step
  have hscanned : Scanned ix := run_invariant hstep steps _ (scanned_new _ _ _) hsteps
  have hscanned' : Scanned ix' :=
    run_invariant hstep steps _ (scanned_new _ _ _) (hguarded hsteps)
  have hsupplies := hscanned.supplies_query walk region ix.index.gate
  refine ⟨hsupplies, ?_, pairwise_sortByKey _ _, ?_⟩
  · apply (hsupplies.map _).nodup_iff.mpr
    rw [List.map_map]
    exact hscanned.ids.sublist (List.filter_sublist.map _)
  · have hsupplies' := hscanned'.supplies_query walk' region ix'.index.gate
    change ix.index = ix'.index at hindex
    unfold Supplies at hsupplies hsupplies'
    rw [hindex] at hsupplies
    change (ix.queryHitsWithVisibility walk region ix.index.gate).Perm _
    rw [hindex]
    exact hsupplies.trans hsupplies'.symm

/-! ### One id twice -/

def everyOverlay : IndexTopology :=
  ⟨true, true, true⟩

def ofKind : Region :=
  { Region.all with fact := some (.exact (laneEvent 0 0 0 0).kind) }

/-- Two appends with different ids, both visible. -/
def distinctAppends : List ScannedIndex.ScanStep :=
  [.insert (laneEvent 7 0 0 0), .insert (laneEvent 8 1 0 1), .gate bothLanesVisible]

theorem distinct_appends_found :
    Guarded ScannedIndex.scanStep FreshIds (.new everyOverlay .unbounded .warn) distinctAppends ∧
      ((run ScannedIndex.scanStep (.new everyOverlay .unbounded .warn)
        distinctAppends).queryHitsWithSnapshot .inOrder ofKind).1.Perm
        [.fromEntry (laneEvent 8 1 0 1), .fromEntry (laneEvent 7 0 0 0)] := by
  have hsteps : Guarded ScannedIndex.scanStep FreshIds (.new everyOverlay .unbounded .warn)
      distinctAppends := by
    decide +kernel
  have hexact := (query_hits_exact everyOverlay everyOverlay .unbounded .warn distinctAppends
    hsteps .inOrder .inOrder ofKind).1
  refine ⟨hsteps, ?_⟩
  have hentries : ((run ScannedIndex.scanStep (.new everyOverlay .unbounded .warn)
      distinctAppends).index.inserted.filter (ScannedIndex.wanted ofKind
        (run ScannedIndex.scanStep (.new everyOverlay .unbounded .warn)
          distinctAppends).index.gate)).map QueryHit.fromEntry =
      [.fromEntry (laneEvent 8 1 0 1), .fromEntry (laneEvent 7 0 0 0)] := by
    decide +kernel
  rwa [hentries] at hexact

/-- A keyed event appended a second time under its id, and a swap. -/
def duplicateThenSwap : List ScannedIndex.ScanStep :=
  let entries := [laneEvent 7 0 0 0, laneEvent 7 1 0 1]
  [.insert (laneEvent 7 0 0 0), .insert (laneEvent 7 1 0 1), .gate bothLanesVisible,
    .swap ((StoreIndex.new .unbounded .warn).restoreSortedEntries entries 2) .inOrder]

/-- Both events are indexed and visible, but the overlays have only one of them left. -/
theorem swapped_duplicate_lost :
    let ix := run ScannedIndex.scanStep (.new everyOverlay .unbounded .warn) duplicateThenSwap
    (ix.queryHitsWithSnapshot .inOrder Region.all).1.length = 2 ∧
      ¬(ix.queryHitsWithSnapshot .inOrder ofKind).1.Perm
        ((ix.index.inserted.filter
          (ScannedIndex.wanted ofKind ix.index.gate)).map .fromEntry) := by
  decide +kernel

end Batpak.Store
