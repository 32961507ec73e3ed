/-
Module: Batpak.Proofs.LoweringOrder
Purpose: What the lowering compiler promises about the schedule it emits, and that the
  schedule membrane admits this order and no other order of the same primitives.
Trusted boundary: none
Main exports: Normalized, schedule_unique_and_compiled
-/
import Batpak.Bvisor.Lowering
import Batpak.Proofs.ScheduleChecks
import Batpak.Util.Scan

namespace Batpak.Bvisor

open Batpak.Util

variable {decl d e : PrimitiveDecl} {byId : List PrimitiveDecl} {digests : Digests}

/-! ### The map from ids -/

def IdSorted (decls : List PrimitiveDecl) : Prop :=
  decls.Pairwise fun a b => a.id < b.id

theorem insertDecl_some {byId' : List PrimitiveDecl} (hsorted : IdSorted byId)
    (h : insertDecl decl byId = some byId') :
    IdSorted byId' ∧ byId'.Perm (decl :: byId) := by
  induction byId generalizing byId' with
  | nil =>
      cases h
      exact ⟨List.pairwise_singleton _ _, List.Perm.refl _⟩
  | cons other rest ih =>
      obtain ⟨hother, hrest⟩ := List.pairwise_cons.mp hsorted
      unfold insertDecl at h
      split at h
      · rename_i hlt
        cases h
        refine ⟨List.pairwise_cons.mpr ⟨?_, hsorted⟩, List.Perm.refl _⟩
        intro d hd
        rcases List.mem_cons.mp hd with rfl | hd
        · exact hlt
        · exact lt_trans hlt (hother d hd)
      · split at h
        · cases h
        · rename_i hnot hne
          obtain ⟨tail, htail, rfl⟩ := Option.map_eq_some_iff.mp h
          obtain ⟨hsorted', hperm⟩ := ih hrest htail
          refine ⟨List.pairwise_cons.mpr ⟨?_, hsorted'⟩, ?_⟩
          · intro d hd
            rcases List.mem_cons.mp (hperm.mem_iff.mp hd) with rfl | hd
            · exact lt_of_le_of_ne (not_lt.mp hnot) fun heq => hne heq.symm
            · exact hother d hd
          · exact (List.Perm.cons other hperm).trans (List.Perm.swap decl other rest)

theorem indexById_ok {byId' primitives : List PrimitiveDecl} (hsorted : IdSorted byId)
    (h : indexById byId primitives = .ok byId') :
    IdSorted byId' ∧ byId'.Perm (primitives ++ byId) := by
  induction primitives generalizing byId with
  | nil =>
      cases h
      exact ⟨hsorted, List.Perm.refl _⟩
  | cons decl rest ih =>
      unfold indexById at h
      split at h
      · rename_i inserted hinserted
        obtain ⟨hsorted', hperm⟩ := insertDecl_some hsorted hinserted
        obtain ⟨hsorted'', hperm'⟩ := ih hsorted' h
        refine ⟨hsorted'', hperm'.trans ?_⟩
        exact (List.Perm.append_left rest hperm).trans List.perm_middle
      · cases h

theorem IdSorted.nodup {decls : List PrimitiveDecl} (h : IdSorted decls) :
    (decls.map (·.id)).Nodup := by
  apply List.Pairwise.map _ _ h
  intro a b hlt
  exact ne_of_lt hlt

theorem lookupId_of_mem (h : IdSorted byId) (hdecl : decl ∈ byId) :
    lookupId byId decl.id = some decl := by
  unfold lookupId
  induction byId with
  | nil => cases hdecl
  | cons other rest ih =>
      obtain ⟨hother, hrest⟩ := List.pairwise_cons.mp h
      rcases List.mem_cons.mp hdecl with rfl | hdecl
      · simp
      · have hne : ¬other.id = decl.id := ne_of_lt (hother decl hdecl)
        rw [List.find?_cons_of_neg (by simpa using hne)]
        exact ih hrest hdecl

theorem lookupId_eq_some {id : PrimitiveId} (h : lookupId byId id = some decl) :
    decl ∈ byId ∧ decl.id = id :=
  ⟨List.mem_of_find?_eq_some h, by simpa using List.find?_some h⟩

/-! ### The consistency checks -/

theorem firstConflict_none (hsorted : IdSorted byId) (h : firstConflict byId = none) :
    ∀ d ∈ byId, ∀ e ∈ byId, e.id ∉ d.conflicts := by
  intro d hd e he hconflict
  have hnone := List.findSome?_eq_none_iff.mp (List.findSome?_eq_none_iff.mp h d hd) e.id hconflict
  rw [lookupId_of_mem hsorted he] at hnone
  simp at hnone

theorem prereqSet_ok {set pres set' : List PrimitiveId}
    (hsorted : KeySorted (id : PrimitiveId → PrimitiveId) set)
    (h : prereqSet byId decl set pres = .ok set') :
    KeySorted (id : PrimitiveId → PrimitiveId) set' ∧
      (∀ r, r ∈ set' ↔ r ∈ pres ∨ r ∈ set) ∧
      ∀ r ∈ pres, ∃ e ∈ byId, e.id = r ∧ e.phase ≤ decl.phase := by
  induction pres generalizing set with
  | nil =>
      cases h
      exact ⟨hsorted, by simp, by simp⟩
  | cons pre rest ih =>
      unfold prereqSet at h
      split at h
      · cases h
      · rename_i preDecl hlookup
        split at h
        · cases h
        · rename_i hphase
          have hinserted := keySorted_insertByKey Function.injective_id (a := pre) hsorted
          obtain ⟨hfinal, hmem, hall⟩ := ih hinserted h
          obtain ⟨hin, hid⟩ := lookupId_eq_some hlookup
          refine ⟨hfinal, ?_, ?_⟩
          · intro r
            rw [hmem, mem_insertByKey Function.injective_id, List.mem_cons]
            tauto
          · intro r hr
            rcases List.mem_cons.mp hr with rfl | hr
            · exact ⟨preDecl, hin, hid, not_lt.mp hphase⟩
            · exact hall r hr

theorem KeySorted.nodup_id {xs : List PrimitiveId}
    (h : KeySorted (id : PrimitiveId → PrimitiveId) xs) : xs.Nodup :=
  List.Pairwise.imp (fun hlt => ne_of_lt hlt) h

/-- The set recorded for a primitive holds its declared prerequisites, once each. -/
theorem prereqSets_ok (hsorted : IdSorted byId) {sets : List (PrimitiveId × List PrimitiveId)}
    (h : prereqSets byId = .ok sets) :
    ∀ d ∈ byId, (prereqsOf sets d.id).Nodup ∧
      (∀ r, r ∈ prereqsOf sets d.id ↔ r ∈ d.prerequisites) ∧
      ∀ r ∈ d.prerequisites, ∃ e ∈ byId, e.id = r ∧ e.phase ≤ d.phase := by
  have hforall := forall₂_of_mapM_ok h
  have hfind : ∀ (decls : List PrimitiveDecl) (found : List (PrimitiveId × List PrimitiveId)),
      IdSorted decls →
      List.Forall₂ (fun d e => ((prereqSet byId d [] d.prerequisites).map fun set =>
        (d.id, set)) = .ok e) decls found →
      ∀ d ∈ decls, prereqSet byId d [] d.prerequisites = .ok (prereqsOf found d.id) := by
    intro decls found hdecls hfound
    induction hfound with
    | nil =>
        intro d hd
        cases hd
    | @cons a e decls found hae hrest ih =>
        obtain ⟨ha, hdecls'⟩ := List.pairwise_cons.mp hdecls
        obtain ⟨set, hset, heq⟩ := mapOk_iff.mp hae
        subst heq
        intro d hd
        rcases List.mem_cons.mp hd with rfl | hd
        · unfold prereqsOf
          simp [hset]
        · have hne : ¬a.id = d.id := ne_of_lt (ha d hd)
          have htail := ih hdecls' d hd
          unfold prereqsOf at htail ⊢
          rw [List.find?_cons_of_neg (by simpa using hne)]
          exact htail
  intro d hd
  obtain ⟨hset, hmem, hall⟩ := prereqSet_ok List.Pairwise.nil (hfind byId sets hsorted hforall d hd)
  refine ⟨KeySorted.nodup_id hset, ?_, hall⟩
  intro r
  rw [hmem]
  simp

/-! ### What compilation promises -/

/-- `a` declares `r` as a prerequisite. -/
def Declares (primitives : List PrimitiveDecl) (a r : PrimitiveId) : Prop :=
  ∃ d ∈ primitives, d.id = a ∧ r ∈ d.prerequisites

theorem loweringKey_injective (byId : List PrimitiveDecl) :
    Function.Injective (loweringKey byId) := by
  intro a b h
  unfold loweringKey at h
  have hpair := congrArg (fun k : LoweringKey => (ofLex (ofLex k).2).1) h
  exact hpair

/-- A compiled schedule: distinct, consistent primitives, each emitted with the digest of its
declaration, in canonical order. -/
structure Compiled (digests : Digests) (primitives : List PrimitiveDecl)
    (entries : List ScheduleEntry) : Prop where
  nodup : (primitives.map (·.id)).Nodup
  perm : (entries.map (·.id)).Perm (primitives.map (·.id))
  digest : ∀ e ∈ entries, ∃ d ∈ primitives, d.id = e.id ∧
    declDigest digests d = .ok e.declDigest ∧ e.paramDigest = digests.emptyParamDigest
  conflicts : ∀ d ∈ primitives, ∀ e ∈ primitives, e.id ∉ d.conflicts
  prerequisites : ∀ d ∈ primitives, ∀ r ∈ d.prerequisites,
    ∃ e ∈ primitives, e.id = r ∧ e.phase ≤ d.phase
  canonical : ∃ byId, byId.Perm primitives ∧ IdSorted byId ∧
    CanonicalFrom (Declares primitives) (loweringKey byId) [] (entries.map (·.id))

theorem emitEntry_ok {entry : ScheduleEntry} (hsorted : IdSorted byId) (hdecl : decl ∈ byId)
    (h : emitEntry digests byId decl.id = .ok entry) :
    entry.id = decl.id ∧ declDigest digests decl = .ok entry.declDigest ∧
      entry.paramDigest = digests.emptyParamDigest := by
  unfold emitEntry at h
  rw [lookupId_of_mem hsorted hdecl] at h
  obtain ⟨digest, hdigest, h⟩ := bindOk_iff.mp h
  cases h
  exact ⟨rfl, hdigest, rfl⟩

/-- The entries come in the order of the ids they are emitted for. -/
theorem emitted_ids (hsorted : IdSorted byId) {ids : List PrimitiveId}
    {entries : List ScheduleEntry} (hinside : ∀ a ∈ ids, a ∈ byId.map (·.id))
    (h : List.Forall₂ (fun id e => emitEntry digests byId id = .ok e) ids entries) :
    entries.map (·.id) = ids ∧
      ∀ e ∈ entries, ∃ d ∈ byId, d.id = e.id ∧ declDigest digests d = .ok e.declDigest ∧
        e.paramDigest = digests.emptyParamDigest := by
  induction h with
  | nil => exact ⟨rfl, by simp⟩
  | @cons a e as es hae hrest ih =>
      obtain ⟨d, hd, rfl⟩ := List.mem_map.mp (hinside a List.mem_cons_self)
      obtain ⟨hid, hdigest, hparam⟩ := emitEntry_ok hsorted hd hae
      obtain ⟨hids, hall⟩ := ih fun x hx => hinside x (List.mem_cons_of_mem _ hx)
      refine ⟨?_, ?_⟩
      · rw [List.map_cons, hid, hids]
      · intro e' he'
        rcases List.mem_cons.mp he' with rfl | he'
        · exact ⟨d, hd, hid.symm, hdigest, hparam⟩
        · exact hall e' he'

theorem compileSchedule_compiled {primitives : List PrimitiveDecl} {entries : List ScheduleEntry}
    (h : compileSchedule digests primitives = .ok entries) :
    Compiled digests primitives entries := by
  obtain ⟨byId, hindex, h⟩ := bindOk_iff.mp h
  obtain ⟨hsorted, hperm⟩ := indexById_ok List.Pairwise.nil hindex
  rw [List.append_nil] at hperm
  cases hconflict : firstConflict byId with
  | some conflict =>
      rw [hconflict] at h
      cases h
  | none =>
      rw [hconflict] at h
      obtain ⟨sets, hsets, h⟩ := bindOk_iff.mp h
      have hprereqs := prereqSets_ok hsorted hsets
      have hids : ∀ a ∈ byId.map (·.id), (prereqsOf sets a).Nodup := by
        intro a ha
        obtain ⟨d, hd, rfl⟩ := List.mem_map.mp ha
        exact (hprereqs d hd).1
      obtain ⟨hcanonical, hnodup, hinside⟩ :=
        kahnRun_canonical (loweringKey_injective byId) hsorted.nodup hids
      unfold orderAndEmit at h
      dsimp only at h
      generalize kahnRun (loweringKey byId) (prereqsOf sets) (byId.map (·.id)) = final
        at h hcanonical hnodup hinside
      split at h
      · cases h
      · rename_i hlength
        rw [not_not] at hlength
        have hentries := forall₂_of_mapM_ok h
        have hall : final.ordered.Perm (byId.map (·.id)) :=
          (List.subperm_of_subset hnodup hinside).perm_of_length_le (Nat.le_of_eq hlength.symm)
        obtain ⟨hordered, hemitted⟩ := emitted_ids hsorted hinside hentries
        refine ⟨?_, ?_, ?_, ?_, ?_, byId, hperm, hsorted, ?_⟩
        · exact (hperm.map _).nodup_iff.mp hsorted.nodup
        · rw [hordered]
          exact hall.trans (hperm.map _)
        · intro e he
          obtain ⟨d, hd, hrest⟩ := hemitted e he
          exact ⟨d, hperm.mem_iff.mp hd, hrest⟩
        · intro d hd e he
          exact firstConflict_none hsorted hconflict d (hperm.mem_iff.mpr hd) e
            (hperm.mem_iff.mpr he)
        · intro d hd r hr
          obtain ⟨e, he, hrest⟩ := (hprereqs d (hperm.mem_iff.mpr hd)).2.2 r hr
          exact ⟨e, hperm.mem_iff.mp he, hrest⟩
        · have hdeclares : ∀ a ∈ final.ordered, ∀ s,
              Declares primitives (id a) s ↔ ∃ r, r ∈ prereqsOf sets a ∧ id r = s := by
            intro a ha s
            obtain ⟨d, hd, rfl⟩ := List.mem_map.mp (hinside a ha)
            have hunique : ∀ d' ∈ primitives, d'.id = d.id → d' = d := by
              intro d' hd' heq
              have hfound := lookupId_of_mem hsorted (hperm.mem_iff.mpr hd')
              rw [heq, lookupId_of_mem hsorted hd] at hfound
              exact (Option.some.inj hfound).symm
            constructor
            · rintro ⟨d', hd', heq, hs⟩
              cases hunique d' hd' heq
              exact ⟨s, ((hprereqs _ hd).2.1 s).mpr hs, rfl⟩
            · rintro ⟨r, hr, rfl⟩
              exact ⟨d, hperm.mem_iff.mp hd, rfl, ((hprereqs d hd).2.1 r).mp hr⟩
          have hrenamed := hcanonical.map hdeclares (fun _ _ _ _ _ _ heq => heq)
            (fun _ _ _ _ hlt => hlt)
          rw [hordered]
          rw [List.map_id, List.map_id] at hrenamed
          exact hrenamed

/-! ### The membrane inputs of a compiled schedule -/

/-- A trusted declaration stands for a primitive: bit `r` of a set names the primitive of
index `r` in the universe, and the digest lane holds the digest of the declaration. -/
structure StandsFor (digests : Digests) (lane : Digest32 → BitVec 64) (ids : List PrimitiveId)
    (d : PrimitiveDecl) (input : PrimitiveDeclInputs) : Prop where
  phase : input.phase.toNat = d.phase.code
  covers : ∀ k, input.covers.getLsbD k = true ↔ ∃ kind ∈ d.covers, kind.ctorIdx = k
  prerequisites : ∀ r, input.prerequisites.getLsbD r = true ↔
    ∃ id, ids[r]? = some id ∧ id ∈ d.prerequisites
  conflicts : ∀ r, input.conflicts.getLsbD r = true ↔ ∃ id, ids[r]? = some id ∧ id ∈ d.conflicts
  declDigest : ∀ digest, declDigest digests d = .ok digest → input.declDigest = lane digest
  paramDigest : input.paramDigest = lane digests.emptyParamDigest

/-- A slot stands for an entry and claims its digests. -/
structure Claims (lane : Digest32 → BitVec 64) (ids : List PrimitiveId) (e : ScheduleEntry)
    (slot : ScheduleSlotInputs) : Prop where
  primitive : ids[slotIndex slot]? = some e.id
  declDigest : slot.claimedDeclDigest = lane e.declDigest
  paramDigest : slot.claimedParamDigest = lane e.paramDigest

/-- The membrane inputs of a schedule over a universe of declarations that contains the
selected ones: indices follow the ids, and every required kind is covered. -/
structure Normalized (digests : Digests) (lane : Digest32 → BitVec 64)
    (declared primitives : List PrimitiveDecl) (required : List RequirementKind)
    (entries : List ScheduleEntry) (inputs : ScheduleInputs) : Prop where
  sorted : IdSorted declared
  selected : ∀ d ∈ primitives, d ∈ declared
  declarations : List.Forall₂ (StandsFor digests lane (declared.map (·.id))) declared
    inputs.declarations
  schedule : List.Forall₂ (Claims lane (declared.map (·.id))) entries inputs.schedule
  kinds : ∀ k, inputs.required.getLsbD k = true → ∃ kind ∈ required, kind.ctorIdx = k
  covered : ∀ kind ∈ required, ∃ d ∈ primitives, kind ∈ d.covers

section Lowered

variable {digests : Digests} {lane : Digest32 → BitVec 64} {declared primitives : List PrimitiveDecl}
  {required : List RequirementKind} {entries : List ScheduleEntry} {inputs : ScheduleInputs}

/-- The index of an id in the universe. -/
def indexIn (declared : List PrimitiveDecl) (id : PrimitiveId) : Nat :=
  (declared.map (·.id)).idxOf id

theorem getElem?_iff_idxOf {ids : List PrimitiveId} (hnodup : ids.Nodup) {r : Nat}
    {id : PrimitiveId} : ids[r]? = some id ↔ id ∈ ids ∧ ids.idxOf id = r := by
  constructor
  · intro h
    obtain ⟨hr, hid⟩ := List.getElem?_eq_some_iff.mp h
    rw [← hid]
    exact ⟨List.getElem_mem hr, hnodup.idxOf_getElem r hr⟩
  · rintro ⟨hmem, rfl⟩
    exact List.getElem?_idxOf hmem

theorem IdSorted.lt_of_index_lt (hsorted : IdSorted declared) (hd : d ∈ declared)
    (he : e ∈ declared) (hlt : indexIn declared e.id < indexIn declared d.id) : e.id < d.id := by
  have hpair : (declared.map (·.id)).Pairwise (· < ·) := List.pairwise_map.mpr hsorted
  have hed := List.pairwise_iff_getElem.mp hpair (indexIn declared e.id) (indexIn declared d.id)
    (List.idxOf_lt_length_of_mem (List.mem_map_of_mem he))
    (List.idxOf_lt_length_of_mem (List.mem_map_of_mem hd)) hlt
  unfold indexIn at hed
  rwa [List.getElem_idxOf, List.getElem_idxOf] at hed

namespace Normalized

variable (h : Normalized digests lane declared primitives required entries inputs)

include h

theorem standsFor (hd : d ∈ declared) :
    StandsFor digests lane (declared.map (·.id)) d (inputs.decl (indexIn declared d.id)) := by
  obtain ⟨r, hr⟩ := List.getElem?_of_mem hd
  have hindex : indexIn declared d.id = r := by
    have hid : (declared.map (·.id))[r]? = some d.id := by
      rw [List.getElem?_map, hr]
      rfl
    exact ((getElem?_iff_idxOf h.sorted.nodup).mp hid).2
  obtain ⟨hlt, hget⟩ := List.getElem?_eq_some_iff.mp hr
  have hlt' : r < inputs.declarations.length := h.declarations.length_eq ▸ hlt
  have hpair := List.Forall₂.get h.declarations hlt hlt'
  have hdecl : inputs.decl r = inputs.declarations[r] := by
    unfold ScheduleInputs.decl
    rw [List.getD_eq_getElem?_getD, List.getElem?_eq_getElem hlt']
    rfl
  rw [hindex, hdecl]
  rw [List.get_eq_getElem, List.get_eq_getElem, hget] at hpair
  exact hpair

theorem order_eq : inputs.order = (entries.map (·.id)).map (indexIn declared) := by
  have hschedule := h.schedule
  have hnodup := h.sorted.nodup
  clear h
  unfold ScheduleInputs.order
  generalize inputs.schedule = slots at hschedule
  induction hschedule with
  | nil => rfl
  | @cons e slot es slots hclaims hrest ih =>
      have hindex := ((getElem?_iff_idxOf hnodup).mp hclaims.primitive).2
      rw [List.map_cons, List.map_cons, List.map_cons, ih, ← hindex]
      rfl

theorem indexIn_inj (hd : d ∈ declared)
    (heq : indexIn declared e.id = indexIn declared d.id) (he : e ∈ declared) : e = d := by
  have hid : e.id = d.id := (List.idxOf_inj (List.mem_map_of_mem he)).mp heq
  have hfound := lookupId_of_mem h.sorted he
  rw [hid, lookupId_of_mem h.sorted hd] at hfound
  exact (Option.some.inj hfound).symm

/-- Phase and index compare as phase and id do. -/
theorem key_lt (hsorted : IdSorted byId) (hperm : byId.Perm primitives) (hd : d ∈ primitives)
    (he : e ∈ primitives)
    (hlt : inputs.key (indexIn declared e.id) < inputs.key (indexIn declared d.id)) :
    loweringKey byId e.id < loweringKey byId d.id := by
  have hlookup : ∀ x ∈ primitives, lookupId byId x.id = some x :=
    fun x hx => lookupId_of_mem hsorted (hperm.mem_iff.mpr hx)
  have hphase : ∀ x ∈ primitives,
      (inputs.decl (indexIn declared x.id)).phase.toNat = x.phase.rank := by
    intro x hx
    rw [(h.standsFor (h.selected x hx)).phase, LoweringPhase.rank_eq_code]
  unfold ScheduleInputs.key at hlt
  unfold loweringKey
  rw [Prod.Lex.toLex_lt_toLex, hphase e he, hphase d hd] at hlt
  rw [hlookup e he, hlookup d hd, Prod.Lex.toLex_lt_toLex]
  rcases hlt with hlt | ⟨heq, hlt⟩
  · exact Or.inl hlt
  · refine Or.inr ⟨LoweringPhase.rank_injective heq, ?_⟩
    rw [Prod.Lex.toLex_lt_toLex]
    exact Or.inl (h.sorted.lt_of_index_lt (h.selected d hd) (h.selected e he) hlt)

variable (hcompiled : Compiled digests primitives entries)

include hcompiled

theorem mem_order {p : Nat} : p ∈ inputs.order ↔ ∃ d ∈ primitives, indexIn declared d.id = p := by
  rw [h.order_eq, List.mem_map]
  constructor
  · rintro ⟨id, hid, rfl⟩
    obtain ⟨d, hd, rfl⟩ := List.mem_map.mp (hcompiled.perm.mem_iff.mp hid)
    exact ⟨d, hd, rfl⟩
  · rintro ⟨d, hd, rfl⟩
    exact ⟨d.id, hcompiled.perm.mem_iff.mpr (List.mem_map_of_mem hd), rfl⟩

/-- The prerequisite bits of a selected primitive are the indices of selected primitives. -/
theorem needs_iff (hd : d ∈ primitives) {r : Nat} :
    inputs.Needs (indexIn declared d.id) r ↔
      ∃ e ∈ primitives, e.id ∈ d.prerequisites ∧ indexIn declared e.id = r := by
  unfold ScheduleInputs.Needs
  rw [(h.standsFor (h.selected d hd)).prerequisites]
  constructor
  · rintro ⟨id, hid, hneeds⟩
    obtain ⟨e, he, rfl, -⟩ := hcompiled.prerequisites d hd id hneeds
    exact ⟨e, he, hneeds, ((getElem?_iff_idxOf h.sorted.nodup).mp hid).2⟩
  · rintro ⟨e, he, hneeds, rfl⟩
    refine ⟨e.id, ?_, hneeds⟩
    exact (getElem?_iff_idxOf h.sorted.nodup).mpr ⟨List.mem_map_of_mem (h.selected e he), rfl⟩

/-- The indices of the compiled order, renamed from its ids, are a canonical order. -/
theorem canonicalFrom : CanonicalFrom inputs.Needs inputs.key [] inputs.order := by
  obtain ⟨byId, hperm, hsorted, hcanonical⟩ := hcompiled.canonical
  have hmem : ∀ id ∈ entries.map (·.id), ∃ d ∈ primitives, d.id = id := by
    intro id hid
    exact List.mem_map.mp (hcompiled.perm.mem_iff.mp hid)
  rw [h.order_eq]
  rw [← List.map_nil (f := indexIn declared)]
  apply hcanonical.map
  · intro id hid s
    obtain ⟨d, hd, rfl⟩ := hmem id hid
    rw [h.needs_iff hcompiled hd]
    constructor
    · rintro ⟨e, he, hneeds, rfl⟩
      exact ⟨e.id, ⟨d, hd, rfl, hneeds⟩, rfl⟩
    · rintro ⟨r, ⟨d', hd', heq, hr⟩, rfl⟩
      have hsame : d' = d := h.indexIn_inj (h.selected d hd) (by rw [heq]) (h.selected d' hd')
      subst hsame
      obtain ⟨e, he, rfl, -⟩ := hcompiled.prerequisites d' hd' r hr
      exact ⟨e, he, hr, rfl⟩
  · rintro id hid r ⟨d, hd, rfl, hr⟩ x hx heq
    obtain ⟨e, he, rfl, -⟩ := hcompiled.prerequisites d hd r hr
    rw [List.nil_append] at hx
    obtain ⟨d', hd', rfl⟩ := hmem x hx
    rw [h.indexIn_inj (h.selected e he) heq (h.selected d' hd')]
  · intro a ha q hq hlt
    obtain ⟨d, hd, rfl⟩ := hmem a ha
    obtain ⟨e, he, rfl⟩ := hmem q hq
    exact h.key_lt hsorted hperm hd he hlt

/-- Every check of the membrane passes on a compiled schedule. -/
theorem admissible : Admissible inputs := by
  have hclosed : inputs.Closed := by
    intro p hp r hr
    obtain ⟨d, hd, rfl⟩ := (h.mem_order hcompiled).mp hp
    obtain ⟨e, he, -, rfl⟩ := (h.needs_iff hcompiled hd).mp hr
    exact (h.mem_order hcompiled).mpr ⟨e, he, rfl⟩
  have hcanonical := h.canonicalFrom hcompiled
  obtain ⟨hfirst, hleast⟩ := (canonicalFrom_order_iff hclosed).mp hcanonical
  exact {
    inRange := fun p hp => by
      obtain ⟨d, hd, rfl⟩ := (h.mem_order hcompiled).mp hp
      rw [← h.declarations.length_eq, ← List.length_map (f := fun d : PrimitiveDecl => d.id)]
      exact List.idxOf_lt_length_of_mem (List.mem_map_of_mem (h.selected d hd))
    distinct := by
      unfold ScheduleInputs.Distinct
      rw [h.order_eq]
      apply List.Nodup.map_on _ (hcompiled.perm.nodup_iff.mpr hcompiled.nodup)
      intro a ha b hb heq
      obtain ⟨d, hd, rfl⟩ := List.mem_map.mp (hcompiled.perm.mem_iff.mp ha)
      obtain ⟨e, he, rfl⟩ := List.mem_map.mp (hcompiled.perm.mem_iff.mp hb)
      rw [h.indexIn_inj (h.selected e he) heq (h.selected d hd)]
    integrity := by
      intro slot hslot
      obtain ⟨hlength, hall⟩ := List.forall₂_iff_get.mp h.schedule
      obtain ⟨i, hi, rfl⟩ := List.getElem_of_mem hslot
      have hi' : i < entries.length := hlength ▸ hi
      have hclaims : Claims lane (declared.map (·.id)) entries[i] inputs.schedule[i] :=
        hall i hi' hi
      have he : entries[i] ∈ entries := List.getElem_mem hi'
      generalize inputs.schedule[i] = slot at *
      generalize entries[i] = e at *
      obtain ⟨d, hd, hid, hdigest, hparam⟩ := hcompiled.digest e he
      have hindex : slotIndex slot = indexIn declared d.id := by
        rw [hid]
        exact ((getElem?_iff_idxOf h.sorted.nodup).mp hclaims.primitive).2.symm
      have hstands := h.standsFor (h.selected d hd)
      rw [hindex, hclaims.declDigest, hclaims.paramDigest, hparam, hstands.paramDigest,
        hstands.declDigest _ hdigest]
      exact ⟨rfl, rfl⟩
    closed := hclosed
    conflictFree := by
      intro p hp q hq hne
      obtain ⟨d, hd, rfl⟩ := (h.mem_order hcompiled).mp hp
      obtain ⟨e, he, rfl⟩ := (h.mem_order hcompiled).mp hq
      by_contra hset
      rw [Bool.not_eq_false, (h.standsFor (h.selected d hd)).conflicts] at hset
      obtain ⟨id, hid, hconflict⟩ := hset
      have hmem : e.id ∈ declared.map (·.id) := List.mem_map_of_mem (h.selected e he)
      have hget : (declared.map (·.id))[indexIn declared e.id]? = some e.id :=
        List.getElem?_idxOf hmem
      rw [hget] at hid
      cases hid
      exact hcompiled.conflicts d hd e he hconflict
    prereqsFirst := hfirst
    phasesAscend := by
      apply @CanonicalFrom.ascends _ _ _ _ _ _ _ _ _ (fun p => (inputs.decl p).phase.toNat) _ _
        hcanonical
      · intro p hp r hr
        obtain ⟨d, hd, rfl⟩ := (h.mem_order hcompiled).mp hp
        obtain ⟨e, he, hneeds, rfl⟩ := (h.needs_iff hcompiled hd).mp hr
        obtain ⟨e', he', heq, hphase⟩ := hcompiled.prerequisites d hd e.id hneeds
        have hsame : e' = e := h.indexIn_inj (h.selected e he) (by rw [heq]) (h.selected e' he')
        subst hsame
        rw [(h.standsFor (h.selected e' he')).phase, (h.standsFor (h.selected d hd)).phase,
          ← LoweringPhase.rank_eq_code, ← LoweringPhase.rank_eq_code]
        exact hphase
      · intro a _ b _ hlt
        unfold ScheduleInputs.key
        rw [Prod.Lex.toLex_lt_toLex]
        exact Or.inl hlt
    covered := by
      intro c hc
      obtain ⟨kind, hkind, rfl⟩ := h.kinds c hc
      obtain ⟨d, hd, hcovers⟩ := h.covered kind hkind
      refine ⟨indexIn declared d.id, (h.mem_order hcompiled).mpr ⟨d, hd, rfl⟩, ?_⟩
      exact ((h.standsFor (h.selected d hd)).covers _).mpr ⟨kind, hcovers, rfl⟩
    canonical := hleast }

end Normalized

end Lowered

/-! ### One schedule per plan -/

theorem Admissible.canonicalFrom {inputs : ScheduleInputs} (h : Admissible inputs) :
    CanonicalFrom inputs.Needs inputs.key [] inputs.order :=
  (canonicalFrom_order_iff h.closed).mpr ⟨h.prereqsFirst, h.canonical⟩

theorem ScheduleInputs.key_injective (inputs : ScheduleInputs) :
    Function.Injective inputs.key := by
  intro a b h
  exact congrArg (fun k : Nat ×ₗ Nat => (ofLex k).2) h

/-- Over one universe a set of primitives has one admitted order. -/
theorem Admissible.order_unique {a b : ScheduleInputs} (hdecls : a.declarations = b.declarations)
    (ha : Admissible a) (hb : Admissible b) (hset : ∀ p, p ∈ a.order ↔ p ∈ b.order) :
    a.order = b.order := by
  have hdecl : a.decl = b.decl := by
    unfold ScheduleInputs.decl
    rw [hdecls]
  have hneeds : a.Needs = b.Needs := by
    unfold ScheduleInputs.Needs
    rw [hdecl]
  have hkey : a.key = b.key := by
    unfold ScheduleInputs.key
    rw [hdecl]
  have hcanonical := hb.canonicalFrom
  rw [← hneeds, ← hkey] at hcanonical
  apply CanonicalFrom.unique a.key_injective _ ha.canonicalFrom hcanonical
  exact (List.perm_ext_iff_of_nodup ha.distinct hb.distinct).mpr hset

/-- Any two admitted schedules over the same primitives are the same order, and what the
compiler emits is admitted, so that the membrane accepts the compiled order alone. -/
theorem schedule_unique_and_compiled :
    (∀ a b : ScheduleInputs, a.declarations = b.declarations →
      a.declarations.length ≤ maxPrimitives →
      scheduleRefusal a = none → scheduleRefusal b = none →
      (∀ p, p ∈ a.order ↔ p ∈ b.order) → a.order = b.order) ∧
    ∀ (digests : Digests) (lane : Digest32 → BitVec 64) (declared primitives : List PrimitiveDecl)
      (required : List RequirementKind) (entries : List ScheduleEntry) (inputs : ScheduleInputs),
      compileSchedule digests primitives = .ok entries →
      Normalized digests lane declared primitives required entries inputs →
      declared.length ≤ maxPrimitives →
      scheduleRefusal inputs = none ∧
        ∀ other : ScheduleInputs, other.declarations = inputs.declarations →
          scheduleRefusal other = none → (∀ p, p ∈ other.order ↔ p ∈ inputs.order) →
          other.order = inputs.order := by
  have hunique : ∀ a b : ScheduleInputs, a.declarations = b.declarations →
      a.declarations.length ≤ maxPrimitives →
      scheduleRefusal a = none → scheduleRefusal b = none →
      (∀ p, p ∈ a.order ↔ p ∈ b.order) → a.order = b.order := by
    intro a b hdecls hn ha hb
    exact Admissible.order_unique hdecls ((scheduleRefusal_eq_none_iff hn).mp ha)
      ((scheduleRefusal_eq_none_iff (hdecls ▸ hn)).mp hb)
  refine ⟨hunique, ?_⟩
  intro digests lane declared primitives required entries inputs hcompile h hn
  have hlength : inputs.declarations.length ≤ maxPrimitives := h.declarations.length_eq ▸ hn
  have hadmitted : scheduleRefusal inputs = none :=
    (scheduleRefusal_eq_none_iff hlength).mpr (h.admissible (compileSchedule_compiled hcompile))
  refine ⟨hadmitted, ?_⟩
  intro other hdecls hother
  exact hunique other inputs hdecls (hdecls ▸ hlength) hother hadmitted

/-- Two primitives of one phase; the first in id order needs the second. -/
def needyPair : List PrimitiveDecl :=
  [⟨"a", 1, [.filesystem], .fsSetup, ["b"], []⟩, ⟨"b", 1, [.environment], .fsSetup, [], []⟩]

def fixedDigests : Digests :=
  ⟨fun input => .ok (BitVec.ofNat 256 input.prerequisites.length), 9⟩

def needyEntries : List ScheduleEntry :=
  [⟨"b", 1, .fsSetup, 9, 0⟩, ⟨"a", 1, .fsSetup, 9, 1⟩]

def needyInputs : ScheduleInputs :=
  ⟨[⟨1, 1, 2, 0, 1, 9⟩, ⟨1, 64, 0, 0, 0, 9⟩], [⟨1, 0, 9⟩, ⟨0, 1, 9⟩], 65⟩

theorem needyPair_admitted : scheduleRefusal needyInputs = none ∧
    ∀ other : ScheduleInputs, other.declarations = needyInputs.declarations →
      scheduleRefusal other = none → (∀ p, p ∈ other.order ↔ p ∈ needyInputs.order) →
      other.order = needyInputs.order := by
  apply schedule_unique_and_compiled.2 fixedDigests (BitVec.setWidth 64) needyPair needyPair
    [.filesystem, .environment] needyEntries needyInputs
  · decide +kernel
  · have hnodup : (["a", "b"] : List PrimitiveId).Nodup := by decide
    have hbits : ∀ {bits : BitVec 64} {xs : List Nat}, setBits bits = xs →
        ∀ k, bits.getLsbD k = true ↔ k ∈ xs := by
      rintro bits xs rfl k
      exact mem_setBits.symm
    have hone := @hbits 1 [0] (by decide +kernel)
    have htwo := @hbits 2 [1] (by decide +kernel)
    have hsix := @hbits 64 [6] (by decide +kernel)
    have hall := @hbits 65 [0, 6] (by decide +kernel)
    have hkind : ∀ (kind : RequirementKind) (k : Nat),
        k ∈ [kind.ctorIdx] ↔ ∃ other ∈ [kind], other.ctorIdx = k := by
      intro kind k
      simp [eq_comm]
    have hb : ∀ r, r ∈ [1] ↔
        ∃ id, (["a", "b"] : List PrimitiveId)[r]? = some id ∧ id ∈ (["b"] : List PrimitiveId) := by
      intro r
      simp only [getElem?_iff_idxOf hnodup, List.mem_singleton]
      constructor
      · rintro rfl
        exact ⟨"b", by decide, rfl⟩
      · rintro ⟨id, h, rfl⟩
        exact h.2.symm
    have ha : StandsFor fixedDigests (BitVec.setWidth 64) ["a", "b"]
        ⟨"a", 1, [.filesystem], .fsSetup, ["b"], []⟩ ⟨1, 1, 2, 0, 1, 9⟩ := {
      phase := rfl
      covers := fun k => (hone k).trans (hkind .filesystem k)
      prerequisites := fun r => (htwo r).trans (hb r)
      conflicts := fun r => by simp
      declDigest := fun digest h => by
        cases h
        decide
      paramDigest := rfl }
    have hb' : StandsFor fixedDigests (BitVec.setWidth 64) ["a", "b"]
        ⟨"b", 1, [.environment], .fsSetup, [], []⟩ ⟨1, 64, 0, 0, 0, 9⟩ := {
      phase := rfl
      covers := fun k => (hsix k).trans (hkind .environment k)
      prerequisites := fun r => by simp
      conflicts := fun r => by simp
      declDigest := fun digest h => by
        cases h
        decide
      paramDigest := rfl }
    have hsorted : IdSorted needyPair := by
      unfold IdSorted
      decide
    refine ⟨hsorted, fun d hd => hd, .cons ha (.cons hb' .nil), ?_, ?_, by decide⟩
    · exact .cons ⟨rfl, by decide, by decide⟩ (.cons ⟨rfl, by decide, by decide⟩ .nil)
    · intro k hk
      rcases List.mem_cons.mp ((hall k).mp hk) with rfl | hk
      · exact ⟨.filesystem, by decide, rfl⟩
      · rw [List.mem_singleton.mp hk]
        exact ⟨.environment, by decide, rfl⟩
  · decide

end Batpak.Bvisor
