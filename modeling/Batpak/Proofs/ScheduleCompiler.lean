/-
Module: Batpak.Proofs.ScheduleCompiler
Purpose: The lowering compiler accepts exactly the primitives that go together and emits the least
  order by phase and id.
Trusted boundary: the canonical encoder does not fail
Main exports: EntryOf, compile_schedule_correct
-/
import Batpak.Proofs.LoweringOrder

namespace Batpak.Bvisor

open Batpak.Util

variable {byId primitives : List PrimitiveDecl} {digests : Digests} {entries : List ScheduleEntry}

/-- One of the primitives is a prerequisite of `d`. -/
def Requires (primitives : List PrimitiveDecl) (d e : PrimitiveDecl) : Prop :=
  e ∈ primitives ∧ e.id ∈ d.prerequisites

/-- The primitives go together. -/
structure Composable (primitives : List PrimitiveDecl) : Prop where
  distinct : (primitives.map (·.id)).Nodup
  conflictFree : ∀ d ∈ primitives, ∀ e ∈ primitives, e.id ∉ d.conflicts
  prerequisites : ∀ d ∈ primitives, ∀ r ∈ d.prerequisites,
    ∃ e ∈ primitives, e.id = r ∧ e.phase ≤ d.phase
  acyclic : ∀ d ∈ primitives, ¬Relation.TransGen (Requires primitives) d d

/-- The entry that stands for a primitive in a schedule. -/
structure EntryOf (digests : Digests) (d : PrimitiveDecl) (e : ScheduleEntry) : Prop where
  id : e.id = d.id
  version : e.version = d.version
  phase : e.phase = d.phase
  paramDigest : e.paramDigest = digests.emptyParamDigest
  declDigest : declDigest digests d = .ok e.declDigest

def phaseAndId (d : PrimitiveDecl) : LoweringPhase ×ₗ PrimitiveId :=
  toLex (d.phase, d.id)

/-! ### The map from ids -/

theorem insertDecl_of_new {decl : PrimitiveDecl} (h : ∀ other ∈ byId, other.id ≠ decl.id) :
    ∃ byId', insertDecl decl byId = some byId' := by
  induction byId with
  | nil => exact ⟨_, rfl⟩
  | cons other rest ih =>
      obtain ⟨tail, htail⟩ := ih fun x hx => h x (List.mem_cons_of_mem _ hx)
      have hne : decl.id ≠ other.id := fun heq => h other List.mem_cons_self heq.symm
      unfold insertDecl
      by_cases hlt : decl.id < other.id
      · rw [if_pos hlt]
        exact ⟨_, rfl⟩
      · rw [if_neg hlt, if_neg hne, htail]
        exact ⟨_, rfl⟩

theorem indexById_of_nodup (hsorted : IdSorted byId) (h : ((primitives ++ byId).map (·.id)).Nodup) :
    ∃ byId', indexById byId primitives = .ok byId' := by
  induction primitives generalizing byId with
  | nil => exact ⟨byId, rfl⟩
  | cons decl rest ih =>
      rw [List.cons_append, List.map_cons, List.nodup_cons] at h
      obtain ⟨hfresh, hrest⟩ := h
      have hnew : ∀ other ∈ byId, other.id ≠ decl.id := by
        intro other hother heq
        apply hfresh
        rw [← heq]
        exact List.mem_map_of_mem (List.mem_append_right _ hother)
      obtain ⟨inserted, hinserted⟩ := insertDecl_of_new hnew
      obtain ⟨hsorted', hperm⟩ := insertDecl_some hsorted hinserted
      unfold indexById
      rw [hinserted]
      apply ih hsorted'
      have hall : ((rest ++ inserted).map (·.id)).Perm ((decl :: (rest ++ byId)).map (·.id)) :=
        ((hperm.append_left rest).trans List.perm_middle).map _
      rw [hall.nodup_iff, List.map_cons, List.nodup_cons]
      exact ⟨hfresh, hrest⟩

theorem indexById_of_distinct (h : (primitives.map (·.id)).Nodup) :
    ∃ byId, indexById [] primitives = .ok byId := by
  apply indexById_of_nodup List.Pairwise.nil
  rw [List.append_nil]
  exact h

theorem IdSorted.eq_of_perm {xs ys : List PrimitiveDecl} (hxs : IdSorted xs) (hys : IdSorted ys)
    (h : xs.Perm ys) : xs = ys := by
  apply h.eq_of_pairwise _ hxs hys
  intro a b _ _ hab hba
  exact absurd (hab.trans hba) (lt_irrefl _)

/-- The map from ids does not remember the order of the list it was built from. -/
theorem indexById_of_perm {permuted : List PrimitiveDecl} (hperm : permuted.Perm primitives)
    (h : indexById [] primitives = .ok byId) :
    indexById [] permuted = .ok byId := by
  obtain ⟨hsorted, hsame⟩ := indexById_ok List.Pairwise.nil h
  rw [List.append_nil] at hsame
  have hids : (permuted.map (·.id)).Perm (byId.map (·.id)) := (hperm.trans hsame.symm).map _
  obtain ⟨byId', h'⟩ := indexById_of_distinct (hids.nodup_iff.mpr hsorted.nodup)
  obtain ⟨hsorted', hsame'⟩ := indexById_ok List.Pairwise.nil h'
  rw [List.append_nil] at hsame'
  rw [h', hsorted'.eq_of_perm hsorted (hsame'.trans (hperm.trans hsame.symm))]

/-! ### The phases of a compilation -/

theorem compileSchedule_ok_iff :
    compileSchedule digests primitives = .ok entries ↔
      ∃ byId sets, indexById [] primitives = .ok byId ∧ firstConflict byId = none ∧
        prereqSets byId = .ok sets ∧ orderAndEmit digests byId sets = .ok entries := by
  unfold compileSchedule
  rw [bindOk_iff]
  constructor
  · rintro ⟨byId, hindex, h⟩
    cases hconflict : firstConflict byId with
    | some conflict =>
        rw [hconflict] at h
        cases h
    | none =>
        rw [hconflict] at h
        obtain ⟨sets, hsets, h⟩ := bindOk_iff.mp h
        exact ⟨byId, sets, hindex, hconflict, hsets, h⟩
  · rintro ⟨byId, sets, hindex, hconflict, hsets, h⟩
    refine ⟨byId, hindex, ?_⟩
    rw [hconflict]
    exact bindOk_iff.mpr ⟨sets, hsets, h⟩

theorem compileSchedule_of_perm {permuted : List PrimitiveDecl} (hperm : permuted.Perm primitives)
    (h : compileSchedule digests primitives = .ok entries) :
    compileSchedule digests permuted = .ok entries := by
  obtain ⟨byId, sets, hindex, hrest⟩ := compileSchedule_ok_iff.mp h
  exact compileSchedule_ok_iff.mpr ⟨byId, sets, indexById_of_perm hperm hindex, hrest⟩

/-! ### What is emitted -/

/-- The primitive of an id. -/
def primitiveOf (byId : List PrimitiveDecl) (id : PrimitiveId) : PrimitiveDecl :=
  (lookupId byId id).getD default

theorem primitiveOf_id (hsorted : IdSorted byId) {d : PrimitiveDecl} (hd : d ∈ byId) :
    primitiveOf byId d.id = d := by
  rw [primitiveOf, lookupId_of_mem hsorted hd]
  rfl

theorem emitEntry_entryOf {id : PrimitiveId} {entry : ScheduleEntry}
    (h : emitEntry digests byId id = .ok entry) :
    EntryOf digests (primitiveOf byId id) entry := by
  obtain ⟨digest, hdigest, h⟩ := bindOk_iff.mp h
  cases h
  exact ⟨rfl, rfl, rfl, rfl, hdigest⟩

theorem exists_emitEntry (hencodes : ∀ input, ∃ digest, digests.hash input = .ok digest)
    (id : PrimitiveId) :
    ∃ entry, emitEntry digests byId id = .ok entry := by
  obtain ⟨digest, hdigest⟩ := hencodes (declDigestInput (primitiveOf byId id))
  have hdecl : declDigest digests (primitiveOf byId id) = .ok digest := by
    rw [declDigest, hdigest]
  exact exists_bindOk hdecl ⟨_, rfl⟩

/-- The primitives in the order their entries come in. -/
structure EmittedAs (digests : Digests) (primitives : List PrimitiveDecl)
    (entries : List ScheduleEntry) (order : List PrimitiveDecl) : Prop where
  perm : order.Perm primitives
  entries : List.Forall₂ (EntryOf digests) order entries
  canonical : CanonicalFrom (Requires primitives) phaseAndId [] order

theorem orderAndEmit_emitted {sets : List (PrimitiveId × List PrimitiveId)}
    (hsorted : IdSorted byId) (hperm : byId.Perm primitives) (hsets : prereqSets byId = .ok sets)
    (h : orderAndEmit digests byId sets = .ok entries) :
    ∃ order, EmittedAs digests primitives entries order := by
  have hprereqs := prereqSets_ok hsorted hsets
  have hids : ∀ a ∈ byId.map (·.id), (prereqsOf sets a).Nodup := by
    intro a ha
    obtain ⟨d, hd, rfl⟩ := List.mem_map.mp ha
    exact (hprereqs d hd).1
  obtain ⟨hcanonical, hnodup, hinside⟩ :=
    kahnRun_canonical (loweringKey_injective byId) hsorted.nodup hids
  unfold orderAndEmit at h
  dsimp only at h
  generalize kahnRun (loweringKey byId) (prereqsOf sets) (byId.map (·.id)) = final
    at h hcanonical hnodup hinside
  obtain ⟨hlength, hemit⟩ := ifError_ok_iff.mp h
  rw [not_not] at hlength
  have hall : final.ordered.Perm (byId.map (·.id)) :=
    (List.subperm_of_subset hnodup hinside).perm_of_length_le (Nat.le_of_eq hlength.symm)
  have hmem : ∀ a ∈ final.ordered, ∃ d ∈ byId, d.id = a :=
    fun a ha => List.mem_map.mp (hinside a ha)
  refine ⟨final.ordered.map (primitiveOf byId), ?perm, ?entries, ?canonical⟩
  case perm =>
    have hback : (byId.map (·.id)).map (primitiveOf byId) = byId := by
      rw [List.map_map]
      exact (List.map_congr_left fun d hd => primitiveOf_id hsorted hd).trans (List.map_id byId)
    have hmapped := hall.map (primitiveOf byId)
    rw [hback] at hmapped
    exact hmapped.trans hperm
  case entries =>
    rw [List.forall₂_map_left_iff]
    exact (forall₂_of_mapM_ok hemit).imp fun _ _ hentry => emitEntry_entryOf hentry
  case canonical =>
    rw [← List.map_nil (f := primitiveOf byId)]
    apply hcanonical.map
    · intro a ha s
      obtain ⟨d, hd, rfl⟩ := hmem a ha
      rw [primitiveOf_id hsorted hd]
      constructor
      · rintro ⟨hs, hneeds⟩
        refine ⟨s.id, ((hprereqs d hd).2.1 s.id).mpr hneeds, ?_⟩
        exact primitiveOf_id hsorted (hperm.mem_iff.mpr hs)
      · rintro ⟨r, hr, rfl⟩
        have hneeds := ((hprereqs d hd).2.1 r).mp hr
        obtain ⟨e, he, rfl, -⟩ := (hprereqs d hd).2.2 r hneeds
        rw [primitiveOf_id hsorted he]
        exact ⟨hperm.mem_iff.mp he, hneeds⟩
    · intro a ha r hr x hx heq
      obtain ⟨d, hd, rfl⟩ := hmem a ha
      obtain ⟨e, he, rfl, -⟩ := (hprereqs d hd).2.2 r (((hprereqs d hd).2.1 r).mp hr)
      obtain ⟨d', hd', rfl⟩ := hmem x hx
      rw [primitiveOf_id hsorted hd', primitiveOf_id hsorted he] at heq
      rw [heq]
    · intro a ha q hq hlt
      obtain ⟨d, hd, rfl⟩ := hmem a ha
      obtain ⟨e, he, rfl⟩ := hmem q hq
      rw [primitiveOf_id hsorted hd, primitiveOf_id hsorted he] at hlt
      unfold loweringKey
      rw [lookupId_of_mem hsorted hd, lookupId_of_mem hsorted he, Prod.Lex.toLex_lt_toLex]
      unfold phaseAndId at hlt
      rw [Prod.Lex.toLex_lt_toLex] at hlt
      rcases hlt with hlt | ⟨hsame, hlt⟩
      · exact Or.inl hlt
      · exact Or.inr ⟨hsame, Prod.Lex.toLex_lt_toLex.mpr (Or.inl hlt)⟩

theorem compileSchedule_emitted (h : compileSchedule digests primitives = .ok entries) :
    ∃ order, EmittedAs digests primitives entries order := by
  obtain ⟨byId, sets, hindex, -, hsets, hemit⟩ := compileSchedule_ok_iff.mp h
  obtain ⟨hsorted, hperm⟩ := indexById_ok List.Pairwise.nil hindex
  rw [List.append_nil] at hperm
  exact orderAndEmit_emitted hsorted hperm hsets hemit

/-! ### What is accepted -/

theorem composable_of_compiled (h : compileSchedule digests primitives = .ok entries) :
    Composable primitives := by
  have hcompiled := compileSchedule_compiled h
  obtain ⟨order, hemitted⟩ := compileSchedule_emitted h
  constructor
  case distinct => exact hcompiled.nodup
  case conflictFree => exact hcompiled.conflicts
  case prerequisites => exact hcompiled.prerequisites
  case acyclic =>
    intro d hd
    apply hemitted.canonical.served.irreflexive
    · exact hemitted.perm.nodup_iff.mpr (List.Nodup.of_map _ hcompiled.nodup)
    · intro a ha
      cases ha
    · exact hemitted.perm.mem_iff.mpr hd

theorem firstConflict_of_conflictFree (h : ∀ d ∈ byId, ∀ e ∈ byId, e.id ∉ d.conflicts) :
    firstConflict byId = none := by
  unfold firstConflict
  rw [List.findSome?_eq_none_iff]
  intro d hd
  rw [List.findSome?_eq_none_iff]
  intro other hother
  apply if_neg
  intro hfound
  obtain ⟨e, he⟩ := Option.isSome_iff_exists.mp hfound
  obtain ⟨hin, rfl⟩ := lookupId_eq_some he
  exact h d hd e hin hother

theorem prereqSet_of_present {decl : PrimitiveDecl} (hsorted : IdSorted byId)
    {pres : List PrimitiveId} (h : ∀ r ∈ pres, ∃ e ∈ byId, e.id = r ∧ e.phase ≤ decl.phase)
    (set : List PrimitiveId) :
    ∃ set', prereqSet byId decl set pres = .ok set' := by
  induction pres generalizing set with
  | nil => exact ⟨set, rfl⟩
  | cons r rest ih =>
      obtain ⟨e, he, rfl, hphase⟩ := h r List.mem_cons_self
      unfold prereqSet
      rw [lookupId_of_mem hsorted he]
      dsimp only
      rw [if_neg (not_lt.mpr hphase)]
      exact ih (fun x hx => h x (List.mem_cons_of_mem _ hx)) _

theorem compiled_of_composable (hencodes : ∀ input, ∃ digest, digests.hash input = .ok digest)
    (h : Composable primitives) :
    ∃ entries, compileSchedule digests primitives = .ok entries := by
  obtain ⟨byId, hindex⟩ := indexById_of_distinct h.distinct
  obtain ⟨hsorted, hperm⟩ := indexById_ok List.Pairwise.nil hindex
  rw [List.append_nil] at hperm
  have hpresent : ∀ d ∈ byId, ∀ r ∈ d.prerequisites, ∃ e ∈ byId, e.id = r ∧ e.phase ≤ d.phase := by
    intro d hd r hr
    obtain ⟨e, he, hrest⟩ := h.prerequisites d (hperm.mem_iff.mp hd) r hr
    exact ⟨e, hperm.mem_iff.mpr he, hrest⟩
  have hconflict : firstConflict byId = none := by
    apply firstConflict_of_conflictFree
    intro d hd e he
    exact h.conflictFree d (hperm.mem_iff.mp hd) e (hperm.mem_iff.mp he)
  obtain ⟨sets, hsets⟩ : ∃ sets, prereqSets byId = .ok sets := by
    apply exists_mapM_ok_iff.mpr
    intro d hd
    obtain ⟨set, hset⟩ := prereqSet_of_present hsorted (hpresent d hd) []
    exact ⟨(d.id, set), mapOk_iff.mpr ⟨set, hset, rfl⟩⟩
  have hprereqs := prereqSets_ok hsorted hsets
  have hcomplete : (kahnRun (loweringKey byId) (prereqsOf sets) (byId.map (·.id))).ordered.Perm
      (byId.map (·.id)) := by
    apply kahnRun_complete (loweringKey_injective byId) hsorted.nodup
    · intro a ha
      obtain ⟨d, hd, rfl⟩ := List.mem_map.mp ha
      exact (hprereqs d hd).1
    · intro a ha r hr
      obtain ⟨d, hd, rfl⟩ := List.mem_map.mp ha
      obtain ⟨e, he, rfl, -⟩ := hpresent d hd r (((hprereqs d hd).2.1 r).mp hr)
      exact List.mem_map_of_mem he
    · intro a hcycle
      have hstep : ∀ a r, a ∈ byId.map (·.id) ∧ r ∈ prereqsOf sets a →
          Requires primitives (primitiveOf byId a) (primitiveOf byId r) := by
        rintro a r ⟨ha, hr⟩
        obtain ⟨d, hd, rfl⟩ := List.mem_map.mp ha
        have hneeds := ((hprereqs d hd).2.1 r).mp hr
        obtain ⟨e, he, rfl, -⟩ := hpresent d hd r hneeds
        rw [primitiveOf_id hsorted hd, primitiveOf_id hsorted he]
        exact ⟨hperm.mem_iff.mp he, hneeds⟩
      obtain ⟨ha, -⟩ : a ∈ byId.map (·.id) ∧ True := by
        obtain ⟨b, ⟨ha, -⟩, -⟩ := Relation.TransGen.head'_iff.mp hcycle
        exact ⟨ha, trivial⟩
      obtain ⟨d, hd, rfl⟩ := List.mem_map.mp ha
      have hlifted : Relation.TransGen (Requires primitives) (primitiveOf byId d.id)
          (primitiveOf byId d.id) :=
        Relation.TransGen.lift (primitiveOf byId) hstep d.id d.id hcycle
      rw [primitiveOf_id hsorted hd] at hlifted
      exact h.acyclic d (hperm.mem_iff.mp hd) hlifted
  obtain ⟨entries, hentries⟩ : ∃ entries, orderAndEmit digests byId sets = .ok entries := by
    unfold orderAndEmit
    dsimp only
    rw [if_neg (not_not_intro hcomplete.length_eq)]
    apply exists_mapM_ok_iff.mpr
    intro a _
    exact exists_emitEntry hencodes a
  exact ⟨entries, compileSchedule_ok_iff.mpr ⟨byId, sets, hindex, hconflict, hsets, hentries⟩⟩

/-- The compiler accepts exactly the primitives that go together. A schedule has one entry for
each of them, prerequisites before dependents, phases ascending; it is the least such order by
phase and id; it does not depend on the order of the input; and the loop stops because nothing is
ready any more. -/
theorem compile_schedule_correct (digests : Digests)
    (hencodes : ∀ input, ∃ digest, digests.hash input = .ok digest)
    (primitives : List PrimitiveDecl) :
    ((∃ entries, compileSchedule digests primitives = .ok entries) ↔ Composable primitives) ∧
    (∀ entries, compileSchedule digests primitives = .ok entries →
      (∃ order, order.Perm primitives ∧ List.Forall₂ (EntryOf digests) order entries ∧
        ServedFrom (Requires primitives) [] order ∧
        (∀ p ∈ order.zip order.tail, p.1.phase ≤ p.2.phase) ∧
        ∀ other, other.Perm primitives → ServedFrom (Requires primitives) [] other →
          order = other ∨ List.Lex (fun d e => phaseAndId d < phaseAndId e) order other) ∧
      ∀ permuted, permuted.Perm primitives → compileSchedule digests permuted = .ok entries) ∧
    ∀ byId sets, indexById [] primitives = .ok byId → prereqSets byId = .ok sets →
      (kahnRun (loweringKey byId) (prereqsOf sets) (byId.map (·.id))).ready = [] := by
  refine ⟨⟨?composable, compiled_of_composable hencodes⟩, ?schedule, ?ends⟩
  case composable =>
    rintro ⟨entries, h⟩
    exact composable_of_compiled h
  case schedule =>
    intro entries h
    have hcomposable := composable_of_compiled h
    obtain ⟨order, hperm, hentries, hcanonical⟩ := compileSchedule_emitted h
    refine ⟨⟨order, hperm, hentries, hcanonical.served, ?ascending, ?least⟩,
      fun permuted hpermuted => compileSchedule_of_perm hpermuted h⟩
    case ascending =>
      apply hcanonical.ascends
      · rintro d hd e ⟨he, hneeds⟩
        obtain ⟨e', he', hid, hphase⟩ :=
          hcomposable.prerequisites d (hperm.mem_iff.mp hd) e.id hneeds
        rw [← List.inj_on_of_nodup_map hcomposable.distinct he' he hid]
        exact hphase
      · intro a _ b _ hlt
        exact Prod.Lex.toLex_lt_toLex.mpr (Or.inl hlt)
    case least =>
      intro other hother hserved
      apply hcanonical.least _ (hperm.trans hother.symm) hserved
      intro a ha b hb hkey
      apply List.inj_on_of_nodup_map hcomposable.distinct (hperm.mem_iff.mp ha)
        (hperm.mem_iff.mp hb)
      exact congrArg (fun k => (ofLex k).2) hkey
  case ends =>
    intro byId sets hindex hsets
    obtain ⟨hsorted, -⟩ := indexById_ok List.Pairwise.nil hindex
    apply kahnRun_exhausts (loweringKey_injective byId) hsorted.nodup
    intro a ha
    obtain ⟨d, hd, rfl⟩ := List.mem_map.mp ha
    exact (prereqSets_ok hsorted hsets d hd).1

theorem compile_needyPair : (∃ entries, compileSchedule fixedDigests needyPair = .ok entries) ∧
    Composable needyPair := by
  have hencodes : ∀ input, ∃ digest, fixedDigests.hash input = .ok digest :=
    fun input => ⟨_, rfl⟩
  obtain ⟨hiff, -, -⟩ := compile_schedule_correct fixedDigests hencodes needyPair
  have hcompiles : ∃ entries, compileSchedule fixedDigests needyPair = .ok entries :=
    ⟨needyEntries, by decide +kernel⟩
  exact ⟨hcompiles, hiff.mp hcompiles⟩

end Batpak.Bvisor
